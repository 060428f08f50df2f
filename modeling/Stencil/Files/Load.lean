import Stencil.Context
import Stencil.Files.Path
import Stencil.Text.Newline
import Stencil.Yaml.Document

/-!
# Loading

* `readTemplate`: the text of a template, from a file or from the standard input;
* `loadContext`: the context in a file, with what earlier files have left to be done;
* `readContext`: the context in a file by itself.
-/

namespace Stencil

/-- The text that bytes encode, with its line ends made one. -/
def readText (bytes : List UInt8) : Except Text.Utf8Fault String :=
  (fun cs => String.ofList (Text.unifyNewlines cs)) <$> Text.decode bytes

/-- The standard input is read for a hyphen, and a file for every other path. -/
def readTemplate (files : Files) (input : List UInt8) (source : String) :
    Except Error String :=
  if source = "-" then (readText input).mapError .undecodable
  else
    let path := Path.ofText source
    match files path with
    | none => .error (.templateFile (.missing path.text))
    | some bytes => (readText bytes).mapError fun f => .templateFile (.unreadable path.text f)

def contextOf (path : Path) (v : Value) : Except Error (List (String × Value)) :=
  match v with
  | .null => .ok []
  | .dict pairs => validate pairs
  | v => .error (.contextFile (.notMapping path.text v.typeName))

/-- The context that a document makes. A document whose form is broken makes its file unreadable,
and so do wrong bytes; the content of a scalar is to blame for itself. -/
def contextIn (path : Path) (document : Except Yaml.Fault Value) :
    Except Error (List (String × Value)) :=
  match document with
  | .error (.form p) => .error (.contextFile (.unreadable path.text p.message))
  | .error (.content f) => .error (.content f)
  | .ok v => contextOf path v

/-- Loading may fail, and may leave something to be done before the next document. -/
abbrev Loading (α : Type) := ExceptT Error (StateM Yaml.Backlog) α

def loadContext (files : Files) (path : Path) : Loading (List (String × Value)) :=
  match files path with
  | none => throw (.contextFile (.missing path.text))
  | some bytes =>
    match readText bytes with
    | .error f => throw (.contextFile (.unreadable path.text f.message))
    | .ok text => fun b => let (document, b) := Yaml.load b text; (contextIn path document, b)

/-- The context in a file that is the first one to be loaded. -/
def readContext (files : Files) (path : Path) : Except Error (List (String × Value)) :=
  ((loadContext files path).run.run .empty).1

end Stencil
