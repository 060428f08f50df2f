import Stencil.Text.Digit
import Stencil.Text.Newline

/-!
# Options

* `Opt`: an option with its names;
* `Argument`: what an argument is to a program with certain options;
* `Argument.classify`: how arguments are told apart.

Long names may be shortened as long as they stay unique. A value follows its option as the next
argument, behind an equals sign, or straight behind a short name.
-/

namespace Stencil.CommandLine

inductive Flag where
  | help
  | version
  | debug
  | context
  | block
  | only
  | except
  | some
  deriving DecidableEq, Repr

structure Opt where
  flag : Flag
  names : List String
  takesValue : Bool
  deriving DecidableEq, Repr

def Opt.title (o : Opt) : String := String.intercalate "/" o.names

/-- An argument is a value, the mark behind which all arguments are values, or an option: which one
it is, if it is known, by which name, and with which value if it brings one itself. -/
inductive Argument where
  | value (text : String)
  | mark
  | option (known : Option Opt) (name : String) (attached? : Option String)
  deriving DecidableEq, Repr

def named? (options : List Opt) (name : String) : Option Opt :=
  options.find? fun o => o.names.contains name

def splitEquals (s : String) : String × Option String :=
  let cs := s.toList
  let stem := cs.takeWhile (· != '=')
  match cs.drop stem.length with
  | [] => (s, none)
  | _ :: behind => (String.ofList stem, some (String.ofList behind))

/-- A minus sign before digits, with perhaps a point among them or before them. A line feed at the
end does not count. -/
def isNegativeNumber (s : String) : Bool :=
  match Text.withoutLineEnd s.toList with
  | '-' :: body =>
    match body.dropWhile Text.isDigit with
    | [] => !body.isEmpty
    | '.' :: digits => !digits.isEmpty && digits.all Text.isDigit
    | _ => false
  | _ => false

/-- The options that an argument may mean by a shortened long name, or by a short name with a value
straight behind it. -/
def candidates (options : List Opt) (s : String) : List (Opt × String × Option String) :=
  let names := options.flatMap fun o => o.names.map fun name => (o, name)
  if s.startsWith "--" then
    let (stem, attached?) := splitEquals s
    (names.filter fun pair => pair.2.startsWith stem).map fun pair => (pair.1, pair.2, attached?)
  else
    let short := String.ofList (s.toList.take 2)
    let behind := String.ofList (s.toList.drop 2)
    names.filterMap fun (o, name) =>
      if name = short then some (o, name, some behind)
      else if name.startsWith s then some (o, name, none)
      else none

namespace Argument

def classify (options : List Opt) (s : String) : Except String Argument :=
  if !s.startsWith "-" || s = "-" then .ok (.value s)
  else
    match named? options s with
    | some o => .ok (.option (some o) s none)
    | none =>
      let (stem, attached?) := splitEquals s
      match if attached?.isSome then named? options stem else none with
      | some o => .ok (.option (some o) stem attached?)
      | none =>
        match candidates options s with
        | [(o, name, attached?)] => .ok (.option (some o) name attached?)
        | [] =>
          if isNegativeNumber s || s.toList.contains ' ' then .ok (.value s)
          else .ok (.option none s none)
        | several =>
          let names := String.intercalate ", " (several.map fun c => c.2.1)
          .error s!"ambiguous option: {s} could match {names}"

/-- What each of the arguments is. The mark counts once; behind it all are values. -/
def classifyAll (options : List Opt) : List String → Except String (List (String × Argument))
  | [] => .ok []
  | s :: rest =>
    if s = "--" then .ok ((s, .mark) :: rest.map fun t => (t, .value t))
    else do
      let argument ← classify options s
      let arguments ← classifyAll options rest
      .ok ((s, argument) :: arguments)

end Argument

/-- What ends the reading of arguments before its end: a demand for help or for the version, or a
wrong use of the named program. -/
inductive Stop where
  | help (program : String)
  | version
  | usage (program message : String)
  deriving DecidableEq, Repr

def Opt.complain {α : Type} (o : Opt) (program message : String) : Except Stop α :=
  .error (.usage program s!"argument {o.title}: {message}")

end Stencil.CommandLine
