import Stencil.CommandLine.Run

/-!
# The program

* `main`: one run of the program, on the files that its arguments name.
-/

namespace Stencil.CommandLine

def pathsOf : Command → List Path
  | .render template context? mode =>
    let behindColon (item : Item) : List String :=
      match (item.getD "").toList.dropWhile (· != ':') with
      | [] => []
      | _ :: file => [Text.trim (String.ofList file)]
    let items :=
      match mode with
      | .only items => items
      | .except items => items
      | .overriding items => items
      | _ => []
    (template :: context?.toList ++ items.flatMap behindColon).map Path.ofText
  | .tokens template => [.ofText template]
  | .tree template => [.ofText template]

def readFile? (path : Path) : IO (Option (List UInt8)) := do
  try
    return some (← IO.FS.readBinFile path.text).toList
  catch _ => return none

def readFiles (paths : List Path) : IO Files := do
  let found ← paths.mapM fun path => do return (path, ← readFile? path)
  return fun path => ((found.find? fun entry => entry.1 == path).bind Prod.snd)

partial def readAll (stream : IO.FS.Stream) (done : ByteArray) : IO ByteArray := do
  let more ← stream.read 65536
  if more.isEmpty then return done else readAll stream (done ++ more)

def readInput (paths : List Path) : IO (List UInt8) := do
  if paths.any fun path => path.text == "-" then
    return (← readAll (← IO.getStdin) ByteArray.empty).toList
  else return []

/-- One run: what it reads is read first, and what it says is said last. -/
def perform (arguments : List String) : IO UInt32 := do
  let setting? ← IO.getEnv "SIMPLE_TEMPLATES_DEBUG"
  let paths :=
    match Request.ofArguments arguments with
    | .error _ => []
    | .ok request => pathsOf request.command
  let input ← readInput paths
  let files ← readFiles paths
  let (outcome, _) := run files .fresh ⟨arguments, input, setting?, usualNesting⟩
  IO.print outcome.output
  IO.eprint outcome.errors
  match outcome.ending with
  | .broken e =>
    IO.eprint (e.message ++ "\n")
    return 1
  | ending => return (ending.exit?.getD 1).toUInt32

end Stencil.CommandLine

def main (arguments : List String) : IO UInt32 := Stencil.CommandLine.perform arguments
