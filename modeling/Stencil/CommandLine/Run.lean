import Stencil.CommandLine.Arguments
import Stencil.Files.Load
import Stencil.Json
import Stencil.Log
import Stencil.Template.Compile
import Stencil.Template.Outline
import Stencil.Template.Render
import Stencil.Text.Blank
import Stencil.Version

/-!
# Runs of the program

* `selectionOf`: the selection that items of the command line stand for;
* `dump`: the text of a value, if it is not nested too deep;
* `Command.execute`: the output of a command or the error that prevents it, with its trace;
* `run`: one run of the program, which leaves a memory behind for the next one.
-/

namespace Stencil.CommandLine

/-- A name, perhaps with a colon and the path of a context file behind it. Blanks around either do
not count. -/
def selectorOf (files : Files) (item : Item) : Loading Selector :=
  match item with
  | none => throw .lostSelector
  | some text => do
    let cs := text.toList
    let front := cs.takeWhile (· != ':')
    let name := Text.trim (String.ofList front)
    if name.isEmpty then throw (.blankSelector text)
    match cs.drop front.length with
    | [] => return .bare name
    | _ :: file =>
      let path := Path.ofText (Text.trim (String.ofList file))
      return ⟨name, .ofChecked (← loadContext files path)⟩

/-- One item is a single selector, and several are a list. -/
def selectionOf (files : Files) (items : List Item) : Loading Selection := do
  match ← items.mapM (selectorOf files) with
  | [s] => return .single s
  | selectors => return .list selectors

/-- Renders what a mode asks for. The empty name of a block asks for the whole template. -/
def Mode.render (files : Files) (t : Template) (context : Context) : Mode → Loading String
  | .whole => MonadExcept.ofExcept (t.render context)
  | .block name =>
    MonadExcept.ofExcept
      (if name.isEmpty then t.render context else t.renderBlock name context)
  | .only items => do
    MonadExcept.ofExcept (t.renderOnly (← selectionOf files items) context)
  | .except items => do
    MonadExcept.ofExcept (t.renderExcept (← selectionOf files items) context)
  | .overriding items => do
    MonadExcept.ofExcept (t.renderSome (← selectionOf files items) context)

def sharedContext (files : Files) (file? : Option String) : Loading Context :=
  let file := file?.getD ""
  if file.isEmpty then return .dict []
  else do return .ofChecked (← loadContext files (.ofText file))

def tokenJson (t : Token) : Json :=
  .object [
    ("type", .text t.lexeme.kind),
    ("value", match t.lexeme.payload? with | some s => .text s | none => .null),
    ("line", .number t.position.line),
    ("column", .number t.position.column)]

mutual

def outlineJson : Outline → Json
  | .node name children =>
    .object [("name", .text name), ("children", .array (outlineJsons children))]

def outlineJsons : List Outline → List Json
  | [] => []
  | o :: rest => outlineJson o :: outlineJsons rest

end

/-- The text of a value. Every array and every object inside of another one takes a call more than
that one, and the calls are limited. -/
def dump (nesting : Nat) (j : Json) : Except Error String :=
  if j.depth ≤ nesting then .ok j.render else .error .tooDeep

/-- What a command prints or why it fails, after the trace of its work. It may load contexts. -/
abbrev Work := StateM Yaml.Backlog (List TraceLine × Except Error String)

def withTemplate (files : Files) (input : List UInt8) (template : String)
    (work : String → Work) : Work :=
  match readTemplate files input template with
  | .error e => return ([], .error e)
  | .ok source => work source

def withCompiled (source : String) (work : Template → Loading String) : Work := do
  let compilation := compile source
  match compilation.result with
  | .error f => return (compilation.trace, .error (.template f))
  | .ok t => return (compilation.trace, ← (work t).run)

/-- The template is read and compiled before contexts are loaded, and the shared context is loaded
before those of selectors. -/
def Command.execute (files : Files) (input : List UInt8) (nesting : Nat) : Command → Work
  | .render template context? mode =>
    withTemplate files input template fun source =>
      withCompiled source fun t => do
        let context ← sharedContext files context?
        mode.render files t context
  | .tokens template =>
    withTemplate files input template fun source =>
      let scan := tokenize source
      return (scan.trace source,
        match scan.fault? with
        | some f => .error (.template f)
        | none => dump nesting (.array (scan.tokens.map tokenJson)))
  | .tree template =>
    withTemplate files input template fun source =>
      withCompiled source fun t => MonadExcept.ofExcept (dump nesting (outlineJson t.outline))

/-- What a run is started with: its arguments, the standard input, the setting of the environment
that asks for lines for finding faults, and how deep a value may be nested that it writes. -/
structure Invocation where
  arguments : List String
  input : List UInt8
  setting? : Option String
  nesting : Nat
  deriving DecidableEq, Repr

/-- Of the thousand calls that the interpreter allows, six are under way when a program of its own
starts to write a value. -/
def usualNesting : Nat := 994

/-- What a run leaves behind for the next one: the level of the log, and what the loading of its
contexts has left to be done. -/
structure Memory where
  log : Log
  backlog : Yaml.Backlog
  deriving Repr

def Memory.fresh : Memory := ⟨.fresh, .empty⟩

inductive Complaint where
  | usage (program message : String)
  | error (e : Error)
  deriving Repr

def Complaint.line : Complaint → String
  | .usage program message => s!"{program}: error: {message}"
  | .error e => Text.trimEnd e.message

/-- A run comes to its end, with a complaint if it fails, or is broken off by an error that it does
not foresee. -/
inductive Ending where
  | success
  | failure (complaint : Complaint)
  | broken (e : Error)
  deriving Repr

def Ending.exit? : Ending → Option Nat
  | .success => some 0
  | .failure _ => some 2
  | .broken _ => none

def Ending.ofError (e : Error) : Ending :=
  if e.isForeseen then .failure (.error e) else .broken e

/-- What an ending writes to the standard error. A run that is broken off has nothing to say. -/
def Ending.words : Ending → String
  | .success => ""
  | .failure complaint => complaint.line ++ "\n"
  | .broken _ => ""

structure Outcome where
  output : String
  logged : List TraceLine
  ending : Ending
  deriving Repr

def Outcome.of (logged : List TraceLine) : Except Error String → Outcome
  | .ok output => ⟨output, logged, .success⟩
  | .error e => ⟨"", logged, .ofError e⟩

def traceText (lines : List TraceLine) : String :=
  String.join (lines.map fun line => Log.debugLine line.text)

/-- What a run writes to the standard error. Its complaint comes behind the lines of the log. -/
def Outcome.errors (o : Outcome) : String := traceText o.logged ++ o.ending.words

/-- The log under which a run works, which is set up once the arguments are read. -/
def Invocation.log (i : Invocation) (log : Log) : Log :=
  match Request.ofArguments i.arguments with
  | .error _ => log
  | .ok request => log.setUp request.debug i.setting?

def runUnder (log : Log) (files : Files) (b : Yaml.Backlog) (i : Invocation) :
    Outcome × Yaml.Backlog :=
  match Request.ofArguments i.arguments with
  | .error (.help program) => (⟨s!"usage: {program}\n", [], .success⟩, b)
  | .error .version => (⟨s!"{programName} {versionOf distribution}\n", [], .success⟩, b)
  | .error (.usage program message) => (⟨"", [], .failure (.usage program message)⟩, b)
  | .ok request =>
    let ((trace, result), left) := (request.command.execute files i.input i.nesting).run b
    (.of (log.passed trace) result, left)

def run (files : Files) (m : Memory) (i : Invocation) : Outcome × Memory :=
  let log := i.log m.log
  let (outcome, left) := runUnder log files m.backlog i
  (outcome, ⟨log, left⟩)

def runAll (files : Files) (m : Memory) : List Invocation → List Outcome
  | [] => []
  | i :: rest =>
    let (outcome, next) := run files m i
    outcome :: runAll files next rest

end Stencil.CommandLine
