import Stencil.CommandLine.Option
import Stencil.Text.Quoted

/-!
# Command lines

* `Command`: what is asked for;
* `Request.ofArguments`: the command that arguments ask for, or what ends their reading.

Options and values may be mixed. What is not understood is reported at the end, unless something
worse is found before.
-/

namespace Stencil.CommandLine

/-- A selector as it was given, or nothing where the option for it was left without a value. -/
abbrev Item := Option String

/-- What of a template is to be rendered: the whole, one block, the selected blocks, everything but
them, or everything with contexts of their own for them. -/
inductive Mode where
  | whole
  | block (name : String)
  | only (items : List Item)
  | except (items : List Item)
  | overriding (items : List Item)
  deriving DecidableEq, Repr

inductive Command where
  | render (template : String) (context? : Option String) (mode : Mode)
  | tokens (template : String)
  | tree (template : String)
  deriving DecidableEq, Repr

structure Request where
  debug : Bool
  command : Command
  deriving DecidableEq, Repr

/-- The arguments still to be read, with what they are. -/
abbrev Pending := List (String × Argument)

/-- What one argument comes to: options, each with its value if it has one, and the arguments behind
it. -/
abbrev Taken := List (Opt × Option String) × Pending

def Taken.after (o : Opt) (taken : Taken) : Taken := ((o, none) :: taken.1, taken.2)

/-- An option without an attached value takes the next argument if it needs one. -/
def takeNext (program : String) (o : Opt) (rest : Pending) : Except Stop Taken :=
  if o.takesValue then
    match rest with
    | (_, .value text) :: rest => .ok ([(o, some text)], rest)
    | _ => o.complain program "expected one argument"
  else .ok ([(o, none)], rest)

/-- An option with its attached value. The mark is no value, and leaves the option without one. -/
def takeAttached (o : Opt) (text : String) (rest : Pending) : Taken :=
  ([(o, if text = "--" then none else some text)], rest)

/-- Short options that take no value may be written together; what stands behind the last of them
is its value if it takes one. -/
def takeCluster (program : String) (options : List Opt) (o : Opt) (rest : Pending)
    (text : List Char) : Except Stop Taken :=
  match text with
  | [] => o.complain program ("ignored explicit argument " ++ Text.quote "")
  | c :: behind =>
    match named? options (String.ofList ['-', c]) with
    | none =>
      o.complain program ("ignored explicit argument " ++ Text.quote (String.ofList (c :: behind)))
    | some next =>
      Taken.after o <$>
        if behind.isEmpty then takeNext program next rest
        else if next.takesValue then .ok (takeAttached next (String.ofList behind) rest)
        else takeCluster program options next rest behind

def takeOption (program : String) (options : List Opt) (o : Opt) (name : String)
    (attached? : Option String) (rest : Pending) : Except Stop Taken :=
  match attached? with
  | none => takeNext program o rest
  | some text =>
    if o.takesValue then .ok (takeAttached o text rest)
    else if name.startsWith "--" then
      o.complain program ("ignored explicit argument " ++ Text.quote text)
    else takeCluster program options o rest text.toList

theorem takeNext_length {program : String} {o : Opt} {rest : Pending} {taken : Taken}
    (h : takeNext program o rest = .ok taken) : taken.2.length ≤ rest.length := by
  unfold takeNext at h
  split at h
  · split at h <;> cases h
    simp
  · cases h; exact Nat.le_refl _

theorem length_of_map_after {o : Opt} {inner : Except Stop Taken} {taken : Taken} {n : Nat}
    (h : Taken.after o <$> inner = .ok taken)
    (bound : ∀ found, inner = .ok found → found.2.length ≤ n) : taken.2.length ≤ n := by
  cases inner with
  | error => cases h
  | ok found => cases h; exact bound found rfl

theorem takeCluster_length {program : String} {options : List Opt} {o : Opt} {rest : Pending}
    {text : List Char} {taken : Taken}
    (h : takeCluster program options o rest text = .ok taken) :
    taken.2.length ≤ rest.length := by
  induction text generalizing o taken with
  | nil => cases h
  | cons c behind ih =>
    unfold takeCluster at h
    split at h
    · cases h
    · refine length_of_map_after h fun found known => ?_
      split at known
      · exact takeNext_length known
      · split at known
        · cases known; exact Nat.le_refl _
        · exact ih known

theorem takeOption_length {program : String} {options : List Opt} {o : Opt} {name : String}
    {attached? : Option String} {rest : Pending} {taken : Taken}
    (h : takeOption program options o name attached? rest = .ok taken) :
    taken.2.length ≤ rest.length := by
  unfold takeOption at h
  split at h
  · exact takeNext_length h
  · split at h
    · cases h; exact Nat.le_refl _
    · split at h
      · cases h
      · exact takeCluster_length h

def helpOption : Opt := ⟨.help, ["-h", "--help"], false⟩

def mainOptions : List Opt :=
  [helpOption, ⟨.version, ["-v", "--version"], false⟩, ⟨.debug, ["--debug"], false⟩]

def modeOptions : List Opt :=
  [⟨.block, ["--block"], true⟩, ⟨.only, ["--only"], true⟩, ⟨.except, ["--except"], true⟩,
    ⟨.some, ["--some"], true⟩]

def renderOptions : List Opt :=
  [helpOption, ⟨.context, ["-c", "--context"], true⟩] ++ modeOptions

namespace Mode

def flag? : Mode → Option Flag
  | .whole => none
  | .block _ => some .block
  | .only _ => some .only
  | .except _ => some .except
  | .overriding _ => some .some

/-- The mode after one more option for it: the name of a block replaces one given before, and
selectors add up. An option without a value takes the name away. -/
def add (mode : Mode) (flag : Flag) (text? : Option String) : Mode :=
  match flag, mode with
  | .block, _ => .block (text?.getD "")
  | .only, .only items => .only (items ++ [text?])
  | .only, _ => .only [text?]
  | .except, .except items => .except (items ++ [text?])
  | .except, _ => .except [text?]
  | .some, .overriding items => .overriding (items ++ [text?])
  | .some, _ => .overriding [text?]
  | _, mode => mode

end Mode

/-- What the arguments of a command have come to; those not understood are kept, the last of them
first. -/
structure Details where
  template? : Option String
  context? : Option String
  mode : Mode
  unknown : List String
  deriving DecidableEq, Repr

namespace Details

def empty : Details := ⟨none, none, .whole, []⟩

def addUnknown (d : Details) (s : String) : Details := { d with unknown := s :: d.unknown }

/-- Takes in one option. Options for different modes exclude each other. -/
def take (program : String) (d : Details) (o : Opt) (text? : Option String) :
    Except Stop Details :=
  match o.flag with
  | .help => .error (.help program)
  | .context => .ok { d with context? := text? }
  | flag =>
    match modeOptions.find? fun rival => d.mode.flag? = some rival.flag ∧ rival.flag ≠ flag with
    | some rival => o.complain program s!"not allowed with argument {rival.title}"
    | none => .ok { d with mode := d.mode.add flag text? }

/-- Reads the arguments of a command, whose only value is the template. Marks that stand next to it
go with it. -/
def read (program : String) (options : List Opt) (d : Details) (pending : Pending) :
    Except Stop Details :=
  match pending with
  | [] => .ok d
  | (s, .option none _ _) :: rest => read program options (d.addUnknown s) rest
  | (_, .option (some o) name attached?) :: rest =>
    match h : takeOption program options o name attached? rest with
    | .error stop => .error stop
    | .ok (taken, later) =>
      have : later.length ≤ rest.length := takeOption_length h
      match taken.foldlM (fun d option => d.take program option.1 option.2) d with
      | .error stop => .error stop
      | .ok d => read program options d later
  | (s, .value text) :: rest =>
    match d.template?, rest with
    | none, (_, .mark) :: rest => read program options { d with template? := some text } rest
    | none, rest => read program options { d with template? := some text } rest
    | some _, rest => read program options (d.addUnknown s) rest
  | (s, .mark) :: rest =>
    match d.template?, rest with
    | none, (_, .value text) :: rest => read program options { d with template? := some text } rest
    | _, rest => read program options (d.addUnknown s) rest
termination_by pending.length
decreasing_by all_goals (simp only [wfParam, List.length_cons] at *; omega)

end Details

def programName : String := "simple-templates"

def commands : List (String × List Opt) :=
  [("render", renderOptions), ("tokens", [helpOption]), ("tree", [helpOption])]

def misuse {α : Type} (program message : String) : Except Stop α := .error (.usage program message)

def Command.ofArguments (name : String) (arguments : List String) :
    Except Stop (Command × List String) :=
  match commands.find? fun command => command.1 = name with
  | none =>
    let choices := String.intercalate ", " (commands.map fun command => Text.quote command.1)
    misuse programName
      s!"argument cmd: invalid choice: {Text.quote name} (choose from {choices})"
  | some (_, options) =>
    let program := programName ++ " " ++ name
    match Argument.classifyAll options arguments with
    | .error message => misuse program message
    | .ok pending =>
      match Details.read program options .empty pending with
      | .error stop => .error stop
      | .ok details =>
        let unknown := details.unknown.reverse
        match details.template?, name with
        | none, _ => misuse program "the following arguments are required: template"
        | some template, "tokens" => .ok (.tokens template, unknown)
        | some template, "tree" => .ok (.tree template, unknown)
        | some template, _ => .ok (.render template details.context? details.mode, unknown)

namespace Request

def take (debug : Bool) (o : Opt) : Except Stop Bool :=
  match o.flag with
  | .help => .error (.help programName)
  | .version => .error .version
  | .debug => .ok true
  | _ => .ok debug

def close (debug : Bool) (unknown : List String) (name : String) (arguments : List String) :
    Except Stop Request :=
  match Command.ofArguments name arguments with
  | .error stop => .error stop
  | .ok (command, more) =>
    match unknown.reverse ++ more with
    | [] => .ok ⟨debug, command⟩
    | all => misuse programName ("unrecognized arguments: " ++ String.intercalate " " all)

/-- Reads options up to the name of a command, which takes all arguments behind it. -/
def read (debug : Bool) (unknown : List String) (pending : Pending) : Except Stop Request :=
  match pending with
  | [] => misuse programName "the following arguments are required: cmd"
  | (s, .option none _ _) :: rest => read debug (s :: unknown) rest
  | (_, .option (some o) name attached?) :: rest =>
    match h : takeOption programName mainOptions o name attached? rest with
    | .error stop => .error stop
    | .ok (taken, later) =>
      have : later.length ≤ rest.length := takeOption_length h
      match taken.foldlM (fun debug option => take debug option.1) debug with
      | .error stop => .error stop
      | .ok debug => read debug unknown later
  | (_, .value name) :: rest => close debug unknown name (rest.map Prod.fst)
  | (s, .mark) :: rest =>
    if rest.isEmpty then misuse programName "the following arguments are required: cmd"
    else close debug unknown s (rest.map Prod.fst)
termination_by pending.length
decreasing_by all_goals (simp only [List.length_cons] at *; omega)

def ofArguments (arguments : List String) : Except Stop Request :=
  match Argument.classifyAll mainOptions arguments with
  | .error message => misuse programName message
  | .ok pending => read false [] pending

end Request

end Stencil.CommandLine
