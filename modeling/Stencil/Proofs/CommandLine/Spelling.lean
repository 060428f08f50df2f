import Stencil.Proofs.CommandLine.Work

/-!
# Options spelled out

* `IsPlain`: arguments that are values by themselves;
* `Given`: an option of rendering with its value;
* `Details.read_given`: options that are spelled out are taken in one after the other;
* `Details.context?_foldl_after`, `Details.mode_foldl_after`: the last context counts, and options
  for modes add up;
* `Request.ofArguments_given`: the request that arguments of this form make;
* `Request.ofArguments_of_flag`, `Request.ofArguments_block`: it is that of the last context and of
  the one mode that is asked for.
-/

namespace Stencil.CommandLine

/-- The argument does not begin with a hyphen, or is nothing else. -/
def IsPlain (s : String) : Prop := s.startsWith "-" = false ∨ s = "-"

theorem classify_of_isPlain {s : String} (h : IsPlain s) (options : List Opt) :
    Argument.classify options s = .ok (.value s) := by
  unfold Argument.classify
  rcases h with front | rfl
  · simp [front]
  · simp

theorem IsPlain.ne_mark {s : String} (h : IsPlain s) : s ≠ "--" := by
  rintro rfl
  rcases h with front | same
  · exact absurd front (by decide +kernel)
  · exact absurd same (by decide)

/-- An option of rendering that takes a value, with the name that it is given by and its value. -/
structure Given where
  option : Opt
  name : String
  value : String
  known : option ∈ renderOptions
  takesValue : option.takesValue = true
  named : name ∈ option.names
  plain : IsPlain value

namespace Given

def spelled (g : Given) : List String := [g.name, g.value]

def pending (g : Given) : Pending :=
  [(g.name, .option (some g.option) g.name none), (g.value, .value g.value)]

def context (file : String) (plain : IsPlain file) : Given where
  option := ⟨.context, ["-c", "--context"], true⟩
  name := "-c"
  value := file
  known := by decide
  takesValue := rfl
  named := by decide
  plain := plain

def block (name : String) (plain : IsPlain name) : Given where
  option := ⟨.block, ["--block"], true⟩
  name := "--block"
  value := name
  known := by decide
  takesValue := rfl
  named := by decide
  plain := plain

end Given

/-- The names of the options of rendering mean these options. To the program itself they mean
nothing. -/
theorem classify_name :
    ∀ o ∈ renderOptions, ∀ name ∈ o.names, name ≠ "--" ∧
      Argument.classify renderOptions name = .ok (.option (some o) name none) ∧
      (Argument.classify mainOptions name).isOk = true := by
  have names : ∀ o ∈ renderOptions, ∀ name ∈ o.names, name ≠ "--" ∧
      (Argument.classify renderOptions name).toOption = some (.option (some o) name none) ∧
      (Argument.classify mainOptions name).isOk = true := by
    decide +kernel
  intro o known name named
  obtain ⟨ne, means, ok⟩ := names o known name named
  exact ⟨ne, eq_ok_of_toOption means, ok⟩

namespace Argument

theorem classifyAll_cons {options : List Opt} {s : String} {a : Argument} (ne : s ≠ "--")
    (known : classify options s = .ok a) (rest : List String) :
    classifyAll options (s :: rest) = ((s, a) :: ·) <$> classifyAll options rest := by
  rw [classifyAll, if_neg ne, known]
  rfl

theorem classifyAll_given (given : List Given) :
    classifyAll renderOptions (given.flatMap Given.spelled) =
      .ok (given.flatMap Given.pending) := by
  induction given with
  | nil => rfl
  | cons g rest ih =>
    obtain ⟨ne, known, -⟩ := classify_name g.option g.known g.name g.named
    simp only [List.flatMap_cons, Given.spelled, List.cons_append, List.nil_append]
    rw [classifyAll_cons ne known, classifyAll_cons g.plain.ne_mark (classify_of_isPlain g.plain _)]
    rw [ih]
    rfl

/-- Whatever arguments are, they stay the same texts. -/
theorem map_fst_classifyAll {options : List Opt} {arguments : List String} {pending : Pending}
    (h : classifyAll options arguments = .ok pending) : pending.map Prod.fst = arguments := by
  induction arguments generalizing pending with
  | nil =>
    cases h
    rfl
  | cons s rest ih =>
    unfold classifyAll at h
    split at h
    · cases h
      simp [Function.comp_def]
    · cases first : classify options s with
      | error e =>
        rw [first] at h
        cases h
      | ok a =>
        cases others : classifyAll options rest with
        | error e =>
          rw [first, others] at h
          cases h
        | ok pending =>
          rw [first, others] at h
          cases h
          rw [List.map_cons, ih others]

theorem classifyAll_main_given (given : List Given) :
    ∃ pending, classifyAll mainOptions (given.flatMap Given.spelled) = .ok pending := by
  induction given with
  | nil => exact ⟨[], rfl⟩
  | cons g rest ih =>
    obtain ⟨ne, -, ok⟩ := classify_name g.option g.known g.name g.named
    obtain ⟨pending, others⟩ := ih
    cases known : classify mainOptions g.name with
    | error e =>
      rw [known] at ok
      cases ok
    | ok a =>
      simp only [List.flatMap_cons, Given.spelled, List.cons_append, List.nil_append]
      rw [classifyAll_cons ne known,
        classifyAll_cons g.plain.ne_mark (classify_of_isPlain g.plain _)]
      rw [others]
      exact ⟨_, rfl⟩

end Argument

/-- Whatever the mode is before, it is that of the option afterwards. -/
theorem Mode.flag?_add {flag : Flag} (mode : flag ∈ modeOptions.map Opt.flag) (before : Mode)
    (text? : Option String) : (before.add flag text?).flag? = some flag := by
  cases flag with
  | help | version | debug | context => exact absurd mode (by decide)
  | block | only | except | some => cases before <;> rfl

namespace Details

variable {program : String} {d : Details}

/-- Takes in options with their values, the first one first. -/
def takeGiven (program : String) (d : Details) (given : List Given) : Except Stop Details :=
  given.foldlM (fun d g => d.take program g.option (some g.value)) d

theorem takeGiven_cons (g : Given) (rest : List Given) :
    takeGiven program d (g :: rest) =
      (d.take program g.option (some g.value)).bind fun d => takeGiven program d rest := by
  rw [takeGiven, List.foldlM_cons]
  rfl

/-- Options that are spelled out are taken in one after the other. -/
theorem read_given (options : List Opt) (given : List Given) :
    read program options d (given.flatMap Given.pending) = takeGiven program d given := by
  induction given generalizing d with
  | nil =>
    rw [List.flatMap_nil, read]
    rfl
  | cons g rest ih =>
    have taken : takeOption program options g.option g.name none
        ((g.value, .value g.value) :: rest.flatMap Given.pending) =
          .ok ([(g.option, some g.value)], rest.flatMap Given.pending) := by
      rw [takeOption, takeNext, if_pos g.takesValue]
    rw [takeGiven_cons, List.flatMap_cons, Given.pending, List.cons_append, List.cons_append,
      List.nil_append, read]
    split
    · next stop failed =>
      rw [taken] at failed
      cases failed
    · next found later same =>
      rw [taken] at same
      cases same
      rw [List.foldlM_cons]
      cases d.take program g.option (some g.value) with
      | error stop => rfl
      | ok d => exact ih

/-- The template stands before the options. -/
theorem read_template_given (options : List Opt) {template : String} (missing : d.template? = none)
    (given : List Given) :
    read program options d ((template, .value template) :: given.flatMap Given.pending) =
      takeGiven program { d with template? := some template } given := by
  have unmarked : ∀ s later, given.flatMap Given.pending ≠ (s, .mark) :: later := by
    intro s later same
    cases given <;> cases same
  rw [← read_given options, read]
  · exact missing
  · exact unmarked

/-- What an option makes of the details where it is allowed. -/
def after (d : Details) (g : Given) : Details :=
  match g.option.flag with
  | .context => { d with context? := some g.value }
  | flag => { d with mode := d.mode.add flag (some g.value) }

theorem take_eq_ok {g : Given} {next : Details}
    (h : d.take program g.option (some g.value) = .ok next) : next = d.after g := by
  unfold take at h
  unfold after
  split at h
  · cases h
  · next flag =>
    rw [flag]
    cases h
    rfl
  · split at h
    · cases h
    · cases h
      split
      · contradiction
      · rfl

theorem takeGiven_eq_ok {given : List Given} {last : Details}
    (h : takeGiven program d given = .ok last) : last = given.foldl after d := by
  induction given generalizing d with
  | nil =>
    cases h
    rfl
  | cons g rest ih =>
    rw [takeGiven_cons] at h
    cases first : d.take program g.option (some g.value) with
    | error stop =>
      rw [first] at h
      cases h
    | ok next =>
      rw [first] at h
      rw [List.foldl_cons, ← take_eq_ok first]
      exact ih h

theorem template?_foldl_after (given : List Given) (d : Details) :
    (given.foldl after d).template? = d.template? ∧ (given.foldl after d).unknown = d.unknown := by
  induction given generalizing d with
  | nil => exact ⟨rfl, rfl⟩
  | cons g rest ih =>
    have first : (d.after g).template? = d.template? ∧ (d.after g).unknown = d.unknown := by
      unfold after
      split <;> exact ⟨rfl, rfl⟩
    obtain ⟨template, unknown⟩ := ih (d.after g)
    exact ⟨template.trans first.1, unknown.trans first.2⟩

/-- The last context counts. -/
theorem context?_foldl_after (given : List Given) (d : Details) :
    (given.foldl after d).context? =
      ((given.filter fun g => g.option.flag = .context).getLast?.map Given.value).or
        d.context? := by
  induction given generalizing d with
  | nil => rfl
  | cons g rest ih =>
    rw [List.foldl_cons, ih, List.filter_cons]
    by_cases context : g.option.flag = .context
    · have own : (d.after g).context? = some g.value := by rw [after, context]
      rw [own, if_pos (by simpa using context), List.getLast?_cons]
      cases (rest.filter fun g => g.option.flag = .context).getLast? <;> rfl
    · have same : (d.after g).context? = d.context? := by
        unfold after
        split
        · contradiction
        · rfl
      rw [same, if_neg (by simpa using context)]

/-- Options for modes are added to the mode, in order. -/
theorem mode_foldl_after (given : List Given) (d : Details) :
    (given.foldl after d).mode =
      (given.filter fun g => g.option.flag ≠ .context).foldl
        (fun mode g => mode.add g.option.flag (some g.value)) d.mode := by
  induction given generalizing d with
  | nil => rfl
  | cons g rest ih =>
    rw [List.foldl_cons, ih, List.filter_cons]
    by_cases context : g.option.flag = .context
    · have same : (d.after g).mode = d.mode := by rw [after, context]
      rw [same, if_neg (by simpa using context)]
    · have own : (d.after g).mode = d.mode.add g.option.flag (some g.value) := by
        unfold after
        split
        · contradiction
        · rfl
      rw [own, if_pos (by simpa using context), List.foldl_cons]

/-- Options for one mode do not exclude each other. -/
theorem takeGiven_of_flag {flag : Flag} (mode : flag ∈ modeOptions.map Opt.flag)
    {given : List Given} (only : ∀ g ∈ given, g.option.flag = .context ∨ g.option.flag = flag)
    (start : d.mode.flag? = none ∨ d.mode.flag? = some flag) :
    takeGiven program d given = .ok (given.foldl after d) := by
  induction given generalizing d with
  | nil => rfl
  | cons g rest ih =>
    have free : (modeOptions.find? fun rival =>
        d.mode.flag? = some rival.flag ∧ rival.flag ≠ flag) = none := by
      rw [List.find?_eq_none]
      rcases start with start | start <;> simp +contextual [start]
    have taken : d.take program g.option (some g.value) = .ok (d.after g) := by
      unfold take after
      rcases only g (List.mem_cons_self ..) with context | same
      · rw [context]
      · rw [same]
        cases flag with
        | help | version | debug | context => exact absurd mode (by decide)
        | block | only | except | some =>
          dsimp only
          rw [free]
    have next : (d.after g).mode.flag? = none ∨ (d.after g).mode.flag? = some flag := by
      rcases only g (List.mem_cons_self ..) with context | same
      · unfold after
        rw [context]
        exact start
      · have added : (d.after g).mode = d.mode.add flag (some g.value) := by
          unfold after
          rw [same]
          cases flag with
          | context => exact absurd mode (by decide)
          | _ => rfl
        rw [added]
        exact .inr (Mode.flag?_add mode _ _)
    rw [takeGiven_cons, taken, List.foldl_cons]
    exact ih (fun g member => only g (List.mem_cons_of_mem _ member)) next

end Details

/-- The request that a template with options behind it makes. -/
theorem Request.ofArguments_given {template : String} (plain : IsPlain template)
    (given : List Given) :
    ofArguments ("render" :: template :: given.flatMap Given.spelled) =
      (Details.takeGiven "simple-templates render" { Details.empty with template? := some template }
        given).map fun d => ⟨false, .render template d.context? d.mode⟩ := by
  have command : Argument.classify mainOptions "render" = .ok (.value "render") :=
    classify_of_isPlain (.inl (by decide +kernel)) _
  obtain ⟨pending, others⟩ := Argument.classifyAll_main_given given
  have classified : Argument.classifyAll mainOptions
      ("render" :: template :: given.flatMap Given.spelled) =
        .ok (("render", .value "render") :: (template, .value template) :: pending) := by
    rw [Argument.classifyAll_cons (by decide) command,
      Argument.classifyAll_cons plain.ne_mark (classify_of_isPlain plain _), others]
    rfl
  have behind : Argument.classifyAll renderOptions (template :: given.flatMap Given.spelled) =
      .ok ((template, .value template) :: given.flatMap Given.pending) := by
    rw [Argument.classifyAll_cons plain.ne_mark (classify_of_isPlain plain _),
      Argument.classifyAll_given]
    rfl
  have find : (commands.find? fun command => command.1 = "render") =
      some ("render", renderOptions) := by
    decide +kernel
  rw [ofArguments, classified]
  dsimp only
  rw [read, List.map_cons, Argument.map_fst_classifyAll others, close, Command.ofArguments, find]
  dsimp only
  rw [behind]
  dsimp only
  rw [Details.read_template_given renderOptions rfl]
  have name : programName ++ " " ++ "render" = "simple-templates render" := by decide +kernel
  rw [name]
  generalize outcome : Details.takeGiven "simple-templates render" _ given = taken
  cases taken with
  | error stop => rfl
  | ok details =>
    obtain rfl := Details.takeGiven_eq_ok outcome
    obtain ⟨template?, unknown⟩ := Details.template?_foldl_after given
      { Details.empty with template? := some template }
    dsimp only
    rw [template?, unknown]
    rfl

theorem Mode.foldl_add_given {flag : Flag} {given : List Given}
    (same : ∀ g ∈ given, g.option.flag = flag) (mode : Mode) :
    given.foldl (fun mode g => mode.add g.option.flag (some g.value)) mode =
      (given.map Given.value).foldl (fun mode value => mode.add flag (some value)) mode := by
  induction given generalizing mode with
  | nil => rfl
  | cons g rest ih =>
    rw [List.foldl_cons, List.map_cons, List.foldl_cons, same g (List.mem_cons_self ..)]
    exact ih (fun g member => same g (List.mem_cons_of_mem _ member)) _

/-- Behind a template, contexts and options for one mode make a request with the last context and
with the mode that these options add up to. -/
theorem Request.ofArguments_of_flag {template : String} (plain : IsPlain template) {flag : Flag}
    (mode : flag ∈ modeOptions.map Opt.flag) {given : List Given}
    (only : ∀ g ∈ given, g.option.flag = .context ∨ g.option.flag = flag) :
    ofArguments ("render" :: template :: given.flatMap Given.spelled) =
      .ok ⟨false, .render template
        ((given.filter fun g => g.option.flag = .context).getLast?.map Given.value)
        (((given.filter fun g => g.option.flag = flag).map Given.value).foldl
          (fun mode value => mode.add flag (some value)) .whole)⟩ := by
  have other : flag ≠ .context := by
    rintro rfl
    exact absurd mode (by decide)
  have modes : (given.filter fun g => g.option.flag ≠ .context) =
      given.filter fun g => g.option.flag = flag := by
    apply List.filter_congr
    intro g member
    rcases only g member with context | same
    · simp [context, other.symm]
    · simp [same, other]
  rw [ofArguments_given plain, Details.takeGiven_of_flag mode only (.inl rfl), Except.map,
    Details.context?_foldl_after, Details.mode_foldl_after, modes,
    @Mode.foldl_add_given flag _ (by simp)]
  simp [Details.empty]

theorem Mode.foldl_add_block (names : List String) (mode : Mode) :
    names.foldl (fun mode name => mode.add .block (some name)) mode =
      (names.getLast?.map Mode.block).getD mode := by
  induction names generalizing mode with
  | nil => rfl
  | cons name rest ih =>
    rw [List.foldl_cons, ih, List.getLast?_cons]
    cases rest.getLast? <;> rfl

/-- Of several contexts and several blocks the last ones count. -/
theorem Request.ofArguments_block {template : String} (plain : IsPlain template)
    {given : List Given}
    (only : ∀ g ∈ given, g.option.flag = .context ∨ g.option.flag = .block) :
    ofArguments ("render" :: template :: given.flatMap Given.spelled) =
      .ok ⟨false, .render template
        ((given.filter fun g => g.option.flag = .context).getLast?.map Given.value)
        ((((given.filter fun g => g.option.flag = .block).map Given.value).getLast?.map
          Mode.block).getD .whole)⟩ := by
  rw [ofArguments_of_flag plain (by decide) only, Mode.foldl_add_block]

end Stencil.CommandLine
