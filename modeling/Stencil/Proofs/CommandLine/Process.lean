import Stencil.Proofs.CommandLine.Work

/-!
# Runs in one process

* `Log.setUpAll`: the log after several demands; `Log.isDebug_setUpAll`, `Log.handlers_setUpAll`:
  what a whole history of demands makes of it;
* `Invocation.Proceeds`, `Invocation.Asks`: a run that gets past its arguments, and one that asks
  for lines for finding faults;
* `runUnder_eq`: a log has no say in what a run does but for the lines that it lets through;
* `outcomes`: several runs in one process whose loader keeps nothing;
* `runAll_eq_outcomes`: that is what several runs come to as long as they succeed;
* `runs_apart`: runs do not influence each other but for lines for finding faults.
-/

namespace Stencil

namespace Log

/-- The log after several demands, each with what the caller and the environment want. -/
def setUpAll (log : Log) (demands : List (Bool × Option String)) : Log :=
  demands.foldl (fun log demand => log.setUp demand.1 demand.2) log

/-- A log has no handler before it is set up, and one from then on. -/
def IsHandled (log : Log) : Prop := log.handlers = if log.level?.isSome then 1 else 0

theorem isSome_level?_setUp (log : Log) (debug : Bool) (setting? : Option String) :
    (log.setUp debug setting?).level?.isSome = true := by
  unfold setUp
  cases log.level? <;> rfl

theorem IsHandled.setUp {log : Log} (h : log.IsHandled) (debug : Bool) (setting? : Option String) :
    (log.setUp debug setting?).IsHandled := by
  obtain ⟨level?, handlers⟩ := log
  cases level? with
  | none =>
    obtain rfl : handlers = 0 := h
    rfl
  | some level =>
    obtain rfl : handlers = 1 := h
    rfl

/-- A demand can only lower the level that is let through. -/
theorem isDebug_setUp (log : Log) (debug : Bool) (setting? : Option String) :
    (log.setUp debug setting?).isDebug = (log.isDebug || wants debug setting?) := by
  obtain ⟨level?, handlers⟩ := log
  cases wanted : wants debug setting? <;> rcases level? with _ | _ | _ <;>
    simp [setUp, isDebug, wanted]

theorem isDebug_setUpAll (log : Log) (demands : List (Bool × Option String)) :
    (log.setUpAll demands).isDebug = true ↔
      log.isDebug = true ∨ ∃ demand ∈ demands, wants demand.1 demand.2 = true := by
  induction demands generalizing log with
  | nil => simp [setUpAll]
  | cons demand demands ih =>
    have step : log.setUpAll (demand :: demands) =
        (log.setUp demand.1 demand.2).setUpAll demands := rfl
    rw [step, ih, isDebug_setUp]
    simp [or_assoc]

theorem IsHandled.setUpAll {log : Log} (h : log.IsHandled) (demands : List (Bool × Option String)) :
    (log.setUpAll demands).IsHandled := by
  induction demands generalizing log with
  | nil => exact h
  | cons demand demands ih => exact ih (h.setUp demand.1 demand.2)

theorem isSome_level?_setUpAll {log : Log} (h : log.level?.isSome = true)
    (demands : List (Bool × Option String)) : (log.setUpAll demands).level?.isSome = true := by
  induction demands generalizing log with
  | nil => exact h
  | cons demand demands ih => exact ih (isSome_level?_setUp log demand.1 demand.2)

/-- After one demand or several there is exactly one handler. -/
theorem handlers_setUpAll {demands : List (Bool × Option String)} (called : demands ≠ []) :
    (fresh.setUpAll demands).handlers = 1 := by
  obtain ⟨demand, others, rfl⟩ := List.exists_cons_of_ne_nil called
  have set : ((fresh.setUp demand.1 demand.2).setUpAll others).level?.isSome = true :=
    isSome_level?_setUpAll (isSome_level?_setUp ..) others
  have start : fresh.IsHandled := rfl
  have handled := start.setUpAll (demand :: others)
  rw [IsHandled] at handled
  exact handled.trans (if_pos set)

/-- A log with its one handler writes each line once, or none of them. -/
theorem passed_eq {α : Type} {log : Log} (h : log.IsHandled) (lines : List α) :
    log.passed lines = if log.isDebug then lines else [] := by
  obtain ⟨level?, handlers⟩ := log
  rcases level? with _ | _ | _
  · rfl
  · obtain rfl : handlers = 1 := h
    have once : (List.replicate 1 : α → List α) = fun line => [line] := rfl
    simp [passed, isDebug, once]
  · rfl

/-- A log that has been set up and lets no lines for finding faults through. -/
def quiet : Log := ⟨some .warning, 1⟩

end Log

namespace CommandLine

/-! ## What a run asks of the log -/

namespace Invocation

/-- The run gets past the reading of its arguments. -/
def Proceeds (i : Invocation) : Prop := ∃ request, Request.ofArguments i.arguments = .ok request

/-- The run gets past the reading of its arguments and asks for lines for finding faults, by its
arguments or by a setting that is not empty. -/
def Asks (i : Invocation) : Prop :=
  ∃ request, Request.ofArguments i.arguments = .ok request ∧
    (request.debug = true ∨ ∃ setting, i.setting? = some setting ∧ setting ≠ "")

/-- What the run demands of the log, if it gets so far. -/
def demand? (i : Invocation) : Option (Bool × Option String) :=
  match Request.ofArguments i.arguments with
  | .error _ => none
  | .ok request => some (request.debug, i.setting?)

theorem log_eq (i : Invocation) (log : Log) : i.log log = log.setUpAll i.demand?.toList := by
  unfold Invocation.log demand?
  cases Request.ofArguments i.arguments <;> rfl

theorem asks_iff {i : Invocation} :
    i.Asks ↔ ∃ demand ∈ i.demand?, Log.wants demand.1 demand.2 = true := by
  unfold Asks demand?
  cases Request.ofArguments i.arguments with
  | error stop => simp
  | ok request =>
    obtain ⟨arguments, input, setting?⟩ := i
    cases setting? <;> simp [Log.wants]

end Invocation

/-- The log after several runs. -/
def logAfter (log : Log) (runs : List Invocation) : Log := runs.foldl (fun log i => i.log log) log

theorem logAfter_eq (log : Log) (runs : List Invocation) :
    logAfter log runs = log.setUpAll (runs.filterMap Invocation.demand?) := by
  induction runs generalizing log with
  | nil => rfl
  | cons i runs ih =>
    have step : logAfter log (i :: runs) = logAfter (i.log log) runs := rfl
    rw [step, ih, Invocation.log_eq, List.filterMap_cons]
    cases i.demand? <;> rfl

theorem logAfter_take_succ (log : Log) {runs : List Invocation} {k : Nat} {i : Invocation}
    (here : runs[k]? = some i) :
    logAfter log (runs.take (k + 1)) = i.log (logAfter log (runs.take k)) := by
  rw [List.take_add_one, here, logAfter, List.foldl_append]
  rfl

/-- Lines for finding faults are let through once a run has asked for them. -/
theorem isDebug_logAfter (runs : List Invocation) :
    (logAfter .fresh runs).isDebug = true ↔ ∃ i ∈ runs, i.Asks := by
  rw [logAfter_eq, Log.isDebug_setUpAll]
  simp only [Invocation.asks_iff, List.mem_filterMap]
  constructor
  · rintro (fresh | ⟨demand, ⟨i, member, known⟩, wanted⟩)
    · cases fresh
    · exact ⟨i, member, demand, known, wanted⟩
  · rintro ⟨i, member, demand, known, wanted⟩
    exact .inr ⟨demand, ⟨i, member, known⟩, wanted⟩

/-! ## What a run tells -/

/-- The template that a command works on. -/
def Command.template : Command → String
  | .render template _ _ => template
  | .tokens template => template
  | .tree template => template

/-- The steps that a command tells of: those of compiling its template, or of reading its tokens,
and none if the template cannot be read. -/
def Command.trace (files : Files) (input : List UInt8) (command : Command) : List TraceLine :=
  match readTemplate files input command.template with
  | .error _ => []
  | .ok source =>
    match command with
    | .tokens _ => (tokenize source).trace source
    | _ => (compile source).trace

def Invocation.trace (files : Files) (i : Invocation) : List TraceLine :=
  match Request.ofArguments i.arguments with
  | .error _ => []
  | .ok request => request.command.trace files i.input

theorem withCompiled_trace (source : String) (work : Template → Loading String)
    (b : Yaml.Backlog) : ((withCompiled source work).run b).1.1 = (compile source).trace := by
  unfold withCompiled
  dsimp only
  cases (compile source).result <;> rfl

theorem execute_trace (files : Files) (input : List UInt8) (nesting : Nat) (command : Command)
    (b : Yaml.Backlog) :
    ((command.execute files input nesting).run b).1.1 = command.trace files input := by
  cases command with
  | render template context? mode =>
    simp only [Command.execute, withTemplate, Command.trace, Command.template]
    cases readTemplate files input template with
    | error e => rfl
    | ok source => exact withCompiled_trace ..
  | tokens template =>
    simp only [Command.execute, withTemplate, Command.trace, Command.template]
    cases readTemplate files input template <;> rfl
  | tree template =>
    simp only [Command.execute, withTemplate, Command.trace, Command.template]
    cases readTemplate files input template with
    | error e => rfl
    | ok source => exact withCompiled_trace ..

/-- The log decides about the lines that are written and about nothing else. -/
theorem runUnder_eq (log : Log) (files : Files) (b : Yaml.Backlog) (i : Invocation) :
    runUnder log files b i =
      ({ (runUnder .quiet files b i).1 with logged := log.passed (i.trace files) },
        (runUnder .quiet files b i).2) := by
  have nothing : log.passed ([] : List TraceLine) = [] := by simp [Log.passed]
  unfold runUnder Invocation.trace
  cases Request.ofArguments i.arguments with
  | error stop => cases stop <;> simp [nothing]
  | ok request =>
    dsimp only
    rw [← execute_trace files i.input i.nesting request.command b]
    obtain ⟨⟨trace, result⟩, left⟩ := (request.command.execute files i.input i.nesting).run b
    cases result <;> rfl

theorem logged_quiet (files : Files) (b : Yaml.Backlog) (i : Invocation) :
    (runUnder .quiet files b i).1.logged = [] := by
  rw [runUnder_eq]
  rfl

theorem output_runUnder (log : Log) (files : Files) (b : Yaml.Backlog) (i : Invocation) :
    (runUnder log files b i).1.output = (runUnder .quiet files b i).1.output := by
  rw [runUnder_eq]

theorem ending_runUnder (log : Log) (files : Files) (b : Yaml.Backlog) (i : Invocation) :
    (runUnder log files b i).1.ending = (runUnder .quiet files b i).1.ending := by
  rw [runUnder_eq]

theorem errors_runUnder (log : Log) (files : Files) (b : Yaml.Backlog) (i : Invocation) :
    (runUnder log files b i).1.errors =
      traceText (runUnder log files b i).1.logged ++ (runUnder .quiet files b i).1.errors := by
  have silent : traceText (runUnder .quiet files b i).1.logged = "" := by
    rw [logged_quiet]
    rfl
  simp only [Outcome.errors, silent, ending_runUnder log, String.empty_append]

/-- A run whose arguments cannot be read tells of no steps. -/
theorem Invocation.trace_of_not_proceeds {files : Files} {i : Invocation} (h : ¬ i.Proceeds) :
    i.trace files = [] := by
  unfold Invocation.trace
  cases parsed : Request.ofArguments i.arguments with
  | error stop => rfl
  | ok request => exact absurd ⟨request, parsed⟩ h

/-! ## Several runs -/

/-- Several runs in one process whose loader keeps nothing from one load to the next one, so that
only the log is passed on. -/
def outcomes (files : Files) (log : Log) : List Invocation → List Outcome
  | [] => []
  | i :: rest => (run files ⟨log, .empty⟩ i).1 :: outcomes files (i.log log) rest

theorem getElem?_outcomes (files : Files) (log : Log) (runs : List Invocation) (k : Nat) :
    (outcomes files log runs)[k]? =
      runs[k]?.map fun i => (run files ⟨logAfter log (runs.take k), .empty⟩ i).1 := by
  induction runs generalizing log k with
  | nil => rfl
  | cons i rest ih =>
    cases k with
    | zero => rfl
    | succ k => exact ih (i.log log) k

/-- A run that succeeds where nothing is left to be done leaves nothing to be done. -/
theorem runUnder_settles {log : Log} {files : Files} {i : Invocation}
    (h : (runUnder log files .empty i).1.ending = .success) :
    (runUnder log files .empty i).2 = .empty := by
  unfold runUnder at h ⊢
  split
  · rfl
  · rfl
  · rfl
  · next request parsed =>
    rw [parsed] at h
    dsimp only at h ⊢
    generalize worked : (request.command.execute files i.input i.nesting).run .empty = all at h ⊢
    obtain ⟨⟨trace, result⟩, left⟩ := all
    cases result with
    | ok output => exact Command.execute_settles worked
    | error e =>
      simp only [Outcome.of, Ending.ofError] at h
      split at h <;> cases h

/-- As long as runs succeed, it makes no difference that the loader could keep something. -/
theorem runAll_eq_outcomes {files : Files} {log : Log} {runs : List Invocation}
    (succeed : ∀ o ∈ (outcomes files log runs).dropLast, o.ending = .success) :
    runAll files ⟨log, .empty⟩ runs = outcomes files log runs := by
  induction runs generalizing log with
  | nil => rfl
  | cons i rest ih =>
    cases rest with
    | nil => rfl
    | cons j rest =>
      have first : (run files ⟨log, .empty⟩ i).1.ending = .success :=
        succeed _ (List.mem_cons_self ..)
      have left : (run files ⟨log, .empty⟩ i).2 = ⟨i.log log, .empty⟩ :=
        congrArg (Memory.mk (i.log log)) (runUnder_settles first)
      have others := ih fun o member => succeed o (List.mem_cons_of_mem _ member)
      calc runAll files ⟨log, .empty⟩ (i :: j :: rest)
          = (run files ⟨log, .empty⟩ i).1 ::
              runAll files (run files ⟨log, .empty⟩ i).2 (j :: rest) := rfl
        _ = outcomes files log (i :: j :: rest) := by rw [left, others]; rfl

/-- **Runs in one process do not influence each other but for lines for finding faults.** The run in
place `k` prints and ends as if it were alone. It says what it would say alone under a quiet log,
behind lines that tell of its own steps. These are there if the run gets past its arguments and if
some run up to it has asked for them, and from then on the level stays. However often the log is set
up, it has one handler. -/
theorem runs_apart (files : Files) (runs : List Invocation) {k : Nat} {i : Invocation}
    (here : runs[k]? = some i) :
    let alone := (run files .fresh i).1
    let silent := (runUnder .quiet files .empty i).1
    let asked := ∃ j ∈ runs.take (k + 1), j.Asks
    (∃ outcome, (outcomes files .fresh runs)[k]? = some outcome ∧
      outcome.output = alone.output ∧
      outcome.ending = alone.ending ∧
      outcome.errors = traceText outcome.logged ++ silent.errors ∧
      (i.Proceeds ∧ asked → outcome.logged = i.trace files) ∧
      (¬ (i.Proceeds ∧ asked) → outcome.logged = [])) ∧
    silent.logged = [] ∧
    (asked → ∀ later, (logAfter .fresh (runs.take (k + 1) ++ later)).level? = some .debug) ∧
    ∀ demands : List (Bool × Option String), demands ≠ [] →
      (Log.fresh.setUpAll demands).handlers = 1 := by
  intro alone silent asked
  obtain ⟨log, log_eq⟩ : ∃ log, log = logAfter .fresh (runs.take (k + 1)) := ⟨_, rfl⟩
  have reached : i.log (logAfter .fresh (runs.take k)) = log := by
    rw [log_eq, logAfter_take_succ _ here]
  have handled : log.IsHandled := by
    have start : Log.fresh.IsHandled := rfl
    rw [log_eq, logAfter_eq]
    exact start.setUpAll _
  have logged : (runUnder log files .empty i).1.logged =
      if log.isDebug then i.trace files else [] := by
    rw [runUnder_eq]
    exact Log.passed_eq handled _
  have debug : log.isDebug = true ↔ asked := by
    rw [log_eq]
    exact isDebug_logAfter _
  refine ⟨⟨(runUnder log files .empty i).1, ?_, ?_, ?_, ?_, ?_, ?_⟩, logged_quiet .., ?_, ?_⟩
  · rw [getElem?_outcomes, here, ← reached]
    rfl
  · exact (output_runUnder ..).trans (output_runUnder ..).symm
  · exact (ending_runUnder ..).trans (ending_runUnder ..).symm
  · exact errors_runUnder ..
  · rintro ⟨-, wanted⟩
    rw [logged, if_pos (debug.2 wanted)]
  · intro unwanted
    rw [logged]
    by_cases proceeds : i.Proceeds
    · rw [if_neg fun wanted => unwanted ⟨proceeds, debug.1 wanted⟩]
    · rw [Invocation.trace_of_not_proceeds proceeds, ite_self]
  · rintro ⟨j, member, asks⟩ later
    have kept : (logAfter .fresh (runs.take (k + 1) ++ later)).isDebug = true :=
      (isDebug_logAfter _).2 ⟨j, List.mem_append_left _ member, asks⟩
    simpa [Log.isDebug] using kept
  · exact fun demands called => Log.handlers_setUpAll called

/-- The last of three runs, of which the second one has asked for the lines. -/
theorem runs_apart_of_three :
    let files : Files := fun _ => some [97]
    let last : Invocation := ⟨["tree", "page"], [], none, usualNesting⟩
    let runs := [⟨["--version"], [], some "1", usualNesting⟩,
      ⟨["--debug", "tree", "page"], [], none, usualNesting⟩, last]
    runs[2]? = some last ∧ last.Proceeds ∧ (∃ j ∈ runs.take 3, j.Asks) ∧
      ∃ outcome, (outcomes files .fresh runs)[2]? = some outcome ∧
        outcome.output = (run files .fresh last).1.output ∧
        outcome.logged = last.trace files := by
  intro files last runs
  have third : runs[2]? = some last := rfl
  have proceeds : last.Proceeds := ⟨⟨false, .tree "page"⟩, eq_ok_of_toOption (by decide +kernel)⟩
  have asks : Invocation.Asks ⟨["--debug", "tree", "page"], [], none, usualNesting⟩ :=
    ⟨⟨true, .tree "page"⟩, eq_ok_of_toOption (by decide +kernel), .inl rfl⟩
  have asked : ∃ j ∈ runs.take 3, j.Asks := ⟨_, by simp [runs], asks⟩
  obtain ⟨⟨outcome, found, output, -, -, logged, -⟩, -⟩ := runs_apart files runs third
  exact ⟨third, proceeds, asked, outcome, found, output, logged ⟨proceeds, asked⟩⟩

end CommandLine

end Stencil
