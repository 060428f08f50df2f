import Stencil.CommandLine.Run
import Stencil.Proofs.Files.Loading

/-!
# The work of a command

* `Command.execute_settles`: a command that succeeds leaves nothing to be done;
* `run_render`: the outcome of rendering, where nothing is left to be done from before, is combined
  from the shared context and from what the mode asks for.
-/

namespace Stencil.CommandLine

theorem selectorOf_settles (files : Files) (item : Item) : (selectorOf files item).Settles := by
  cases item with
  | none => exact .throw _
  | some text =>
    unfold selectorOf
    dsimp only
    split
    · intro _ _ h
      cases h
    · split
      · exact .pure _
      · exact (loadContext_settles files _).bind fun _ => .pure _

theorem selectionOf_settles (files : Files) (items : List Item) :
    (selectionOf files items).Settles := by
  unfold selectionOf
  refine (Loading.Settles.mapM (selectorOf_settles files) items).bind fun selectors => ?_
  split <;> exact .pure _

theorem Mode.render_settles (files : Files) (t : Template) (context : Context) (mode : Mode) :
    (mode.render files t context).Settles := by
  cases mode with
  | whole => exact .ofExcept _
  | block name => exact .ofExcept _
  | only items => exact (selectionOf_settles files items).bind fun _ => .ofExcept _
  | except items => exact (selectionOf_settles files items).bind fun _ => .ofExcept _
  | overriding items => exact (selectionOf_settles files items).bind fun _ => .ofExcept _

theorem sharedContext_settles (files : Files) (file? : Option String) :
    (sharedContext files file?).Settles := by
  unfold sharedContext
  dsimp only
  split
  · exact .pure _
  · exact (loadContext_settles files _).bind fun _ => .pure _

/-- Where no file is named, and where its name is empty, the shared context is empty. -/
theorem result_sharedContext_of_empty (files : Files) {file? : Option String}
    (empty : file?.getD "" = "") : (sharedContext files file?).result = .ok (.dict []) := by
  unfold sharedContext
  rw [empty]
  rfl

theorem result_sharedContext_of_named (files : Files) {file : String} (named : file ≠ "") :
    (sharedContext files (some file)).result =
      (readContext files (.ofText file)).map .ofChecked := by
  have nonempty : ¬ file.isEmpty = true := by rwa [String.isEmpty_iff]
  simp only [sharedContext, Option.getD_some, if_neg nonempty]
  rw [Loading.result_bind (loadContext_settles files _), result_loadContext]
  cases readContext files (.ofText file) <;> rfl

/-- Loads the shared context and renders what the mode asks for. -/
def rendering (files : Files) (t : Template) (context? : Option String) (mode : Mode) :
    Loading String :=
  sharedContext files context? >>= mode.render files t

theorem rendering_settles (files : Files) (t : Template) (context? : Option String) (mode : Mode) :
    (rendering files t context? mode).Settles :=
  (sharedContext_settles files context?).bind (mode.render_settles files t)

theorem result_rendering (files : Files) (t : Template) (context? : Option String) (mode : Mode) :
    (rendering files t context? mode).result =
      (sharedContext files context?).result.bind fun context =>
        (mode.render files t context).result :=
  Loading.result_bind (sharedContext_settles files context?) _

theorem withCompiled_settles {source : String} {work : Template → Loading String}
    (settles : ∀ t, (work t).Settles) {trace : List TraceLine} {output : String}
    {left : Yaml.Backlog}
    (h : (withCompiled source work).run .empty = ((trace, .ok output), left)) : left = .empty := by
  unfold withCompiled at h
  dsimp only at h
  cases compiled : (compile source).result with
  | error f =>
    rw [compiled] at h
    cases h
  | ok t =>
    rw [compiled] at h
    obtain ⟨first, rfl⟩ := Prod.mk.inj h
    exact settles t output _ (Prod.ext (Prod.mk.inj first).2 rfl)

/-- A command that succeeds with nothing to be done from before leaves nothing to be done. -/
theorem Command.execute_settles {files : Files} {input : List UInt8} {nesting : Nat}
    {command : Command} {trace : List TraceLine} {output : String} {left : Yaml.Backlog}
    (h : (command.execute files input nesting).run .empty = ((trace, .ok output), left)) :
    left = .empty := by
  cases command with
  | render template context? mode =>
    simp only [Command.execute, withTemplate] at h
    split at h
    · cases h
    · exact withCompiled_settles (rendering_settles files · context? mode) h
  | tokens template =>
    simp only [Command.execute, withTemplate] at h
    split at h <;> exact (Prod.mk.inj h).2.symm
  | tree template =>
    simp only [Command.execute, withTemplate] at h
    split at h
    · cases h
    · exact withCompiled_settles (fun t => .ofExcept _) h

/-- What comes of rendering a template that can be read and compiled. -/
theorem run_render {files : Files} (log : Log) {i : Invocation} {debug : Bool}
    {template : String} {context? : Option String} {mode : Mode} {source : String} {t : Template}
    (asked : Request.ofArguments i.arguments = .ok ⟨debug, .render template context? mode⟩)
    (read : readTemplate files i.input template = .ok source)
    (compiled : (compile source).result = .ok t) :
    (run files ⟨log, .empty⟩ i).1 =
      .of ((i.log log).passed (compile source).trace) (rendering files t context? mode).result := by
  simp only [run, runUnder, asked, Command.execute, withTemplate, read, withCompiled, compiled]
  rfl

end Stencil.CommandLine
