import Stencil.Files.Load
import Stencil.Proofs.Text.Utf8

/-!
# What loading leaves behind

* `run_bind`, `run_bind_eq_ok`: steps that may fail and pass a state on, one after the other;
* `Yaml.load_settles`: a document that can be loaded leaves nothing to be done;
* `Loading.result`: what comes of loading where nothing is left to be done from before;
* `Loading.Settles`: loading that leaves nothing to be done if it succeeds;
* `Loading.result_bind`, `Loading.result_mapM`: results of such loadings are combined as if none of
  them knew of the others;
* `readTemplate_encode`: the bytes of a text without carriage returns are read as this text;
* `readContext_of_text`: the context in a file comes from the document in its text.
-/

namespace Stencil

theorem eq_ok_of_toOption {ε α : Type} {r : Except ε α} {a : α} (h : r.toOption = some a) :
    r = .ok a := by
  cases r with
  | error e => cases h
  | ok b =>
    cases h
    rfl

section

variable {ε σ α β : Type}

/-- The second step is taken if the first one succeeds, from the state that this one leaves. -/
theorem run_bind (x : ExceptT ε (StateM σ) α) (f : α → ExceptT ε (StateM σ) β) (s : σ) :
    (x >>= f).run.run s =
      match x.run.run s with
      | (.ok a, s) => (f a).run.run s
      | (.error e, s) => (.error e, s) := by
  change (ExceptT.bind x f) s = _
  simp only [ExceptT.bind, ExceptT.bindCont, ExceptT.mk, ExceptT.run, StateT.run, bind, StateT.bind]
  change (match x s with | (a, s) => _) = _
  obtain ⟨a, s'⟩ := x s
  cases a <;> rfl

theorem run_bind_eq_ok {x : ExceptT ε (StateM σ) α} {f : α → ExceptT ε (StateM σ) β} {s s' : σ}
    {b : β} :
    (x >>= f).run.run s = (.ok b, s') ↔
      ∃ a between, x.run.run s = (.ok a, between) ∧ (f a).run.run between = (.ok b, s') := by
  rw [run_bind]
  constructor
  · intro h
    split at h
    · next a between first => exact ⟨a, between, first, h⟩
    · cases h
  · rintro ⟨a, between, first, second⟩
    rw [first]
    exact second

end

namespace Yaml

/-- Once the value of the root is known, the backlog is empty. -/
theorem Filling.root_settles {n : Node} {b left : Backlog} {v : Value}
    (h : (Filling.root n).run.run b = (.ok v, left)) : left = .empty := by
  unfold Filling.root at h
  obtain ⟨_, _, _, h⟩ := run_bind_eq_ok.1 h
  obtain ⟨_, _, _, h⟩ := run_bind_eq_ok.1 h
  obtain ⟨_, _, _, h⟩ := run_bind_eq_ok.1 h
  obtain ⟨_, _, _, h⟩ := run_bind_eq_ok.1 h
  cases h
  rfl

theorem load_settles {text : String} {left : Backlog} {v : Value}
    (h : load .empty text = (.ok v, left)) : left = .empty := by
  unfold load at h
  split at h
  · cases h
  · cases h
    rfl
  · exact Filling.root_settles h

end Yaml

namespace Loading

variable {α β : Type}

/-- What comes of loading if nothing is left to be done from before. -/
def result (x : Loading α) : Except Error α := (x.run.run .empty).1

/-- If loading succeeds with nothing to be done from before, it leaves nothing to be done. -/
def Settles (x : Loading α) : Prop :=
  ∀ a left, x.run.run .empty = (.ok a, left) → left = .empty

theorem Settles.pure (a : α) : Settles (Pure.pure a) := by
  intro _ _ h
  cases h
  rfl

theorem Settles.throw (e : Error) : Settles (MonadExcept.throw e : Loading α) := by
  intro _ _ h
  cases h

theorem Settles.ofExcept (r : Except Error α) : Settles (MonadExcept.ofExcept r : Loading α) := by
  cases r with
  | ok a => exact .pure a
  | error e => exact .throw e

theorem result_ofExcept (r : Except Error α) : result (MonadExcept.ofExcept r) = r := by
  cases r <;> rfl

theorem Settles.bind {x : Loading α} {f : α → Loading β} (first : x.Settles)
    (second : ∀ a, (f a).Settles) : (x >>= f).Settles := by
  intro b left h
  obtain ⟨a, between, loaded, h⟩ := run_bind_eq_ok.1 h
  obtain rfl := first a between loaded
  exact second a b left h

/-- What comes second does not notice that something was loaded before it. -/
theorem result_bind {x : Loading α} (first : x.Settles) (f : α → Loading β) :
    (x >>= f).result = x.result.bind fun a => (f a).result := by
  unfold result
  rw [run_bind]
  split
  · next a between loaded =>
    obtain rfl := first a between loaded
    rw [loaded]
    rfl
  · next e between failed =>
    rw [failed]
    rfl

theorem Settles.mapM {f : α → Loading β} (each : ∀ a, (f a).Settles) (items : List α) :
    (items.mapM f).Settles := by
  induction items with
  | nil => exact .pure []
  | cons item items ih =>
    rw [List.mapM_cons]
    exact (each item).bind fun _ => ih.bind fun _ => .pure _

theorem result_mapM {f : α → Loading β} (each : ∀ a, (f a).Settles) (items : List α) :
    (items.mapM f).result = items.mapM fun item => (f item).result := by
  induction items with
  | nil => rfl
  | cons item items ih =>
    rw [List.mapM_cons, List.mapM_cons, result_bind (each item)]
    congr 1
    funext a
    rw [result_bind (.mapM each items), ih]
    rfl

end Loading

theorem result_loadContext (files : Files) (path : Path) :
    (loadContext files path).result = readContext files path := rfl

theorem readTemplate_encode (files : Files) {s : String} (plain : '\r' ∉ s.toList) :
    readTemplate files (Text.encode s) "-" = .ok s := by
  rw [readTemplate, if_pos rfl, readText, Text.decode_encode]
  simp [Text.unifyNewlines_eq_self plain, Except.mapError, Functor.map, Except.map]

/-- The context in a file is that of the document in its text. -/
theorem readContext_of_text {files : Files} {path : Path} {bytes : List UInt8} {text : String}
    (found : files path = some bytes) (decoded : readText bytes = .ok text) :
    readContext files path = contextIn path (Yaml.load .empty text).1 := by
  simp only [readContext, loadContext, found, decoded]
  rfl

/-- An empty file gives an empty context. -/
theorem readContext_of_empty {files : Files} {path : Path} (found : files path = some []) :
    readContext files path = .ok [] := by
  have decoded : readText [] = .ok "" := eq_ok_of_toOption (by decide +kernel)
  have document : (Yaml.load .empty "").1 = .ok .null := rfl
  rw [readContext_of_text found decoded, document]
  rfl

/-- A context that can be loaded leaves nothing to be done. -/
theorem loadContext_settles (files : Files) (path : Path) : (loadContext files path).Settles := by
  intro pairs left h
  unfold loadContext at h
  split at h
  · cases h
  · split at h
    · cases h
    · next text _ =>
      change (contextIn path (Yaml.load .empty text).1, (Yaml.load .empty text).2) = _ at h
      obtain ⟨read, rfl⟩ := Prod.mk.inj h
      cases document : Yaml.load .empty text with
      | mk v left =>
        rw [document] at read
        cases v with
        | ok v => exact Yaml.load_settles document
        | error f => cases f <;> cases read

end Stencil
