import Stencil.Context

/-!
# Looking up names

* `stringify_eq_error_iff`: a value has no text exactly if contexts do not support it;
* `LookupFails`: why a name has no text in a context;
* `lookup_eq_error_iff`: looking up a name fails for these reasons and for no other;
* `Context.IsShared`, `Context.valueOf`: the contexts that all of a rendering shares, and the values
  of names in them;
* `lookup_eq_stringify`: in such a context a name has the text of its value.
-/

namespace Stencil

/-- The types that have a text are those that a checked context may hold. -/
theorem stringify_eq_error_iff {key : String} {v : Value} {e : Error} :
    stringify key v = .error e ↔ v.isSupported = false ∧ e = .unsupported key v.typeName := by
  cases v with
  | float x =>
    cases whole : x.integer? <;> simp [stringify, Value.isSupported, whole]
  | null | bool | int | text => simp [stringify, Value.isSupported]
  | bytes | date | moment | list | tuple | dict | selector =>
    simp [stringify, Value.isSupported, eq_comm]

/-- A context that does not stand for nothing must be a dictionary, and the value of the name must
be of a type that contexts hold. -/
inductive LookupFails (context : Context) (name : String) : Error → Prop
  | notDictionary (something : context.isFalsy = false) (other : ∀ pairs, context ≠ .dict pairs) :
      LookupFails context name (.notDictionary context.typeName)
  | unsupported {pairs : List (Value × Value)} {v : Value} (dictionary : context = .dict pairs)
      (found : Value.get? pairs name = some v) (refused : v.isSupported = false) :
      LookupFails context name (.unsupported name v.typeName)

/-- An empty dictionary has no values, and so it may be looked up like every other one. -/
theorem lookup_dict (pairs : List (Value × Value)) (name : String) :
    lookup (.dict pairs) name = stringify name ((Value.get? pairs name).getD .null) := by
  cases pairs with
  | nil => rfl
  | cons pair rest => rfl

theorem lookup_eq_error_iff {context : Context} {name : String} {e : Error} :
    lookup context name = .error e ↔ LookupFails context name e := by
  by_cases dictionary : ∃ pairs, context = .dict pairs
  · obtain ⟨pairs, rfl⟩ := dictionary
    rw [lookup_dict, stringify_eq_error_iff]
    constructor
    · rintro ⟨refused, rfl⟩
      cases found : Value.get? pairs name with
      | none => simp [found, Value.isSupported] at refused
      | some v =>
        rw [found] at refused
        exact .unsupported rfl found refused
    · intro h
      cases h with
      | notDictionary _ other => exact absurd rfl (other pairs)
      | unsupported dictionary found refused =>
        cases dictionary
        simp [found, refused]
  · have other : ∀ pairs, context ≠ .dict pairs := fun pairs same => dictionary ⟨pairs, same⟩
    have outcome : lookup context name =
        if context.isFalsy then .ok "" else .error (.notDictionary context.typeName) := by
      unfold lookup
      split
      · rfl
      · split
        · exact absurd rfl (other _)
        · rfl
    rw [outcome]
    constructor
    · intro h
      by_cases nothing : context.isFalsy = true
      · simp [nothing] at h
      · obtain rfl : Error.notDictionary context.typeName = e := by simpa [nothing] using h
        exact .notDictionary (by simpa using nothing) other
    · intro h
      cases h with
      | notDictionary something _ => simp [something]
      | unsupported dictionary _ _ => exact absurd dictionary (other _)

/-! ## Shared contexts -/

namespace Context

/-- What all of a rendering shares is nothing or a dictionary. -/
def IsShared (context : Context) : Prop := context = .null ∨ ∃ pairs, context = .dict pairs

/-- The value of a name in a shared context. A name that is not there stands for nothing. -/
def valueOf (context : Context) (name : String) : Value :=
  match context with
  | .dict pairs => (Value.get? pairs name).getD .null
  | _ => .null

theorem IsShared.unnamed {context : Context} (h : context.IsShared) (name : String) :
    context ≠ .text name := by
  rcases h with rfl | ⟨pairs, rfl⟩ <;> simp

end Context

theorem lookup_eq_stringify {context : Context} (h : context.IsShared) (name : String) :
    lookup context name = stringify name (context.valueOf name) := by
  rcases h with rfl | ⟨pairs, rfl⟩
  · rfl
  · exact lookup_dict pairs name

end Stencil
