import Stencil.Proofs.Context.Checked
import Stencil.Proofs.Keys

/-!
# What checking a dictionary gives

* `Value.map_fst_put`, `Value.lookup_put`: a pair that is put into a context takes the place of its
  name, or the last place, and changes the value of no other name;
* `validate_cases`, `validate_eq_error_iff`: a dictionary is refused for its first value that
  is not supported, and else all its pairs are put into the empty context;
* `Value.keys_gathered`, `Value.lookup_gathered`: what comes of that, name by name;
* `Value.gathered_named`: a context that is checked once more stays as it is;
* `validate_exact`: all of this together.
-/

namespace Stencil

namespace Value

/-! ## Putting a pair into a context -/

theorem map_fst_put (key : String) (value : Value) (pairs : List (String × Value)) :
    (put key value pairs).map Prod.fst =
      if key ∈ pairs.map Prod.fst then pairs.map Prod.fst else pairs.map Prod.fst ++ [key] := by
  induction pairs with
  | nil => rfl
  | cons first rest ih =>
    obtain ⟨name, v⟩ := first
    by_cases same : name = key
    · simp [put, same]
    · have other : key ≠ name := Ne.symm same
      rw [put, if_neg same, List.map_cons, ih]
      simp only [List.map_cons, List.mem_cons, other, false_or]
      split <;> rfl

theorem lookup_put (key : String) (value : Value) (pairs : List (String × Value)) (name : String) :
    (put key value pairs).lookup name = if key = name then some value else pairs.lookup name := by
  induction pairs with
  | nil =>
    by_cases asked : key = name
    · simp [put, asked]
    · simp [put, asked, List.lookup_cons, beq_false_of_ne (Ne.symm asked)]
  | cons first rest ih =>
    obtain ⟨n, v⟩ := first
    by_cases same : n = key
    · subst same
      rw [put, if_pos rfl, List.lookup_cons, List.lookup_cons]
      by_cases asked : n = name
      · simp [asked]
      · simp [asked, beq_false_of_ne (Ne.symm asked)]
    · rw [put, if_neg same, List.lookup_cons, List.lookup_cons, ih]
      by_cases asked : n = name
      · subst asked
        simp [Ne.symm same]
      · simp [beq_false_of_ne (Ne.symm asked)]

/-- A pair with a new name comes last. -/
theorem put_of_not_mem {key : String} {value : Value} {pairs : List (String × Value)}
    (new : key ∉ pairs.map Prod.fst) : put key value pairs = pairs ++ [(key, value)] := by
  induction pairs with
  | nil => rfl
  | cons first rest ih =>
    rw [List.map_cons, List.mem_cons, not_or] at new
    rw [put, if_neg (Ne.symm new.1), ih new.2, List.cons_append]

/-! ## Putting all pairs of a dictionary into a context -/

/-- The pairs of a dictionary, put into an empty context under their labels one after the other. -/
def gathered (pairs : List (Value × Value)) : List (String × Value) :=
  pairs.foldl (fun checked pair => put pair.1.label pair.2 checked) []

theorem gathered_concat (pairs : List (Value × Value)) (pair : Value × Value) :
    gathered (pairs ++ [pair]) = put pair.1.label pair.2 (gathered pairs) := by
  simp [gathered]

theorem addsKey_put :
    AddsKey (fun checked (pair : Value × Value) => put pair.1.label pair.2 checked)
      fun pair => pair.1.label :=
  fun checked pair => map_fst_put pair.1.label pair.2 checked

/-- The names are the labels in the order of their first appearance. -/
theorem keys_gathered (pairs : List (Value × Value)) :
    (gathered pairs).map Prod.fst = (pairs.map fun pair => pair.1.label).eraseDups :=
  keys_foldl addsKey_put pairs

theorem nodup_keys_gathered (pairs : List (Value × Value)) :
    ((gathered pairs).map Prod.fst).Nodup :=
  nodup_keys_foldl addsKey_put pairs

/-- The value under a name is that of the last pair with this label. -/
theorem lookup_gathered (pairs : List (Value × Value)) (name : String) :
    (gathered pairs).lookup name =
      (pairs.reverse.find? fun pair => pair.1.label == name).map Prod.snd := by
  induction pairs using List.reverseRecOn with
  | nil => rfl
  | append_singleton pairs pair ih =>
    rw [gathered_concat, lookup_put, ih, List.reverse_append, List.reverse_singleton,
      List.singleton_append, List.find?_cons]
    by_cases last : pair.1.label = name
    · simp [last]
    · simp [last, beq_false_of_ne last]

/-- The pairs of a context, with its names for keys. -/
def named (pairs : List (String × Value)) : List (Value × Value) :=
  pairs.map fun pair => (.text pair.1, pair.2)

/-- Where the names are distinct, nothing moves and nothing is lost. -/
theorem gathered_named {pairs : List (String × Value)} (distinct : (pairs.map Prod.fst).Nodup) :
    gathered (named pairs) = pairs := by
  induction pairs using List.reverseRecOn with
  | nil => rfl
  | append_singleton pairs pair ih =>
    rw [List.map_append, List.map_singleton] at distinct
    obtain ⟨earlier, _, apart⟩ := List.nodup_append.1 distinct
    have new : pair.1 ∉ pairs.map Prod.fst := fun member => apart _ member _ (by simp) rfl
    have label : (Value.text pair.1).label = pair.1 := rfl
    rw [named, List.map_append, List.map_singleton, gathered_concat, ← named, ih earlier, label,
      put_of_not_mem new]

theorem get?_named (pairs : List (String × Value)) (name : String) :
    get? (named pairs) name = pairs.lookup name := by
  induction pairs with
  | nil => rfl
  | cons pair rest ih =>
    rw [get?, named, List.map_cons, List.find?_cons, List.lookup_cons, isText]
    by_cases asked : pair.1 = name
    · simp [asked]
    · rw [beq_false_of_ne asked, beq_false_of_ne (Ne.symm asked)]
      exact ih

end Value

/-! ## Checking -/

/-- A dictionary of supported values is gathered as it is. -/
theorem validate_of_supported {pairs : List (Value × Value)}
    (supported : ∀ pair ∈ pairs, pair.2.isSupported = true) :
    validate pairs = .ok (Value.gathered pairs) := by
  unfold validate Value.gathered
  generalize ([] : List (String × Value)) = start
  induction pairs generalizing start with
  | nil => rfl
  | cons pair rest ih =>
    obtain ⟨own, others⟩ := List.forall_mem_cons.1 supported
    rw [List.foldlM_cons, if_pos own, List.foldl_cons]
    exact ih others _

/-- The first value that is not supported is to blame, whatever comes behind it. -/
theorem validate_of_unsupported {before after : List (Value × Value)} {pair : Value × Value}
    (supported : ∀ p ∈ before, p.2.isSupported = true) (refused : pair.2.isSupported = false) :
    validate (before ++ pair :: after) = .error (.unsupported pair.1.label pair.2.typeName) := by
  have earlier := validate_of_supported supported
  unfold validate at earlier ⊢
  rw [List.foldlM_append, earlier]
  simp only [List.foldlM_cons, refused]
  rfl

/-- Of a dictionary that is not supported throughout, some value is the first to be refused. -/
theorem validate_cases (pairs : List (Value × Value)) :
    ((∀ pair ∈ pairs, pair.2.isSupported = true) ∧ validate pairs = .ok (Value.gathered pairs)) ∨
    ∃ before pair after, pairs = before ++ pair :: after ∧
      (∀ p ∈ before, p.2.isSupported = true) ∧ pair.2.isSupported = false ∧
      validate pairs = .error (.unsupported pair.1.label pair.2.typeName) := by
  cases first : pairs.find? fun pair => !pair.2.isSupported with
  | none =>
    have supported : ∀ pair ∈ pairs, pair.2.isSupported = true := by
      simpa using List.find?_eq_none.1 first
    exact .inl ⟨supported, validate_of_supported supported⟩
  | some pair =>
    obtain ⟨unsupported, before, after, rfl, earlier⟩ := List.find?_eq_some_iff_append.1 first
    have unsupported : pair.2.isSupported = false := by simpa using unsupported
    have earlier : ∀ p ∈ before, p.2.isSupported = true := by simpa using earlier
    exact .inr ⟨before, pair, after, rfl, earlier, unsupported,
      validate_of_unsupported earlier unsupported⟩

theorem validate_eq_error_iff {pairs : List (Value × Value)} {e : Error} :
    validate pairs = .error e ↔
      ∃ before pair after, pairs = before ++ pair :: after ∧
        (∀ p ∈ before, p.2.isSupported = true) ∧ pair.2.isSupported = false ∧
          e = .unsupported pair.1.label pair.2.typeName := by
  constructor
  · intro refused
    obtain ⟨_, checked⟩ | ⟨before, pair, after, rfl, earlier, unsupported, fails⟩ :=
      validate_cases pairs
    · cases checked.symm.trans refused
    · exact ⟨before, pair, after, rfl, earlier, unsupported,
        Except.error.inj (refused.symm.trans fails)⟩
  · rintro ⟨before, pair, after, rfl, earlier, unsupported, rfl⟩
    exact validate_of_unsupported earlier unsupported

/-- **Checking is exact and keeps the order.** A dictionary is refused if and only if some value in
it is not supported, and the first such value is to blame, under its label. Every other dictionary
gives a context whose names are distinct: they are the labels of the keys in the order of their
first appearance. A name has the text of the value of the last key with this label there, and the
empty text if there is none. A context that is checked once more stays what it is, and so does a
dictionary with names for keys. -/
theorem validate_exact (pairs : List (Value × Value)) :
    (∀ e, validate pairs = .error e ↔
      ∃ before pair after, pairs = before ++ pair :: after ∧
        (∀ p ∈ before, p.2.isSupported = true) ∧ pair.2.isSupported = false ∧
          e = .unsupported pair.1.label pair.2.typeName) ∧
    ((∀ pair ∈ pairs, pair.2.isSupported = true) →
      ∃ checked, validate pairs = .ok checked ∧
        (checked.map Prod.fst).Nodup ∧
        checked.map Prod.fst = (pairs.map fun pair => pair.1.label).eraseDups ∧
        (∀ name, lookup (.ofChecked checked) name =
          match pairs.reverse.find? fun pair => pair.1.label == name with
          | some pair => stringify name pair.2
          | none => .ok "") ∧
        validate (Value.named checked) = .ok checked ∧
        ∀ names, (names.map Prod.fst).Nodup → pairs = Value.named names → checked = names) := by
  refine ⟨fun e => validate_eq_error_iff, fun supported => ?_⟩
  have checked := validate_of_supported supported
  have distinct := Value.nodup_keys_gathered pairs
  refine ⟨Value.gathered pairs, checked, distinct, Value.keys_gathered pairs, ?_, ?_, ?_⟩
  · intro name
    rw [Value.ofChecked, lookup_dict, ← Value.named, Value.get?_named, Value.lookup_gathered]
    cases pairs.reverse.find? fun pair => pair.1.label == name <;> rfl
  · have again : ∀ pair ∈ Value.named (Value.gathered pairs), pair.2.isSupported = true := by
      intro pair member
      obtain ⟨old, among, rfl⟩ := List.mem_map.1 member
      exact validate_supported checked old among
    rw [validate_of_supported again, Value.gathered_named distinct]
  · rintro names apart rfl
    exact Value.gathered_named apart

/-- Two keys with one label: the first gives the place and the last the value. -/
theorem validate_exact_of_collision :
    let pairs : List (Value × Value) :=
      [(.int 1, .text "a"), (.text "x", .int 3), (.text "1", .text "b")]
    (∀ pair ∈ pairs, pair.2.isSupported = true) ∧
      ∃ checked, validate pairs = .ok checked ∧ checked.map Prod.fst = ["1", "x"] ∧
        lookup (.ofChecked checked) "1" = .ok "b" := by
  intro pairs
  have supported : ∀ pair ∈ pairs, pair.2.isSupported = true := by simp [pairs, Value.isSupported]
  obtain ⟨checked, gives, _, keys, texts, _⟩ := (validate_exact pairs).2 supported
  refine ⟨supported, checked, gives, ?_, ?_⟩
  · rw [keys]
    decide +kernel
  · rw [texts]
    rfl

end Stencil
