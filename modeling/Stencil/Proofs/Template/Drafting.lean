import Mathlib.Data.List.Basic
import Mathlib.Logic.Function.Basic
import Stencil.Template.Outline

/-!
# Outlines by recursion

* `Entry.outlines`: the outlines of the blocks in a row of entries, by recursion on the entries;
* `Draft.completed`: the outlines of drafts to which children are still due;
* `Sketch.hang_completed`: a child that is hung is no longer due, and changes no outline that is to
  come of the drafts;
* `Sketch.drafted_completed`: so what is to come of the drafts is what comes of them in the end;
* `Template.outline_eq`: the outline of a node has the outlines of its entries below its name.
-/

namespace Stencil

mutual

/-- The outlines of the blocks that an entry is: one or none. -/
def Entry.outline : Entry → List Outline
  | .block name body => [.node name (Entry.outlines body)]
  | _ => []

/-- The outlines of the blocks in a row of entries, in order. -/
def Entry.outlines : List Entry → List Outline
  | [] => []
  | e :: rest => e.outline ++ Entry.outlines rest

end

/-- The outline of a node by recursion. -/
def Template.nested (t : Template) : Outline := .node t.name (Entry.outlines t.entries)

theorem Entry.outlines_eq_map (entries : List Entry) :
    Entry.outlines entries = (entries.filterMap Entry.template?).map Template.nested := by
  induction entries with
  | nil => rfl
  | cons e rest ih =>
    rw [Entry.outlines, ih]
    cases e <;> rfl

/-! ## Drafts to which children are due -/

namespace Draft

/-- The outlines that are to come of drafts, if the children due to each of them come behind those
that are there. -/
def completed (due : Nat → List Outline) (place : Nat) : List Draft → List (Nat × Outline)
  | [] => []
  | draft :: rest =>
    let behind := completed due (place + 1) rest
    (place, .node draft.name
      ((draft.children.filterMap fun child => behind.lookup child) ++ due place)) :: behind

theorem completed_of_none (place : Nat) (drafts : List Draft) :
    completed (fun _ => []) place drafts = outlines place drafts := by
  induction drafts generalizing place with
  | nil => rfl
  | cons draft rest ih => simp only [completed, outlines, ih, List.append_nil]

theorem completed_congr {due due' : Nat → List Outline} {place : Nat} {drafts : List Draft}
    (same : ∀ i, place ≤ i → i < place + drafts.length → due i = due' i) :
    completed due place drafts = completed due' place drafts := by
  induction drafts generalizing place with
  | nil => rfl
  | cons draft rest ih =>
    have own : due place = due' place := same place (Nat.le_refl _) (by simp)
    have others : completed due (place + 1) rest = completed due' (place + 1) rest := by
      apply ih
      intro i from_ bound
      exact same i (by omega) (by simp only [List.length_cons]; omega)
    simp only [completed, own, others]

theorem lookup_completed_of_le {due : Nat → List Outline} {place i : Nat} {drafts : List Draft}
    (outside : place + drafts.length ≤ i) : (completed due place drafts).lookup i = none := by
  induction drafts generalizing place with
  | nil => rfl
  | cons draft rest ih =>
    rw [List.length_cons] at outside
    have other : (i == place) = false := beq_false_of_ne (by omega)
    rw [completed, List.lookup_cons, other]
    exact ih (by omega)

/-- A draft that is added has no effect on the others, for they do not refer to it. -/
theorem completed_concat (due : Nat → List Outline) (name : String) {place : Nat}
    {drafts : List Draft}
    (known : ∀ draft ∈ drafts, ∀ child ∈ draft.children, child < place + drafts.length) :
    completed due place (drafts ++ [⟨name, []⟩]) =
      completed due place drafts ++
        [(place + drafts.length, .node name (due (place + drafts.length)))] := by
  induction drafts generalizing place with
  | nil => rfl
  | cons draft rest ih =>
    have shift : place + (draft :: rest).length = place + 1 + rest.length := by
      simp only [List.length_cons]
      omega
    rw [shift] at known ⊢
    obtain ⟨own, others⟩ := List.forall_mem_cons.1 known
    have unchanged : (draft.children.filterMap fun child =>
        (completed due (place + 1) rest ++
          [(place + 1 + rest.length,
            Outline.node name (due (place + 1 + rest.length)))]).lookup child) =
        draft.children.filterMap fun child => (completed due (place + 1) rest).lookup child := by
      apply List.filterMap_congr
      intro child member
      have earlier := own child member
      have other : (child == place + 1 + rest.length) = false := beq_false_of_ne (by omega)
      rw [List.lookup_append, List.lookup_cons, other]
      simp
    simp only [List.cons_append, completed, ih others, unchanged]

/-- A reference to a draft behind counts as much as the outline of that draft as the first child
that is due. -/
theorem completed_modify (due : Nat → List Outline) {place parent child : Nat} {drafts : List Draft}
    {o : Outline} (there : (completed due place drafts).lookup child = some o)
    (behind : parent < child) (inside : place ≤ parent) :
    completed due place (drafts.modify (parent - place) fun draft =>
        { draft with children := draft.children ++ [child] }) =
      completed (Function.update due parent (o :: due parent)) place drafts := by
  induction drafts generalizing place with
  | nil => simp [completed]
  | cons draft rest ih =>
    have other : (child == place) = false := beq_false_of_ne (by omega)
    rw [completed, List.lookup_cons, other] at there
    by_cases here : parent = place
    · subst here
      have later : completed (Function.update due parent (o :: due parent)) (parent + 1) rest =
          completed due (parent + 1) rest := by
        apply completed_congr
        intro i from_ _
        exact Function.update_of_ne (by omega) _ _
      simp only [Nat.sub_self, List.modify_zero_cons, completed, later, List.filterMap_append,
        Function.update_self, List.filterMap_cons, List.filterMap_nil, there]
      simp
    · obtain ⟨k, rfl⟩ := Nat.exists_eq_add_of_lt (Nat.lt_of_le_of_ne inside (Ne.symm here))
      have step : place + k + 1 - place = k + 1 := by omega
      have later := ih there (by omega)
      rw [show place + k + 1 - (place + 1) = k by omega] at later
      rw [step, List.modify_succ_cons]
      simp only [completed, later, Function.update_of_ne (Ne.symm here)]

end Draft

/-! ## Sketches -/

namespace Sketch

/-- The children that are still due to a draft: those of the pending node that it is the draft
of. -/
def due : List (Template × Nat) → Nat → List Outline
  | [] => fun _ => []
  | (node, place) :: rest => Function.update (due rest) place (Entry.outlines node.entries)

/-- The drafts refer to drafts that are there, and every pending node has a draft of its own. -/
structure Valid (s : Sketch) : Prop where
  known : ∀ draft ∈ s.drafts, ∀ child ∈ draft.children, child < s.drafts.length
  placed : ∀ node ∈ s.pending, node.2 < s.drafts.length
  apart : (s.pending.map Prod.snd).Nodup

theorem due_of_not_mem {pending : List (Template × Nat)} {place : Nat}
    (idle : place ∉ pending.map Prod.snd) : due pending place = [] := by
  induction pending with
  | nil => rfl
  | cons node rest ih =>
    rw [List.map_cons, List.mem_cons, not_or] at idle
    rw [due, Function.update_of_ne idle.1, ih idle.2]

@[simp] theorem length_hang (place : Nat) (s : Sketch) (child : Template) :
    (hang place s child).drafts.length = s.drafts.length + 1 := by
  simp [hang]

variable {s : Sketch} {place : Nat}

theorem hang_valid (valid : s.Valid) (child : Template) : (hang place s child).Valid := by
  constructor
  · intro draft member i referred
    rw [length_hang]
    obtain ⟨k, found⟩ := List.getElem?_of_mem member
    simp only [hang, List.getElem?_modify] at found
    obtain ⟨before, there, rfl⟩ := Option.map_eq_some_iff.1 found
    have old : i ∈ before.children → i < s.drafts.length + 1 := by
      intro inside
      rcases List.mem_append.1 (List.mem_of_getElem? there) with known | new
      · exact Nat.lt_succ_of_lt (valid.known before known i inside)
      · rw [List.mem_singleton.1 new] at inside
        cases inside
    by_cases changed : place = k
    · simp only [changed, ↓reduceIte, List.mem_append, List.mem_singleton] at referred
      rcases referred with inside | rfl
      · exact old inside
      · exact Nat.lt_succ_self _
    · exact old (by simpa [changed] using referred)
  · intro node member
    rw [length_hang]
    rcases List.mem_cons.1 member with rfl | other
    · exact Nat.lt_succ_self _
    · exact Nat.lt_succ_of_lt (valid.placed node other)
  · refine List.nodup_cons.2 ⟨?_, valid.apart⟩
    intro member
    obtain ⟨node, other, same⟩ := List.mem_map.1 member
    exact absurd same (Nat.ne_of_lt (valid.placed node other))

/-- **Hanging a child pays what is due.** The outlines to come of all drafts stay what they are, and
that of the child comes last. -/
theorem hang_completed (valid : s.Valid) (inside : place < s.drafts.length) (child : Template)
    (others : List Outline) :
    Draft.completed (Function.update (due (hang place s child).pending) place others) 0
        (hang place s child).drafts =
      Draft.completed (Function.update (due s.pending) place (child.nested :: others)) 0 s.drafts ++
        [(s.drafts.length, child.nested)] := by
  have different : s.drafts.length ≠ place := by omega
  have known : ∀ draft ∈ s.drafts, ∀ i ∈ draft.children, i < 0 + s.drafts.length := by
    simpa using valid.known
  let owed := Function.update (due s.pending) s.drafts.length (Entry.outlines child.entries)
  -- The draft of the child comes last with all its children due, wherever else children are due.
  have added (rest : List Outline) :
      Draft.completed (Function.update owed place rest) 0 (s.drafts ++ [⟨child.name, []⟩]) =
        Draft.completed (Function.update (due s.pending) place rest) 0 s.drafts ++
          [(s.drafts.length, child.nested)] := by
    rw [Draft.completed_concat _ child.name known, Nat.zero_add,
      Function.update_of_ne different]
    congr 1
    · apply Draft.completed_congr
      intro i _ bound
      by_cases here : i = place
      · rw [here, Function.update_self, Function.update_self]
      · rw [Function.update_of_ne here, Function.update_of_ne here]
        exact Function.update_of_ne (by omega) _ _
    · simp only [owed, Function.update_self]
      rfl
  have there : (Draft.completed (Function.update owed place others) 0
      (s.drafts ++ [⟨child.name, []⟩])).lookup s.drafts.length = some child.nested := by
    rw [added, List.lookup_append, Draft.lookup_completed_of_le (by omega)]
    simp
  have moved := Draft.completed_modify _ there inside (Nat.zero_le _)
  rw [Function.update_self, Function.update_idem, added] at moved
  exact moved

/-- The children of a node are hung to its draft in order, and nothing else changes. -/
theorem foldl_hang_completed (children : List Template) (valid : s.Valid)
    (inside : place < s.drafts.length) (idle : place ∉ s.pending.map Prod.snd) :
    (children.foldl (hang place) s).Valid ∧
      Draft.completed (Function.update (due s.pending) place (children.map Template.nested)) 0
          s.drafts <+:
        Draft.completed (due (children.foldl (hang place) s).pending) 0
          (children.foldl (hang place) s).drafts := by
  induction children generalizing s with
  | nil =>
    refine ⟨valid, [], ?_⟩
    rw [List.append_nil, List.foldl_nil, List.map_nil, ← due_of_not_mem idle,
      Function.update_eq_self]
  | cons child children ih =>
    have stillIdle : place ∉ (hang place s child).pending.map Prod.snd := by
      rw [hang, List.map_cons, List.mem_cons, not_or]
      exact ⟨Nat.ne_of_lt inside, idle⟩
    obtain ⟨validAll, later⟩ := ih (hang_valid valid child) (by rw [length_hang]; omega) stillIdle
    rw [hang_completed valid inside] at later
    exact ⟨validAll, (List.prefix_append ..).trans later⟩

/-- What is to come of the drafts is what comes of them in the end. -/
theorem drafted_completed (valid : s.Valid) :
    Draft.completed (due s.pending) 0 s.drafts <+: Draft.outlines 0 s.drafted := by
  fun_induction drafted s with
  | case1 drafts =>
    refine ⟨[], ?_⟩
    rw [List.append_nil, due, Draft.completed_of_none]
  | case2 drafts node place rest ih =>
    have fresh := List.nodup_cons.1 valid.apart
    have popped : Valid ⟨drafts, rest⟩ :=
      ⟨valid.known, (List.forall_mem_cons.1 valid.placed).2, fresh.2⟩
    have inside := (List.forall_mem_cons.1 valid.placed).1
    obtain ⟨validAll, step⟩ := foldl_hang_completed node.children popped inside fresh.1
    rw [due, Entry.outlines_eq_map]
    exact step.trans (ih validAll)

end Sketch

/-- The outline of a node has the outlines of its entries below its name. -/
theorem Template.outline_eq (t : Template) :
    t.outline = .node t.name (Entry.outlines t.entries) := by
  have valid : (Sketch.start t).Valid := by
    constructor <;> simp [Sketch.start]
  have first : Draft.completed (Sketch.due (Sketch.start t).pending) 0 (Sketch.start t).drafts =
      [(0, .node t.name (Entry.outlines t.entries))] := by
    simp [Sketch.start, Sketch.due, Draft.completed]
  obtain ⟨others, whole⟩ := Sketch.drafted_completed valid
  rw [outline, ← whole, first]
  rfl

end Stencil
