import Stencil.Proofs.Files.Loading

/-!
# Where wrong content is met

* `Node.Meets`: a fault in the content of a scalar that is read for a node, or of a key;
* `Node.meets_of_value`: such a fault is met where a node has no value because of its content;
* `Node.value_of_meets`: and a node that meets one has no value;
* `Filling.Keeps`: steps of filling that find and put off only what the root node meets;
* `load_content`, `load_ok`: wrong content keeps a document from being loaded, and nothing else is
  blamed as such.
-/

namespace Stencil

section

variable {ε ε' α β : Type}

theorem map_eq_error_iff {r : Except ε α} {g : α → β} {e : ε} :
    g <$> r = .error e ↔ r = .error e := by
  cases r <;> simp [Functor.map, Except.map]

theorem bind_eq_error_iff {r : Except ε α} {g : α → Except ε β} {e : ε} :
    r >>= g = .error e ↔ r = .error e ∨ ∃ a, r = .ok a ∧ g a = .error e := by
  cases r <;> simp [Bind.bind, Except.bind]

theorem bind_eq_ok_iff {r : Except ε α} {g : α → Except ε β} {b : β} :
    r >>= g = .ok b ↔ ∃ a, r = .ok a ∧ g a = .ok b := by
  cases r <;> simp [Bind.bind, Except.bind]

theorem mapError_eq_error_iff {r : Except ε α} {g : ε → ε'} {e : ε'} :
    r.mapError g = .error e ↔ ∃ cause, r = .error cause ∧ g cause = e := by
  cases r with
  | error cause =>
    constructor
    · intro h
      exact ⟨cause, rfl, Except.error.inj h⟩
    · rintro ⟨_, same, h⟩
      rw [Except.error.inj same]
      exact congrArg Except.error h
  | ok a =>
    constructor
    · intro h
      cases h
    · rintro ⟨_, same, _⟩
      cases same

end

namespace Yaml

/-! ## Nodes -/

/-- A key cannot be hashed because of a part that may change. -/
def Node.KeyChanges (k : Node) (f : ContentFault) : Prop :=
  ∃ v key part, k.inKey k.value = .ok v ∧ keyOf v = .ok key ∧ changeable? key = some part ∧
    f = .key part.typeName

/-- The value of the node calls for content that has this fault. In a mapping keys are read as well
as values, and may turn out to be no keys; a mapping of another type calls for its default value. -/
inductive Node.Meets : Node → ContentFault → Prop
  | scalar {tag : Tag} {content : String} {number : Nat} {f : ContentFault}
      (wrong : scalarValue tag content number = .error (.content f)) :
      Meets (.scalar tag content number) f
  | default {tag : Tag} {merged own : List (Node × Node)} {problem? : Option Problem}
      {content : String} {number : Nat} {f : ContentFault} (other : tag ≠ .mapping)
      (found : Node.defaultContent? own = some (content, number))
      (wrong : scalarValue tag content number = .error (.content f)) :
      Meets (.mapping tag merged own problem?) f
  | item {items : List Node} {n : Node} {f : ContentFault} (member : n ∈ items)
      (inside : Meets n f) : Meets (.sequence .sequence items) f
  | key {merged own : List (Node × Node)} {pair : Node × Node} {f : ContentFault}
      (member : pair ∈ merged ++ own) (inside : Meets pair.1 f) :
      Meets (.mapping .mapping merged own none) f
  | entry {merged own : List (Node × Node)} {pair : Node × Node} {f : ContentFault}
      (member : pair ∈ merged ++ own) (inside : Meets pair.2 f) :
      Meets (.mapping .mapping merged own none) f
  | changes {merged own : List (Node × Node)} {pair : Node × Node} {f : ContentFault}
      (member : pair ∈ merged ++ own) (changes : pair.1.KeyChanges f) :
      Meets (.mapping .mapping merged own none) f

namespace Node

/-- What one of these pairs meets. -/
def PairsMeet (pairs : List (Node × Node)) (f : ContentFault) : Prop :=
  ∃ pair ∈ pairs, pair.1.Meets f ∨ pair.2.Meets f ∨ pair.1.KeyChanges f

theorem PairsMeet.mapping {merged own : List (Node × Node)} {f : ContentFault}
    (h : PairsMeet (merged ++ own) f) : Meets (.mapping .mapping merged own none) f := by
  obtain ⟨pair, member, inside | inside | changes⟩ := h
  · exact .key member inside
  · exact .entry member inside
  · exact .changes member changes

theorem PairsMeet.mono {pairs more : List (Node × Node)} {f : ContentFault} (h : PairsMeet pairs f)
    (among : pairs ⊆ more) : PairsMeet more f := by
  obtain ⟨pair, member, inside⟩ := h
  exact ⟨pair, among member, inside⟩

/-- Content is read for a key where the key has no value because of it. -/
theorem value_of_inKey {k : Node} {f : ContentFault}
    (wrong : k.inKey k.value = .error (.content f)) : k.value = .error (.content f) := by
  unfold inKey at wrong
  split at wrong
  · cases wrong
  · exact wrong

theorem keyOf_ne_content (v : Value) (f : ContentFault) : keyOf v ≠ .error (.content f) := by
  unfold keyOf
  split <;> simp

theorem checkKey_eq_content {checked : Bool} {seen : List Value} {key : Value} {f : ContentFault}
    (wrong : checkKey checked seen key = .error (.content f)) :
    ∃ part, changeable? key = some part ∧ f = .key part.typeName := by
  unfold checkKey at wrong
  split at wrong
  · next part found => exact ⟨part, found, by simpa using wrong.symm⟩
  · split at wrong <;> cases wrong

/-- A mapping of another type has the value of its default value. -/
theorem value_of_other {tag : Tag} (other : tag ≠ .mapping) (merged own : List (Node × Node))
    (problem? : Option Problem) :
    (mapping tag merged own problem?).value = defaultValue tag (defaultContent? own) := by
  cases tag with
  | mapping => exact absurd rfl other
  | _ => simp [Node.value]

mutual

/-- Where the content of a node is to blame for its having no value, the node meets the fault. -/
theorem meets_of_value {f : ContentFault} :
    (n : Node) → n.value = .error (.content f) → n.Meets f
  | .scalar tag content number => fun wrong => .scalar (by simpa only [Node.value] using wrong)
  | .sequence tag items => fun wrong => by
    by_cases plain : tag = .sequence
    · subst plain
      simp only [Node.value, map_eq_error_iff] at wrong
      obtain ⟨n, member, inside⟩ := meets_of_values items wrong
      exact .item member inside
    · simp only [Node.value] at wrong
      cases wrong
  | .mapping tag merged own problem? => fun wrong => by
    by_cases plain : tag = .mapping
    · subst plain
      cases problem? with
      | some p =>
        simp only [Node.value] at wrong
        cases wrong
      | none =>
        simp only [Node.value, bind_eq_error_iff] at wrong
        apply PairsMeet.mapping
        obtain wrong | ⟨done, _, wrong | ⟨all, _, wrong⟩⟩ := wrong
        · exact (meets_of_pairs merged _ _ wrong).mono (List.subset_append_left _ _)
        · exact (meets_of_pairs own _ _ wrong).mono (List.subset_append_right _ _)
        · cases wrong
    · rw [value_of_other plain] at wrong
      unfold defaultValue at wrong
      split at wrong
      · next content number found =>
        split at wrong
        · cases wrong
        · exact .default plain found wrong
      · cases wrong

theorem meets_of_values {f : ContentFault} :
    (items : List Node) → Node.values items = .error (.content f) → ∃ n ∈ items, n.Meets f
  | [] => fun wrong => by
    simp only [Node.values] at wrong
    cases wrong
  | n :: rest => fun wrong => by
    simp only [Node.values, bind_eq_error_iff] at wrong
    obtain wrong | ⟨v, _, wrong | ⟨vs, _, wrong⟩⟩ := wrong
    · exact ⟨n, List.mem_cons_self, meets_of_value n wrong⟩
    · obtain ⟨m, member, inside⟩ := meets_of_values rest wrong
      exact ⟨m, List.mem_cons_of_mem _ member, inside⟩
    · cases wrong

theorem meets_of_pairs {f : ContentFault} :
    (pairs : List (Node × Node)) → (checked : Bool) → (done : List (Value × Value)) →
      Node.pairs checked done pairs = .error (.content f) → PairsMeet pairs f
  | [] => fun _ _ wrong => by
    simp only [Node.pairs] at wrong
    cases wrong
  | (k, n) :: rest => fun checked done wrong => by
    simp only [Node.pairs, bind_eq_error_iff] at wrong
    obtain wrong | ⟨v, read, wrong | ⟨key, made, wrong | ⟨w, _, wrong | ⟨_, _, wrong⟩⟩⟩⟩ := wrong
    · exact ⟨(k, n), List.mem_cons_self, .inl (meets_of_value k (value_of_inKey wrong))⟩
    · exact absurd wrong (keyOf_ne_content v f)
    · exact ⟨(k, n), List.mem_cons_self, .inr (.inl (meets_of_value n wrong))⟩
    · obtain ⟨part, found, same⟩ := checkKey_eq_content wrong
      exact ⟨(k, n), List.mem_cons_self, .inr (.inr ⟨v, key, part, read, made, found, same⟩)⟩
    · exact (meets_of_pairs rest _ _ wrong).mono (List.subset_cons_self _ _)

end

theorem values_eq_ok {items : List Node} {vs : List Value} (h : Node.values items = .ok vs) :
    ∀ n ∈ items, ∃ v, n.value = .ok v := by
  induction items generalizing vs with
  | nil => exact fun n none => absurd none List.not_mem_nil
  | cons first rest ih =>
    simp only [Node.values, bind_eq_ok_iff] at h
    obtain ⟨v, read, ws, others, _⟩ := h
    exact List.forall_mem_cons.2 ⟨⟨v, read⟩, ih others⟩

/-- The pairs of a dictionary have all been read, and their keys have proved to be keys. -/
theorem pairs_eq_ok {checked : Bool} {done all : List (Value × Value)} {pairs : List (Node × Node)}
    (h : Node.pairs checked done pairs = .ok all) :
    ∀ pair ∈ pairs, (∃ v key, pair.1.inKey pair.1.value = .ok v ∧ keyOf v = .ok key ∧
      changeable? key = none) ∧ ∃ w, pair.2.value = .ok w := by
  induction pairs generalizing done with
  | nil => exact fun pair none => absurd none List.not_mem_nil
  | cons first rest ih =>
    obtain ⟨k, n⟩ := first
    simp only [Node.pairs, bind_eq_ok_iff] at h
    obtain ⟨v, read, key, made, w, entry, _, accepted, others⟩ := h
    refine List.forall_mem_cons.2 ⟨⟨⟨v, key, read, made, ?_⟩, w, entry⟩, ih others⟩
    unfold checkKey at accepted
    split at accepted
    · cases accepted
    · next unchanging => exact unchanging

/-- All pairs of a mapping that has a value are read, those that are merged into it as well. -/
theorem pairs_of_value {merged own : List (Node × Node)} {v : Value}
    (h : (mapping .mapping merged own none).value = .ok v) :
    ∀ pair ∈ merged ++ own, (∃ v key, pair.1.inKey pair.1.value = .ok v ∧ keyOf v = .ok key ∧
      changeable? key = none) ∧ ∃ w, pair.2.value = .ok w := by
  simp only [Node.value, bind_eq_ok_iff] at h
  obtain ⟨done, brought, all, put, _⟩ := h
  exact List.forall_mem_append.2 ⟨pairs_eq_ok brought, pairs_eq_ok put⟩

/-- The mark of a default value is the only key that is not read by its own value. -/
theorem value_of_key {k : Node} {v : Value} {f : ContentFault} (meets : k.Meets f)
    (read : k.inKey k.value = .ok v) : k.value = .ok v := by
  unfold inKey at read
  split at read
  · cases meets with
    | scalar wrong => cases wrong
  · exact read

/-- A node that has a value meets no fault. -/
theorem not_meets_of_value {n : Node} {v : Value} (h : n.value = .ok v) (f : ContentFault) :
    ¬ n.Meets f := by
  intro meets
  induction meets generalizing v with
  | scalar wrong =>
    rw [Node.value, wrong] at h
    cases h
  | default other found wrong =>
    rw [value_of_other other, found, defaultValue] at h
    split at h
    · cases h
    · rw [wrong] at h
      cases h
  | item member _ ih =>
    simp only [Node.value] at h
    cases items : Node.values _ with
    | error e => rw [items] at h; cases h
    | ok vs =>
      obtain ⟨w, read⟩ := values_eq_ok items _ member
      exact ih read
  | key member inside ih =>
    obtain ⟨⟨w, _, read, _⟩, _⟩ := pairs_of_value h _ member
    exact ih (value_of_key inside read)
  | entry member _ ih =>
    obtain ⟨_, w, read⟩ := pairs_of_value h _ member
    exact ih read
  | changes member changes =>
    obtain ⟨⟨w, key, read, made, unchanging⟩, _⟩ := pairs_of_value h _ member
    obtain ⟨w', key', part, read', made', found, _⟩ := changes
    obtain rfl := Except.ok.inj (read.symm.trans read')
    obtain rfl := Except.ok.inj (made.symm.trans made')
    rw [unchanging] at found
    cases found

end Node

/-! ## Filling -/

namespace Filling

variable {α β : Type} {root : Node}

/-- What is put off meets no more than the root does. -/
def Pending (root : Node) (b : Backlog) : Prop :=
  ∀ n ∈ b.pending, ∀ f, n.Meets f → root.Meets f

/-- From this backlog on, a step puts off and finds only what the root meets. -/
def Keeps (root : Node) (x : Filling α) (b : Backlog) : Prop :=
  Pending root b → Pending root (x.run.run b).2 ∧
    ∀ f, (x.run.run b).1 = .error (.content f) → root.Meets f

theorem Keeps.pure (a : α) (b : Backlog) : Keeps root (Pure.pure a) b :=
  fun pending => ⟨pending, fun _ wrong => nomatch wrong⟩

theorem Keeps.ofExcept {r : Except Fault α} (b : Backlog)
    (blames : ∀ f, r = .error (.content f) → root.Meets f) :
    Keeps root (MonadExcept.ofExcept r) b := by
  cases r with
  | ok a => exact .pure a b
  | error e => exact fun pending => ⟨pending, blames⟩

theorem Keeps.bind {x : Filling α} {g : α → Filling β} {b : Backlog} (first : Keeps root x b)
    (second : ∀ a between, x.run.run b = (.ok a, between) → Keeps root (g a) between) :
    Keeps root (x >>= g) b := by
  intro pending
  obtain ⟨left, blames⟩ := first pending
  rw [run_bind]
  split
  · next a between ran =>
    rw [ran] at left
    exact second a between ran left
  · next e between ran =>
    rw [ran] at left blames
    exact ⟨left, fun f wrong => blames f (by rw [Except.error.inj wrong])⟩

theorem Keeps.forM {f : α → Filling Unit} {items : List α}
    (each : ∀ a ∈ items, ∀ b, Keeps root (f a) b) (b : Backlog) : Keeps root (items.forM f) b := by
  induction items generalizing b with
  | nil => exact .pure _ b
  | cons a rest ih =>
    obtain ⟨own, others⟩ := List.forall_mem_cons.1 each
    exact (own b).bind fun _ between _ => ih others between

/-- What is put off before may be taken to meet no more than the root does. -/
theorem Keeps.assume {x : Filling α} {b : Backlog} (h : Pending root b → Keeps root x b) :
    Keeps root x b :=
  fun pending => h pending pending

theorem Keeps.get {g : Backlog → Filling α} {b : Backlog} (next : Keeps root (g b) b) :
    Keeps root (MonadState.get >>= g) b := next

theorem Keeps.modify {f : Backlog → Backlog} {b : Backlog}
    (kept : Pending root b → Pending root (f b)) : Keeps root (modify f) b :=
  fun pending => ⟨kept pending, fun _ wrong => nomatch wrong⟩

/-- A node is read at once. -/
theorem Keeps.value {n : Node} (among : ∀ f, n.Meets f → root.Meets f) (b : Backlog) :
    Keeps root (discard (MonadExcept.ofExcept n.value)) b :=
  Keeps.bind (.ofExcept b fun f wrong => among f (n.meets_of_value wrong))
    fun _ between _ => .pure () between

theorem meet_keeps {n : Node} (among : ∀ f, n.Meets f → root.Meets f) (b : Backlog) :
    Keeps root (meet n) b := by
  unfold meet
  refine .get ?_
  split
  · refine .modify fun pending m member => ?_
    obtain earlier | last := List.mem_append.1 member
    · exact pending m earlier
    · exact List.mem_singleton.1 last ▸ among
  · exact .value among b

theorem key_keeps {k : Node} (among : ∀ f, k.Meets f → root.Meets f) (b : Backlog) :
    Keeps root (key k) b := by
  unfold key
  split
  · next v _ => exact .ofExcept b fun f wrong => absurd wrong (Node.keyOf_ne_content v f)
  · next e read =>
    refine Keeps.bind (.modify id) fun _ between _ => .ofExcept (r := .error e) between ?_
    intro f wrong
    rw [Except.error.inj wrong] at read
    exact among f (k.meets_of_value (Node.value_of_inKey read))

theorem key_eq_ok {k : Node} {b left : Backlog} {made : Value}
    (h : (key k).run.run b = (.ok made, left)) :
    ∃ v, k.inKey k.value = .ok v ∧ keyOf v = .ok made := by
  unfold key at h
  split at h
  · next v read =>
    cases outcome : keyOf v with
    | ok key =>
      rw [outcome] at h
      cases h
      exact ⟨v, read, outcome⟩
    | error e =>
      rw [outcome] at h
      cases h
  · cases h

theorem meetPairs_keeps {checked : Bool} {seen : List Value} {pairs : List (Node × Node)}
    (among : ∀ f, Node.PairsMeet pairs f → root.Meets f) (b : Backlog) :
    Keeps root (meetPairs checked seen pairs) b := by
  induction pairs generalizing seen b with
  | nil => exact .pure _ b
  | cons pair rest ih =>
    have own : ∀ f, pair.1.Meets f ∨ pair.2.Meets f ∨ pair.1.KeyChanges f → root.Meets f :=
      fun f met => among f ⟨pair, List.mem_cons_self, met⟩
    refine (key_keeps (fun f met => own f (.inl met)) b).bind fun made between ran => ?_
    refine (meet_keeps (fun f met => own f (.inr (.inl met))) between).bind fun _ between _ => ?_
    refine Keeps.bind (.ofExcept between fun f wrong => ?_) fun _ between _ =>
      ih (fun f met => among f (met.mono (List.subset_cons_self _ _))) between
    obtain ⟨v, read, made⟩ := key_eq_ok ran
    obtain ⟨part, found, same⟩ := Node.checkKey_eq_content wrong
    exact own f (.inr (.inr ⟨v, _, part, read, made, found, same⟩))

theorem fill_keeps {n : Node} (among : ∀ f, n.Meets f → root.Meets f) (b : Backlog) :
    Keeps root (fill n) b := by
  unfold fill
  refine .get ?_
  split
  · exact .value among b
  · split
    · next items =>
      exact .forM (fun m member b => meet_keeps (fun f inside => among f (.item member inside)) b) b
    · next merged own =>
      refine (meetPairs_keeps (fun f met => among f (met.mono ?_).mapping) b).bind
        fun _ between _ => meetPairs_keeps (fun f met => among f (met.mono ?_).mapping) between
      · exact List.subset_append_left _ _
      · exact List.subset_append_right _ _
    · exact .value among b

theorem rounds_keeps (fuel : Nat) (b : Backlog) : Keeps root (rounds fuel) b := by
  induction fuel generalizing b with
  | zero => exact .pure _ b
  | succ fuel ih =>
    unfold rounds
    refine .get (.assume fun pending => ?_)
    dsimp only
    split
    · refine Keeps.bind (.modify fun _ _ none => absurd none List.not_mem_nil) fun _ between _ => ?_
      exact (Keeps.forM (fun n member b => fill_keeps (pending n member) b) between).bind
        fun _ between _ => ih between
    · exact .pure _ b

/-- Of a root node only what it meets is found, if nothing is put off from before. -/
theorem root_keeps (n : Node) (b : Backlog) : Keeps n (Filling.root n) b := by
  unfold Filling.root
  refine (meet_keeps (fun _ => id) b).bind fun _ between _ => .get ?_
  refine (rounds_keeps _ between).bind fun _ between _ => ?_
  refine Keeps.bind (.ofExcept between fun f => n.meets_of_value) fun v between _ => ?_
  exact fun pending => ⟨fun _ none => absurd none List.not_mem_nil, fun _ wrong => nomatch wrong⟩

/-- A root node that is read to its end has its own value. -/
theorem root_eq_ok {n : Node} {b left : Backlog} {v : Value}
    (h : (Filling.root n).run.run b = (.ok v, left)) : n.value = .ok v := by
  unfold Filling.root at h
  obtain ⟨_, _, _, h⟩ := run_bind_eq_ok.1 h
  obtain ⟨_, _, _, h⟩ := run_bind_eq_ok.1 h
  obtain ⟨_, _, _, h⟩ := run_bind_eq_ok.1 h
  obtain ⟨w, _, read, h⟩ := run_bind_eq_ok.1 h
  cases h
  cases outcome : n.value with
  | ok w =>
    rw [outcome] at read
    cases read
    rfl
  | error e =>
    rw [outcome] at read
    cases read

end Filling

/-! ## Documents -/

theorem load_eq_content {text : String} {f : ContentFault}
    (h : (load .empty text).1 = .error (.content f)) :
    Node.ofText? text = .error (.content f) ∨
      ∃ n, Node.ofText? text = .ok (some n) ∧ n.Meets f := by
  unfold load at h
  split at h
  · next e unread => exact .inl (unread.trans (congrArg _ (Except.error.inj h)))
  · cases h
  · next n read =>
    have keeps := Filling.root_keeps n .empty fun _ none => absurd none List.not_mem_nil
    exact .inr ⟨n, read, keeps.2 f h⟩

theorem load_eq_ok {text : String} {v : Value} (h : (load .empty text).1 = .ok v) :
    Node.ofText? text = .ok none ∧ v = .null ∨
      ∃ n, Node.ofText? text = .ok (some n) ∧ n.value = .ok v := by
  unfold load at h
  split at h
  · cases h
  · next read => exact .inl ⟨read, (Except.ok.inj h).symm⟩
  · next n read =>
    obtain ⟨outcome, left, ran⟩ : ∃ outcome left, n.valueAfter .empty = (outcome, left) :=
      ⟨_, _, rfl⟩
    rw [ran] at h
    obtain rfl : outcome = .ok v := h
    exact .inr ⟨n, read, Filling.root_eq_ok ran⟩

end Yaml

end Stencil
