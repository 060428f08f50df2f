import Mathlib.Data.List.Find
import Stencil.Proofs.Keys
import Stencil.Proofs.Template.Assembling
import Stencil.Proofs.Template.Search

/-!
# The registries of nodes under construction

* `Assembly.Node.Registered`: the blocks of a node are those that its items refer to, and they have
  made its registry one after the other;
* `Assembly.Linked`: all nodes are like that, only the root has the reserved name, references lead
  onward, and every other node is referred to once;
* `Assembly.Consistent`: besides, there is a node for every block start that was read;
* `Assembly.accept_consistent`, `Assembly.acceptAll_consistent`: tokens keep it so.
-/

namespace Stencil

def Lexeme.isStart : Lexeme → Bool
  | .blockStart _ => true
  | _ => false

def Lexeme.isStop : Lexeme → Bool
  | .blockStop => true
  | _ => false

/-- A registry has the names of the children in the order of their first appearance. -/
theorem Template.keys_registry (t : Template) :
    t.registry.map Prod.fst = (t.children.map Template.name).eraseDups := by
  have adds : AddsKey register fun child => child.1.name :=
    fun registry child => Registry.map_fst_add registry child.1.name child.2
  have names : (t.children.zipIdx.map fun child => child.1.name) =
      t.children.map Template.name := by
    rw [← Function.comp_def Template.name Prod.fst, ← List.map_map, List.zipIdx_map_fst]
  rw [registry, keys_foldl adds, names]

namespace Assembly

/-- The place of the block that an item is. -/
def Item.place? : Item → Option Nat
  | .block place => some place
  | _ => none

/-- The places of the blocks among the items of a node, in order. -/
def Node.references (node : Node) : List Nat := node.items.filterMap Item.place?

/-- The name of the node at a place. -/
def named? (nodes : List Node) (place : Nat) : Option String := nodes[place]?.map Node.name

/-! ## What a node registers -/

/-- The node has these blocks, each with its name and its place. -/
structure Node.Registered (nodes : List Node) (node : Node) (blocks : List (String × Nat)) : Prop
    where
  known : ∀ block ∈ blocks, named? nodes block.2 = some block.1
  references_eq : node.references = blocks.map Prod.snd
  children_eq : node.children = blocks.map Prod.snd
  registry_eq : node.registry =
    blocks.foldl (fun registry block => Registry.add registry block.1 block.2) []

namespace Node.Registered

variable {nodes nodes' : List Node} {node : Node} {blocks : List (String × Nat)}

/-- Only the names of the nodes matter. -/
theorem mono (h : node.Registered nodes blocks)
    (kept : ∀ place name, named? nodes place = some name → named? nodes' place = some name) :
    node.Registered nodes' blocks :=
  ⟨fun block member => kept _ _ (h.known block member), h.references_eq, h.children_eq,
    h.registry_eq⟩

theorem bare (nodes : List Node) (name : String) : (Node.bare name).Registered nodes [] :=
  ⟨fun _ member => absurd member List.not_mem_nil, rfl, rfl, rfl⟩

theorem hold (h : node.Registered nodes blocks) {item : Item} (plain : item.place? = none) :
    (node.hold item).Registered nodes blocks := by
  refine ⟨h.known, ?_, h.children_eq, h.registry_eq⟩
  rw [← h.references_eq, references, Node.hold, List.filterMap_append, List.filterMap_cons, plain]
  exact List.append_nil _

/-- A new block comes last among the blocks, and in the registry if its name is new. -/
theorem adopt (h : node.Registered nodes blocks) {name : String} {place : Nat}
    (known : named? nodes place = some name) :
    (node.adopt name place).Registered nodes (blocks ++ [(name, place)]) := by
  refine ⟨?_, ?_, ?_, ?_⟩
  · intro block member
    obtain old | new := List.mem_append.1 member
    · exact h.known block old
    · rw [List.mem_singleton.1 new]
      exact known
  · rw [references, Node.adopt, List.filterMap_append, List.map_append, ← h.references_eq]
    rfl
  · rw [Node.adopt, h.children_eq, List.map_append]
    rfl
  · rw [Node.adopt, h.registry_eq, List.foldl_append]
    rfl

theorem named_children (h : node.Registered nodes blocks) :
    node.children.map (named? nodes) = (blocks.map Prod.fst).map some := by
  rw [h.children_eq, List.map_map, List.map_map]
  exact List.map_congr_left h.known

/-- A registry has the names of the blocks in the order of their first appearance. -/
theorem keys_registry (h : node.Registered nodes blocks) :
    node.registry.map Prod.fst = (blocks.map Prod.fst).eraseDups := by
  have adds : AddsKey (fun registry (block : String × Nat) =>
      Registry.add registry block.1 block.2) Prod.fst :=
    fun registry block => Registry.map_fst_add registry block.1 block.2
  rw [h.registry_eq, keys_foldl adds]

/-- A registry has the first block of a name. -/
theorem lookup_registry (h : node.Registered nodes blocks) (name : String) :
    node.registry.lookup name =
      node.children.find? fun place => named? nodes place == some name := by
  rw [h.registry_eq, Registry.lookup_foldl Prod.fst Prod.snd, h.children_eq, List.find?_map]
  have same : ∀ block ∈ blocks, (block.1 == name) =
      (named? nodes block.2 == some name) := by
    intro block member
    rw [h.known block member]
    rfl
  rw [List.lookup_nil, Option.none_or]
  congr 1
  exact List.find?_congr same

end Node.Registered

/-! ## Changing one node -/

theorem getElem?_modify_cases {nodes : List Node} {i place : Nat} {f : Node → Node} {node : Node}
    (found : (nodes.modify i f)[place]? = some node) :
    ∃ old, nodes[place]? = some old ∧ (node = old ∨ i = place ∧ node = f old) := by
  rw [List.getElem?_modify] at found
  obtain ⟨old, there, changed⟩ := Option.map_eq_some_iff.1 found
  by_cases here : i = place
  · rw [if_pos here] at changed
    exact ⟨old, there, .inr ⟨here, changed.symm⟩⟩
  · rw [if_neg here] at changed
    exact ⟨old, there, .inl changed.symm⟩

theorem named?_modify (nodes : List Node) (i : Nat) {f : Node → Node}
    (keeps : ∀ node, (f node).name = node.name) (place : Nat) :
    named? (nodes.modify i f) place = named? nodes place := by
  rw [named?, named?, List.getElem?_modify]
  cases nodes[place]? with
  | none => rfl
  | some node =>
    by_cases here : i = place
    · simp [here, keeps]
    · simp [here]

theorem flatMap_modify {nodes : List Node} {i : Nat} (inside : i < nodes.length) {f : Node → Node}
    {more : List Nat} (adds : ∀ node, (f node).references = node.references ++ more) :
    ((nodes.modify i f).flatMap Node.references).Perm
      (nodes.flatMap Node.references ++ more) := by
  induction nodes generalizing i with
  | nil => exact absurd inside (Nat.not_lt_zero i)
  | cons node rest ih =>
    cases i with
    | zero =>
      rw [List.modify_zero_cons, List.flatMap_cons, List.flatMap_cons, adds, List.append_assoc,
        List.append_assoc]
      exact List.perm_append_comm.append_left _
    | succ i =>
      rw [List.modify_succ_cons, List.flatMap_cons, List.flatMap_cons, List.append_assoc]
      exact (ih (Nat.lt_of_succ_lt_succ inside)).append_left _

/-! ## Adding a node -/

/-- The nodes with a new one behind them, which the node at one place refers to. -/
def entered (nodes : List Node) (i : Nat) (name : String) : List Node :=
  nodes.modify i (.adopt name nodes.length) ++ [.bare name]

theorem length_entered (nodes : List Node) (i : Nat) (name : String) :
    (entered nodes i name).length = nodes.length + 1 := by
  rw [entered, List.length_append, List.length_modify, List.length_singleton]

theorem getElem?_entered_cases {nodes : List Node} {i place : Nat} {name : String} {node : Node}
    (found : (entered nodes i name)[place]? = some node) :
    (∃ old, nodes[place]? = some old ∧
      (node = old ∨ i = place ∧ node = old.adopt name nodes.length)) ∨
    place = nodes.length ∧ node = .bare name := by
  have length := List.length_modify (Node.adopt name nodes.length) nodes i
  by_cases bound : place < nodes.length
  · rw [entered, List.getElem?_append_left (by omega)] at found
    exact .inl (getElem?_modify_cases found)
  · have inside := (List.getElem?_eq_some_iff.1 found).1
    rw [length_entered] at inside
    obtain rfl : place = nodes.length := by omega
    rw [entered, List.getElem?_append_right (by omega), length, Nat.sub_self,
      List.getElem?_cons_zero, Option.some.injEq] at found
    exact .inr ⟨rfl, found.symm⟩

theorem named?_entered (nodes : List Node) (i : Nat) (name : String) (place : Nat) :
    named? (entered nodes i name) place =
      if place = nodes.length then some name else named? nodes place := by
  have length := List.length_modify (Node.adopt name nodes.length) nodes i
  obtain below | rfl | above := Nat.lt_trichotomy place nodes.length
  · rw [if_neg (Nat.ne_of_lt below), ← named?_modify nodes i (f := .adopt name nodes.length)
      (fun _ => rfl), named?, named?, entered, List.getElem?_append_left (by omega)]
  · rw [if_pos rfl, named?, entered, List.getElem?_append_right (by omega), length, Nat.sub_self]
    rfl
  · rw [if_neg (Nat.ne_of_gt above), named?, named?, List.getElem?_eq_none (Nat.le_of_lt above),
      List.getElem?_eq_none (by rw [length_entered]; exact above)]

theorem flatMap_entered {nodes : List Node} {i : Nat} (inside : i < nodes.length) (name : String) :
    ((entered nodes i name).flatMap Node.references).Perm
      (nodes.flatMap Node.references ++ [nodes.length]) := by
  have more : ∀ node : Node, (node.adopt name nodes.length).references =
      node.references ++ [nodes.length] := by
    intro node
    rw [Node.references, Node.adopt, List.filterMap_append]
    rfl
  rw [entered, List.flatMap_append]
  exact (List.Perm.of_eq (List.append_nil _)).trans (flatMap_modify inside more)

/-! ## Nodes that are linked -/

structure Linked (nodes : List Node) : Prop where
  registered : ∀ node ∈ nodes, ∃ blocks, node.Registered nodes blocks
  reserved : ∀ place, named? nodes place = some rootName ↔ place = 0
  ahead : ∀ (place : Nat) (node : Node), nodes[place]? = some node →
    ∀ block ∈ node.references, place < block
  once : (nodes.flatMap Node.references).Perm (List.range' 1 (nodes.length - 1))

namespace Linked

variable {nodes : List Node}

theorem length_pos (linked : Linked nodes) : 0 < nodes.length := by
  obtain ⟨root, found, _⟩ := Option.map_eq_some_iff.1 ((linked.reserved 0).2 rfl)
  exact (List.getElem?_eq_some_iff.1 found).1

theorem root : Linked [.bare rootName] := by
  refine ⟨?_, ?_, ?_, .refl _⟩
  · intro node member
    rw [List.mem_singleton.1 member]
    exact ⟨[], .bare _ _⟩
  · rintro (_ | place)
    · exact ⟨fun _ => rfl, fun _ => rfl⟩
    · simp [named?]
  · rintro (_ | place) node found block member
    · rw [List.getElem?_cons_zero, Option.some.injEq] at found
      rw [← found] at member
      cases member
    · simp at found

theorem add (linked : Linked nodes) {i : Nat} (inside : i < nodes.length) {item : Item}
    (plain : item.place? = none) : Linked (nodes.modify i (.hold item)) := by
  have names := named?_modify nodes i (f := .hold item) fun _ => rfl
  have references : ∀ node : Node, (node.hold item).references = node.references := by
    intro node
    rw [Node.references, Node.references, Node.hold, List.filterMap_append, List.filterMap_cons,
      plain]
    exact List.append_nil _
  refine ⟨?_, ?_, ?_, ?_⟩
  · intro node member
    obtain ⟨place, found⟩ := List.mem_iff_getElem?.1 member
    obtain ⟨old, there, same⟩ := getElem?_modify_cases found
    obtain ⟨blocks, registered⟩ := linked.registered old (List.mem_of_getElem? there)
    have registered := registered.mono fun place name known => (names place).trans known
    obtain rfl | ⟨_, rfl⟩ := same
    · exact ⟨blocks, registered⟩
    · exact ⟨blocks, registered.hold plain⟩
  · intro place
    rw [names]
    exact linked.reserved place
  · intro place node found block member
    obtain ⟨old, there, same⟩ := getElem?_modify_cases found
    obtain rfl | ⟨_, rfl⟩ := same
    · exact linked.ahead place node there block member
    · exact linked.ahead place old there block (references old ▸ member)
  · have kept : ((nodes.modify i (.hold item)).flatMap Node.references).Perm
        (nodes.flatMap Node.references ++ []) :=
      flatMap_modify inside fun node => by rw [references, List.append_nil]
    rw [List.append_nil] at kept
    rw [List.length_modify]
    exact kept.trans linked.once

/-- A new node comes behind all others, and the open node is the only one that refers to it. -/
theorem enter (linked : Linked nodes) {i : Nat} (inside : i < nodes.length) {name : String}
    (unreserved : name ≠ rootName) : Linked (entered nodes i name) := by
  have kept : ∀ place known, named? nodes place = some known →
      named? (entered nodes i name) place = some known := by
    intro place known there
    obtain ⟨node, found, _⟩ := Option.map_eq_some_iff.1 there
    have bound := (List.getElem?_eq_some_iff.1 found).1
    rw [named?_entered, if_neg (Nat.ne_of_lt bound), there]
  have last : named? (entered nodes i name) nodes.length = some name := by
    rw [named?_entered, if_pos rfl]
  refine ⟨?_, ?_, ?_, ?_⟩
  · intro node member
    obtain ⟨place, found⟩ := List.mem_iff_getElem?.1 member
    obtain ⟨old, there, same⟩ | ⟨_, rfl⟩ := getElem?_entered_cases found
    · obtain ⟨blocks, registered⟩ := linked.registered old (List.mem_of_getElem? there)
      obtain rfl | ⟨_, rfl⟩ := same
      · exact ⟨blocks, registered.mono kept⟩
      · exact ⟨_, (registered.mono kept).adopt last⟩
    · exact ⟨[], .bare _ _⟩
  · intro place
    rw [named?_entered]
    split
    · next here => simp [unreserved, here, Nat.ne_of_gt (Nat.zero_lt_of_lt inside)]
    · exact linked.reserved place
  · intro place node found block member
    obtain ⟨old, there, same⟩ | ⟨_, rfl⟩ := getElem?_entered_cases found
    · have bound := (List.getElem?_eq_some_iff.1 there).1
      obtain rfl | ⟨_, rfl⟩ := same
      · exact linked.ahead place node there block member
      · rw [Node.references, Node.adopt, List.filterMap_append] at member
        obtain earlier | new := List.mem_append.1 member
        · exact linked.ahead place old there block earlier
        · obtain rfl : block = nodes.length := List.mem_singleton.1 new
          exact bound
    · cases member
  · have onward : List.range' 1 (nodes.length - 1) ++ [nodes.length] =
        List.range' 1 ((entered nodes i name).length - 1) := by
      obtain ⟨count, length⟩ := Nat.exists_eq_add_of_lt inside
      rw [length_entered, length, Nat.add_sub_cancel, Nat.add_sub_cancel, List.range'_concat]
      congr 2
      omega
    rw [← onward]
    exact (flatMap_entered inside name).trans (linked.once.append_right _)

end Linked

/-! ## Taking in tokens -/

/-- What taking in a token can do. -/
theorem accept_cases {a next : Assembly} {t : Token} {line? : Option TraceLine}
    (h : a.accept t = .ok (next, line?)) :
    (∃ item : Item, item.place? = none ∧ t.lexeme.isStart = false ∧ t.lexeme.isStop = false ∧
      next = a.add item) ∨
    (∃ name, t.lexeme = .blockStart name ∧ name ≠ rootName ∧ next = a.enter name t.position) ∨
    (∃ block opened, t.lexeme = .blockStop ∧ a.opened = block :: opened ∧
      next = { a with opened }) := by
  unfold accept at h
  cases kind : t.lexeme with
  | text run =>
    simp only [kind, Except.ok.injEq, Prod.mk.injEq] at h
    exact .inl ⟨_, rfl, rfl, rfl, h.1.symm⟩
  | expression name =>
    simp only [kind, Except.ok.injEq, Prod.mk.injEq] at h
    exact .inl ⟨_, rfl, rfl, rfl, h.1.symm⟩
  | blockStart name =>
    simp only [kind] at h
    split at h
    · cases h
    · next unreserved =>
      simp only [Except.ok.injEq, Prod.mk.injEq] at h
      exact .inr (.inl ⟨name, rfl, unreserved, h.1.symm⟩)
  | blockStop =>
    simp only [kind] at h
    split at h
    · cases h
    · next block opened top =>
      simp only [Except.ok.injEq, Prod.mk.injEq] at h
      exact .inr (.inr ⟨block, opened, rfl, top, h.1.symm⟩)

/-- The nodes are linked, and there is one for every start among the tokens that were read. -/
structure Consistent (a : Assembly) (seen : List Token) : Prop where
  linked : Linked a.nodes
  within : ∀ block ∈ a.opened, block.place < a.nodes.length
  starts : a.nodes.length = 1 + seen.countP fun t => t.lexeme.isStart
  stops : a.opened.length + (seen.countP fun t => t.lexeme.isStop) =
    seen.countP fun t => t.lexeme.isStart

theorem empty_consistent : Consistent empty [] :=
  ⟨.root, fun _ none => absurd none List.not_mem_nil, rfl, rfl⟩

theorem Consistent.top_lt {a : Assembly} {seen : List Token} (consistent : Consistent a seen) :
    top a.opened < a.nodes.length := by
  cases innermost : a.opened with
  | nil => exact consistent.linked.length_pos
  | cons block opened => exact consistent.within block (innermost ▸ List.mem_cons_self)

theorem accept_consistent {a next : Assembly} {seen : List Token} {t : Token}
    {line? : Option TraceLine} (consistent : Consistent a seen)
    (h : a.accept t = .ok (next, line?)) : Consistent next (seen ++ [t]) := by
  have inside := consistent.top_lt
  obtain ⟨linked, within, starts, stops⟩ := consistent
  rcases accept_cases h with ⟨item, plain, noStart, noStop, rfl⟩ | ⟨name, kind, unreserved, rfl⟩ |
    ⟨block, opened, kind, innermost, rfl⟩
  · have length : (a.add item).nodes.length = a.nodes.length := List.length_modify ..
    refine ⟨linked.add inside plain, length ▸ within, ?_, ?_⟩
    · simp [length, starts, noStart]
    · simpa [add, noStart, noStop] using stops
  · have length : (a.enter name t.position).nodes.length = a.nodes.length + 1 :=
      length_entered a.nodes (top a.opened) name
    have start : t.lexeme.isStart = true := by rw [kind]; rfl
    have noStop : t.lexeme.isStop = false := by rw [kind]; rfl
    refine ⟨linked.enter inside unreserved, ?_, ?_, ?_⟩
    · intro block member
      rw [length]
      obtain rfl | older := List.mem_cons.1 member
      · exact Nat.lt_succ_self _
      · exact Nat.lt_succ_of_lt (within block older)
    · rw [length, starts, List.countP_append, List.countP_singleton, start]
      rfl
    · simp only [enter, List.length_cons, List.countP_append, List.countP_singleton, start, noStop]
      simp only [Bool.false_eq_true, ↓reduceIte]
      omega
  · have noStart : t.lexeme.isStart = false := by rw [kind]; rfl
    have stop : t.lexeme.isStop = true := by rw [kind]; rfl
    rw [innermost] at within stops
    refine ⟨linked, fun block member => within block (List.mem_cons_of_mem _ member), ?_, ?_⟩
    · simp [starts, noStart]
    · rw [List.length_cons] at stops
      simp only [List.countP_append, List.countP_singleton, noStart, stop]
      simp only [Bool.false_eq_true, ↓reduceIte]
      omega

theorem acceptAll_consistent {a last : Assembly} {seen ts : List Token}
    (consistent : Consistent a seen) (h : (a.acceptAll ts).2 = .ok last) :
    Consistent last (seen ++ ts) := by
  induction ts generalizing a seen with
  | nil =>
    cases h
    rw [List.append_nil]
    exact consistent
  | cons t ts ih =>
    unfold acceptAll at h
    split at h
    · cases h
    · next next line? step =>
      have := ih (accept_consistent consistent step) h
      rwa [List.append_assoc] at this

theorem finish_eq_ok_iff {a : Assembly} {nodes : List Node} :
    a.finish = .ok nodes ↔ a.opened = [] ∧ nodes = a.nodes := by
  unfold finish
  cases last : a.opened.getLast? with
  | none => simp [List.getLast?_eq_none_iff.1 last, eq_comm]
  | some block =>
    have : a.opened ≠ [] := by
      rintro none
      simp [none] at last
    simp [this]

end Assembly

/-- The nodes of a source are linked, and there are as many starts as stops, one for each node but
the root. -/
theorem assemble_consistent {source : String} {nodes : List Assembly.Node}
    (assembled : (assemble source).2 = .ok nodes) :
    Assembly.Linked nodes ∧
      nodes.length = 1 + ((tokenize source).tokens.countP fun t => t.lexeme.isStart) ∧
      nodes.length = 1 + ((tokenize source).tokens.countP fun t => t.lexeme.isStop) := by
  unfold assemble at assembled
  dsimp only at assembled
  split at assembled
  · cases assembled
  · cases assembled
  · next taken _ =>
    obtain ⟨shut, rfl⟩ := Assembly.finish_eq_ok_iff.1 assembled
    obtain ⟨linked, _, starts, stops⟩ :=
      Assembly.acceptAll_consistent Assembly.empty_consistent taken
    rw [shut] at stops
    rw [List.nil_append] at starts stops
    refine ⟨linked, starts, ?_⟩
    rw [starts, ← stops, List.length_nil, Nat.zero_add]

end Stencil
