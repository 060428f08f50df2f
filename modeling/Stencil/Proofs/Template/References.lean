import Mathlib.Data.List.Nodup
import Stencil.Proofs.Template.Nesting
import Stencil.Proofs.Template.Registries

/-!
# References between nodes and paths in the tree

* `Assembly.reach`: the place to which a path of child indices leads;
* `Assembly.Linked.existsUnique_reference`: every node but the root is referred to once;
* `Assembly.Linked.existsUnique_path`: so every node is reached on one path;
* `Assembly.Linked.at?_treeAt?`: the path leads to the tree of this node;
* `Assembly.Linked.registry_treeAt?`: which has the registry of the node;
* `registries_consistent`: all of this for the nodes of a source that compiles.
-/

namespace Stencil

namespace Assembly

variable {nodes : List Node}

/-! ## References -/

/-- Where related elements are not in this order, they are the same. -/
theorem index_eq {α : Type} {R : α → α → Prop} {xs : List α} (pairwise : xs.Pairwise R) {i j : Nat}
    {x y : α} (there : xs[i]? = some x) (other : xs[j]? = some y) (before : ¬ R x y)
    (behind : ¬ R y x) : i = j := by
  obtain ⟨inside, rfl⟩ := List.getElem?_eq_some_iff.1 there
  obtain ⟨inside', rfl⟩ := List.getElem?_eq_some_iff.1 other
  rw [List.pairwise_iff_getElem] at pairwise
  obtain less | same | more := Nat.lt_trichotomy i j
  · exact absurd (pairwise i j inside inside' less) before
  · exact same
  · exact absurd (pairwise j i inside' inside more) behind

theorem Node.mem_references {node : Node} {block : Nat} :
    block ∈ node.references ↔ .block block ∈ node.items := by
  rw [references, List.mem_filterMap]
  constructor
  · rintro ⟨item, among, refers⟩
    cases item with
    | block place => exact Option.some.inj refers ▸ among
    | text run => cases refers
    | expression name => cases refers
  · intro among
    exact ⟨_, among, rfl⟩

namespace Linked

theorem children_eq (linked : Linked nodes) {place : Nat} {node : Node}
    (found : nodes[place]? = some node) : node.children = node.references := by
  obtain ⟨blocks, registered⟩ := linked.registered node (List.mem_of_getElem? found)
  rw [registered.children_eq, registered.references_eq]

/-- All nodes but the root are referred to, and nothing else is. -/
theorem referenced_iff (linked : Linked nodes) {block : Nat} :
    (∃ (place : Nat) (node : Node), nodes[place]? = some node ∧ block ∈ node.references) ↔
      0 < block ∧ block < nodes.length := by
  have referenced : (∃ (place : Nat) (node : Node), nodes[place]? = some node ∧
      block ∈ node.references) ↔ block ∈ nodes.flatMap Node.references := by
    rw [List.mem_flatMap]
    constructor
    · rintro ⟨place, node, found, member⟩
      exact ⟨node, List.mem_of_getElem? found, member⟩
    · rintro ⟨node, among, member⟩
      obtain ⟨place, found⟩ := List.mem_iff_getElem?.1 among
      exact ⟨place, node, found, member⟩
  have := linked.length_pos
  rw [referenced, linked.once.mem_iff, List.mem_range'_1]
  omega

theorem pairwise_references (linked : Linked nodes) :
    (∀ node ∈ nodes, node.references.Nodup) ∧
      nodes.Pairwise fun first second =>
        ∀ block ∈ first.references, ∀ other ∈ second.references, block ≠ other :=
  List.pairwise_flatMap.1 (linked.once.nodup_iff.2 List.nodup_range')

/-- Nodes that refer to one block are the same. -/
theorem place_eq (linked : Linked nodes) {place place' block : Nat} {node node' : Node}
    (found : nodes[place]? = some node) (found' : nodes[place']? = some node')
    (member : block ∈ node.references) (member' : block ∈ node'.references) : place = place' :=
  index_eq linked.pairwise_references.2 found found'
    (fun apart => apart block member block member' rfl)
    fun apart => apart block member' block member rfl

/-- Every node but the root is referred to by one item of one node. -/
theorem existsUnique_reference (linked : Linked nodes) {block : Nat} (behind : 0 < block)
    (inside : block < nodes.length) :
    ∃! reference : Nat × Nat, ∃ node : Node, nodes[reference.1]? = some node ∧
      node.items[reference.2]? = some (.block block) := by
  obtain ⟨place, node, found, member⟩ := linked.referenced_iff.2 ⟨behind, inside⟩
  obtain ⟨i, there⟩ := List.mem_iff_getElem?.1 (Node.mem_references.1 member)
  refine ⟨(place, i), ⟨node, found, there⟩, ?_⟩
  rintro ⟨place', i'⟩ ⟨node', found', there'⟩
  have member' : block ∈ node'.references :=
    Node.mem_references.2 (List.mem_of_getElem? there')
  obtain rfl : place' = place := linked.place_eq found' found member' member
  obtain rfl : node = node' := Option.some.inj (found.symm.trans found')
  have distinct := linked.pairwise_references.1 node (List.mem_of_getElem? found)
  have same : i' = i := index_eq (List.pairwise_filterMap.1 distinct) there' there
    (fun apart => apart block rfl block rfl rfl) fun apart => apart block rfl block rfl rfl
  rw [same]

end Linked

/-! ## Paths -/

/-- The place to which a path of child indices leads from a place. -/
def reach (nodes : List Node) (place : Nat) : List Nat → Option Nat
  | [] => some place
  | i :: path =>
    (nodes[place]?.bind fun node => node.children[i]?).bind fun child => reach nodes child path

theorem reach_concat (nodes : List Node) (place : Nat) (path : List Nat) (i : Nat) :
    reach nodes place (path ++ [i]) =
      (reach nodes place path).bind fun last =>
        nodes[last]?.bind fun node => node.children[i]? := by
  induction path generalizing place with
  | nil => simp [reach]
  | cons j path ih =>
    rw [List.cons_append, reach, reach]
    cases nodes[place]?.bind fun node => node.children[j]? with
    | none => rfl
    | some child => exact ih child

theorem reach_concat_eq_some_iff {place last i : Nat} {path : List Nat} :
    reach nodes place (path ++ [i]) = some last ↔
      ∃ parent node, reach nodes place path = some parent ∧ nodes[parent]? = some node ∧
        node.children[i]? = some last := by
  simp only [reach_concat, Option.bind_eq_some_iff]
  constructor
  · rintro ⟨parent, reached, node, found, child⟩
    exact ⟨parent, node, reached, found, child⟩
  · rintro ⟨parent, node, reached, found, child⟩
    exact ⟨parent, reached, node, found, child⟩

namespace Linked

theorem exists_path (linked : Linked nodes) {place : Nat} (inside : place < nodes.length) :
    ∃ path, reach nodes 0 path = some place := by
  -- The node that refers to the place stands before it.
  induction place using Nat.strongRecOn with
  | ind place ih =>
    obtain rfl | behind := Nat.eq_zero_or_pos place
    · exact ⟨[], rfl⟩
    · obtain ⟨parent, node, found, member⟩ := linked.referenced_iff.2 ⟨behind, inside⟩
      have before := linked.ahead parent node found place member
      obtain ⟨path, reached⟩ := ih parent before (Nat.lt_trans before inside)
      rw [← linked.children_eq found] at member
      obtain ⟨i, child⟩ := List.mem_iff_getElem?.1 member
      exact ⟨path ++ [i], reach_concat_eq_some_iff.2 ⟨parent, node, reached, found, child⟩⟩

theorem path_eq (linked : Linked nodes) {place : Nat} {path path' : List Nat}
    (reached : reach nodes 0 path = some place) (reached' : reach nodes 0 path' = some place) :
    path = path' := by
  -- What is behind the root is not the root.
  have onward : ∀ {path : List Nat} {i : Nat}, reach nodes 0 (path ++ [i]) ≠ some 0 := by
    intro path i reached
    obtain ⟨parent, node, _, found, child⟩ := reach_concat_eq_some_iff.1 reached
    have member := List.mem_of_getElem? child
    rw [linked.children_eq found] at member
    exact Nat.not_lt_zero _ (linked.ahead parent node found 0 member)
  induction path using List.reverseRecOn generalizing place path' with
  | nil =>
    obtain rfl := Option.some.inj reached
    cases path' using List.reverseRecOn with
    | nil => rfl
    | append_singleton path' i' _ => exact absurd reached' onward
  | append_singleton path i ih =>
    cases path' using List.reverseRecOn with
    | nil =>
      obtain rfl := Option.some.inj reached'
      exact absurd reached onward
    | append_singleton path' i' _ =>
      obtain ⟨parent, node, before, found, child⟩ := reach_concat_eq_some_iff.1 reached
      obtain ⟨parent', node', before', found', child'⟩ := reach_concat_eq_some_iff.1 reached'
      rw [linked.children_eq found] at child
      rw [linked.children_eq found'] at child'
      obtain rfl : parent = parent' := linked.place_eq found found' (List.mem_of_getElem? child)
        (List.mem_of_getElem? child')
      obtain rfl : node = node' := Option.some.inj (found.symm.trans found')
      have distinct := linked.pairwise_references.1 node (List.mem_of_getElem? found)
      have same : i = i' := index_eq distinct child child' (fun apart => apart rfl)
        fun apart => apart rfl
      rw [ih before before', same]

theorem existsUnique_path (linked : Linked nodes) {place : Nat} (inside : place < nodes.length) :
    ∃! path, reach nodes 0 path = some place := by
  obtain ⟨path, reached⟩ := linked.exists_path inside
  exact ⟨path, reached, fun path' reached' => linked.path_eq reached' reached⟩

end Linked

/-! ## Trees of places -/

/-- The tree of the node at a place. -/
def treeAt? (nodes : List Node) (place : Nat) : Option Template := (trees 0 nodes).lookup place

/-- Which nodes stand before a place does not matter for its tree. -/
theorem lookup_trees_drop {place i : Nat} (before : place ≤ i) :
    (trees place (nodes.drop place)).lookup i = treeAt? nodes i := by
  obtain ⟨offset, rfl⟩ := Nat.exists_eq_add_of_le before
  have whole := lookup_trees 0 (place + offset) nodes
  rw [Nat.zero_add] at whole
  rw [treeAt?, whole, lookup_trees, List.getElem?_drop, List.drop_drop, Nat.add_assoc]

namespace Linked

theorem treeAt?_eq (linked : Linked nodes) (place : Nat) :
    treeAt? nodes place = nodes[place]?.map fun node =>
      ⟨node.name, node.items.filterMap (Item.entry? (trees 0 nodes))⟩ := by
  have there := lookup_trees 0 place nodes
  rw [Nat.zero_add] at there
  rw [treeAt?, there]
  cases found : nodes[place]? with
  | none => rfl
  | some node =>
    have same : ∀ item ∈ node.items,
        Item.entry? (trees (place + 1) (nodes.drop (place + 1))) item =
          Item.entry? (trees 0 nodes) item := by
      intro item member
      cases item with
      | text run => rfl
      | expression name => rfl
      | block block =>
        have before := linked.ahead place node found block (Node.mem_references.2 member)
        rw [Item.entry?, Item.entry?, lookup_trees_drop before]
        rfl
    rw [Option.map_some, Option.map_some, List.filterMap_congr same]

theorem exists_treeAt? (linked : Linked nodes) {place : Nat} {node : Node}
    (found : nodes[place]? = some node) :
    ∃ t, treeAt? nodes place = some t ∧ t.name = node.name := by
  rw [linked.treeAt?_eq, found]
  exact ⟨_, rfl, rfl⟩

theorem tree_eq (linked : Linked nodes) : treeAt? nodes 0 = some (tree nodes) := by
  obtain ⟨root, found, _⟩ := Option.map_eq_some_iff.1 ((linked.reserved 0).2 rfl)
  obtain ⟨t, there, _⟩ := linked.exists_treeAt? found
  rw [tree, ← treeAt?, there]
  rfl

theorem named?_eq (linked : Linked nodes) (place : Nat) :
    named? nodes place = (treeAt? nodes place).map Template.name := by
  rw [linked.treeAt?_eq, named?, Option.map_map]
  rfl

/-- The children of the tree of a node are the trees of its blocks. -/
theorem children_treeAt? (linked : Linked nodes) {place : Nat} {node : Node} {t : Template}
    (found : nodes[place]? = some node) (there : treeAt? nodes place = some t) :
    t.children.map some = node.children.map (treeAt? nodes) := by
  rw [linked.treeAt?_eq, found, Option.map_some, Option.some.injEq] at there
  have entry : ∀ item : Item, ((item.entry? (trees 0 nodes)).bind Entry.template?) =
      item.place?.bind (treeAt? nodes) := by
    intro item
    cases item with
    | text run => rfl
    | expression name => rfl
    | block block =>
      rw [Item.entry?, Item.place?, Option.bind_some, treeAt?]
      cases (trees 0 nodes).lookup block <;> rfl
  have children : t.children = node.references.filterMap (treeAt? nodes) := by
    rw [← there, Template.children, Node.references, List.filterMap_filterMap,
      List.filterMap_filterMap]
    exact List.filterMap_congr fun item _ => entry item
  rw [children, linked.children_eq found, List.map_filterMap_some_eq_filter_map_isSome,
    List.filter_eq_self, List.forall_mem_map]
  intro block member
  obtain ⟨_, inside⟩ := linked.referenced_iff.1 ⟨place, node, found, member⟩
  rw [linked.treeAt?_eq, List.getElem?_eq_getElem inside]
  rfl

/-- A path of child indices leads to the tree of the node to which it leads. -/
theorem at?_treeAt? (linked : Linked nodes) {place : Nat} {t : Template}
    (there : treeAt? nodes place = some t) (path : List Nat) :
    t.at? path = (reach nodes place path).bind (treeAt? nodes) := by
  induction path generalizing place t with
  | nil => rw [reach, Option.bind_some, there]; rfl
  | cons i path ih =>
    obtain ⟨node, found⟩ : ∃ node, nodes[place]? = some node := by
      rw [linked.treeAt?_eq] at there
      obtain ⟨node, found, _⟩ := Option.map_eq_some_iff.1 there
      exact ⟨node, found⟩
    have child : t.children[i]?.map some = node.children[i]?.map (treeAt? nodes) := by
      rw [← List.getElem?_map, linked.children_treeAt? found there, List.getElem?_map]
    rw [Template.at?, reach, found, Option.bind_some]
    cases leads : node.children[i]? with
    | none =>
      rw [leads] at child
      rw [Option.map_eq_none_iff.1 child]
      rfl
    | some block =>
      rw [leads] at child
      obtain ⟨s, here, below⟩ := Option.map_eq_some_iff.1 child
      rw [here]
      exact ih below.symm

/-- The tree of a node has the registry of the node, with the indices of the blocks in place of
their places. -/
theorem registry_treeAt? (linked : Linked nodes) {place : Nat} {node : Node} {t : Template}
    (found : nodes[place]? = some node) (there : treeAt? nodes place = some t) :
    t.registry.map Prod.fst = node.registry.map Prod.fst ∧
      ∀ name, ((t.registry.lookup name).bind fun i => node.children[i]?) =
        node.registry.lookup name := by
  obtain ⟨blocks, registered⟩ := linked.registered node (List.mem_of_getElem? found)
  have names : (t.children.map fun child => some child.name) =
      node.children.map (named? nodes) := by
    have := congrArg (List.map (Option.map Template.name)) (linked.children_treeAt? found there)
    rw [List.map_map, List.map_map] at this
    rw [funext linked.named?_eq]
    exact this
  constructor
  · have same : t.children.map Template.name = blocks.map Prod.fst := by
      apply List.map_injective_iff.2 fun _ _ => Option.some.inj
      rw [List.map_map, ← registered.named_children]
      exact names
    rw [Template.keys_registry, registered.keys_registry, same]
  · intro name
    have places : t.children.findIdx? (fun child => child.name == name) =
        node.children.findIdx? fun block => named? nodes block == some name := by
      have := congrArg (List.findIdx? (· == some name)) names
      rw [List.findIdx?_map, List.findIdx?_map] at this
      exact this
    rw [Template.lookup_registry_eq_findIdx?, registered.lookup_registry, places,
      ← List.find?_eq_bind_findIdx?_getElem?]

end Linked

end Assembly

/-! ## Sources that compile -/

theorem compile_eq_ok_iff_assemble {source : String} {t : Template} :
    (compile source).result = .ok t ↔
      ∃ nodes, (assemble source).2 = .ok nodes ∧ t = Assembly.tree nodes := by
  have result : (compile source).result = (assemble source).2.map Assembly.tree := rfl
  rw [result]
  cases (assemble source).2 with
  | error f => simp [Except.map]
  | ok nodes => simp [Except.map, eq_comm]

/-- **Registries are consistent.** A source that compiles gives nodes, the root first, of which the
tree is made. The children of a node are the blocks that its items refer to, in this order. Its
registry has the names of the children in the order of their first appearance, and for each name the
first child that bears it. Only the root has the reserved name. Every other node, and nothing else,
is referred to, by one item of one node. There are as many of these nodes as block starts, and as
many as block stops. All nodes are in the tree: a place is reached from the root on one path of
child indices, and this path leads to the tree of the node there, whose name, children and registry
are those of the node. -/
theorem registries_consistent {source : String} {t : Template}
    (compiled : (compile source).result = .ok t) :
    ∃ nodes, (assemble source).2 = .ok nodes ∧ t = Assembly.tree nodes ∧
      (∀ (place : Nat) (node : Assembly.Node), nodes[place]? = some node →
        node.children = node.references ∧
          (∃ names : List String, node.children.map (Assembly.named? nodes) = names.map some ∧
            node.registry.map Prod.fst = names.eraseDups) ∧
          (∀ name, node.registry.lookup name =
            node.children.find? fun block => Assembly.named? nodes block == some name) ∧
          (node.name = rootName ↔ place = 0)) ∧
      (∀ block, (∃ (place : Nat) (node : Assembly.Node), nodes[place]? = some node ∧
        .block block ∈ node.items) ↔ 0 < block ∧ block < nodes.length) ∧
      (∀ block, 0 < block → block < nodes.length →
        ∃! reference : Nat × Nat, ∃ node : Assembly.Node, nodes[reference.1]? = some node ∧
          node.items[reference.2]? = some (.block block)) ∧
      nodes.length = 1 + ((tokenize source).tokens.countP fun t => t.lexeme.isStart) ∧
      nodes.length = 1 + ((tokenize source).tokens.countP fun t => t.lexeme.isStop) ∧
      (∀ place, place < nodes.length → ∃! path, Assembly.reach nodes 0 path = some place) ∧
      (∀ path, t.at? path = (Assembly.reach nodes 0 path).bind (Assembly.treeAt? nodes)) ∧
      ∀ (place : Nat) (node : Assembly.Node), nodes[place]? = some node →
        ∃ s, Assembly.treeAt? nodes place = some s ∧ s.name = node.name ∧
          s.children.map some = node.children.map (Assembly.treeAt? nodes) ∧
          s.registry.map Prod.fst = node.registry.map Prod.fst ∧
          ∀ name, ((s.registry.lookup name).bind fun i => node.children[i]?) =
            node.registry.lookup name := by
  obtain ⟨nodes, assembled, rfl⟩ := compile_eq_ok_iff_assemble.1 compiled
  obtain ⟨linked, starts, stops⟩ := assemble_consistent assembled
  refine ⟨nodes, assembled, rfl, ?_, fun block => ?_, fun block => linked.existsUnique_reference,
    starts, stops, fun place => linked.existsUnique_path, linked.at?_treeAt? linked.tree_eq, ?_⟩
  · intro place node found
    obtain ⟨blocks, registered⟩ := linked.registered node (List.mem_of_getElem? found)
    have named : Assembly.named? nodes place = some node.name := by rw [Assembly.named?, found]; rfl
    refine ⟨linked.children_eq found, ⟨blocks.map Prod.fst, registered.named_children,
      registered.keys_registry⟩, registered.lookup_registry, ?_⟩
    rw [← linked.reserved place, named, Option.some.injEq]
  · rw [← linked.referenced_iff]
    simp only [Assembly.Node.mem_references]
  · intro place node found
    obtain ⟨s, there, name⟩ := linked.exists_treeAt? found
    obtain ⟨keys, lookups⟩ := linked.registry_treeAt? found there
    exact ⟨s, there, name, linked.children_treeAt? found there, keys, lookups⟩

/-- Two blocks with one name, the first of which has a block inside. -/
theorem registries_consistent_of_namesakes :
    let source := "\x7b\x7bt a\x7d\x7d\x7b\x7bt b\x7d\x7d\x7b\x7b/t\x7d\x7d" ++
      "\x7b\x7b/t\x7d\x7d\x7b\x7bt a\x7d\x7d\x7b\x7b/t\x7d\x7d"
    (compile source).result =
        .ok ⟨rootName, [.block "a" [.block "b" []], .block "a" []]⟩ ∧
      ∃ nodes, (assemble source).2 = .ok nodes ∧ nodes.length = 4 ∧
        ∃! reference : Nat × Nat, ∃ node : Assembly.Node, nodes[reference.1]? = some node ∧
          node.items[reference.2]? = some (.block 2) := by
  intro source
  have compiled : (compile source).result =
      .ok ⟨rootName, [.block "a" [.block "b" []], .block "a" []]⟩ := by
    rw [compile_eq_ok_iff]
    simp only [ReadAs, Entry.lexemes, List.nil_append, List.cons_append]
    decide +kernel
  obtain ⟨nodes, assembled, _, _, _, once, starts, _⟩ := registries_consistent compiled
  have count : ((tokenize source).tokens.countP fun t => t.lexeme.isStart) = 3 := by decide +kernel
  rw [count] at starts
  exact ⟨compiled, nodes, assembled, starts, once 2 (by decide) (by rw [starts]; decide)⟩

end Stencil
