import Stencil.Proofs.Files.Loading

/-!
# Wrong content met on the way to a tree

* `ContentFault.IsEscape`: the faults of escapes by code point;
* `OnlyEscapes`: what has no other fault in any content;
* `Place.quoted_onlyEscapes`, `Reading.settle_onlyEscapes`, `Compose.node_onlyEscapes`: scalars in
  quotes, and so tokens and nodes, are read with no other fault;
* `ofText?_onlyEscapes`: only an escape is to blame for its content before there is a tree.
-/

namespace Stencil.Yaml

/-- The code of an escape is that of no character. -/
def ContentFault.IsEscape (f : ContentFault) : Prop := f = .codePoint ∨ f = .codePointSize

variable {α β : Type}

def OnlyEscapes (r : Except Fault α) : Prop := ∀ f, r = .error (.content f) → f.IsEscape

namespace OnlyEscapes

@[simp] theorem ok (a : α) : OnlyEscapes (.ok a : Except Fault α) := fun _ wrong => nomatch wrong

@[simp] theorem pure (a : α) : OnlyEscapes (Pure.pure a : Except Fault α) := ok a

@[simp] theorem form (p : Problem) : OnlyEscapes (.error (.form p) : Except Fault α) :=
  fun _ wrong => nomatch wrong

@[simp] theorem throw (p : Problem) : OnlyEscapes (MonadExcept.throw (.form p) : Except Fault α) :=
  form p

theorem bind {r : Except Fault α} {g : α → Except Fault β} (first : OnlyEscapes r)
    (second : ∀ a, OnlyEscapes (g a)) : OnlyEscapes (r >>= g) := by
  cases r with
  | ok a => exact second a
  | error e => exact fun f wrong => first f (by rw [Except.error.inj wrong])

theorem ite {p : Prop} [Decidable p] {r s : Except Fault α} (yes : OnlyEscapes r)
    (no : OnlyEscapes s) : OnlyEscapes (if p then r else s) := by
  split
  · exact yes
  · exact no

end OnlyEscapes

namespace Place

theorem quotedBreaks_onlyEscapes (fuel : Nat) (p : Place) (breaks : List Char) :
    OnlyEscapes (quotedBreaks fuel p breaks) := by
  induction fuel generalizing p breaks with
  | zero => exact .ok _
  | succ fuel ih =>
    unfold quotedBreaks
    refine .ite (.form _) ?_
    dsimp only
    split
    · exact .ok _
    · exact ih _ _

theorem escapedNumber_onlyEscapes (p : Place) (width : Nat) :
    OnlyEscapes (p.escapedNumber width) := by
  unfold escapedNumber
  dsimp only
  split
  · exact .form _
  · refine .ite ?_ (.ite ?_ (.ok _))
    · rintro f ⟨⟩
      exact .inr rfl
    · rintro f ⟨⟩
      exact .inl rfl

theorem escapedCode_onlyEscapes (p : Place) (width : Nat) :
    OnlyEscapes (p.escapedCode width) := by
  unfold escapedCode
  refine (escapedNumber_onlyEscapes p width).bind fun ⟨high, behind⟩ => ?_
  dsimp only
  split
  · split
    · refine (escapedNumber_onlyEscapes _ _).bind fun ⟨low, last⟩ => ?_
      exact .ite (.pure _) (.pure _)
    · exact .pure _
  · exact .pure _

theorem escape_onlyEscapes (p : Place) : OnlyEscapes p.escape := by
  unfold escape
  dsimp only
  split
  · exact .ok _
  · exact (escapedCode_onlyEscapes _ _).bind fun _ => .ok _
  · exact .ite (quotedBreaks_onlyEscapes _ _ _) (.form _)

theorem quotedSpace_onlyEscapes (p : Place) : OnlyEscapes p.quotedSpace := by
  unfold quotedSpace
  dsimp only
  refine .ite (.form _) ?_
  split
  · exact .ok _
  · exact (quotedBreaks_onlyEscapes _ _ _).bind fun _ => .ok _

theorem quotedFrom_onlyEscapes (fuel : Nat) (mark : Char) (p : Place)
    (pieces : List (List Char)) : OnlyEscapes (quotedFrom fuel mark p pieces) := by
  induction fuel generalizing p pieces with
  | zero => exact .form _
  | succ fuel ih =>
    unfold quotedFrom
    dsimp only
    refine .ite (ih _ _) (.ite (.ok _) (.ite (ih _ _) (.ite ?_ ?_)))
    · exact (escape_onlyEscapes _).bind fun _ => ih _ _
    · exact (quotedSpace_onlyEscapes _).bind fun _ => ih _ _

theorem quoted_onlyEscapes (p : Place) : OnlyEscapes p.quoted := quotedFrom_onlyEscapes _ _ _ _

theorem blockIndicators_onlyEscapes (p : Place) : OnlyEscapes p.blockIndicators := by
  unfold blockIndicators
  exact .ite (.form _) (.ok _)

theorem blockHeaderEnd_onlyEscapes (p : Place) : OnlyEscapes p.blockHeaderEnd := by
  unfold blockHeaderEnd
  exact .ite (.ok _) (.form _)

theorem block_onlyEscapes (p : Place) (least : Nat) : OnlyEscapes (p.block least) := by
  unfold block
  refine (blockIndicators_onlyEscapes _).bind fun ⟨header, p⟩ => ?_
  refine (blockHeaderEnd_onlyEscapes p).bind fun p => ?_
  dsimp only
  split
  · exact .ite ((OnlyEscapes.throw _).bind fun _ => (OnlyEscapes.pure _).bind fun _ => .pure _)
      ((OnlyEscapes.pure _).bind fun _ => .pure _)
  · exact (OnlyEscapes.pure _).bind fun _ => .pure _

theorem named_onlyEscapes (p : Place) : OnlyEscapes p.named := by
  unfold named
  exact .ite (.form _) (.ok _)

theorem tagSuffix_onlyEscapes (p : Place) : OnlyEscapes p.tagSuffix := by
  unfold tagSuffix
  dsimp only
  split
  · exact .ok _
  · exact .form _

theorem tagHandle_onlyEscapes (p : Place) : OnlyEscapes p.tagHandle := by
  unfold tagHandle
  exact .ite (.ok _) (.form _)

theorem tag_onlyEscapes (p : Place) : OnlyEscapes p.tag := by
  unfold tag
  have closed : ∀ found : Token × Place,
      OnlyEscapes (if found.2.peek = ' ' ∨ isEnd found.2.peek then .ok (found.1, found.2)
        else .error (.form .tag)) :=
    fun found => .ite (.ok _) (.form _)
  refine .ite ?_ (.ite ((OnlyEscapes.pure _).bind closed) (.ite ?_ ?_))
  · refine (tagSuffix_onlyEscapes _).bind fun found => ?_
    exact .ite ((OnlyEscapes.pure _).bind closed) ((OnlyEscapes.form _).bind closed)
  · refine (tagHandle_onlyEscapes _).bind fun handle =>
      (tagSuffix_onlyEscapes _).bind fun suffix => ?_
    exact (OnlyEscapes.pure _).bind closed
  · refine (OnlyEscapes.pure _).bind fun handle => (tagSuffix_onlyEscapes _).bind fun suffix => ?_
    exact (OnlyEscapes.pure _).bind closed

end Place

namespace Reading

variable (s : Reading)

theorem dropStale_onlyEscapes : OnlyEscapes s.dropStale := by
  unfold dropStale
  exact .ite (.form _) (.ok _)

theorem dropCandidate_onlyEscapes : OnlyEscapes s.dropCandidate := by
  unfold dropCandidate
  exact .ite (.form _) (.ok _)

theorem saveCandidate_onlyEscapes : OnlyEscapes s.saveCandidate := by
  unfold saveCandidate
  exact .ite (s.dropCandidate_onlyEscapes.bind fun _ => .pure _) (.pure _)

theorem separator_onlyEscapes (t : Token) (width : Nat) : OnlyEscapes (s.separator t width) :=
  (dropCandidate_onlyEscapes _).bind fun _ => .pure _

theorem openFlow_onlyEscapes (t : Token) (mark : Char) : OnlyEscapes (s.openFlow t mark) :=
  s.saveCandidate_onlyEscapes.bind fun _ => .pure _

theorem closeFlow_onlyEscapes (t : Token) : OnlyEscapes (s.closeFlow t) :=
  s.dropCandidate_onlyEscapes.bind fun _ => .pure _

theorem flowEntry_onlyEscapes : OnlyEscapes s.flowEntry :=
  s.dropCandidate_onlyEscapes.bind fun _ => .pure _

theorem indicator_onlyEscapes (t start : Token) (problem : Problem) (allows : Bool) :
    OnlyEscapes (s.indicator t start problem allows) := by
  unfold indicator
  refine .ite (.throw _) ?_
  exact (dropCandidate_onlyEscapes _).bind fun _ => .pure _

theorem colon_onlyEscapes : OnlyEscapes s.colon := by
  unfold colon
  split
  · exact .pure _
  · exact s.indicator_onlyEscapes _ _ _ _

theorem candidate_onlyEscapes {read : Place → Except Fault (Token × Place)}
    (reads : ∀ p, OnlyEscapes (read p)) : OnlyEscapes (s.candidate read) :=
  s.saveCandidate_onlyEscapes.bind fun s => (reads s.place).bind fun _ => .pure _

theorem blockScalar_onlyEscapes : OnlyEscapes s.blockScalar :=
  s.dropCandidate_onlyEscapes.bind fun s => (s.place.block_onlyEscapes _).bind fun _ => .pure _

theorem plainScalar_onlyEscapes : OnlyEscapes s.plainScalar :=
  s.saveCandidate_onlyEscapes.bind fun _ => .pure _

theorem step_onlyEscapes : OnlyEscapes s.step := by
  unfold step
  refine (dropStale_onlyEscapes _).bind fun s => ?_
  dsimp only
  generalize s.unwind s.place.column = s
  refine .ite ((s.separator_onlyEscapes _ _).bind fun _ => .pure _) <|
    .ite (s.separator_onlyEscapes _ _) <| .ite (s.separator_onlyEscapes _ _) <|
    .ite (s.separator_onlyEscapes _ _) <| .ite (s.openFlow_onlyEscapes _ _) <|
    .ite (s.openFlow_onlyEscapes _ _) <| .ite (s.closeFlow_onlyEscapes _) <|
    .ite (s.closeFlow_onlyEscapes _) <| .ite s.flowEntry_onlyEscapes <|
    .ite (s.indicator_onlyEscapes _ _ _ _) <| .ite (s.indicator_onlyEscapes _ _ _ _) <|
    .ite s.colon_onlyEscapes <| .ite (s.candidate_onlyEscapes ?_) <|
    .ite (s.candidate_onlyEscapes ?_) <| .ite (s.candidate_onlyEscapes Place.tag_onlyEscapes) <|
    .ite s.blockScalar_onlyEscapes <| .ite (s.candidate_onlyEscapes ?_) <|
    .ite s.plainScalar_onlyEscapes (.form _)
  · exact fun p => p.named_onlyEscapes.bind fun _ => .pure _
  · exact fun p => p.named_onlyEscapes.bind fun _ => .pure _
  · exact fun p => p.quoted_onlyEscapes.bind fun _ => .pure _

theorem settle_onlyEscapes (fuel : Nat) (s : Reading) : OnlyEscapes (s.settle fuel) := by
  induction fuel generalizing s with
  | zero => exact .ok _
  | succ fuel ih =>
    unfold settle
    refine .ite (.ok _) (.ite (s.step_onlyEscapes.bind ih) (s.dropStale_onlyEscapes.bind ?_))
    exact fun s => .ite (s.step_onlyEscapes.bind ih) (.pure _)

theorem start_onlyEscapes (text : String) : OnlyEscapes (Reading.start text) := by
  unfold start
  split
  · exact .form _
  · exact .ok _

end Reading

namespace Compose

/-- Whatever has been read, composing finds no other fault. -/
def OnlyEscapes (x : Compose α) : Prop := ∀ s, Yaml.OnlyEscapes (x.run s)

namespace OnlyEscapes

theorem pure (a : α) : OnlyEscapes (Pure.pure a : Compose α) := fun _ => .ok _

theorem bind {x : Compose α} {g : α → Compose β} (first : OnlyEscapes x)
    (second : ∀ a, OnlyEscapes (g a)) : OnlyEscapes (x >>= g) :=
  fun s => (first s).bind fun next => second next.1 next.2

theorem ite {p : Prop} [Decidable p] {x y : Compose α} (yes : OnlyEscapes x) (no : OnlyEscapes y) :
    OnlyEscapes (if p then x else y) := by
  split
  · exact yes
  · exact no

theorem modify (f : Composing → Composing) : OnlyEscapes (modify f : Compose Unit) :=
  fun _ => .ok _

theorem get : OnlyEscapes (MonadState.get : Compose Composing) := fun _ => .ok _

theorem set (s : Composing) : OnlyEscapes (MonadStateOf.set s : Compose Unit) := fun _ => .ok _

theorem lift {r : Except Fault α} (h : Yaml.OnlyEscapes r) :
    OnlyEscapes (liftM r : Compose α) :=
  fun _ => h.bind fun _ => .ok _

theorem refuse (p : Problem) : OnlyEscapes (refuse p : Compose α) := fun _ => .form p

end OnlyEscapes

theorem peek_onlyEscapes : OnlyEscapes peek :=
  OnlyEscapes.get.bind fun s =>
    (OnlyEscapes.lift (s.reading.settle_onlyEscapes s.limit)).bind fun _ =>
      (OnlyEscapes.set _).bind fun _ => .pure _

theorem next_onlyEscapes : OnlyEscapes next :=
  peek_onlyEscapes.bind fun _ => (OnlyEscapes.modify _).bind fun _ => .pure _

theorem scalar_onlyEscapes (tag : Tag) (content : String) : OnlyEscapes (scalar tag content) :=
  fun _ => .ok _

theorem expect_onlyEscapes (t : Token) : OnlyEscapes (expect t) :=
  peek_onlyEscapes.bind fun _ => .ite (next_onlyEscapes.bind fun _ => .pure _) (.refuse _)

theorem accept_onlyEscapes (t : Token) : OnlyEscapes (accept t) :=
  peek_onlyEscapes.bind fun _ => .ite (next_onlyEscapes.bind fun _ => .pure _) (.pure _)

theorem meets_onlyEscapes (ts : List Token) : OnlyEscapes (meets ts) :=
  peek_onlyEscapes.bind fun _ => .pure _

theorem bind_onlyEscapes (name? : Option String) (n : Node) : OnlyEscapes (bind name? n) := by
  cases name? with
  | none => exact .pure _
  | some name => exact .modify _

theorem fullTag_onlyEscapes (handle? : Option String) (suffix : String) :
    OnlyEscapes (fullTag handle? suffix) := by
  unfold fullTag
  split
  · exact .pure _
  · exact .pure _
  · exact .pure _
  · exact .refuse _

theorem properties_onlyEscapes : OnlyEscapes properties := by
  unfold properties
  refine peek_onlyEscapes.bind fun t => ?_
  split
  · refine next_onlyEscapes.bind fun _ => peek_onlyEscapes.bind fun t => ?_
    split
    · exact next_onlyEscapes.bind fun _ => (fullTag_onlyEscapes _ _).bind fun _ => .pure _
    · exact .pure _
  · refine next_onlyEscapes.bind fun _ => peek_onlyEscapes.bind fun t => ?_
    split
    · exact next_onlyEscapes.bind fun _ => (fullTag_onlyEscapes _ _).bind fun _ => .pure _
    · exact (fullTag_onlyEscapes _ _).bind fun _ => .pure _
  · exact .pure _

theorem absent_onlyEscapes (anchor? tag? : Option String) : OnlyEscapes (absent anchor? tag?) :=
  .ite (.refuse _) <| (scalar_onlyEscapes _ _).bind fun _ =>
    (bind_onlyEscapes _ _).bind fun _ => .pure _

theorem collection_onlyEscapes (anchor? : Option String) (empty : Node) {read : Compose Node}
    (reads : OnlyEscapes read) : OnlyEscapes (collection anchor? empty read) :=
  (bind_onlyEscapes _ _).bind fun _ => reads.bind fun _ =>
    (bind_onlyEscapes _ _).bind fun _ => .pure _

theorem orMissing_onlyEscapes (ts : List Token) {read : Compose Node} (reads : OnlyEscapes read) :
    OnlyEscapes (orMissing ts read) :=
  (meets_onlyEscapes ts).bind fun _ => .ite (.pure _) reads

/-- What reading a node and the parts of a collection has in common, as far as there is fuel. -/
structure Reads (fuel : Nat) : Prop where
  node : ∀ slot, OnlyEscapes (node fuel slot)
  blockItems : OnlyEscapes (blockItems fuel)
  indentlessItems : OnlyEscapes (indentlessItems fuel)
  blockPairs : OnlyEscapes (blockPairs fuel)
  flowPair : ∀ stop hasKey, OnlyEscapes (flowPair fuel stop hasKey)
  flowItems : ∀ first, OnlyEscapes (flowItems fuel first)
  flowPairs : ∀ first, OnlyEscapes (flowPairs fuel first)

namespace Reads

variable {fuel : Nat}

theorem zero : Reads 0 := by
  constructor <;> intros <;> exact .refuse _

theorem succ_blockItems (h : Reads fuel) : OnlyEscapes (Compose.blockItems (fuel + 1)) := by
  unfold Compose.blockItems
  refine (accept_onlyEscapes _).bind fun _ => .ite ?_ ?_
  · exact (orMissing_onlyEscapes _ (h.node _)).bind fun _ => h.blockItems.bind fun _ => .pure _
  · exact (expect_onlyEscapes _).bind fun _ => .pure _

theorem succ_indentlessItems (h : Reads fuel) :
    OnlyEscapes (Compose.indentlessItems (fuel + 1)) := by
  unfold Compose.indentlessItems
  refine (accept_onlyEscapes _).bind fun _ => .ite ?_ (.pure _)
  exact (orMissing_onlyEscapes _ (h.node _)).bind fun _ => h.indentlessItems.bind fun _ => .pure _

theorem succ_blockPairs (h : Reads fuel) : OnlyEscapes (Compose.blockPairs (fuel + 1)) := by
  unfold Compose.blockPairs
  have behind : ∀ key : Node, OnlyEscapes do
      let value ← if ← accept .value then
        orMissing [.key, .value, .blockEnd] (Compose.node fuel .entry) else pure .missing
      return (key, value) :: (← Compose.blockPairs fuel) := by
    refine fun key => (accept_onlyEscapes _).bind fun _ => .ite ?_ ?_
    · exact (orMissing_onlyEscapes _ (h.node _)).bind fun _ => h.blockPairs.bind fun _ => .pure _
    · exact (OnlyEscapes.pure _).bind fun _ => h.blockPairs.bind fun _ => .pure _
  refine (accept_onlyEscapes _).bind fun hasKey =>
    peek_onlyEscapes.bind fun _ => .ite (.ite ?_ ?_) ?_
  · exact (orMissing_onlyEscapes _ (h.node _)).bind behind
  · exact (OnlyEscapes.pure _).bind behind
  · exact (expect_onlyEscapes _).bind fun _ => .pure _

theorem succ_flowPair (h : Reads fuel) (stop : Token) (hasKey : Bool) :
    OnlyEscapes (Compose.flowPair (fuel + 1) stop hasKey) := by
  unfold Compose.flowPair
  have behind : ∀ key : Node, OnlyEscapes do
      let value ← if ← accept .value then
        orMissing [.flowEntry, stop] (Compose.node fuel .flow) else pure .missing
      return (key, value) := by
    refine fun key => (accept_onlyEscapes _).bind fun _ => .ite ?_ ?_
    · exact (orMissing_onlyEscapes _ (h.node _)).bind fun _ => .pure _
    · exact (OnlyEscapes.pure _).bind fun _ => .pure _
  refine .ite ?_ ?_
  · exact (orMissing_onlyEscapes _ (h.node _)).bind behind
  · exact (OnlyEscapes.pure _).bind behind

theorem succ_flowItems (h : Reads fuel) (first : Bool) :
    OnlyEscapes (Compose.flowItems (fuel + 1) first) := by
  unfold Compose.flowItems
  have behind : ∀ _ : Unit, OnlyEscapes do
      if ← accept .key then
        let pair ← Compose.flowPair fuel .flowSequenceEnd true
        return .ofPairs .mapping [pair] :: (← Compose.flowItems fuel false)
      else if ← accept .flowSequenceEnd then return []
      else
        let item ← Compose.node fuel .flow
        return item :: (← Compose.flowItems fuel false) := by
    refine fun _ => (accept_onlyEscapes _).bind fun _ => .ite ?_ <|
      (accept_onlyEscapes _).bind fun _ => .ite (.pure _) ?_
    · exact (h.flowPair _ _).bind fun _ => (h.flowItems _).bind fun _ => .pure _
    · exact (h.node _).bind fun _ => (h.flowItems _).bind fun _ => .pure _
  refine (accept_onlyEscapes _).bind fun _ => .ite (.pure _) (.ite ?_ (behind ()))
  exact (expect_onlyEscapes _).bind behind

theorem succ_flowPairs (h : Reads fuel) (first : Bool) :
    OnlyEscapes (Compose.flowPairs (fuel + 1) first) := by
  unfold Compose.flowPairs
  have behind : ∀ _ : Unit, OnlyEscapes do
      if ← accept .key then
        let pair ← Compose.flowPair fuel .flowMappingEnd true
        return pair :: (← Compose.flowPairs fuel false)
      else if (← peek) = .value then
        let pair ← Compose.flowPair fuel .flowMappingEnd false
        return pair :: (← Compose.flowPairs fuel false)
      else if ← accept .flowMappingEnd then return []
      else
        let key ← Compose.node fuel .flow
        return (key, .missing) :: (← Compose.flowPairs fuel false) := by
    refine fun _ => (accept_onlyEscapes _).bind fun _ => .ite ?_ <|
      peek_onlyEscapes.bind fun _ => .ite ?_ <|
      (accept_onlyEscapes _).bind fun _ => .ite (.pure _) ?_
    · exact (h.flowPair _ _).bind fun _ => (h.flowPairs _).bind fun _ => .pure _
    · exact (h.flowPair _ _).bind fun _ => (h.flowPairs _).bind fun _ => .pure _
    · exact (h.node _).bind fun _ => (h.flowPairs _).bind fun _ => .pure _
  refine (accept_onlyEscapes _).bind fun _ => .ite (.pure _) (.ite ?_ (behind ()))
  exact (expect_onlyEscapes _).bind behind

theorem succ_node (h : Reads fuel) (slot : Slot) : OnlyEscapes (Compose.node (fuel + 1) slot) := by
  unfold Compose.node
  refine peek_onlyEscapes.bind fun t => ?_
  split
  · refine next_onlyEscapes.bind fun _ => OnlyEscapes.get.bind fun s => ?_
    split
    · exact .pure _
    · exact .refuse _
  · refine properties_onlyEscapes.bind fun ⟨anchor?, tag?⟩ => ?_
    dsimp only
    have sequence : ∀ {read : Compose (List Node)}, OnlyEscapes read →
        OnlyEscapes (collection anchor? (.sequence (tagOr tag? .sequence) []) do
          return .sequence (tagOr tag? .sequence) (← read)) :=
      fun reads => collection_onlyEscapes _ _ (reads.bind fun _ => .pure _)
    have mapping : ∀ {read : Compose (List (Node × Node))}, OnlyEscapes read →
        OnlyEscapes (collection anchor? (.ofPairs (tagOr tag? .mapping) []) do
          return .ofPairs (tagOr tag? .mapping) (← read)) :=
      fun reads => collection_onlyEscapes _ _ (reads.bind fun _ => .pure _)
    refine peek_onlyEscapes.bind fun t => ?_
    split
    · exact next_onlyEscapes.bind fun _ => (scalar_onlyEscapes _ _).bind fun _ =>
        (bind_onlyEscapes _ _).bind fun _ => .pure _
    · exact sequence h.indentlessItems
    · exact sequence (next_onlyEscapes.bind fun _ => h.flowItems _)
    · exact mapping (next_onlyEscapes.bind fun _ => h.flowPairs _)
    · exact sequence (next_onlyEscapes.bind fun _ => h.blockItems)
    · exact sequence (next_onlyEscapes.bind fun _ => h.blockItems)
    · exact mapping (next_onlyEscapes.bind fun _ => h.blockPairs)
    · exact mapping (next_onlyEscapes.bind fun _ => h.blockPairs)
    · exact absent_onlyEscapes _ _

end Reads

theorem reads (fuel : Nat) : Reads fuel := by
  induction fuel with
  | zero => exact .zero
  | succ fuel h =>
    exact ⟨h.succ_node, h.succ_blockItems, h.succ_indentlessItems, h.succ_blockPairs,
      h.succ_flowPair, h.succ_flowItems, h.succ_flowPairs⟩

theorem directives_onlyEscapes (fuel : Nat) : OnlyEscapes (directives fuel) := by
  induction fuel with
  | zero => exact .pure _
  | succ fuel ih => exact (accept_onlyEscapes _).bind fun _ => .ite ih (.pure _)

theorem finish_onlyEscapes (n : Node) : OnlyEscapes (document.finish n) :=
  (accept_onlyEscapes _).bind fun _ => peek_onlyEscapes.bind fun _ => .ite (.pure _) (.refuse _)

theorem document_onlyEscapes (fuel : Nat) : OnlyEscapes (document fuel) := by
  unfold document
  refine (meets_onlyEscapes _).bind fun _ => .ite ?_ (((reads fuel).node _).bind finish_onlyEscapes)
  refine (accept_onlyEscapes _).bind fun _ => .ite (.pure _) ?_
  exact (directives_onlyEscapes _).bind fun _ => (expect_onlyEscapes _).bind fun _ =>
    (orMissing_onlyEscapes _ ((reads fuel).node _)).bind finish_onlyEscapes

end Compose

/-- There is a tree of the text, or its form is wrong, or an escape is to blame. -/
theorem ofText?_onlyEscapes (text : String) : OnlyEscapes (Node.ofText? text) := by
  unfold Node.ofText?
  refine (Reading.start_onlyEscapes text).bind fun reading => ?_
  exact (Compose.document_onlyEscapes _ _).bind fun _ => .ok _

end Stencil.Yaml
