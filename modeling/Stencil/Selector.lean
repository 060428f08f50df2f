import Stencil.Error

/-!
# Selectors

* `Selector`: the name of a block, perhaps with a context of its own;
* `Selection`: one selector, or a list of them, which select differently;
* `Selection.ofValue`: the selection that a loose value stands for.
-/

namespace Stencil

/-- The context is null if the selector has none of its own. -/
structure Selector where
  name : String
  context : Value
  deriving Repr, BEq

namespace Selector

def bare (name : String) : Selector := ⟨name, .null⟩

/-- The own context if there is one, and else the shared one. An empty own context is one. -/
def contextOr (s : Selector) (shared : Value) : Value :=
  match s.context with
  | .null => shared
  | own => own

def ofPair? : List Value → Option Selector
  | [.text name, .null] => some ⟨name, .null⟩
  | [.text name, .dict pairs] => some ⟨name, .dict pairs⟩
  | _ => none

/-- A selector, a bare name, a pair, or a dictionary with a name and perhaps a context. -/
def ofValue? : Value → Option Selector
  | .selector name context => some ⟨name, context⟩
  | .text name => some (bare name)
  | .tuple items => ofPair? items
  | .dict pairs =>
    match Value.get? pairs "name" with
    | some (.text name) => some ⟨name, (Value.get? pairs "context").getD .null⟩
    | _ => none
  | _ => none

def ofValue (v : Value) : Except Error Selector :=
  match ofValue? v with
  | some s => .ok s
  | none => .error (.selector v)

end Selector

inductive Selection where
  | single (s : Selector)
  | list (items : List Selector)
  deriving Repr, BEq

namespace Selection

def selectors : Selection → List Selector
  | .single s => [s]
  | .list items => items

/-- A tuple that is a pair of a name and a context is one selector; other tuples are lists. -/
def ofValue : Value → Except Error Selection
  | .tuple items =>
    match Selector.ofPair? items with
    | some s => .ok (.single s)
    | none => .list <$> items.mapM Selector.ofValue
  | .list items => .list <$> items.mapM Selector.ofValue
  | v => .single <$> Selector.ofValue v

end Selection

end Stencil
