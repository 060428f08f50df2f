import Stencil.Value.Basic

/-!
# Equality of values

* `Value.same`: equality as dictionaries see it, by which numbers of different types are one key.
-/

namespace Stencil.Value

/-- A number as an integer where it is one, and else as its bits. -/
def number? : Value → Option (Int ⊕ Binary64)
  | .bool b => some (.inl (if b then 1 else 0))
  | .int n => some (.inl n)
  | .float x => some (match x.integer? with | some n => .inl n | none => .inr x)
  | _ => none

mutual

/-- Numbers are the same if they are numerically equal, moments if they are at the same time, tuples
if their items are. What is not a number is the same as itself, by its bits. -/
def same (v w : Value) : Bool :=
  match v, w with
  | .tuple items, .tuple others => sameItems items others
  | .moment m, .moment n => m.same n
  | v, w =>
    match v.number?, w.number? with
    | some m, some n => m == n
    | none, none => v == w
    | _, _ => false

def sameItems : List Value → List Value → Bool
  | [], [] => true
  | v :: vs, w :: ws => same v w && sameItems vs ws
  | _, _ => false

end

end Stencil.Value
