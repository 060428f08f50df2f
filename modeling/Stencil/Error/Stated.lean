import Stencil.Error

/-!
# Stated errors

* `StatedError`: an error of a user's input that a caller states by loose values;
* `StatedError.message`: its words.
-/

namespace Stencil

inductive WordedKind where
  | user
  | contextFile
  | templateFile
  deriving DecidableEq, Repr

/-- A place or a part of a place that is not known is null. -/
inductive StatedError where
  | worded (kind : WordedKind) (words : List Value)
  | template (words line column offset : Value)
  | notFound (name : Value)
  | unsupported (key value : Value)
  deriving Repr

/-- Words are the label of their value, and several values are written as one tuple. A fault in a
template ends with its line and column if both are known. -/
def StatedError.message : StatedError → String
  | .worded _ [] => ""
  | .worded _ [v] => v.label
  | .worded _ vs => (Value.tuple vs).literal
  | .template words .null _ _ => words.label
  | .template words _ .null _ => words.label
  | .template words line column _ => s!"{words.label} at {line.label}:{column.label}"
  | .notFound name => Error.notFoundText name.literal
  | .unsupported key value => Error.unsupportedText key.literal value.typeName

end Stencil
