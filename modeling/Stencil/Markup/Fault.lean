import Stencil.Markup.Position

/-!
# Faults of templates

* `Fault`: what is wrong with a template, and the position that is to blame.
-/

namespace Stencil

/-- The name that the root of every template bears, and no block may bear. -/
def rootName : String := "__ROOT__"

inductive Cause where
  | strayBraces (span : String)
  | reservedName
  | unexpectedStop
  | unclosed (names : List String)
  deriving DecidableEq, Repr

def Cause.message : Cause → String
  | .strayBraces span =>
    "Expected \x7b\x7b expression \x7d\x7d or \x7b\x7bt TemplateName\x7d\x7d ... " ++
      "\x7b\x7b/t\x7d\x7d but got " ++ span
  | .reservedName => "Template name " ++ rootName ++ " is reserved"
  | .unexpectedStop => "Found unexpected \x7b\x7b/t\x7d\x7d"
  | .unclosed names =>
    "Missing one or more \x7b\x7b/t\x7d\x7d (unclosed: " ++ String.intercalate ", " names ++ ")"

structure Fault where
  cause : Cause
  position : Position
  deriving DecidableEq, Repr

end Stencil
