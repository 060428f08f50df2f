import Stencil.Yaml.Backlog
import Stencil.Yaml.Tree

/-!
# Documents

* `load`: the value of the single document in a text, or what is wrong with it.
-/

namespace Stencil.Yaml

/-- The value of the document in a text; a text without a document is null. What documents before it
have left to be done is done with its root node, if it has one. -/
def load (b : Backlog) (text : String) : Except Fault Value × Backlog :=
  match Node.ofText? text with
  | .error f => (.error f, b)
  | .ok none => (.ok .null, b)
  | .ok (some n) => n.valueAfter b

end Stencil.Yaml
