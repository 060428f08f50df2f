import Stencil.Decimal.Binary64
import Stencil.Value.Calendar

/-!
# Values

* `Value`: what contexts hold, and what selectors are read from;
* `Value.typeName`: the name of a value's type, as messages give it;
* `Value.isFalsy`: the values that stand for nothing.
-/

namespace Stencil

/-- A dictionary keeps its pairs in order, with distinct keys. A selector names a block and may
bring a context of its own, which is `null` if it has none. -/
inductive Value where
  | null
  | bool (b : Bool)
  | int (n : Int)
  | float (x : Binary64)
  | text (s : String)
  | bytes (b : List UInt8)
  | date (d : Date)
  | moment (m : Moment)
  | list (items : List Value)
  | tuple (items : List Value)
  | dict (pairs : List (Value × Value))
  | selector (name : String) (context : Value)
  deriving Repr, BEq, Inhabited

namespace Value

def typeName : Value → String
  | .null => "NoneType"
  | .bool _ => "bool"
  | .int _ => "int"
  | .float _ => "float"
  | .text _ => "str"
  | .bytes _ => "bytes"
  | .date _ => "date"
  | .moment _ => "datetime"
  | .list _ => "list"
  | .tuple _ => "tuple"
  | .dict _ => "dict"
  | .selector _ _ => "Selector"

/-- Nothing, a zero of any kind, and whatever is empty. -/
def isFalsy : Value → Bool
  | .null => true
  | .bool b => !b
  | .int n => n == 0
  | .float x => x.isZero
  | .text s => s.isEmpty
  | .bytes b => b.isEmpty
  | .list items => items.isEmpty
  | .tuple items => items.isEmpty
  | .dict pairs => pairs.isEmpty
  | .date _ => false
  | .moment _ => false
  | .selector _ _ => false

def isText (s : String) : Value → Bool
  | .text t => t == s
  | _ => false

def get? (pairs : List (Value × Value)) (key : String) : Option Value :=
  (pairs.find? fun pair => pair.1.isText key).map Prod.snd

end Value

end Stencil
