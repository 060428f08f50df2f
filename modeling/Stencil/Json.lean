import Stencil.Text.Hex

/-!
# JSON

* `Json`: values with numbers that count something, and with fields in order;
* `Json.depth`: how deep its arrays and objects stand inside of one another;
* `Json.render`: a value on one line, with everything beyond ASCII left as it is.
-/

namespace Stencil

inductive Json where
  | null
  | number (n : Nat)
  | text (s : String)
  | array (items : List Json)
  | object (fields : List (String × Json))
  deriving Repr, BEq

namespace Json

mutual

/-- An array and an object are one level deeper than the deepest of their parts. -/
def depth : Json → Nat
  | .null | .number _ | .text _ => 0
  | .array items => itemDepth items + 1
  | .object fields => fieldDepth fields + 1

def itemDepth : List Json → Nat
  | [] => 0
  | item :: rest => max item.depth (itemDepth rest)

def fieldDepth : List (String × Json) → Nat
  | [] => 0
  | (_, value) :: rest => max value.depth (fieldDepth rest)

end

def escapeChar (c : Char) : List Char :=
  if c = '"' then ['\\', '"']
  else if c = '\\' then ['\\', '\\']
  else if c = '\n' then ['\\', 'n']
  else if c = '\r' then ['\\', 'r']
  else if c = '\t' then ['\\', 't']
  else if c = '\x08' then ['\\', 'b']
  else if c = '\x0c' then ['\\', 'f']
  else if c.toNat < 0x20 then '\\' :: 'u' :: Text.hex 4 c.toNat
  else [c]

def quote (s : String) : List Char := '"' :: s.toList.flatMap escapeChar ++ ['"']

mutual

def chars : Json → List Char
  | .null => ['n', 'u', 'l', 'l']
  | .number n => Nat.toDigits 10 n
  | .text s => quote s
  | .array items => '[' :: itemChars items ++ [']']
  | .object fields => '\x7b' :: fieldChars fields ++ ['\x7d']

def itemChars : List Json → List Char
  | [] => []
  | [item] => item.chars
  | item :: rest => item.chars ++ ',' :: ' ' :: itemChars rest

def fieldChars : List (String × Json) → List Char
  | [] => []
  | [(key, value)] => quote key ++ ':' :: ' ' :: value.chars
  | (key, value) :: rest =>
    quote key ++ ':' :: ' ' :: (value.chars ++ ',' :: ' ' :: fieldChars rest)

end

def render (j : Json) : String := String.ofList j.chars

end Json

end Stencil
