import Stencil.Decimal.Numeral
import Stencil.Text.Case
import Stencil.Value.Equality
import Stencil.Yaml.Fault
import Stencil.Yaml.Schema

/-!
# Values of scalars

* `intOf`, `floatOf`, `momentOf`, `bytesOf`, `boolOf`: the value of a scalar of a type;
* `scalarValue`: the value of a scalar by its tag.
-/

namespace Stencil.Yaml

def basedDigits : List Char → Nat × List Char
  | '0' :: 'b' :: rest => (2, rest)
  | '0' :: 'o' :: rest => (8, rest)
  | '0' :: 'x' :: rest => (16, rest)
  | digits => (10, digits)

/-- An integer, in base two, eight or sixteen if it says so; underscores do not count. -/
def intOf (content : String) : Except ContentFault Int :=
  let cs := content.toList.filter (· != '_')
  let (negative, body) := Text.splitSign cs
  let (base, digits) := basedDigits body
  if cs.isEmpty then .error .noDigits
  else
    match Text.integer? base digits with
    | some n => .ok (if negative then -n else n)
    | none => .error (.integer base (String.ofList digits))

/-- What is not a number, but different from all others that `number` stands for. -/
def nanOf (number : Nat) : Binary64 := ⟨Binary64.nan.bits + UInt64.ofNat number⟩

def flipIf (negative : Bool) (x : Binary64) : Binary64 :=
  if negative then ⟨x.bits ^^^ 0x8000000000000000⟩ else x

/-- A floating-point number; underscores do not count, and neither does case. The words for what is
not a number that begin with a point all stand for the same, and others never do: `number` tells
them apart. -/
def floatOf (content : String) (number : Nat) : Except ContentFault Binary64 :=
  let cs := Text.lower (content.toList.filter (· != '_'))
  let (negative, body) := Text.splitSign cs
  if cs.isEmpty then .error .noDigits
  else if body = ".inf".toList then .ok (.infinity negative)
  else if body = ".nan".toList then .ok .nan
  else
    match Binary64.ofText? body with
    | some x => .ok (if x = .nan then nanOf (number + 1) else flipIf negative x)
    | none => .error (.float (String.ofList body))

/-- The part of a second, to the nearest microsecond, which may make the second full. -/
def microseconds (fraction : List Char) : Nat :=
  let digits := fraction.take 6
  let whole := Decimal.ofDigits (digits ++ List.replicate (6 - digits.length) '0')
  match fraction.drop 6 with
  | [] => whole
  | c :: _ => if '4' < c then whole + 1 else whole

def momentOf (t : Timestamp) : Except CalendarFault Value := do
  let date : Date :=
    ⟨Decimal.ofDigits t.year, Decimal.ofDigits t.month, Decimal.ofDigits t.day⟩
  match t.time? with
  | none => return .date (← date.check)
  | some (hour, minute, second, fraction) =>
    let micros := microseconds fraction
    let isFull := 999999 < micros
    let moment ← Moment.check ⟨date, Decimal.ofDigits hour, Decimal.ofDigits minute,
      Decimal.ofDigits second, if isFull then 0 else micros, t.zone?⟩
    return .moment (← if isFull then moment.following else pure moment)

def digit64? (c : Char) : Option Nat :=
  if 'A' ≤ c ∧ c ≤ 'Z' then some (c.toNat - 65)
  else if 'a' ≤ c ∧ c ≤ 'z' then some (c.toNat - 71)
  else if '0' ≤ c ∧ c ≤ '9' then some (c.toNat + 4)
  else if c = '+' then some 62
  else if c = '/' then some 63
  else none

/-- Reads digits of base 64 and passes over everything else. `bits` are the bits not used yet, of
`count` digits since the last full group; enough padding ends the text. -/
def bytesFrom (count bits pads : Nat) (done : List UInt8) : List Char → Option (List UInt8)
  | [] => if count = 0 then some done.reverse else none
  | c :: rest =>
    if c = '=' then
      if 2 ≤ count ∧ 4 ≤ count + pads + 1 then some done.reverse
      else bytesFrom count bits (if 2 ≤ count then pads + 1 else pads) done rest
    else
      match digit64? c with
      | none => bytesFrom count bits pads done rest
      | some d =>
        if count = 0 then bytesFrom 1 d 0 done rest
        else if count = 1 then
          bytesFrom 2 (d % 16) 0 (UInt8.ofNat (bits * 4 + d / 16) :: done) rest
        else if count = 2 then
          bytesFrom 3 (d % 4) 0 (UInt8.ofNat (bits * 16 + d / 4) :: done) rest
        else bytesFrom 0 0 0 (UInt8.ofNat (bits * 64 + d) :: done) rest

/-- Bytes in base 64, of which the text may hold ASCII only. -/
def bytesOf (content : String) : Except Fault (List UInt8) :=
  let cs := content.toList
  match if cs.all fun c => c.toNat < 0x80 then bytesFrom 0 0 0 [] cs else none with
  | some bytes => .ok bytes
  | none => .error (.form .base64)

def boolOf (content : String) : Except ContentFault Bool :=
  let word := String.ofList (Text.lower content.toList)
  if ["true", "yes", "y", "on"].contains word then .ok true
  else if ["false", "no", "n", "off"].contains word then .ok false
  else .error (.truth word)

/-- The value of a scalar, of which `number` tells it apart from all others. Tags without a value of
their own are refused. -/
def scalarValue (tag : Tag) (content : String) (number : Nat) : Except Fault Value :=
  match tag with
  | .null => .ok .null
  | .bool => .bool <$> (boolOf content).mapError .content
  | .int => .int <$> (intOf content).mapError .content
  | .float => .float <$> (floatOf content number).mapError .content
  | .timestamp =>
    match Timestamp.of? content with
    | some t => (momentOf t).mapError fun f => .content (.calendar f)
    | none => .error (.form (.wrongTag "tag:yaml.org,2002:timestamp"))
  | .text => .ok (.text content)
  | .binary => .bytes <$> bytesOf content
  | .merge => .error (.form (.wrongTag "tag:yaml.org,2002:merge"))
  | .value => .error (.form (.wrongTag "tag:yaml.org,2002:value"))
  | .sequence => .error (.form (.wrongTag "tag:yaml.org,2002:seq"))
  | .mapping => .error (.form (.wrongTag "tag:yaml.org,2002:map"))
  | .other name => .error (.form (.wrongTag name))

end Stencil.Yaml
