import Stencil.Decimal.Numeral
import Stencil.Text.Newline
import Stencil.Value.Calendar

/-!
# Types of plain scalars

* `Schema.kind`: the type that the content of a plain scalar has by its form;
* `Timestamp.of?`: the parts of a timestamp.

A line feed at the very end of a content does not count, but plain scalars have none.
-/

namespace Stencil.Yaml

/-- The types of nodes. A name is a tag that is none of those with a type of their own. -/
inductive Tag where
  | null
  | bool
  | int
  | float
  | timestamp
  | merge
  | value
  | text
  | binary
  | sequence
  | mapping
  | other (name : String)
  deriving DecidableEq, Repr

namespace Schema

def isDigit (c : Char) : Bool := c.isDigit

/-- Digits that may be grouped by underscores. -/
def isGrouped (c : Char) : Bool := c.isDigit || c == '_'

def unsigned (cs : List Char) : List Char := (Text.splitSign cs).2

/-- The mark of an exponent, perhaps a sign, and digits; where there is no mark, nothing. -/
def isExponent (signRequired : Bool) (cs : List Char) : Bool :=
  match cs with
  | [] => false
  | c :: rest =>
    let digits := unsigned rest
    (c == 'e' || c == 'E') && !digits.isEmpty && digits.all isDigit &&
      !(signRequired && digits.length == rest.length)

/-- A point or an exponent makes a number a floating-point one. Behind a leading point the exponent
needs a sign. -/
def isFloat (cs : List Char) : Bool :=
  let body := unsigned cs
  match body with
  | [] => false
  | '.' :: rest =>
    let behind := rest.dropWhile isGrouped
    let isNumber := behind.length < rest.length && (behind.isEmpty || isExponent true behind)
    let isInfinity := rest == "inf".toList || rest == "Inf".toList || rest == "INF".toList
    let isNan := rest == "nan".toList || rest == "NaN".toList || rest == "NAN".toList
    isNumber || isInfinity || (isNan && body.length == cs.length)
  | c :: rest =>
    c.isDigit &&
      match rest.dropWhile isGrouped with
      | '.' :: rest =>
        let behind := rest.dropWhile isGrouped
        behind.isEmpty || isExponent false behind
      | behind => isExponent false behind

def isBinaryDigit (c : Char) : Bool := c == '0' || c == '1' || c == '_'

def isOctalDigit (c : Char) : Bool := ('0' ≤ c && c ≤ '7') || c == '_'

def isHexDigit (c : Char) : Bool :=
  isGrouped c || ('a' ≤ c && c ≤ 'f') || ('A' ≤ c && c ≤ 'F')

/-- Digits in one of four bases, but never with an underscore first. -/
def isInt (cs : List Char) : Bool :=
  let digits (holds : Char → Bool) (cs : List Char) : Bool := !cs.isEmpty && cs.all holds
  let body := unsigned cs
  let based :=
    match body with
    | '0' :: 'b' :: rest => digits isBinaryDigit rest
    | '0' :: 'o' :: rest => digits isOctalDigit rest
    | '0' :: 'x' :: rest => digits isHexDigit rest
    | _ => false
  cs.head? != some '_' && (based || digits isGrouped body)

end Schema

structure Timestamp where
  year : List Char
  month : List Char
  day : List Char
  /-- hour, minute, second and fraction, if there is a time of day -/
  time? : Option (List Char × List Char × List Char × List Char)
  zone? : Option Zone
  deriving DecidableEq, Repr

namespace Timestamp

/-- Digits at the front, at least `least` and at most `most` of them, and the rest. -/
def digits? (least most : Nat) (cs : List Char) : Option (List Char × List Char) :=
  let taken := (cs.take most).takeWhile Char.isDigit
  if least ≤ taken.length then some (taken, cs.drop taken.length) else none

def mark? (c : Char) : List Char → Option (List Char)
  | d :: rest => if c = d then some rest else none
  | [] => none

def isBlank (c : Char) : Bool := c == ' ' || c == '\t'

def zoneOf? (cs : List Char) : Option Zone :=
  match cs with
  | [] => none
  | ['Z'] => some ⟨0, "Z"⟩
  | sign :: rest =>
    if sign = '+' ∨ sign = '-' then do
      let (hours, rest) ← digits? 1 2 rest
      let minutes ←
        if rest.isEmpty then some 0
        else do
          let (minutes, rest) ← digits? 2 2 (← mark? ':' rest)
          if rest.isEmpty then some (Decimal.ofDigits minutes) else none
      let ahead : Int := 60 * Decimal.ofDigits hours + minutes
      some ⟨if sign = '-' then -ahead else ahead, String.ofList cs⟩
    else none

/-- A day, or a day and a time of day, in a form that may leave leading zeros out. -/
def of? (content : String) : Option Timestamp := do
  let (year, rest) ← digits? 4 4 (Text.withoutLineEnd content.toList)
  let (month, rest) ← digits? 1 2 (← mark? '-' rest)
  let (day, rest) ← digits? 1 2 (← mark? '-' rest)
  match rest with
  | [] => some ⟨year, month, day, none, none⟩
  | c :: behind =>
    let rest ←
      if c = 'T' ∨ c = 't' then some behind
      else if isBlank c then some (behind.dropWhile isBlank)
      else none
    let (hour, rest) ← digits? 1 2 rest
    let (minute, rest) ← digits? 2 2 (← mark? ':' rest)
    let (second, rest) ← digits? 2 2 (← mark? ':' rest)
    let (fraction, rest) :=
      match mark? '.' rest with
      | some behind => (behind.takeWhile Char.isDigit, behind.dropWhile Char.isDigit)
      | none => ([], rest)
    let time := (hour, minute, second, fraction)
    if rest.isEmpty then some ⟨year, month, day, some time, none⟩
    else some ⟨year, month, day, some time, some (← zoneOf? (rest.dropWhile isBlank))⟩

/-- Whether the form is that of a plain timestamp: a day alone has all its zeros. -/
def isPlain (t : Timestamp) : Bool :=
  t.time?.isSome || (t.month.length == 2 && t.day.length == 2)

end Timestamp

/-- The type of the content of a plain scalar; what has no other form is a text. -/
def Schema.kind (content : String) : Tag :=
  let cs := Text.withoutLineEnd content.toList
  let word := String.ofList cs
  if content = "" ∨ ["~", "null", "Null", "NULL"].contains word then .null
  else if ["true", "True", "TRUE", "false", "False", "FALSE"].contains word then .bool
  else if word = "<<" then .merge
  else if word = "=" then .value
  else if isFloat cs then .float
  else if isInt cs then .int
  else if (Timestamp.of? content).any Timestamp.isPlain then .timestamp
  else .text

end Stencil.Yaml
