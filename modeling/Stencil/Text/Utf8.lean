import Stencil.Text.Hex

/-!
# UTF-8

* `decode`: strict decoding, which refuses overlong forms, surrogates and cut sequences;
* `Utf8Fault`: the bytes to blame for a refusal, and why;
* `encode`: the bytes of a text.
-/

namespace Stencil.Text

inductive Utf8Cause where
  | start
  | continuation
  | unexpectedEnd
  deriving DecidableEq, Repr

def Utf8Cause.message : Utf8Cause → String
  | .start => "invalid start byte"
  | .continuation => "invalid continuation byte"
  | .unexpectedEnd => "unexpected end of data"

/-- The bytes to blame are those from `start`, `count` of them, the first being `byte`. -/
structure Utf8Fault where
  cause : Utf8Cause
  start : Nat
  count : Nat
  byte : UInt8
  deriving DecidableEq, Repr

def Utf8Fault.message (f : Utf8Fault) : String :=
  let subject :=
    if f.count = 1 then
      s!"byte 0x{String.ofList (hex 2 f.byte.toNat)} in position {f.start}"
    else
      s!"bytes in position {f.start}-{f.start + f.count - 1}"
  s!"'utf-8' codec can't decode {subject}: {f.cause.message}"

/-- The bytes that may follow a lead byte: how many, the range of the first of them, and the
bits that the lead byte gives. -/
structure Lead where
  following : Nat
  low : UInt8
  high : UInt8
  bits : Nat
  deriving DecidableEq, Repr

/-- The first continuation byte is narrowed so that no code point has a second, longer form, no
surrogate is encoded, and U+10FFFF is the last. -/
def Lead.of? (b : UInt8) : Option Lead :=
  if b < 0x80 then some ⟨0, 0x80, 0xBF, b.toNat⟩
  else if b < 0xC2 then none
  else if b < 0xE0 then some ⟨1, 0x80, 0xBF, b.toNat - 0xC0⟩
  else if b < 0xF0 then
    some ⟨2, if b = 0xE0 then 0xA0 else 0x80, if b = 0xED then 0x9F else 0xBF, b.toNat - 0xE0⟩
  else if b < 0xF5 then
    some ⟨3, if b = 0xF0 then 0x90 else 0x80, if b = 0xF4 then 0x8F else 0xBF, b.toNat - 0xF0⟩
  else none

/-- The number of leading bytes, of at most `l.following`, that may follow the lead byte. -/
def Lead.fitting (l : Lead) : List UInt8 → Nat
  | [] => 0
  | b :: rest =>
    if l.following ≠ 0 ∧ l.low ≤ b ∧ b ≤ l.high then
      1 + ((rest.take (l.following - 1)).takeWhile fun c => 0x80 ≤ c && c ≤ 0xBF).length
    else 0

/-- The code point of a lead byte and the bytes that follow it, six bits from each. -/
def Lead.codePoint (l : Lead) (following : List UInt8) : Nat :=
  following.foldl (fun n b => 64 * n + b.toNat % 64) l.bits

/-- Decodes from the given offset on, after the characters `done`, the last of them first. A
sequence is cut if the data end inside it and wrong if another byte stands inside it. -/
def decodeFrom (offset : Nat) (done : List Char) : List UInt8 → Except Utf8Fault (List Char)
  | [] => .ok done.reverse
  | b :: rest =>
    match Lead.of? b with
    | none => .error ⟨.start, offset, 1, b⟩
    | some l =>
      let fitting := l.fitting rest
      if fitting = l.following then
        decodeFrom (offset + fitting + 1) (Char.ofNat (l.codePoint (rest.take fitting)) :: done)
          (rest.drop fitting)
      else
        .error ⟨if rest.length = fitting then .unexpectedEnd else .continuation,
          offset, fitting + 1, b⟩
termination_by bytes => bytes.length
decreasing_by
  simp only [List.length_drop, List.length_cons]
  omega

def decode (bytes : List UInt8) : Except Utf8Fault (List Char) := decodeFrom 0 [] bytes

def encode (s : String) : List UInt8 := s.toList.flatMap String.utf8EncodeChar

end Stencil.Text
