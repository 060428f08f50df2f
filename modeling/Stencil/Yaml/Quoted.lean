import Stencil.Text.Hex
import Stencil.Yaml.Fault
import Stencil.Yaml.Place

/-!
# Quoted scalars

* `Place.quoted`: the content of a scalar in single or in double quotes.

In both, line breaks are folded. Two single quotes stand for one; between double quotes a backslash
begins an escape.
-/

namespace Stencil.Yaml

def escaped? (c : Char) : Option Char :=
  match c with
  | '0' => some '\x00'
  | 'a' => some '\x07'
  | 'b' => some '\x08'
  | 't' | '\t' => some '\t'
  | 'n' => some '\n'
  | 'v' => some '\x0b'
  | 'f' => some '\x0c'
  | 'r' => some '\r'
  | 'e' => some '\x1b'
  | ' ' => some ' '
  | '"' => some '"'
  | '/' => some '/'
  | '\\' => some '\\'
  | 'N' => some '\x85'
  | '_' => some '\u00a0'
  | 'L' => some '\u2028'
  | 'P' => some '\u2029'
  | _ => none

def escapeWidth? (c : Char) : Option Nat :=
  match c with
  | 'x' => some 2
  | 'u' => some 4
  | 'U' => some 8
  | _ => none

namespace Place

/-- The line breaks from here on, with the blanks around them left out. -/
def quotedBreaks (fuel : Nat) (p : Place) (breaks : List Char) : Except Fault (List Char × Place) :=
  match fuel with
  | 0 => .ok (breaks, p)
  | fuel + 1 =>
    if p.atSeparator then .error (.form .separatorInQuotes)
    else
      let p := p.skip fun c => c == ' ' || c == '\t'
      match p.lineBreak with
      | ([], _) => .ok (breaks, p)
      | (found, next) => quotedBreaks fuel next (breaks ++ found)

def escapedNumber (p : Place) (width : Nat) : Except Fault (Nat × Place) :=
  let digits := p.rest.take width
  match if digits.length = width then Text.ofHex? digits else none with
  | none => .error (.form .escape)
  | some n =>
    if 0x7FFFFFFF < n then .error (.content .codePointSize)
    else if 0x10FFFF < n then .error (.content .codePoint)
    else .ok (n, p.advance width)

/-- The character that an escape by code point stands for, and the place behind it. The two halves
of a surrogate pair are one character. -/
def escapedCode (p : Place) (width : Nat) : Except Fault (Char × Place) := do
  let (high, behind) ← p.escapedNumber width
  if 0xD800 ≤ high ∧ high < 0xDC00 ∧ behind.peek = '\\' then
    if let some width := escapeWidth? (behind.peekAt 1) then
      let (low, last) ← (behind.advance 2).escapedNumber width
      if 0xDC00 ≤ low ∧ low < 0xE000 then
        return (Char.ofNat (0x10000 + (high - 0xD800) * 0x400 + (low - 0xDC00)), last)
  return (Char.ofNat high, behind)

def escape (p : Place) : Except Fault (List Char × Place) :=
  let c := p.peek
  match escaped? c, escapeWidth? c with
  | some meant, _ => .ok ([meant], p.next)
  | none, some width => do
    let (meant, next) ← p.next.escapedCode width
    .ok ([meant], next)
  | none, none =>
    if isBreak c then quotedBreaks p.rest.length p.lineBreak.2 []
    else .error (.form .escape)

def quotedSpace (p : Place) : Except Fault (List Char × Place) :=
  let (blanks, behind) := p.span fun c => c == ' ' || c == '\t'
  if behind.rest.isEmpty then .error (.form .openQuote)
  else
    match behind.lineBreak with
    | ([], _) => .ok (blanks, behind)
    | (found, next) => do
      let (breaks, last) ← quotedBreaks next.rest.length.succ next []
      .ok (fold found breaks, last)

/-- The rest of a scalar behind its opening quote, and the place behind the closing one. The
content found so far is kept the last piece first. -/
def quotedFrom (fuel : Nat) (mark : Char) (p : Place) (pieces : List (List Char)) :
    Except Fault (List Char × Place) :=
  match fuel with
  | 0 => .error (.form .openQuote)
  | fuel + 1 =>
    let (plain, p) := p.span fun c =>
      !(isBreak c || c == ' ' || c == '\t' || c == '\'' || c == '"' || c == '\\')
    let pieces := plain :: pieces
    let c := p.peek
    if mark = '\'' ∧ c = '\'' ∧ p.peekAt 1 = '\'' then
      quotedFrom fuel mark (p.advance 2) (['\''] :: pieces)
    else if c = mark then .ok (pieces.reverse.flatten, p.next)
    else if c = '\'' ∨ c = '"' ∨ (c = '\\' ∧ mark = '\'') then
      quotedFrom fuel mark p.next ([c] :: pieces)
    else if c = '\\' then do
      let (meant, next) ← p.next.escape
      quotedFrom fuel mark next (meant :: pieces)
    else do
      let (space, next) ← p.quotedSpace
      quotedFrom fuel mark next (space :: pieces)

def quoted (p : Place) : Except Fault (List Char × Place) :=
  quotedFrom p.rest.length.succ p.peek p.next []

end Place

end Stencil.Yaml
