import Stencil.Markup.Fault
import Stencil.Markup.Piece

/-!
# Reading tokens

* `Cursor`: a place in a source and what follows it;
* `Cursor.step`: the next token and the place behind it;
* `Cursor.scan`: all tokens up to the end of the source or up to a fault.
-/

namespace Stencil

structure Cursor where
  position : Position
  rest : List Char
  deriving DecidableEq, Repr

inductive Step where
  | finish
  | fault (f : Fault)
  | token (t : Token) (next : Cursor)
  deriving DecidableEq, Repr

namespace Cursor

def ofText (source : String) : Cursor := ⟨.start, source.toList⟩

def hasMore (c : Cursor) : Bool := !c.rest.isEmpty

/-- Takes the piece at the front. Stray braces stay where they are. -/
def step (c : Cursor) : Step :=
  if c.rest = [] then .finish
  else
    match Piece.first c.rest with
    | .error span => .fault ⟨.strayBraces span, c.position⟩
    | .ok piece =>
      .token ⟨piece.lexeme, c.position⟩ ⟨c.position.after piece.spelling, piece.rest⟩

theorem step_progress {c d : Cursor} {t : Token} (h : c.step = .token t d) :
    d.rest.length < c.rest.length := by
  unfold step at h
  split at h
  · cases h
  · next hne =>
    split at h
    · cases h
    · next piece hp => cases h; exact Piece.first_progress hne hp

end Cursor

structure Scan where
  tokens : List Token
  fault? : Option Fault
  cursor : Cursor
  deriving DecidableEq, Repr

def Cursor.scan (c : Cursor) : Scan :=
  match _h : c.step with
  | .finish => ⟨[], none, c⟩
  | .fault f => ⟨[], some f, c⟩
  | .token t next =>
    let scan := next.scan
    { scan with tokens := t :: scan.tokens }
termination_by c.rest.length
decreasing_by exact Cursor.step_progress _h

def tokenize (source : String) : Scan := (Cursor.ofText source).scan

end Stencil
