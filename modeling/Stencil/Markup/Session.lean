import Stencil.Markup.Cursor

/-!
# Sharing a cursor

* `Session`: one cursor that several readers advance by turns;
* `Session.serve`: the answer to one request and the session after it.
-/

namespace Stencil

/-- A request for the next token, for all the tokens that are left, for nothing, or for the next
token on behalf of a named reader. -/
inductive Request where
  | next
  | drain
  | look
  | advance (reader : String)
  deriving DecidableEq, Repr

inductive Reply where
  | token (t? : Option Token)
  | drained (tokens : List Token) (fault? : Option Fault)
  | looked
  | stopped
  | fault (f : Fault)
  deriving DecidableEq, Repr

structure Session where
  cursor : Cursor
  ended : List String
  deriving DecidableEq, Repr

namespace Session

def ofText (source : String) : Session := ⟨.ofText source, []⟩

/-- A reader ends for good where the source ends and where it meets a fault. -/
def advance (s : Session) (reader : String) : Reply × Session :=
  if reader ∈ s.ended then (.stopped, s)
  else
    match s.cursor.step with
    | .finish => (.stopped, { s with ended := reader :: s.ended })
    | .fault f => (.fault f, { s with ended := reader :: s.ended })
    | .token t next => (.token (some t), { s with cursor := next })

def serve (s : Session) : Request → Reply × Session
  | .next =>
    match s.cursor.step with
    | .finish => (.token none, s)
    | .fault f => (.fault f, s)
    | .token t next => (.token (some t), { s with cursor := next })
  | .drain =>
    let scan := s.cursor.scan
    (.drained scan.tokens scan.fault?, { s with cursor := scan.cursor })
  | .look => (.looked, s)
  | .advance reader => s.advance reader

def serveAll (s : Session) : List Request → List (Reply × Cursor)
  | [] => []
  | request :: rest =>
    let (reply, next) := s.serve request
    (reply, next.cursor) :: next.serveAll rest

end Session

end Stencil
