import Stencil.Markup.Token
import Stencil.Text.Blank

/-!
# The front of a source

* `Piece`: a lexeme, the characters that spell it, and the source after them;
* `Piece.first`: the piece that a source begins with, or the stray braces there;
* `Piece.first_split`, `Piece.first_progress`: spelling and rest make up the source, and the
  spelling takes something of it.
-/

namespace Stencil

def isNameStart (c : Char) : Bool :=
  c == '_' || ('a' ≤ c && c ≤ 'z') || ('A' ≤ c && c ≤ 'Z')

def isNameChar (c : Char) : Bool := isNameStart c || ('0' ≤ c && c ≤ '9')

/-- Names are letters, digits and underscores of ASCII, and do not begin with a digit. -/
def isName : List Char → Bool
  | [] => false
  | c :: cs => isNameStart c && cs.all isNameChar

structure Piece where
  lexeme : Lexeme
  spelling : List Char
  rest : List Char
  deriving DecidableEq, Repr

namespace Piece

/-- The start of a block: at least one blank stands before the name and none behind it. -/
def blockStart? : List Char → Option Piece
  | '{' :: '{' :: 't' :: source =>
    let blanks := source.takeWhile Text.isBlank
    let name := (source.dropWhile Text.isBlank).takeWhile isNameChar
    match (source.dropWhile Text.isBlank).dropWhile isNameChar with
    | '}' :: '}' :: rest =>
      if blanks ≠ [] ∧ isName name then
        some ⟨.blockStart (String.ofList name),
          '{' :: '{' :: 't' :: (blanks ++ name ++ ['}', '}']), rest⟩
      else none
    | _ => none
  | _ => none

def blockStop? : List Char → Option Piece
  | '{' :: '{' :: '/' :: 't' :: '}' :: '}' :: rest =>
    some ⟨.blockStop, ['{', '{', '/', 't', '}', '}'], rest⟩
  | _ => none

/-- An expression: blanks may stand on both sides of the name, and must stand before it if it
begins like the start of a block. -/
def expression? : List Char → Option Piece
  | '{' :: '{' :: source =>
    let before := source.takeWhile Text.isBlank
    let named := source.dropWhile Text.isBlank
    let name := named.takeWhile isNameChar
    let behind := (named.dropWhile isNameChar).takeWhile Text.isBlank
    match (named.dropWhile isNameChar).dropWhile Text.isBlank with
    | '}' :: '}' :: rest =>
      if source.head? ≠ some 't' ∧ isName name then
        some ⟨.expression (String.ofList name),
          '{' :: '{' :: (before ++ name ++ behind ++ ['}', '}']), rest⟩
      else none
    | _ => none
  | _ => none

def throughClose? : List Char → Option (List Char)
  | [] => none
  | '}' :: '}' :: _ => some ['}', '}']
  | c :: rest => (c :: ·) <$> throughClose? rest

/-- Opening braces with all that follows up to the first closing braces. -/
def strayBraces? : List Char → Option (List Char)
  | '{' :: '{' :: rest => (fun span => '{' :: '{' :: span) <$> throughClose? rest
  | _ => none

def splitRun : List Char → List Char × List Char
  | [] => ([], [])
  | '{' :: '{' :: rest => ([], '{' :: '{' :: rest)
  | c :: rest =>
    let split := splitRun rest
    (c :: split.1, split.2)

/-- A run of text ends before the next opening braces, but one that begins with opening braces
goes on to the end of the source. -/
def run (source : List Char) : Piece :=
  match source with
  | '{' :: '{' :: _ => ⟨.text (String.ofList source), source, []⟩
  | _ => ⟨.text (String.ofList (splitRun source).1), (splitRun source).1, (splitRun source).2⟩

def marker? (source : List Char) : Option Piece :=
  blockStart? source <|> blockStop? source <|> expression? source

/-- The piece at the front: a marker if there is one, and else a run of text, unless there are
braces that close again. -/
def first (source : List Char) : Except String Piece :=
  match marker? source with
  | some piece => .ok piece
  | none =>
    match strayBraces? source with
    | some span => .error (String.ofList span)
    | none => .ok (run source)

theorem splitRun_append (source : List Char) :
    (splitRun source).1 ++ (splitRun source).2 = source := by
  fun_induction splitRun source with
  | case1 => rfl
  | case2 => rfl
  | case3 c rest _ split ih => simpa using ih

/-- A piece is a front part of the source if its spelling and its rest make up the source and the
spelling is not empty. -/
def Fronts (piece : Piece) (source : List Char) : Prop :=
  piece.spelling ++ piece.rest = source ∧ piece.spelling ≠ []

theorem blockStart?_fronts {source : List Char} {piece : Piece}
    (h : blockStart? source = some piece) : piece.Fronts source := by
  unfold blockStart? at h
  split at h
  · next source =>
    dsimp only at h
    split at h
    · next rest hrest =>
      split at h <;> cases h
      refine ⟨?_, by simp⟩
      simp only [List.cons_append, List.append_assoc, List.nil_append, ← hrest,
        List.takeWhile_append_dropWhile]
    · cases h
  · cases h

theorem blockStop?_fronts {source : List Char} {piece : Piece}
    (h : blockStop? source = some piece) : piece.Fronts source := by
  unfold blockStop? at h
  split at h <;> cases h
  exact ⟨rfl, by simp⟩

theorem expression?_fronts {source : List Char} {piece : Piece}
    (h : expression? source = some piece) : piece.Fronts source := by
  unfold expression? at h
  split at h
  · next source =>
    dsimp only at h
    split at h
    · next rest hrest =>
      split at h <;> cases h
      refine ⟨?_, by simp⟩
      simp only [List.cons_append, List.append_assoc, List.nil_append, ← hrest,
        List.takeWhile_append_dropWhile]
    · cases h
  · cases h

theorem run_fronts {source : List Char} (h : source ≠ []) : (run source).Fronts source := by
  unfold run
  split
  · exact ⟨by simp, h⟩
  · next hopen =>
    refine ⟨splitRun_append source, ?_⟩
    intro hnil
    cases source with
    | nil => exact h rfl
    | cons c cs =>
      unfold splitRun at hnil
      split at hnil
      · next heq => cases heq
      · next heq => exact hopen _ heq
      · next heq => cases heq; simp at hnil

theorem marker?_eq_some {source : List Char} {piece : Piece} (h : marker? source = some piece) :
    blockStart? source = some piece ∨ blockStop? source = some piece ∨
      expression? source = some piece := by
  unfold marker? at h
  cases hs : blockStart? source with
  | some p => exact .inl (by simpa [hs] using h)
  | none =>
    cases ht : blockStop? source with
    | some p => exact .inr (.inl (by simpa [hs, ht] using h))
    | none => exact .inr (.inr (by simpa [hs, ht] using h))

theorem marker?_fronts {source : List Char} {piece : Piece} (h : marker? source = some piece) :
    piece.Fronts source := by
  rcases marker?_eq_some h with h | h | h
  · exact blockStart?_fronts h
  · exact blockStop?_fronts h
  · exact expression?_fronts h

theorem first_fronts {source : List Char} {piece : Piece} (hne : source ≠ [])
    (h : first source = .ok piece) : piece.Fronts source := by
  unfold first at h
  split at h
  · next found =>
    cases h
    exact marker?_fronts found
  · split at h <;> cases h
    exact run_fronts hne

theorem first_split {source : List Char} {piece : Piece} (hne : source ≠ [])
    (h : first source = .ok piece) : piece.spelling ++ piece.rest = source :=
  (first_fronts hne h).1

theorem first_progress {source : List Char} {piece : Piece} (hne : source ≠ [])
    (h : first source = .ok piece) : piece.rest.length < source.length := by
  have ⟨split, progress⟩ := first_fronts hne h
  rw [← split, List.length_append]
  have := List.length_pos_iff.2 progress
  omega

end Piece

end Stencil
