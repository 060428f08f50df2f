import Mathlib.Data.List.TakeWhile
import Mathlib.Data.List.Infix
import Stencil.Markup.Piece

/-!
# Spellings of markers

* `opening`, `closing`: the braces around a marker;
* `Lexeme.Marks`: the spellings of a marker, with the blanks it allows;
* `Piece.marker?_eq_some_iff`: a marker is read where the source begins with a spelling of it, and
  nowhere else.
-/

namespace Stencil

def opening : List Char := ['{', '{']

def closing : List Char := ['}', '}']

/-- Blanks stand behind the keyword of a block start and on both sides of the name of an
expression. An expression does not have the keyword for its third character. -/
inductive Lexeme.Marks : Lexeme → List Char → Prop
  | blockStart {blanks : List Char} {name : String} (apart : blanks ≠ [])
      (blank : ∀ c ∈ blanks, Text.isBlank c = true) (named : isName name.toList = true) :
      Marks (.blockStart name) (opening ++ ['t'] ++ blanks ++ name.toList ++ closing)
  | blockStop : Marks .blockStop (opening ++ ['/', 't'] ++ closing)
  | expression {before behind : List Char} {name : String}
      (blankBefore : ∀ c ∈ before, Text.isBlank c = true)
      (blankBehind : ∀ c ∈ behind, Text.isBlank c = true) (named : isName name.toList = true)
      (third : (before ++ name.toList).head? ≠ some 't') :
      Marks (.expression name) (opening ++ before ++ name.toList ++ behind ++ closing)

/-! ## Characters of names -/

theorem isBlank_of_isNameChar {c : Char} (h : isNameChar c = true) : Text.isBlank c = false := by
  simp only [isNameChar, isNameStart, Bool.or_eq_true, Bool.and_eq_true, beq_iff_eq,
    decide_eq_true_eq, Char.le_def, UInt32.le_iff_toNat_le] at h
  have number : c.toNat = 95 ∨ 48 ≤ c.toNat ∧ c.toNat ≤ 57 ∨ 65 ≤ c.toNat ∧ c.toNat ≤ 90 ∨
      97 ≤ c.toNat ∧ c.toNat ≤ 122 := by
    rcases h with ((rfl | h) | h) | h
    · exact .inl rfl
    · exact .inr (.inr (.inr h))
    · exact .inr (.inr (.inl h))
    · exact .inr (.inl h)
  simp only [Text.isBlank, Bool.or_eq_false_iff, Bool.and_eq_false_iff, beq_eq_false_iff_ne,
    decide_eq_false_iff_not]
  omega

theorem not_isNameChar_of_isBlank {c : Char} (h : Text.isBlank c = true) :
    isNameChar c = false := by
  cases hc : isNameChar c with
  | false => rfl
  | true => simp [isBlank_of_isNameChar hc] at h

theorem all_isNameChar_of_isName {name : List Char} (h : isName name = true) :
    ∀ c ∈ name, isNameChar c = true := by
  cases name with
  | nil => cases h
  | cons first others =>
    simp only [isName, Bool.and_eq_true, List.all_eq_true] at h
    intro c hc
    rcases List.mem_cons.1 hc with rfl | hc
    · simp [isNameChar, h.1]
    · exact h.2 c hc

theorem ne_nil_of_isName {name : List Char} (h : isName name = true) : name ≠ [] := by
  rintro rfl
  cases h

/-- A name begins with a character that is not blank, whatever stands behind the name. -/
theorem head_name_not_blank {name : List Char} (h : isName name = true) (behind : List Char) :
    ∀ c, (name ++ behind).head? = some c → Text.isBlank c = false := by
  intro c hc
  rw [List.head?_append_of_ne_nil _ (ne_nil_of_isName h)] at hc
  exact isBlank_of_isNameChar (all_isNameChar_of_isName h c (List.mem_of_mem_head? hc))

/-! ## Reading a stretch of one kind of characters -/

section
variable {p : Char → Bool} {front back : List Char}

theorem takeWhile_stretch (all : ∀ c ∈ front, p c = true)
    (stop : ∀ c, back.head? = some c → p c = false) : (front ++ back).takeWhile p = front := by
  rw [List.takeWhile_append_of_pos all]
  cases back with
  | nil => simp
  | cons c cs => simp [stop c rfl]

theorem dropWhile_stretch (all : ∀ c ∈ front, p c = true)
    (stop : ∀ c, back.head? = some c → p c = false) : (front ++ back).dropWhile p = back := by
  rw [List.dropWhile_append_of_pos all]
  cases back with
  | nil => rfl
  | cons c cs => simp [stop c rfl]

end

/-! ## Reading a marker -/

namespace Piece

theorem blockStart?_marks {source : List Char} {piece : Piece}
    (h : blockStart? source = some piece) : piece.lexeme.Marks piece.spelling := by
  unfold blockStart? at h
  split at h
  · next source =>
    dsimp only at h
    split at h
    · split at h
      · next found =>
        cases h
        simpa [opening, closing] using @Lexeme.Marks.blockStart _
          (String.ofList ((source.dropWhile Text.isBlank).takeWhile isNameChar)) found.1
          (fun _ hc => List.mem_takeWhile_imp hc) (by simpa using found.2)
      · cases h
    · cases h
  · cases h

theorem blockStop?_marks {source : List Char} {piece : Piece}
    (h : blockStop? source = some piece) : piece.lexeme.Marks piece.spelling := by
  unfold blockStop? at h
  split at h <;> cases h
  exact .blockStop

theorem expression?_marks {source : List Char} {piece : Piece}
    (h : expression? source = some piece) : piece.lexeme.Marks piece.spelling := by
  unfold expression? at h
  split at h
  · next source =>
    dsimp only at h
    split at h
    · split at h
      · next found =>
        cases h
        have third : (source.takeWhile Text.isBlank ++
            (source.dropWhile Text.isBlank).takeWhile isNameChar).head? ≠ some 't' := by
          intro ht
          apply found.1
          rw [← List.takeWhile_append_dropWhile (p := Text.isBlank) (l := source),
            ← List.takeWhile_append_dropWhile (p := isNameChar) (l := source.dropWhile _),
            ← List.append_assoc]
          exact List.mem_head?_append_of_mem_head? ht
        simpa [opening, closing] using @Lexeme.Marks.expression _ _
          (String.ofList ((source.dropWhile Text.isBlank).takeWhile isNameChar))
          (fun _ hc => List.mem_takeWhile_imp hc) (fun _ hc => List.mem_takeWhile_imp hc)
          (by simpa using found.2) (by simpa using third)
      · cases h
    · cases h
  · cases h

theorem blockStart?_of_marks {blanks : List Char} {name : String} (apart : blanks ≠ [])
    (blank : ∀ c ∈ blanks, Text.isBlank c = true) (named : isName name.toList = true)
    (rest : List Char) :
    blockStart? (opening ++ ['t'] ++ blanks ++ name.toList ++ closing ++ rest) =
      some ⟨.blockStart name, opening ++ ['t'] ++ blanks ++ name.toList ++ closing, rest⟩ := by
  have nameStops := head_name_not_blank named ('}' :: '}' :: rest)
  have closeStops : ∀ c, ('}' :: '}' :: rest).head? = some c → isNameChar c = false := by
    rintro _ ⟨⟩; rfl
  have nameAll := all_isNameChar_of_isName named
  simp only [opening, closing, List.cons_append, List.nil_append, List.append_assoc, blockStart?,
    takeWhile_stretch blank nameStops, dropWhile_stretch blank nameStops,
    takeWhile_stretch nameAll closeStops, dropWhile_stretch nameAll closeStops]
  simp [apart, named]

theorem expression?_of_marks {before behind : List Char} {name : String}
    (blankBefore : ∀ c ∈ before, Text.isBlank c = true)
    (blankBehind : ∀ c ∈ behind, Text.isBlank c = true) (named : isName name.toList = true)
    (third : (before ++ name.toList).head? ≠ some 't') (rest : List Char) :
    expression? (opening ++ before ++ name.toList ++ behind ++ closing ++ rest) =
      some ⟨.expression name, opening ++ before ++ name.toList ++ behind ++ closing, rest⟩ := by
  have nameStops := head_name_not_blank named (behind ++ ('}' :: '}' :: rest))
  have behindStops : ∀ c, (behind ++ '}' :: '}' :: rest).head? = some c → isNameChar c = false := by
    intro c hc
    cases behind with
    | nil => cases hc; rfl
    | cons d ds =>
      obtain rfl : d = c := by simpa using hc
      exact not_isNameChar_of_isBlank (blankBehind d (by simp))
  have closeStops : ∀ c, ('}' :: '}' :: rest).head? = some c → Text.isBlank c = false := by
    rintro _ ⟨⟩; rfl
  have nameAll := all_isNameChar_of_isName named
  have head : (before ++ (name.toList ++ (behind ++ '}' :: '}' :: rest))).head? ≠ some 't' := by
    rwa [← List.append_assoc, List.head?_append_of_ne_nil]
    simp [ne_nil_of_isName named]
  simp only [opening, closing, List.cons_append, List.nil_append, List.append_assoc, expression?,
    takeWhile_stretch blankBefore nameStops, dropWhile_stretch blankBefore nameStops,
    takeWhile_stretch nameAll behindStops, dropWhile_stretch nameAll behindStops,
    takeWhile_stretch blankBehind closeStops, dropWhile_stretch blankBehind closeStops]
  rw [if_pos ⟨head, by simpa using named⟩]
  simp

theorem blockStart?_eq_none {source : List Char} (h : source.head? ≠ some 't') :
    blockStart? (opening ++ source) = none := by
  simp only [opening, List.cons_append, List.nil_append]
  unfold blockStart?
  split
  · next heq => cases heq; exact absurd rfl h
  · rfl

theorem blockStop?_eq_none {source : List Char} (h : source.head? ≠ some '/') :
    blockStop? (opening ++ source) = none := by
  simp only [opening, List.cons_append, List.nil_append]
  unfold blockStop?
  split
  · next heq => cases heq; exact absurd rfl h
  · rfl

theorem marker?_of_marks {lexeme : Lexeme} {spelling : List Char} (h : lexeme.Marks spelling)
    (rest : List Char) : marker? (spelling ++ rest) = some ⟨lexeme, spelling, rest⟩ := by
  cases h with
  | blockStart apart blank named =>
    rw [marker?, blockStart?_of_marks apart blank named rest]
    rfl
  | blockStop => rfl
  | @expression before behind name blankBefore blankBehind named third =>
    have head : ∀ tail : List Char, (before ++ name.toList ++ tail).head? =
        (before ++ name.toList).head? :=
      fun tail => List.head?_append_of_ne_nil _ (by simp [ne_nil_of_isName named])
    have noStop : (before ++ name.toList).head? ≠ some '/' := by
      intro slash
      rcases List.mem_append.1 (List.mem_of_mem_head? slash) with hc | hc
      · exact absurd (blankBefore _ hc) (by decide)
      · exact absurd (all_isNameChar_of_isName named _ hc) (by decide)
    have found := expression?_of_marks blankBefore blankBehind named third rest
    simp only [List.append_assoc] at found head ⊢
    rw [marker?, blockStart?_eq_none (by rwa [head]), blockStop?_eq_none (by rwa [head]), found]
    rfl

theorem marker?_eq_some_iff {source : List Char} {piece : Piece} :
    marker? source = some piece ↔
      piece.lexeme.Marks piece.spelling ∧ piece.spelling ++ piece.rest = source := by
  constructor
  · intro h
    refine ⟨?_, (marker?_fronts h).1⟩
    rcases marker?_eq_some h with h | h | h
    · exact blockStart?_marks h
    · exact blockStop?_marks h
    · exact expression?_marks h
  · rintro ⟨marks, rfl⟩
    exact marker?_of_marks marks piece.rest

end Piece

end Stencil
