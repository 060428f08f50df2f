/-!
# Positions in a source

* `Position`: an offset with the line and the column it falls on;
* `Position.after`: the position behind a piece of text.
-/

namespace Stencil

/-- Offsets count characters from zero, lines and columns from one. -/
structure Position where
  offset : Nat
  line : Nat
  column : Nat
  deriving DecidableEq, Repr, Inhabited

namespace Position

def start : Position := ⟨0, 1, 1⟩

def sinceNewline (cs : List Char) : Nat := cs.reverse.idxOf '\n'

/-- A line feed, and nothing else, begins a new line. A piece without one only moves the column;
else the column is counted from the last line feed of the piece. -/
def after (p : Position) (cs : List Char) : Position :=
  let newlines := cs.count '\n'
  if newlines = 0 then ⟨p.offset + cs.length, p.line, p.column + cs.length⟩
  else ⟨p.offset + cs.length, p.line + newlines, sinceNewline cs + 1⟩

@[simp] theorem after_nil (p : Position) : p.after [] = p := rfl

@[simp] theorem offset_after (p : Position) (cs : List Char) :
    (p.after cs).offset = p.offset + cs.length := by
  unfold after; dsimp only; split <;> rfl

@[simp] theorem line_after (p : Position) (cs : List Char) :
    (p.after cs).line = p.line + cs.count '\n' := by
  unfold after
  dsimp only
  split
  · next none => simp [none]
  · rfl

theorem column_after_of_not_mem (p : Position) {cs : List Char} (h : '\n' ∉ cs) :
    (p.after cs).column = p.column + cs.length := by
  simp [after, List.count_eq_zero.2 h]

theorem column_after_of_mem (p : Position) {cs : List Char} (h : '\n' ∈ cs) :
    (p.after cs).column = sinceNewline cs + 1 := by
  simp [after, List.count_eq_zero, h]

theorem sinceNewline_append (cs ds : List Char) :
    sinceNewline (cs ++ ds) =
      if '\n' ∈ ds then sinceNewline ds else sinceNewline cs + ds.length := by
  simp [sinceNewline, List.idxOf_append]

theorem ext_of {p q : Position} (offset : p.offset = q.offset) (line : p.line = q.line)
    (column : p.column = q.column) : p = q := by
  cases p; cases q; simp_all

@[simp] theorem after_append (p : Position) (cs ds : List Char) :
    p.after (cs ++ ds) = (p.after cs).after ds := by
  apply ext_of
  · simp [Nat.add_assoc]
  · simp [Nat.add_assoc]
  · by_cases hd : '\n' ∈ ds
    · rw [column_after_of_mem _ hd, column_after_of_mem _ (by simp [hd]), sinceNewline_append,
        if_pos hd]
    · rw [column_after_of_not_mem _ hd]
      by_cases hc : '\n' ∈ cs
      · rw [column_after_of_mem _ hc, column_after_of_mem _ (by simp [hc]), sinceNewline_append,
          if_neg hd]
        omega
      · rw [column_after_of_not_mem _ hc, column_after_of_not_mem _ (by simp [hc, hd]),
          List.length_append]
        omega

end Position

end Stencil
