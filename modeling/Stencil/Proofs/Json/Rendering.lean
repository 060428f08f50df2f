import Stencil.Proofs.Json.Grammar

/-!
# Texts of JSON values

* `Json.datum`: what a value stands for;
* `Json.spelled_escapeChar`: a character is written so that it can be read again;
* `Json.says_render`: the text of a value says what the value stands for.
-/

namespace Stencil.Json

mutual

/-- What a value stands for. -/
def datum : Json → Datum
  | .null => .null
  | .number n => .number n
  | .text s => .text s
  | .array items => .array (itemData items)
  | .object fields => .object (fieldData fields)

def itemData : List Json → List Datum
  | [] => []
  | item :: rest => item.datum :: itemData rest

def fieldData : List (String × Json) → List (String × Datum)
  | [] => []
  | (key, value) :: rest => (key, value.datum) :: fieldData rest

end

theorem itemData_eq_map (items : List Json) : itemData items = items.map datum := by
  induction items with
  | nil => rfl
  | cons item rest ih => rw [itemData, ih, List.map_cons]

/-! ## Numbers -/

/-- The digits of a number begin with a zero only if there are no others. -/
theorem toDigits_of_head {n : ℕ} (zero : (Nat.toDigits 10 n).head? = some '0') :
    Nat.toDigits 10 n = ['0'] := by
  induction n using Nat.strongRecOn with
  | ind n ih =>
    rw [Nat.toDigits_eq_if (by decide)] at zero ⊢
    by_cases single : n < 10
    · rw [if_pos single] at zero ⊢
      exact congrArg (· :: []) (Option.some.inj zero)
    · -- The digits of a tenth would be a single zero, and the number would be less than ten.
      rw [if_neg single, List.head?_append_of_ne_nil _ Nat.toDigits_ne_nil] at zero
      have front := ih (n / 10) (by omega) zero
      have tenth : n / 10 = 0 := by
        rw [← Nat.ofDigitChars_toDigits (b := 10) (n := n / 10) (by decide) (by decide), front]
        rfl
      omega

theorem isWhole_toDigits (n : ℕ) : IsWhole (Nat.toDigits 10 n) := by
  refine ⟨⟨Nat.toDigits_ne_nil, ?_⟩, toDigits_of_head⟩
  intro c member
  exact Nat.isDigit_of_mem_toDigits (by decide) (by decide) member

theorem numeral_toDigits (n : ℕ) : Numeral (Nat.toDigits 10 n) n := by
  have number : Unsigned (Nat.toDigits 10 n ++ ([] ++ []))
      ((count (Nat.toDigits 10 n) + 0) * 10 ^ (0 : ℤ)) :=
    .mk (isWhole_toDigits n) .none .none
  have counted : count (Nat.toDigits 10 n) = n := Nat.ofDigitChars_toDigits (by decide) (by decide)
  rw [counted] at number
  exact .positive (by simpa using number)

/-! ## Texts in quotes -/

theorem ofHex?_hex : ∀ n < 0x20, Text.ofHex? (Text.hex 4 n) = some n := by
  decide +kernel

/-- A character is read again as it has been written, whatever stands behind it. -/
theorem spelled_escapeChar (c : Char) (rest : List Char) :
    Spelled (escapeChar c ++ rest) c rest := by
  unfold escapeChar
  split_ifs with quote escape newline carriage tab back feed control
  · exact quote.symm ▸ .short rfl
  · exact escape.symm ▸ .short rfl
  · exact newline.symm ▸ .short rfl
  · exact carriage.symm ▸ .short rfl
  · exact tab.symm ▸ .short rfl
  · exact back.symm ▸ .short rfl
  · exact feed.symm ▸ .short rfl
  · exact .unit ⟨Text.hex 4 c.toNat, Text.length_hex 4 _, ofHex?_hex _ control, rfl⟩
  · exact .plain (Nat.le_of_not_lt control) quote escape

theorem quoted_flatMap (cs rest : List Char) :
    Quoted (cs.flatMap escapeChar ++ '"' :: rest) cs rest := by
  induction cs with
  | nil => exact .close
  | cons c cs ih =>
    rw [List.flatMap_cons, List.append_assoc]
    exact .more (spelled_escapeChar c _) ih

theorem quoted_quote (s : String) (rest : List Char) :
    ∃ source, quote s ++ rest = '"' :: source ∧ Quoted source s.toList rest :=
  ⟨_, by simp [quote], quoted_flatMap s.toList rest⟩

/-! ## Values -/

theorem Value.padded {source inner rest : List Char} {v : Datum} (value : Value inner v rest)
    (before : Blanks source inner) : Padded source v rest :=
  .mk before value (.refl rest)

/-- A key in quotes, a colon and a space before a value make a member. -/
theorem member_quote (key : String) {source inner rest : List Char} {v : Datum}
    (before : Blanks source (quote key ++ ':' :: ' ' :: inner)) (value : Value inner v rest) :
    Member source (key, v) rest := by
  obtain ⟨others, written, quoted⟩ := quoted_quote key (':' :: ' ' :: inner)
  rw [written] at before
  have member := Member.mk before quoted (.refl _) (value.padded (.space inner))
  rwa [String.ofList_toList] at member

mutual

/-- The characters of a value are a value, whatever stands behind them. -/
theorem value_chars (j : Json) (rest : List Char) : Value (j.chars ++ rest) j.datum rest := by
  match j with
  | .null => exact .null
  | .number n => exact .number (numeral_toDigits n) rfl
  | .text s =>
    obtain ⟨source, written, quoted⟩ := quoted_quote s rest
    rw [chars, written, datum, ← String.ofList_toList (s := s)]
    exact .text quoted
  | .array items =>
    rw [chars, datum]
    cases items with
    | nil => exact .emptyArray (.refl _)
    | cons item items =>
      have inner := items_itemChars (item :: items) (List.cons_ne_nil item items) rest (.refl _)
      simpa using Value.array inner
  | .object fields =>
    rw [chars, datum]
    cases fields with
    | nil => exact .emptyObject (.refl _)
    | cons field fields =>
      have inner := members_fieldChars (field :: fields) (List.cons_ne_nil field fields) rest
        (.refl _)
      simpa using Value.object inner
termination_by structural j

theorem items_itemChars (items : List Json) (full : items ≠ []) (rest : List Char)
    {source : List Char} (before : Blanks source (itemChars items ++ ']' :: rest)) :
    Items source (itemData items) rest := by
  match items with
  | [] => exact absurd rfl full
  | [item] => exact .last ((value_chars item (']' :: rest)).padded before)
  | item :: next :: others =>
    have later := items_itemChars (next :: others) (List.cons_ne_nil next others) rest (.space _)
    have split : itemChars (item :: next :: others) ++ ']' :: rest =
        item.chars ++ ',' :: ' ' :: (itemChars (next :: others) ++ ']' :: rest) := by
      simp [itemChars]
    rw [split] at before
    exact .more ((value_chars item _).padded before) later
termination_by structural items

theorem members_fieldChars (fields : List (String × Json)) (full : fields ≠ [])
    (rest : List Char) {source : List Char}
    (before : Blanks source (fieldChars fields ++ '\x7d' :: rest)) :
    Members source (fieldData fields) rest := by
  match fields with
  | [] => exact absurd rfl full
  | [(key, value)] =>
    have split : fieldChars [(key, value)] ++ '\x7d' :: rest =
        quote key ++ ':' :: ' ' :: (value.chars ++ '\x7d' :: rest) := by
      simp [fieldChars]
    rw [split] at before
    exact .last (member_quote key before (value_chars value _))
  | (key, value) :: next :: others =>
    have later := members_fieldChars (next :: others) (List.cons_ne_nil next others) rest (.space _)
    have split : fieldChars ((key, value) :: next :: others) ++ '\x7d' :: rest =
        quote key ++ ':' :: ' ' :: (value.chars ++ ',' :: ' ' ::
          (fieldChars (next :: others) ++ '\x7d' :: rest)) := by
      simp [fieldChars]
    rw [split] at before
    exact .more (member_quote key before (value_chars value _)) later
termination_by structural fields

end

/-- **The text of a value says what the value stands for.** -/
theorem says_render (j : Json) : Says j.render j.datum := by
  have value := value_chars j []
  rw [List.append_nil] at value
  rw [Says, render, String.toList_ofList]
  exact value.padded (.refl _)

end Stencil.Json
