import Mathlib.Data.List.TakeWhile
import Stencil.Text.Utf8

/-!
# Encoded texts are read back

* `Lead.Fits`: the bytes that make up a sequence together with a lead byte;
* `decodeFrom_sequence`: a sequence is read as one character, whatever follows it;
* `encodes_utf8EncodeChar`: the bytes of a character are a sequence for it, in each of the lengths;
* `decode_encode`: the bytes of a text are read as its characters.
-/

namespace Stencil.Text

/-! ## Whole sequences -/

/-- As many bytes as the lead byte asks for, the first of them in its range. -/
def Lead.Fits (l : Lead) : List UInt8 → Prop
  | [] => l.following = 0
  | b :: others =>
    l.following = others.length + 1 ∧ (l.low ≤ b ∧ b ≤ l.high) ∧ ∀ c ∈ others, 0x80 ≤ c ∧ c ≤ 0xBF

theorem Lead.Fits.length {l : Lead} {following : List UInt8} (h : l.Fits following) :
    following.length = l.following := by
  cases following with
  | nil => exact h.symm
  | cons b others => exact h.1.symm

theorem Lead.fitting_eq {l : Lead} {following : List UInt8} (h : l.Fits following)
    (rest : List UInt8) : l.fitting (following ++ rest) = l.following := by
  cases following with
  | nil =>
    have alone : l.following = 0 := h
    cases rest <;> simp [fitting, alone]
  | cons b others =>
    obtain ⟨count, first, inside⟩ := h
    have all : ∀ c ∈ others, (0x80 ≤ c && c ≤ 0xBF) = true :=
      fun c mem => by simpa using inside c mem
    have taken : (others ++ rest).take (l.following - 1) = others := by
      rw [count, Nat.add_sub_cancel, List.take_left]
    rw [List.cons_append, fitting, if_pos ⟨by omega, first⟩, taken,
      List.takeWhile_eq_self_iff.2 all]
    omega

theorem decodeFrom_sequence {l : Lead} {b : UInt8} {following : List UInt8}
    (lead : Lead.of? b = some l) (fits : l.Fits following) (offset : Nat) (done : List Char)
    (rest : List UInt8) :
    decodeFrom offset done (b :: following ++ rest) =
      decodeFrom (offset + (b :: following).length)
        (Char.ofNat (l.codePoint following) :: done) rest := by
  rw [List.cons_append, decodeFrom, lead]
  simp only [l.fitting_eq fits, ← fits.length, if_true, List.take_left, List.drop_left]
  rfl

/-! ## The bytes of a character -/

theorem toNat_ofNat {n : Nat} (h : n < 256) : (UInt8.ofNat n).toNat = n := by
  rw [UInt8.toNat_ofNat']
  omega

theorem ofNat_le_ofNat_iff {m n : Nat} (hm : m < 256) (hn : n < 256) :
    UInt8.ofNat m ≤ UInt8.ofNat n ↔ m ≤ n := by
  rw [UInt8.le_iff_toNat_le, toNat_ofNat hm, toNat_ofNat hn]

theorem Lead.of?_single {v : Nat} (below : v < 0x80) :
    Lead.of? (UInt8.ofNat v) = some ⟨0, 0x80, 0xBF, v⟩ := by
  simp [of?, UInt8.lt_iff_toNat_lt, toNat_ofNat (n := v) (by omega), below]

theorem Lead.of?_double {bits : Nat} (above : 2 ≤ bits) (below : bits < 32) :
    Lead.of? (UInt8.ofNat (bits + 192)) = some ⟨1, 0x80, 0xBF, bits⟩ := by
  have number := toNat_ofNat (n := bits + 192) (by omega)
  simp only [of?, UInt8.lt_iff_toNat_lt, number, UInt8.reduceToNat]
  rw [if_neg (by omega), if_neg (by omega), if_pos (by omega), Nat.add_sub_cancel]

theorem Lead.of?_triple {bits : Nat} (below : bits < 16) :
    Lead.of? (UInt8.ofNat (bits + 224)) =
      some ⟨2, if bits = 0 then 0xA0 else 0x80, if bits = 13 then 0x9F else 0xBF, bits⟩ := by
  have number := toNat_ofNat (n := bits + 224) (by omega)
  simp only [of?, UInt8.lt_iff_toNat_lt, ← UInt8.toNat_inj, number, UInt8.reduceToNat]
  rw [if_neg (by omega), if_neg (by omega), if_neg (by omega), if_pos (by omega),
    Nat.add_sub_cancel]
  simp only [Nat.add_eq_right, show bits + 224 = 237 ↔ bits = 13 by omega]

theorem Lead.of?_quadruple {bits : Nat} (below : bits ≤ 4) :
    Lead.of? (UInt8.ofNat (bits + 240)) =
      some ⟨3, if bits = 0 then 0x90 else 0x80, if bits = 4 then 0x8F else 0xBF, bits⟩ := by
  have number := toNat_ofNat (n := bits + 240) (by omega)
  simp only [of?, UInt8.lt_iff_toNat_lt, ← UInt8.toNat_inj, number, UInt8.reduceToNat]
  rw [if_neg (by omega), if_neg (by omega), if_neg (by omega), if_neg (by omega),
    if_pos (by omega), Nat.add_sub_cancel]
  simp only [Nat.add_eq_right, show bits + 240 = 244 ↔ bits = 4 by omega]

/-- A byte that is not the first of its sequence. -/
theorem continues (n : Nat) :
    0x80 ≤ UInt8.ofNat (n % 64 + 128) ∧ UInt8.ofNat (n % 64 + 128) ≤ 0xBF := by
  constructor
  · exact (ofNat_le_ofNat_iff (m := 128) (by omega) (by omega)).2 (by omega)
  · exact (ofNat_le_ofNat_iff (n := 191) (by omega) (by omega)).2 (by omega)

/-- The byte behind the lead byte has a higher floor where a shorter sequence would do. -/
theorem floor_le {k n : Nat} {least : Prop} [Decidable least] (small : k < 256)
    (enough : least → k ≤ n % 64 + 128) :
    (if least then UInt8.ofNat k else 0x80) ≤ UInt8.ofNat (n % 64 + 128) := by
  split
  · next isLeast => exact (ofNat_le_ofNat_iff small (by omega)).2 (enough isLeast)
  · exact (continues n).1

/-- It has a lower ceiling where surrogates begin, and where the code points end. -/
theorem le_ceiling {k n : Nat} {last : Prop} [Decidable last] (small : k < 256)
    (few : last → n % 64 + 128 ≤ k) :
    UInt8.ofNat (n % 64 + 128) ≤ (if last then UInt8.ofNat k else 0xBF) := by
  split
  · next isLast => exact (ofNat_le_ofNat_iff (by omega) small).2 (few isLast)
  · exact (continues n).2

theorem ofNat_mod (n : Nat) : (UInt8.ofNat (n % 64 + 128)).toNat % 64 = n % 64 := by
  rw [toNat_ofNat (by omega)]
  omega

/-- The bytes are a sequence for a code point. -/
def Encodes (bytes : List UInt8) (point : Nat) : Prop :=
  ∃ l b following, bytes = b :: following ∧ Lead.of? b = some l ∧ l.Fits following ∧
    l.codePoint following = point

theorem encodes_single {v : Nat} (below : v < 0x80) : Encodes [UInt8.ofNat v] v :=
  ⟨_, _, [], rfl, Lead.of?_single below, rfl, rfl⟩

theorem encodes_double {v : Nat} (above : 0x80 ≤ v) (below : v < 0x800) :
    Encodes [UInt8.ofNat (v / 64 % 32 + 192), UInt8.ofNat (v % 64 + 128)] v := by
  refine ⟨_, _, [_], rfl, Lead.of?_double (by omega) (by omega), ⟨rfl, continues v, by simp⟩, ?_⟩
  simp only [Lead.codePoint, List.foldl_cons, List.foldl_nil, ofNat_mod]
  omega

theorem encodes_triple {v : Nat} (above : 0x800 ≤ v) (below : v < 0x10000)
    (scalar : v < 0xD800 ∨ 0xDFFF < v) :
    Encodes [UInt8.ofNat (v / 4096 % 16 + 224), UInt8.ofNat (v / 64 % 64 + 128),
      UInt8.ofNat (v % 64 + 128)] v := by
  refine ⟨_, _, [_, _], rfl, Lead.of?_triple (by omega), ⟨rfl, ⟨?_, ?_⟩, ?_⟩, ?_⟩
  · exact floor_le (k := 0xA0) (by omega) (by omega)
  · exact le_ceiling (k := 0x9F) (by omega) (by omega)
  · simpa using continues v
  · simp only [Lead.codePoint, List.foldl_cons, List.foldl_nil, ofNat_mod]
    omega

theorem encodes_quadruple {v : Nat} (above : 0x10000 ≤ v) (below : v < 0x110000) :
    Encodes [UInt8.ofNat (v / 262144 % 8 + 240), UInt8.ofNat (v / 4096 % 64 + 128),
      UInt8.ofNat (v / 64 % 64 + 128), UInt8.ofNat (v % 64 + 128)] v := by
  refine ⟨_, _, [_, _, _], rfl, Lead.of?_quadruple (by omega), ⟨rfl, ⟨?_, ?_⟩, ?_⟩, ?_⟩
  · exact floor_le (k := 0x90) (by omega) (by omega)
  · exact le_ceiling (k := 0x8F) (by omega) (by omega)
  · simp only [List.forall_mem_cons, List.not_mem_nil, false_implies, implies_true, and_true]
    exact ⟨continues _, continues v⟩
  · simp only [Lead.codePoint, List.foldl_cons, List.foldl_nil, ofNat_mod]
    omega

/-- The four cases are those of the length. Code points of surrogates are no characters. -/
theorem encodes_utf8EncodeChar (c : Char) : Encodes (String.utf8EncodeChar c) c.toNat := by
  have scalar : c.toNat < 0xD800 ∨ 0xDFFF < c.toNat ∧ c.toNat < 0x110000 := c.valid
  simp only [String.utf8EncodeChar, ← Char.toNat_val] at *
  split_ifs
  · exact encodes_single (by omega)
  · exact encodes_double (by omega) (by omega)
  · exact encodes_triple (by omega) (by omega) (by omega)
  · exact encodes_quadruple (by omega) (by omega)

theorem decodeFrom_utf8EncodeChar (c : Char) (offset : Nat) (done : List Char)
    (rest : List UInt8) :
    decodeFrom offset done (String.utf8EncodeChar c ++ rest) =
      decodeFrom (offset + (String.utf8EncodeChar c).length) (c :: done) rest := by
  obtain ⟨l, b, following, bytes, lead, fits, point⟩ := encodes_utf8EncodeChar c
  rw [bytes, decodeFrom_sequence lead fits, point, Char.ofNat_toNat]

theorem decodeFrom_flatMap (cs : List Char) (offset : Nat) (done : List Char) :
    decodeFrom offset done (cs.flatMap String.utf8EncodeChar) = .ok (done.reverse ++ cs) := by
  induction cs generalizing offset done with
  | nil => simp [decodeFrom]
  | cons c cs ih => simp [List.flatMap_cons, decodeFrom_utf8EncodeChar, ih]

theorem decode_encode (s : String) : decode (encode s) = .ok s.toList := by
  simp [decode, encode, decodeFrom_flatMap]

end Stencil.Text
