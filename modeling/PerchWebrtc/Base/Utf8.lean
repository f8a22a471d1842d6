import PerchWebrtc.Base.XmlText

/-!
# Characters in UTF-8

`utf8_decode` and `utf8_encode` on characters in their shortest form.

* `utf8Decode_char`: a character is decoded to a value;
* `utf8Encode_char`: which is encoded to its bytes.
-/

namespace PerchWebrtc.Base

/-- A byte behind the first of a character. -/
def Tail (ch : Byte) : Prop := 0x80 ≤ ch ∧ ch ≤ 0xbf

/-- The bytes of a character, with no more of them than it needs. -/
inductive Utf8Char : List Byte → Prop
  | one {a : Byte} (ha : a ≤ 0x7f) : Utf8Char [a]
  | two {a b : Byte} (ha : 0xc2 ≤ a ∧ a ≤ 0xdf) (hb : Tail b) : Utf8Char [a, b]
  | three {a b c : Byte} (ha : 0xe0 ≤ a ∧ a ≤ 0xef) (hb : Tail b) (hc : Tail c)
      (hlong : a = 0xe0 → 0xa0 ≤ b) : Utf8Char [a, b, c]
  | four {a b c d : Byte} (ha : 0xf0 ≤ a ∧ a ≤ 0xf7) (hb : Tail b) (hc : Tail c) (hd : Tail d)
      (hlong : a = 0xf0 → 0x90 ≤ b) : Utf8Char [a, b, c, d]

/-- The value of a character of some bytes. -/
def utf8Value : List Byte → BitVec 64
  | [a] => a.setWidth 64
  | [a, b] => (a &&& 0x1f#8).setWidth 64 <<< 6 ||| (b &&& 0x3f#8).setWidth 64
  | [a, b, c] =>
    (a &&& 0x0f#8).setWidth 64 <<< 12 |||
      ((b &&& 0x3f#8).setWidth 64 <<< 6 ||| (c &&& 0x3f#8).setWidth 64)
  | [a, b, c, d] =>
    (a &&& 0x07#8).setWidth 64 <<< 18 |||
      (((b &&& 0x3f#8).setWidth 64 <<< 6 ||| (c &&& 0x3f#8).setWidth 64) <<< 6 |||
        (d &&& 0x3f#8).setWidth 64)
  | _ => 0

instance (ch : Byte) : Decidable (Tail ch) := inferInstanceAs (Decidable (_ ∧ _))

theorem tail_bits : ∀ {ch : Byte}, Tail ch →
    ch &&& 0xc0#8 = 0x80 ∧ 0x80#8 ||| (ch &&& 0x3f#8) = ch ∧ (ch &&& 0x3f#8).toNat < 64 ∧
      (0xa0 ≤ ch → 32 ≤ (ch &&& 0x3f#8).toNat) ∧ (0x90 ≤ ch → 16 ≤ (ch &&& 0x3f#8).toNat) := by
  decide +kernel

/-- The first byte of a character of one, two, three or four bytes. -/
theorem first_bits : ∀ a : Byte,
    (a ≤ 0x7f → a &&& 0x80#8 = 0 ∧ a.toNat ≤ 0x7f) ∧
    (0xc2 ≤ a ∧ a ≤ 0xdf → a &&& 0x80#8 ≠ 0 ∧ a &&& 0xe0#8 = 0xc0 ∧
      0xc0#8 ||| (a &&& 0x1f#8) = a ∧ 2 ≤ (a &&& 0x1f#8).toNat ∧ (a &&& 0x1f#8).toNat < 32) ∧
    (0xe0 ≤ a ∧ a ≤ 0xef → a &&& 0x80#8 ≠ 0 ∧ a &&& 0xe0#8 ≠ 0xc0 ∧ a &&& 0xf0#8 = 0xe0 ∧
      0xe0#8 ||| (a &&& 0x0f#8) = a ∧ (a &&& 0x0f#8).toNat < 16 ∧
      ((a &&& 0x0f#8).toNat = 0 → a = 0xe0)) ∧
    (0xf0 ≤ a ∧ a ≤ 0xf7 → a &&& 0x80#8 ≠ 0 ∧ a &&& 0xe0#8 ≠ 0xc0 ∧ a &&& 0xf0#8 ≠ 0xe0 ∧
      a &&& 0xf8#8 = 0xf0 ∧ 0xf0#8 ||| (a &&& 0x07#8) = a ∧ (a &&& 0x07#8).toNat < 8 ∧
      ((a &&& 0x07#8).toNat = 0 → a = 0xf0)) := by
  decide +kernel

/-! ## Decoding -/

section Decode

variable {front rest : List Byte} {a b c d : Byte} {n : ℕ}

theorem bind_of_eq {α β : Type} {x : Option α} {a : α} {f : α → Option β} (h : x = some a) :
    x >>= f = f a := by
  rw [h]
  rfl

theorem utf8Decode_two (ha : 0xc2 ≤ a ∧ a ≤ 0xdf) (hb : Tail b) (hn : 2 ≤ n) :
    utf8Decode (front ++ a :: b :: rest) front.length n = some (2, utf8Value [a, b]) := by
  obtain ⟨h80, he0, -⟩ := (first_bits a).2.1 ha
  refine (bind_of_eq (getElem?_front front a (b :: rest))).trans ?_
  refine (if_neg h80).trans ((if_neg (Nat.not_lt.mpr hn)).trans ?_)
  refine (bind_of_eq (a := b) (by simp)).trans ?_
  exact (if_neg (not_not.mpr (tail_bits hb).1)).trans (if_pos he0)

theorem utf8Decode_three (ha : 0xe0 ≤ a ∧ a ≤ 0xef) (hb : Tail b) (hc : Tail c) (hn : 3 ≤ n) :
    utf8Decode (front ++ a :: b :: c :: rest) front.length n = some (3, utf8Value [a, b, c]) := by
  obtain ⟨h80, he0, hf0, -⟩ := (first_bits a).2.2.1 ha
  refine (bind_of_eq (getElem?_front front a (b :: c :: rest))).trans ?_
  refine (if_neg h80).trans ((if_neg (by omega)).trans ?_)
  refine (bind_of_eq (a := b) (by simp)).trans ?_
  refine (if_neg (not_not.mpr (tail_bits hb).1)).trans ?_
  refine (if_neg he0).trans ((if_neg (by omega)).trans ?_)
  refine (bind_of_eq (a := c) (by simp)).trans ?_
  exact (if_neg (not_not.mpr (tail_bits hc).1)).trans (if_pos hf0)

theorem utf8Decode_four (ha : 0xf0 ≤ a ∧ a ≤ 0xf7) (hb : Tail b) (hc : Tail c) (hd : Tail d)
    (hn : 4 ≤ n) :
    utf8Decode (front ++ a :: b :: c :: d :: rest) front.length n =
      some (4, utf8Value [a, b, c, d]) := by
  obtain ⟨h80, he0, hf0, hf8, -⟩ := (first_bits a).2.2.2 ha
  refine (bind_of_eq (getElem?_front front a (b :: c :: d :: rest))).trans ?_
  refine (if_neg h80).trans ((if_neg (by omega)).trans ?_)
  refine (bind_of_eq (a := b) (by simp)).trans ?_
  refine (if_neg (not_not.mpr (tail_bits hb).1)).trans ?_
  refine (if_neg he0).trans ((if_neg (by omega)).trans ?_)
  refine (bind_of_eq (a := c) (by simp)).trans ?_
  refine (if_neg (not_not.mpr (tail_bits hc).1)).trans ?_
  refine (if_neg hf0).trans ((if_neg (by omega)).trans ?_)
  refine (bind_of_eq (a := d) (by simp)).trans ?_
  exact (if_neg (not_not.mpr (tail_bits hd).1)).trans (if_pos hf8)

theorem utf8Decode_one (ha : a ≤ 0x7f) :
    utf8Decode (front ++ a :: rest) front.length n = some (1, utf8Value [a]) := by
  refine (bind_of_eq (getElem?_front front a rest)).trans ?_
  exact if_pos ((first_bits a).1 ha).1

/-- A character in front of other bytes. -/
theorem utf8Decode_char {text : List Byte} (h : Utf8Char text) (front rest : List Byte)
    (hn : text.length ≤ n) :
    utf8Decode (front ++ (text ++ rest)) front.length n = some (text.length, utf8Value text) := by
  cases h with
  | one ha => exact utf8Decode_one ha
  | two ha hb => exact utf8Decode_two ha hb hn
  | three ha hb hc => exact utf8Decode_three ha hb hc hn
  | four ha hb hc hd => exact utf8Decode_four ha hb hc hd hn

end Decode

/-! ## Encoding -/

section Encode

variable {a b c d : Byte} {v w : BitVec 64} {k : ℕ}

theorem toNat_shift_or (hv : v.toNat * 2 ^ k < 2 ^ 64) (hw : w.toNat < 2 ^ k) :
    (v <<< k ||| w).toNat = v.toNat * 2 ^ k + w.toNat := by
  rw [BitVec.toNat_or, BitVec.toNat_shiftLeft, Nat.shiftLeft_eq, Nat.mod_eq_of_lt hv,
    ← Nat.shiftLeft_eq, Nat.shiftLeft_add_eq_or_of_lt hw]

theorem toNat_setWidth (x : Byte) : (x.setWidth 64).toNat = x.toNat := by
  rw [BitVec.toNat_setWidth]
  exact Nat.mod_eq_of_lt (x.isLt.trans (by decide))

theorem toNat_two (ha : (a &&& 0x1f#8).toNat < 32) (hb : (b &&& 0x3f#8).toNat < 64) :
    (utf8Value [a, b]).toNat = (a &&& 0x1f#8).toNat * 2 ^ 6 + (b &&& 0x3f#8).toNat := by
  rw [utf8Value, toNat_shift_or, toNat_setWidth, toNat_setWidth]
  · rw [toNat_setWidth]
    omega
  · rwa [toNat_setWidth]

theorem toNat_tails (hb : (b &&& 0x3f#8).toNat < 64) (hc : (c &&& 0x3f#8).toNat < 64) :
    ((b &&& 0x3f#8).setWidth 64 <<< 6 ||| (c &&& 0x3f#8).setWidth 64).toNat =
      (b &&& 0x3f#8).toNat * 2 ^ 6 + (c &&& 0x3f#8).toNat := by
  rw [toNat_shift_or, toNat_setWidth, toNat_setWidth]
  · rw [toNat_setWidth]
    omega
  · rwa [toNat_setWidth]

theorem toNat_three (ha : (a &&& 0x0f#8).toNat < 16) (hb : (b &&& 0x3f#8).toNat < 64)
    (hc : (c &&& 0x3f#8).toNat < 64) :
    (utf8Value [a, b, c]).toNat =
      (a &&& 0x0f#8).toNat * 2 ^ 12 + ((b &&& 0x3f#8).toNat * 2 ^ 6 + (c &&& 0x3f#8).toNat) := by
  rw [utf8Value, toNat_shift_or, toNat_setWidth, toNat_tails hb hc]
  · rw [toNat_setWidth]
    omega
  · rw [toNat_tails hb hc]
    omega

theorem toNat_four (ha : (a &&& 0x07#8).toNat < 8) (hb : (b &&& 0x3f#8).toNat < 64)
    (hc : (c &&& 0x3f#8).toNat < 64) (hd : (d &&& 0x3f#8).toNat < 64) :
    (utf8Value [a, b, c, d]).toNat = (a &&& 0x07#8).toNat * 2 ^ 18 +
      (((b &&& 0x3f#8).toNat * 2 ^ 6 + (c &&& 0x3f#8).toNat) * 2 ^ 6 + (d &&& 0x3f#8).toNat) := by
  have htails := toNat_tails hb hc
  have hlast : ((((b &&& 0x3f#8).setWidth 64 <<< 6 ||| (c &&& 0x3f#8).setWidth 64) <<< 6 |||
      (d &&& 0x3f#8).setWidth 64 : BitVec 64)).toNat =
        ((b &&& 0x3f#8).toNat * 2 ^ 6 + (c &&& 0x3f#8).toNat) * 2 ^ 6 + (d &&& 0x3f#8).toNat := by
    rw [toNat_shift_or, htails, toNat_setWidth]
    · rw [htails]
      omega
    · rwa [toNat_setWidth]
  rw [utf8Value, toNat_shift_or, toNat_setWidth, hlast]
  · rw [toNat_setWidth]
    omega
  · rw [hlast]
    omega

theorem byte_of_shift {x : Byte} (h : v.toNat / 2 ^ k = x.toNat) : (v >>> k).setWidth 8 = x := by
  apply BitVec.eq_of_toNat_eq
  rw [BitVec.toNat_setWidth, BitVec.toNat_ushiftRight, Nat.shiftRight_eq_div_pow, h]
  exact Nat.mod_eq_of_lt x.isLt

theorem byte_of_mask {x : Byte} (h : v.toNat % 64 = x.toNat) :
    (v &&& 0x3f#64).setWidth 8 = x := by
  apply BitVec.eq_of_toNat_eq
  rw [BitVec.toNat_setWidth, toNat_and_mask v 0x3f#64 (w := 6) rfl]
  exact (Nat.mod_eq_of_lt (by omega)).trans h

theorem byte_of_shift_mask {x : Byte} (h : v.toNat / 2 ^ k % 64 = x.toNat) :
    ((v >>> k) &&& 0x3f#64).setWidth 8 = x := by
  refine byte_of_mask ?_
  rw [BitVec.toNat_ushiftRight, Nat.shiftRight_eq_div_pow, h]

/-- The bounds of values of one to four bytes. -/
theorem bounds_iff (v : BitVec 64) : (v ≤ 0x7f ↔ v.toNat ≤ 0x7f) ∧ (v ≤ 0x7ff ↔ v.toNat ≤ 0x7ff) ∧
    (v ≤ 0xffff ↔ v.toNat ≤ 0xffff) ∧ (v ≤ 0x1fffff ↔ v.toNat ≤ 0x1fffff) :=
  ⟨Iff.rfl, Iff.rfl, Iff.rfl, Iff.rfl⟩

theorem utf8Encode_one (ha : a ≤ 0x7f) : utf8Encode 4 (utf8Value [a]) = [a] := by
  have hle : utf8Value [a] ≤ 0x7f := by
    rw [utf8Value, (bounds_iff _).1, toNat_setWidth]
    exact ((first_bits a).1 ha).2
  refine (if_pos ⟨hle, by decide⟩).trans ?_
  rw [utf8Value, BitVec.setWidth_setWidth_of_le _ (by decide), BitVec.setWidth_eq]

theorem utf8Encode_two (ha : 0xc2 ≤ a ∧ a ≤ 0xdf) (hb : Tail b) :
    utf8Encode 4 (utf8Value [a, b]) = [a, b] := by
  obtain ⟨-, -, ha', hlow, hhigh⟩ := (first_bits a).2.1 ha
  obtain ⟨-, hb', hb64, -⟩ := tail_bits hb
  have hvalue := toNat_two hhigh hb64
  obtain ⟨h₁, h₂, -, -⟩ := bounds_iff (utf8Value [a, b])
  have hgt : ¬ utf8Value [a, b] ≤ 0x7f := by
    rw [h₁]
    omega
  have hle : utf8Value [a, b] ≤ 0x7ff := by
    rw [h₂]
    omega
  refine (if_neg (mt And.left hgt)).trans ((if_pos ⟨hle, by decide⟩).trans ?_)
  rw [byte_of_shift (x := a &&& 0x1f#8) (by omega), byte_of_mask (x := b &&& 0x3f#8) (by omega),
    ha', hb']

theorem utf8Encode_three (ha : 0xe0 ≤ a ∧ a ≤ 0xef) (hb : Tail b) (hc : Tail c)
    (hlong : a = 0xe0 → 0xa0 ≤ b) : utf8Encode 4 (utf8Value [a, b, c]) = [a, b, c] := by
  obtain ⟨-, -, -, ha', hhigh, hzero⟩ := (first_bits a).2.2.1 ha
  obtain ⟨-, hb', hb64, -⟩ := tail_bits hb
  obtain ⟨-, hc', hc64, -⟩ := tail_bits hc
  have hvalue := toNat_three hhigh hb64 hc64
  have hlow : 2 ^ 11 ≤ (utf8Value [a, b, c]).toNat := by
    by_cases h : (a &&& 0x0f#8).toNat = 0
    · have hb32 := (tail_bits hb).2.2.2.1 (hlong (hzero h))
      omega
    · omega
  obtain ⟨h₁, h₂, h₃, -⟩ := bounds_iff (utf8Value [a, b, c])
  have hgt : ¬ utf8Value [a, b, c] ≤ 0x7f ∧ ¬ utf8Value [a, b, c] ≤ 0x7ff := by
    rw [h₁, h₂]
    omega
  have hle : utf8Value [a, b, c] ≤ 0xffff := by
    rw [h₃]
    omega
  refine (if_neg (mt And.left hgt.1)).trans ((if_neg (mt And.left hgt.2)).trans
    ((if_pos ⟨hle, by decide⟩).trans ?_))
  rw [byte_of_shift (x := a &&& 0x0f#8) (by omega),
    byte_of_shift_mask (x := b &&& 0x3f#8) (by omega), byte_of_mask (x := c &&& 0x3f#8) (by omega), ha', hb',
      hc']

theorem utf8Encode_four (ha : 0xf0 ≤ a ∧ a ≤ 0xf7) (hb : Tail b) (hc : Tail c) (hd : Tail d)
    (hlong : a = 0xf0 → 0x90 ≤ b) :
    utf8Encode 4 (utf8Value [a, b, c, d]) = [a, b, c, d] := by
  obtain ⟨-, -, -, -, ha', hhigh, hzero⟩ := (first_bits a).2.2.2 ha
  obtain ⟨-, hb', hb64, -⟩ := tail_bits hb
  obtain ⟨-, hc', hc64, -⟩ := tail_bits hc
  obtain ⟨-, hd', hd64, -⟩ := tail_bits hd
  have hvalue := toNat_four hhigh hb64 hc64 hd64
  have hlow : 2 ^ 16 ≤ (utf8Value [a, b, c, d]).toNat := by
    by_cases h : (a &&& 0x07#8).toNat = 0
    · have hb16 := (tail_bits hb).2.2.2.2 (hlong (hzero h))
      omega
    · omega
  obtain ⟨h₁, h₂, h₃, h₄⟩ := bounds_iff (utf8Value [a, b, c, d])
  have hgt : ¬ utf8Value [a, b, c, d] ≤ 0x7f ∧ ¬ utf8Value [a, b, c, d] ≤ 0x7ff ∧
      ¬ utf8Value [a, b, c, d] ≤ 0xffff := by
    rw [h₁, h₂, h₃]
    omega
  have hle : utf8Value [a, b, c, d] ≤ 0x1fffff := by
    rw [h₄]
    omega
  refine (if_neg (mt And.left hgt.1)).trans ((if_neg (mt And.left hgt.2.1)).trans
    ((if_neg (mt And.left hgt.2.2)).trans ((if_pos ⟨hle, by decide⟩).trans ?_)))
  rw [byte_of_shift (x := a &&& 0x07#8) (by omega),
    byte_of_shift_mask (x := b &&& 0x3f#8) (by omega),
    byte_of_shift_mask (x := c &&& 0x3f#8) (by omega), byte_of_mask (x := d &&& 0x3f#8) (by omega),
    ha', hb', hc', hd']

/-- The value of a character is encoded to its bytes. -/
theorem utf8Encode_char {text : List Byte} (h : Utf8Char text) :
    utf8Encode 4 (utf8Value text) = text := by
  cases h with
  | one ha => exact utf8Encode_one ha
  | two ha hb => exact utf8Encode_two ha hb
  | three ha hb hc hlong => exact utf8Encode_three ha hb hc hlong
  | four ha hb hc hd hlong => exact utf8Encode_four ha hb hc hd hlong

end Encode

/-- A value that is encoded at all is a character. -/
theorem utf8Value_le {text : List Byte} (h : Utf8Char text) : utf8Value text ≤ 0x1fffff := by
  by_contra hvalue
  have hlength := length_utf8Encode (utf8Value text)
  rw [utf8Encode_char h, utf8Length_eq_zero hvalue] at hlength
  obtain rfl := List.length_eq_zero_iff.mp hlength
  cases h

end PerchWebrtc.Base
