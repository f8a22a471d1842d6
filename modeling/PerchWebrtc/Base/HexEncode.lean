import PerchWebrtc.Framework.Bytes

/-!
# Bytes in hexadecimal

`hex_encode_with_delimiter` and `hex_decode_with_delimiter` (`stringencode.cc`), and the
fingerprints of certificates that are read with them (`sslfingerprint.h`). A delimiter of zero is
none; what is returned are the bytes that are counted.

* `decodeLoop_joined`, `joined_of_decodeLoop`: what is decoded are pairs of digits or letters;
* `joined_injective`: the pairs of a string;
* `hexDecode_exact`: what is undone, and what is accepted.
-/

namespace PerchWebrtc.Base

def HEX : List Byte :=
  ['0', '1', '2', '3', '4', '5', '6', '7', '8', '9', 'a', 'b', 'c', 'd', 'e', 'f'].map
    fun ch => BitVec.ofNat 8 ch.toNat

def hexEncode (val : Byte) : Byte := if val < 16 then HEX.getD val.toNat 0 else 0x21

/-- All letters have a value. -/
def hexDecode (ch : Byte) : Option Byte :=
  if 0x30 ≤ ch ∧ ch ≤ 0x39 then some (ch - 0x30)
  else if 0x41 ≤ ch ∧ ch ≤ 0x5a then some (ch - 0x41 + 10)
  else if 0x61 ≤ ch ∧ ch ≤ 0x7a then some (ch - 0x61 + 10)
  else none

namespace Hex

variable (delimiter : Byte)

def encodeLoop : List Byte → List Byte
  | [] => []
  | ch :: source =>
    hexEncode ((ch >>> 4) &&& 0xf#8) :: hexEncode (ch &&& 0xf#8) ::
      ((if delimiter ≠ 0 ∧ source ≠ [] then [delimiter] else []) ++ encodeLoop source)

def hexEncodeWithDelimiter (buflen : ℕ) (source : List Byte) : List Byte :=
  let needed := if delimiter ≠ 0 then source.length * 3 else source.length * 2 + 1
  if buflen = 0 ∨ buflen < needed then [] else encodeLoop delimiter source

/-- `none` where the loop gives up. -/
def decodeLoop : List Byte → Option (List Byte)
  | [] => some []
  | [_] => none
  | c₁ :: c₂ :: source =>
    match hexDecode c₁, hexDecode c₂ with
    | some h₁, some h₂ =>
      let byte := h₁ <<< 4 ||| h₂
      match source with
      | d :: e :: source =>
        if delimiter ≠ 0 then
          if d ≠ delimiter then none else (decodeLoop (e :: source)).map (byte :: ·)
        else (decodeLoop (d :: e :: source)).map (byte :: ·)
      | source => (decodeLoop source).map (byte :: ·)
    | _, _ => none

def hexDecodeWithDelimiter (buflen : ℕ) (source : List Byte) : List Byte :=
  let needed := if delimiter ≠ 0 then (source.length + 1) / 3 else source.length / 2
  if buflen = 0 ∨ buflen < needed then [] else (decodeLoop delimiter source).getD []

def kMaxSize : ℕ := 64

/-- The algorithm and the digest of a fingerprint. -/
def createFromRfc4572 (algorithm fingerprint : List Byte) : Option (List Byte × List Byte) :=
  if algorithm = [] ∨ fingerprint = [] then none
  else
    let value := hexDecodeWithDelimiter 0x3a kMaxSize fingerprint
    if value = [] then none else some (algorithm, value)

/-! ## Pairs -/

def HexDigit (ch : Byte) : Prop :=
  0x30 ≤ ch ∧ ch ≤ 0x39 ∨ 0x41 ≤ ch ∧ ch ≤ 0x46 ∨ 0x61 ≤ ch ∧ ch ≤ 0x66

/-- A digit, or any letter. -/
def Alphanumeric (ch : Byte) : Prop :=
  0x30 ≤ ch ∧ ch ≤ 0x39 ∨ 0x41 ≤ ch ∧ ch ≤ 0x5a ∨ 0x61 ≤ ch ∧ ch ≤ 0x7a

instance (ch : Byte) : Decidable (HexDigit ch) := inferInstanceAs (Decidable (_ ∨ _))

instance (ch : Byte) : Decidable (Alphanumeric ch) := inferInstanceAs (Decidable (_ ∨ _))

def separator : List Byte := if delimiter ≠ 0 then [delimiter] else []

/-- Pairs of characters, with the delimiter between them. -/
def joined : List (Byte × Byte) → List Byte
  | [] => []
  | [p] => [p.1, p.2]
  | p :: p' :: pairs => p.1 :: p.2 :: (separator delimiter ++ joined (p' :: pairs))

/-- All characters of the pairs are of a kind. -/
def Made (kind : Byte → Prop) (pairs : List (Byte × Byte)) : Prop :=
  ∀ p ∈ pairs, kind p.1 ∧ kind p.2

/-- The string is a non-empty sequence of pairs of digits with the delimiter between them, and there
are no more pairs than the buffer takes. -/
def IsHex (buflen : ℕ) (source : List Byte) : Prop :=
  ∃ pairs ≠ [], Made HexDigit pairs ∧ source = joined delimiter pairs ∧ pairs.length ≤ buflen

def pairByte (p : Byte × Byte) : Byte := (hexDecode p.1).getD 0 <<< 4 ||| (hexDecode p.2).getD 0

variable {delimiter} {source bytes : List Byte} {pairs pairs' : List (Byte × Byte)} {buflen : ℕ}

attribute [local simp] decodeLoop joined

theorem hexDecode_isSome (ch : Byte) : (hexDecode ch).isSome ↔ Alphanumeric ch := by
  rw [hexDecode, Alphanumeric]
  split_ifs <;> simp_all

theorem alphanumeric_of_hexDigit {ch : Byte} : HexDigit ch → Alphanumeric ch := by
  rintro (h | ⟨h, h'⟩ | ⟨h, h'⟩)
  · exact .inl h
  · exact .inr (.inl ⟨h, BitVec.le_trans h' (by decide)⟩)
  · exact .inr (.inr ⟨h, BitVec.le_trans h' (by decide)⟩)

theorem made_cons {kind : Byte → Prop} {p : Byte × Byte} :
    Made kind (p :: pairs) ↔ (kind p.1 ∧ kind p.2) ∧ Made kind pairs := List.forall_mem_cons

theorem separator_zero : separator 0 = [] := rfl

theorem separator_of_ne (h : delimiter ≠ 0) : separator delimiter = [delimiter] := if_pos h

theorem joined_cons (p : Byte × Byte) (hne : pairs ≠ []) :
    joined delimiter (p :: pairs) =
      p.1 :: p.2 :: (separator delimiter ++ joined delimiter pairs) := by
  obtain ⟨p', pairs, rfl⟩ := List.exists_cons_of_ne_nil hne
  rw [joined]

theorem length_joined_zero (pairs : List (Byte × Byte)) :
    (joined 0 pairs).length = 2 * pairs.length := by
  induction pairs using joined.induct with
  | case1 => rfl
  | case2 p => rfl
  | case3 p p' pairs ih =>
    rw [joined, separator_zero, List.nil_append, List.length_cons, List.length_cons, ih]
    simp only [List.length_cons]
    omega

theorem length_joined (h : delimiter ≠ 0) (hne : pairs ≠ []) :
    (joined delimiter pairs).length + 1 = 3 * pairs.length := by
  induction pairs using joined.induct with
  | case1 => exact absurd rfl hne
  | case2 p => rfl
  | case3 p p' pairs ih =>
    have hlength := ih (List.cons_ne_nil _ _)
    rw [joined, separator_of_ne h]
    simp only [List.length_cons, List.singleton_append] at hlength ⊢
    omega

/-- What the decoder asks of its buffer. -/
theorem needed_joined (delimiter : Byte) (pairs : List (Byte × Byte)) :
    (if delimiter ≠ 0 then ((joined delimiter pairs).length + 1) / 3
      else (joined delimiter pairs).length / 2) = pairs.length := by
  by_cases h : delimiter ≠ 0
  · rw [if_pos h]
    by_cases hne : pairs = []
    · simp [hne, joined]
    · rw [length_joined h hne]
      omega
  · obtain rfl := not_not.mp h
    rw [if_neg h, length_joined_zero]
    omega

theorem hexDecode_eq_some {ch : Byte} (h : Alphanumeric ch) :
    hexDecode ch = some ((hexDecode ch).getD 0) := by
  obtain ⟨v, hv⟩ := Option.isSome_iff_exists.mp ((hexDecode_isSome ch).mpr h)
  rw [hv, Option.getD_some]

theorem hexDecode_eq_none {ch : Byte} (h : ¬ Alphanumeric ch) : hexDecode ch = none :=
  Option.not_isSome_iff_eq_none.mp (mt (hexDecode_isSome ch).mp h)

/-- A pair of other characters. -/
theorem decodeLoop_eq_none {c₁ c₂ : Byte} (h : ¬ (Alphanumeric c₁ ∧ Alphanumeric c₂))
    (source : List Byte) : decodeLoop delimiter (c₁ :: c₂ :: source) = none := by
  rw [decodeLoop.eq_def]
  by_cases h₁ : Alphanumeric c₁
  · have h₂ : ¬ Alphanumeric c₂ := fun h₂ => h ⟨h₁, h₂⟩
    obtain ⟨v, hv⟩ := Option.isSome_iff_exists.mp ((hexDecode_isSome c₁).mpr h₁)
    simp only [hexDecode_eq_none h₂, hv]
  · simp only [hexDecode_eq_none h₁]

/-- The last pair. -/
theorem decodeLoop_pair {c₁ c₂ : Byte} (h₁ : Alphanumeric c₁) (h₂ : Alphanumeric c₂) :
    decodeLoop delimiter [c₁, c₂] = some [pairByte (c₁, c₂)] := by
  rw [decodeLoop, hexDecode_eq_some h₁, hexDecode_eq_some h₂]
  rfl

/-- One character is left behind a pair. -/
theorem decodeLoop_odd (c₁ c₂ d : Byte) : decodeLoop delimiter [c₁, c₂, d] = none := by
  by_cases h : Alphanumeric c₁ ∧ Alphanumeric c₂
  · rw [decodeLoop, hexDecode_eq_some h.1, hexDecode_eq_some h.2]
    rfl
  · exact decodeLoop_eq_none h _

/-- A pair, and what the loop makes of the characters behind it. -/
theorem decodeLoop_cons {c₁ c₂ : Byte} (h₁ : Alphanumeric c₁) (h₂ : Alphanumeric c₂) (d e : Byte)
    (source : List Byte) :
    decodeLoop delimiter (c₁ :: c₂ :: d :: e :: source) =
      if delimiter ≠ 0 then
        if d ≠ delimiter then none
        else (decodeLoop delimiter (e :: source)).map (pairByte (c₁, c₂) :: ·)
      else (decodeLoop delimiter (d :: e :: source)).map (pairByte (c₁, c₂) :: ·) := by
  rw [decodeLoop, hexDecode_eq_some h₁, hexDecode_eq_some h₂]
  rfl

theorem decodeLoop_joined (hmade : Made Alphanumeric pairs) :
    decodeLoop delimiter (joined delimiter pairs) = some (pairs.map pairByte) := by
  induction pairs using joined.induct with
  | case1 => simp [joined, decodeLoop]
  | case2 p =>
    obtain ⟨⟨h₁, h₂⟩, -⟩ := made_cons.mp hmade
    exact decodeLoop_pair h₁ h₂
  | case3 p p' pairs ih =>
    obtain ⟨⟨h₁, h₂⟩, hmade⟩ := made_cons.mp hmade
    obtain ⟨b, source, hrest⟩ :
        ∃ b source, joined delimiter (p' :: pairs) = p'.1 :: b :: source := by
      cases pairs with
      | nil => exact ⟨_, _, rfl⟩
      | cons => exact ⟨_, _, rfl⟩
    have hnext := ih hmade
    rw [joined]
    by_cases hdelimiter : delimiter ≠ 0
    · rw [separator_of_ne hdelimiter, hrest, List.singleton_append, decodeLoop_cons h₁ h₂,
        if_pos hdelimiter, if_neg (not_not.mpr rfl), ← hrest, hnext]
      rfl
    · obtain rfl := not_not.mp hdelimiter
      rw [separator_zero, hrest, List.nil_append, decodeLoop_cons h₁ h₂, if_neg hdelimiter, ← hrest,
        hnext]
      rfl

/-- What the loop accepts. -/
theorem joined_of_decodeLoop (source : List Byte) :
    ∀ bytes, decodeLoop delimiter source = some bytes →
    ∃ pairs, Made Alphanumeric pairs ∧ source = joined delimiter pairs ∧
      bytes = pairs.map pairByte := by
  have alphanumeric {ch h : Byte} (hdecode : hexDecode ch = some h) : Alphanumeric ch :=
    (hexDecode_isSome ch).mp (Option.isSome_iff_exists.mpr ⟨h, hdecode⟩)
  induction source using decodeLoop.induct delimiter with
  | case1 =>
    intro bytes h
    obtain rfl := Option.some.inj (by simpa [decodeLoop] using h)
    exact ⟨[], by simp [Made], rfl, rfl⟩
  | case2 head =>
    intro bytes h
    simp [decodeLoop] at h
  | case3 c₁ c₂ h₁ h₂ hd₂ hd₁ d e source hdelimiter hne =>
    intro bytes h
    rw [decodeLoop_cons (alphanumeric hd₁) (alphanumeric hd₂), if_pos hdelimiter, if_pos hne] at h
    exact absurd h (by simp)
  | case4 c₁ c₂ h₁ h₂ hd₂ hd₁ d e source hdelimiter heq ih =>
    intro bytes h
    obtain rfl := not_not.mp heq
    rw [decodeLoop_cons (alphanumeric hd₁) (alphanumeric hd₂), if_pos hdelimiter, if_neg heq] at h
    obtain ⟨rest, hrest, rfl⟩ := Option.map_eq_some_iff.mp h
    obtain ⟨pairs, hmade, hsource, rfl⟩ := ih rest hrest
    have hne : pairs ≠ [] := by
      rintro rfl
      simp [joined] at hsource
    refine ⟨(c₁, c₂) :: pairs, made_cons.mpr ⟨⟨alphanumeric hd₁, alphanumeric hd₂⟩, hmade⟩, ?_, rfl⟩
    rw [joined_cons _ hne, separator_of_ne hdelimiter, ← hsource]
    rfl
  | case5 c₁ c₂ h₁ h₂ hd₂ hd₁ d e source hdelimiter ih =>
    intro bytes h
    rw [decodeLoop_cons (alphanumeric hd₁) (alphanumeric hd₂), if_neg hdelimiter] at h
    obtain ⟨rest, hrest, rfl⟩ := Option.map_eq_some_iff.mp h
    obtain ⟨pairs, hmade, hsource, rfl⟩ := ih rest hrest
    have hne : pairs ≠ [] := by
      rintro rfl
      simp [joined] at hsource
    refine ⟨(c₁, c₂) :: pairs, made_cons.mpr ⟨⟨alphanumeric hd₁, alphanumeric hd₂⟩, hmade⟩, ?_, rfl⟩
    obtain rfl := not_not.mp hdelimiter
    rw [joined_cons _ hne, separator_zero, ← hsource]
    rfl
  | case6 c₁ c₂ h₁ h₂ hd₂ hd₁ source hshort ih =>
    intro bytes h
    match source with
    | [] =>
      rw [decodeLoop_pair (alphanumeric hd₁) (alphanumeric hd₂)] at h
      obtain rfl := Option.some.inj h
      exact ⟨[(c₁, c₂)], by simp [Made, alphanumeric hd₁, alphanumeric hd₂], rfl, rfl⟩
    | [d] =>
      rw [decodeLoop_odd] at h
      exact absurd h (by simp)
    | d :: e :: source => exact absurd rfl (hshort d e source)
  | case7 c₁ c₂ source hnone =>
    intro bytes h
    rw [decodeLoop_eq_none fun hboth => hnone _ _ (hexDecode_eq_some hboth.1)
      (hexDecode_eq_some hboth.2)] at h
    exact absurd h (by simp)

/-- A string has one sequence of pairs. -/
theorem joined_injective (h : joined delimiter pairs = joined delimiter pairs') :
    pairs = pairs' := by
  have hlength : pairs.length = pairs'.length := by
    rw [← needed_joined delimiter pairs, h, needed_joined]
  induction pairs generalizing pairs' with
  | nil => exact (List.length_eq_zero_iff.mp hlength.symm).symm
  | cons p pairs ih =>
    obtain ⟨p', pairs', rfl⟩ := List.exists_cons_of_length_eq_add_one hlength.symm
    have htail : pairs.length = pairs'.length := Nat.succ.inj hlength
    by_cases hne : pairs = []
    · obtain rfl : pairs' = [] := List.length_eq_zero_iff.mp (by rw [← htail, hne]; rfl)
      subst hne
      simp only [joined, List.cons.injEq, and_true] at h
      rw [Prod.ext h.1 h.2]
    · have hne' : pairs' ≠ [] := by
        rintro rfl
        exact hne (List.length_eq_zero_iff.mp htail)
      rw [joined_cons p hne, joined_cons p' hne', List.cons.injEq, List.cons.injEq] at h
      rw [Prod.ext h.1 h.2.1, ih (List.append_cancel_left h.2.2) htail]

/-! ## Encoding -/

def digits (ch : Byte) : Byte × Byte :=
  (hexEncode ((ch >>> 4) &&& 0xf#8), hexEncode (ch &&& 0xf#8))

theorem hexEncode_digit : ∀ n : Fin 16, HexDigit (hexEncode (BitVec.ofNat 8 n)) ∧
    hexDecode (hexEncode (BitVec.ofNat 8 n)) = some (BitVec.ofNat 8 n) := by decide

theorem hexEncode_nibble (x : Byte) : HexDigit (hexEncode (x &&& 0xf#8)) ∧
    hexDecode (hexEncode (x &&& 0xf#8)) = some (x &&& 0xf#8) := by
  have hlt : (x &&& 0xf#8).toNat < 16 := by
    rw [BitVec.toNat_and]
    exact Nat.and_lt_two_pow _ (by decide : (0xf#8).toNat < 2 ^ 4)
  simpa using hexEncode_digit ⟨_, hlt⟩

theorem hexDigit_digits (ch : Byte) : HexDigit (digits ch).1 ∧ HexDigit (digits ch).2 :=
  ⟨(hexEncode_nibble _).1, (hexEncode_nibble _).1⟩

theorem pairByte_digits (ch : Byte) : pairByte (digits ch) = ch := by
  rw [pairByte, digits, (hexEncode_nibble _).2, (hexEncode_nibble _).2]
  exact byte_ext (forall_bits (by simp))

theorem made_digits (source : List Byte) : Made HexDigit (source.map digits) := by
  intro p hp
  obtain ⟨ch, -, rfl⟩ := List.mem_map.mp hp
  exact hexDigit_digits ch

theorem encodeLoop_eq (source : List Byte) :
    encodeLoop delimiter source = joined delimiter (source.map digits) := by
  induction source with
  | nil => rfl
  | cons ch source ih =>
    rw [encodeLoop, ih, List.map_cons]
    by_cases hne : source = []
    · simp [hne, joined, digits]
    · rw [joined_cons _ (mt List.map_eq_nil_iff.mp hne), separator]
      simp [hne, digits]

/-! ## What is accepted -/

theorem made_alphanumeric (h : Made HexDigit pairs) : Made Alphanumeric pairs :=
  fun p hp => ⟨alphanumeric_of_hexDigit (h p hp).1, alphanumeric_of_hexDigit (h p hp).2⟩

/-- Pairs that fit are decoded. -/
theorem hexDecodeWithDelimiter_joined (hmade : Made Alphanumeric pairs)
    (hlength : pairs.length ≤ buflen) :
    hexDecodeWithDelimiter delimiter buflen (joined delimiter pairs) = pairs.map pairByte := by
  rw [hexDecodeWithDelimiter, needed_joined]
  by_cases hzero : buflen = 0
  · obtain rfl : pairs = [] := List.length_eq_zero_iff.mp (by omega)
    rw [if_pos (.inl hzero)]
    rfl
  · rw [if_neg (by omega), decodeLoop_joined hmade, Option.getD_some]

theorem hexDecodeWithDelimiter_ne_nil :
    hexDecodeWithDelimiter delimiter buflen source ≠ [] ↔
      ∃ pairs ≠ [], Made Alphanumeric pairs ∧ source = joined delimiter pairs ∧
        pairs.length ≤ buflen := by
  constructor
  · intro h
    rw [hexDecodeWithDelimiter] at h
    by_cases hroom : buflen = 0 ∨
        buflen < if delimiter ≠ 0 then (source.length + 1) / 3 else source.length / 2
    · exact absurd (if_pos hroom) h
    · rw [if_neg hroom] at h
      cases hdecode : decodeLoop delimiter source with
      | none => exact absurd (by rw [hdecode, Option.getD_none]) h
      | some bytes =>
        obtain ⟨pairs, hmade, rfl, rfl⟩ := joined_of_decodeLoop source bytes hdecode
        rw [hdecode, Option.getD_some] at h
        rw [needed_joined] at hroom
        exact ⟨pairs, mt List.map_eq_nil_iff.mpr h, hmade, rfl, by omega⟩
  · rintro ⟨pairs, hne, hmade, rfl, hlength⟩
    rw [hexDecodeWithDelimiter_joined hmade hlength]
    exact mt List.map_eq_nil_iff.mp hne

theorem hexDecodeWithDelimiter_encode {buflen' : ℕ}
    (hbuflen : (if delimiter ≠ 0 then bytes.length * 3 else bytes.length * 2 + 1) ≤ buflen)
    (hbuflen' : bytes.length ≤ buflen') :
    hexDecodeWithDelimiter delimiter buflen' (hexEncodeWithDelimiter delimiter buflen bytes) =
      bytes := by
  have hencode : hexEncodeWithDelimiter delimiter buflen bytes =
      joined delimiter (bytes.map digits) := by
    rw [hexEncodeWithDelimiter]
    by_cases hzero : bytes.length = 0
    · rw [List.length_eq_zero_iff.mp hzero]
      exact ite_self _
    · rw [if_neg, encodeLoop_eq]
      split at hbuflen <;> simp only [*, ne_eq, not_false_iff, if_true, if_false] <;> omega
  rw [hencode, hexDecodeWithDelimiter_joined (made_alphanumeric (made_digits bytes))
    (by rwa [List.length_map]), List.map_map]
  exact (List.map_congr_left fun ch _ => pairByte_digits ch).trans (List.map_id _)

/-- Letters that are no digits, and that have a value all the same. -/
def LaterLetter (ch : Byte) : Prop := 0x47 ≤ ch ∧ ch ≤ 0x5a ∨ 0x67 ≤ ch ∧ ch ≤ 0x7a

instance (ch : Byte) : Decidable (LaterLetter ch) := inferInstanceAs (Decidable (_ ∨ _))

/-- If the string is made of pairs of letters and digits and fits the buffer, no letter behind F is
in the pairs. -/
def NoLaterLetter (delimiter : Byte) (buflen : ℕ) (source : List Byte) : Prop :=
  ∀ pairs, Made Alphanumeric pairs → source = joined delimiter pairs → pairs.length ≤ buflen →
    Made (fun ch => ¬ LaterLetter ch) pairs

theorem hexDigit_iff (ch : Byte) : HexDigit ch ↔ Alphanumeric ch ∧ ¬ LaterLetter ch := by
  simp only [HexDigit, Alphanumeric, LaterLetter, BitVec.le_def, BitVec.reduceToNat]
  omega

theorem made_hexDigit (h : Made Alphanumeric pairs)
    (hlater : Made (fun ch => ¬ LaterLetter ch) pairs) : Made HexDigit pairs := fun p hp =>
  ⟨(hexDigit_iff _).mpr ⟨(h p hp).1, (hlater p hp).1⟩,
    (hexDigit_iff _).mpr ⟨(h p hp).2, (hlater p hp).2⟩⟩

theorem accepts_of_isHex (h : IsHex delimiter buflen source) :
    hexDecodeWithDelimiter delimiter buflen source ≠ [] := by
  obtain ⟨pairs, hne, hmade, hsource, hlength⟩ := h
  exact hexDecodeWithDelimiter_ne_nil.mpr ⟨pairs, hne, made_alphanumeric hmade, hsource, hlength⟩

/-- What is accepted is hexadecimal if there is no other letter. -/
theorem isHex_of_accepts_iff :
    (hexDecodeWithDelimiter delimiter buflen source ≠ [] → IsHex delimiter buflen source) ↔
      NoLaterLetter delimiter buflen source := by
  rw [hexDecodeWithDelimiter_ne_nil]
  constructor
  · rintro h pairs hmade rfl hlength
    by_cases hne : pairs = []
    · simp [hne, Made]
    · obtain ⟨pairs', -, hmade', heq, -⟩ := h ⟨pairs, hne, hmade, rfl, hlength⟩
      obtain rfl := joined_injective heq
      exact fun p hp =>
        ⟨((hexDigit_iff _).mp (hmade' p hp).1).2, ((hexDigit_iff _).mp (hmade' p hp).2).2⟩
  · rintro h ⟨pairs, hne, hmade, hsource, hlength⟩
    exact ⟨pairs, hne, made_hexDigit hmade (h pairs hmade hsource hlength), hsource, hlength⟩

/-- A fingerprint is rejected if nothing is decoded. -/
theorem createFromRfc4572_eq_none {algorithm fingerprint : List Byte} :
    createFromRfc4572 algorithm fingerprint = none ↔
      algorithm = [] ∨ hexDecodeWithDelimiter 0x3a kMaxSize fingerprint = [] := by
  by_cases halgorithm : algorithm = []
  · simp [createFromRfc4572, halgorithm]
  · by_cases hfingerprint : fingerprint = []
    · have hempty : hexDecodeWithDelimiter 0x3a kMaxSize [] = [] := by decide
      rw [hfingerprint]
      exact ⟨fun _ => .inr hempty, fun _ => if_pos (.inr rfl)⟩
    · simp [createFromRfc4572, halgorithm, hfingerprint]

/-- Decoding undoes encoding; what is accepted is what is hexadecimal, and other fingerprints are
rejected, exactly where no letter behind F is in a pair. -/
theorem hexDecode_exact (delimiter : Byte) (buflen : ℕ) (source : List Byte) :
    (∀ buflen', (if delimiter ≠ 0 then source.length * 3 else source.length * 2 + 1) ≤ buflen →
      source.length ≤ buflen' →
      hexDecodeWithDelimiter delimiter buflen' (hexEncodeWithDelimiter delimiter buflen source) =
        source) ∧
    ((hexDecodeWithDelimiter delimiter buflen source ≠ [] ↔ IsHex delimiter buflen source) ↔
      NoLaterLetter delimiter buflen source) ∧
    ∀ algorithm : List Byte,
      (¬ IsHex 0x3a kMaxSize source → createFromRfc4572 algorithm source = none) ↔
        algorithm = [] ∨ NoLaterLetter 0x3a kMaxSize source := by
  refine ⟨fun buflen' => hexDecodeWithDelimiter_encode, ?_, fun algorithm => ?_⟩
  · rw [← isHex_of_accepts_iff]
    exact ⟨Iff.mp, fun h => ⟨h, accepts_of_isHex⟩⟩
  · rw [createFromRfc4572_eq_none, ← isHex_of_accepts_iff]
    by_cases halgorithm : algorithm = []
    · simp [halgorithm]
    · simp only [halgorithm, false_or]
      exact not_imp_comm

/-- "GG" is decoded, also as a fingerprint. -/
theorem not_hexDecode_exact :
    ¬ (hexDecodeWithDelimiter 0x3a kMaxSize [0x47, 0x47] ≠ [] ↔
      IsHex 0x3a kMaxSize [0x47, 0x47]) ∧
    ¬ (¬ IsHex 0x3a kMaxSize [0x47, 0x47] → createFromRfc4572 [0x73] [0x47, 0x47] = none) := by
  have hnot : ¬ IsHex 0x3a kMaxSize [0x47, 0x47] := by
    rintro ⟨pairs, -, hmade, hsource, -⟩
    obtain rfl : [(0x47, 0x47)] = pairs := joined_injective hsource
    exact absurd (hmade _ (List.mem_singleton_self _)).1 (by decide)
  refine ⟨fun h => hnot (h.mp (by decide)), fun h => ?_⟩
  exact absurd (h hnot) (by decide)

end Hex

end PerchWebrtc.Base
