import PerchWebrtc.Base.Utf8

/-!
# String encodings and their decoders

Every encoder replaces characters by texts that its decoder replaces by the characters.

* `referenceNumber_decimal`: the number that is written is read;
* `rewrites_escape_special` and so on: what each round does with a character;
* `stringencode_inverts`.
-/

namespace PerchWebrtc.Base

open Framework

/-! ## Decimal numbers -/

theorem digit_byte : ∀ d < 10, digitValue 10 (BitVec.ofNat 8 (48 + d)) = some d ∧
    isspace (BitVec.ofNat 8 (48 + d)) = false ∧ BitVec.ofNat 8 (48 + d) ≠ 0x2b ∧
    BitVec.ofNat 8 (48 + d) ≠ 0x2d ∧ BitVec.ofNat 8 (48 + d) ≠ 0x78 := by
  decide

/-- The byte of a digit. -/
theorem byte_of_isDigit {ch : Char} (h : ch.isDigit = true) :
    ∃ d < 10, ch.toNat - '0'.toNat = d ∧ BitVec.ofNat 8 ch.toNat = BitVec.ofNat 8 (48 + d) := by
  obtain ⟨hlow, hhigh⟩ := Char.isDigit_iff_toNat.mp h
  have hlow : 48 ≤ ch.toNat := hlow
  have hhigh : ch.toNat ≤ 57 := hhigh
  refine ⟨ch.toNat - 48, by omega, rfl, ?_⟩
  rw [Nat.add_sub_cancel' hlow]

theorem foldl_digits {chars : List Char} (h : ∀ ch ∈ chars, ch.isDigit = true) (init : ℕ) :
    (text chars).foldl (fun v ch => v * 10 + (digitValue 10 ch).getD 0) init =
      Nat.ofDigitChars 10 chars init := by
  induction chars generalizing init with
  | nil => rfl
  | cons ch chars ih =>
    obtain ⟨d, hd, hvalue, hbyte⟩ := byte_of_isDigit (h ch List.mem_cons_self)
    rw [Nat.ofDigitChars_cons, ← ih fun ch' hch' => h ch' (List.mem_cons_of_mem _ hch'), hvalue]
    show (text chars).foldl _ (init * 10 + (digitValue 10 (BitVec.ofNat 8 ch.toNat)).getD 0) = _
    rw [hbyte, (digit_byte d hd).1, Option.getD_some, Nat.mul_comm]

theorem isDigit_text {chars : List Char} (h : ∀ ch ∈ chars, ch.isDigit = true) :
    ∀ b ∈ text chars, isDigit 10 b = true := by
  intro b hb
  obtain ⟨ch, hch, rfl⟩ := List.mem_map.mp hb
  obtain ⟨d, hd, -, hbyte⟩ := byte_of_isDigit (h ch hch)
  rw [hbyte, isDigit, (digit_byte d hd).1]
  rfl

/-- The number that is written is read again. -/
theorem referenceNumber_decimal (value : BitVec 64) :
    referenceNumber (text (showNat value.toNat) ++ [0x3b]) =
      some (value, (text (showNat value.toNat)).length) := by
  have hdigits : ∀ ch ∈ showNat value.toNat, ch.isDigit = true := fun ch => isDigit_of_mem_showNat
  obtain ⟨first, chars, hchars⟩ := List.exists_cons_of_ne_nil (showNat_ne_nil value.toNat)
  obtain ⟨d, hd, -, hbyte⟩ :=
    byte_of_isDigit (hdigits first (by rw [hchars]; exact List.mem_cons_self))
  obtain ⟨-, hspace, hplus, hminus, hx⟩ := digit_byte d hd
  rw [← hbyte] at hspace hplus hminus hx
  have hcons : text (showNat value.toNat) ++ [0x3b] =
      BitVec.ofNat 8 first.toNat :: (text chars ++ [0x3b]) := by
    rw [hchars]
    rfl
  have hblanks : (text (showNat value.toNat) ++ [0x3b]).dropWhile isspace =
      BitVec.ofNat 8 first.toNat :: (text chars ++ [0x3b]) := by
    rw [hcons, List.dropWhile_cons_of_neg (by simp [hspace])]
  have htake : (text (showNat value.toNat) ++ [0x3b]).takeWhile (isDigit 10) =
      text (showNat value.toNat) := by
    rw [List.takeWhile_append_of_pos (isDigit_text hdigits)]
    exact List.append_nil _
  have hnumber : number 10 (BitVec.ofNat 8 first.toNat) (text (showNat value.toNat)) = value := by
    have hvalue : (text (showNat value.toNat)).foldl
        (fun v ch => v * 10 + (digitValue 10 ch).getD 0) 0 = value.toNat := by
      rw [foldl_digits hdigits]
      exact Nat.ofDigitChars_ten_toDigits
    rw [number, hvalue, if_neg (by have := value.isLt; simp only [ULONG_MAX]; omega), if_neg hminus,
      BitVec.ofNat_toNat, BitVec.setWidth_eq]
  rw [referenceNumber, if_neg (by rw [hcons]; exact mt Option.some.inj hx), strtoul_eq hblanks,
    afterSign, if_neg (not_or.mpr ⟨hplus, hminus⟩), skipBase_of_ne (by simp), Option.bind_some,
    ← hcons, htake, hnumber, Nat.sub_self, Nat.zero_add]
  rw [if_neg (by rw [hchars]; simp [text]), List.getElem?_append_right le_rfl, Nat.sub_self]
  rfl

/-! ## Escape characters -/

section Rounds

variable {illegal : List Byte} {escapeChar ch : Byte}

/-- The characters that are escaped. -/
def Special (illegal : List Byte) (escapeChar ch : Byte) : Prop :=
  ch = escapeChar ∨ strchr illegal ch

instance (illegal : List Byte) (escapeChar ch : Byte) : Decidable (Special illegal escapeChar ch) :=
  inferInstanceAs (Decidable (_ ∨ _))

theorem length_one (front : List Byte) (ch : Byte) : front.length + 1 = (front ++ [ch]).length := by
  simp

theorem rewrites_escape_special (h : Special illegal escapeChar ch) :
    Rewrites (fun source buflen => Rounds.escape source buflen illegal escapeChar) [ch]
      [escapeChar, ch] := by
  refine ⟨by simp, by simp, fun front rest buflen s hs hroom => ?_⟩
  refine (bind_of_eq (a := ch) (by simp [hs])).trans ?_
  refine (if_pos h).trans ((if_neg (Nat.not_le.mpr hroom)).trans ?_)
  exact write_moved _ s 0 (by rw [hs, ← length_one])

theorem rewrites_escape_plain (h : ¬ Special illegal escapeChar ch) :
    Rewrites (fun source buflen => Rounds.escape source buflen illegal escapeChar) [ch] [ch] := by
  refine ⟨by simp, by simp, fun front rest buflen s hs hroom => ?_⟩
  refine (bind_of_eq (a := ch) (by simp [hs])).trans ((if_neg h).trans ?_)
  exact write_moved _ s 0 (by rw [hs, ← length_one])

theorem rewrites_unescape_special :
    Rewrites (fun source buflen => Rounds.unescape source buflen escapeChar) [escapeChar, ch]
      [ch] := by
  refine ⟨by simp, by simp, fun front rest buflen s hs hroom => ?_⟩
  refine (bind_of_eq (a := escapeChar) (by simp [hs])).trans ?_
  refine (if_pos ⟨rfl, by simp [hs]⟩).trans ((bind_of_eq (a := ch) (by simp [hs])).trans ?_)
  exact write_moved _ s 0 (by simp [hs])

theorem rewrites_unescape_plain (h : ch ≠ escapeChar) :
    Rewrites (fun source buflen => Rounds.unescape source buflen escapeChar) [ch] [ch] := by
  refine ⟨by simp, by simp, fun front rest buflen s hs hroom => ?_⟩
  refine (bind_of_eq (a := ch) (by simp [hs])).trans ((if_neg (mt And.left h)).trans ?_)
  exact write_moved _ s 0 (by rw [hs, ← length_one])

/-! ## Hexadecimal digits -/

theorem rewrites_encode_special (h : Special illegal escapeChar ch) :
    Rewrites (fun source buflen => Rounds.encode source buflen illegal escapeChar) [ch]
      [escapeChar, (Hex.digits ch).1, (Hex.digits ch).2] := by
  refine ⟨by simp, by simp, fun front rest buflen s hs hroom => ?_⟩
  refine (bind_of_eq (a := ch) (by simp [hs])).trans ?_
  refine (if_neg fun hplain => h.elim hplain.1 hplain.2).trans ?_
  refine (if_neg (Nat.not_le.mpr hroom)).trans ?_
  exact write_moved _ s 0 (by rw [hs, ← length_one])

theorem rewrites_encode_plain (h : ¬ Special illegal escapeChar ch) :
    Rewrites (fun source buflen => Rounds.encode source buflen illegal escapeChar) [ch] [ch] := by
  refine ⟨by simp, by simp, fun front rest buflen s hs hroom => ?_⟩
  refine (bind_of_eq (a := ch) (by simp [hs])).trans ((if_pos (not_or.mp h)).trans ?_)
  exact write_moved _ s 0 (by rw [hs, ← length_one])

/-- The digits of a byte give it. -/
theorem hexDecode_digits (ch : Byte) : hexDecode (Hex.digits ch).1 = some (ch >>> 4) ∧
    hexDecode (Hex.digits ch).2 = some (ch &&& 0xf#8) ∧
    (ch >>> 4) <<< 4 ||| (ch &&& 0xf#8) = ch := by
  have hhigh : (ch >>> 4) &&& 0xf#8 = ch >>> 4 := byte_ext (forall_bits (by simp))
  refine ⟨?_, (Hex.hexEncode_nibble ch).2, byte_ext (forall_bits (by simp))⟩
  rw [Hex.digits, (Hex.hexEncode_nibble _).2, hhigh]

theorem hexPair_digits (front rest : List Byte) (ch : Byte) :
    hexPair (front ++ (Hex.digits ch).1 :: (Hex.digits ch).2 :: rest) front.length =
      some (some ch) := by
  obtain ⟨hd₁, hd₂, hbyte⟩ := hexDecode_digits ch
  rw [hexPair, if_pos (by simp), getElem?_front]
  simp only [Option.bind_eq_bind, Option.bind_some, hd₁]
  rw [show (front ++ (Hex.digits ch).1 :: (Hex.digits ch).2 :: rest)[front.length + 1]? =
    some (Hex.digits ch).2 by simp, Option.bind_some, hd₂, Option.map_some, hbyte]

theorem rewrites_decode_special :
    Rewrites (fun source buflen => Rounds.decode source buflen escapeChar)
      [escapeChar, (Hex.digits ch).1, (Hex.digits ch).2] [ch] := by
  refine ⟨by simp, by simp, fun front rest buflen s hs hroom => ?_⟩
  have hpair := hexPair_digits (front ++ [escapeChar]) rest ch
  rw [← length_one, List.append_assoc] at hpair
  refine (bind_of_eq (a := escapeChar) (by simp [hs])).trans ?_
  refine (bind_of_eq (a := some ch) ?_).trans ?_
  · refine (if_pos rfl).trans ?_
    show hexPair (front ++ _) (s.srcpos + 1) = _
    rw [hs]
    exact hpair
  · show (Cursor.write buflen [ch] { s with srcpos := s.srcpos + 1 }).map _ = _
    exact write_moved _ s 2 (by simp [hs])

theorem rewrites_decode_plain (h : ch ≠ escapeChar) :
    Rewrites (fun source buflen => Rounds.decode source buflen escapeChar) [ch] [ch] := by
  refine ⟨by simp, by simp, fun front rest buflen s hs hroom => ?_⟩
  refine (bind_of_eq (a := ch) (by simp [hs])).trans ?_
  refine (bind_of_eq (a := none) (if_neg h)).trans ?_
  show (Cursor.write buflen [ch] { s with srcpos := s.srcpos + 1 }).map _ = _
  exact write_moved _ s 0 (by rw [hs, ← length_one])

theorem rewrites_urlEncode_special (h : InClass URL_UNSAFE ch) :
    Rewrites Rounds.urlEncode [ch] [0x25, (Hex.digits ch).1, (Hex.digits ch).2] := by
  refine ⟨by simp, by simp, fun front rest buflen s hs hroom => ?_⟩
  refine (bind_of_eq (a := ch) (by simp [hs])).trans ?_
  refine (if_pos h).trans ((if_neg (Nat.not_le.mpr hroom)).trans ?_)
  exact write_moved _ s 0 (by rw [hs, ← length_one])

theorem rewrites_urlEncode_plain (h : ¬ InClass URL_UNSAFE ch) :
    Rewrites Rounds.urlEncode [ch] [ch] := by
  refine ⟨by simp, by simp, fun front rest buflen s hs hroom => ?_⟩
  refine (bind_of_eq (a := ch) (by simp [hs])).trans ((if_neg h).trans ?_)
  exact write_moved _ s 0 (by rw [hs, ← length_one])

/-- Behind a byte that is not a plus sign, URLs are decoded like other texts. -/
theorem rewrites_urlDecode {first : Byte} {tail bytes : List Byte} (hplus : first ≠ 0x2b)
    (h : Rewrites (fun source buflen => Rounds.decode source buflen 0x25) (first :: tail) bytes) :
    Rewrites Rounds.urlDecode (first :: tail) bytes := by
  refine ⟨h.1, h.2.1, fun front rest buflen s hs hroom => ?_⟩
  have hfirst : (front ++ (first :: tail ++ rest))[s.srcpos]? = some first := by simp [hs]
  rw [← h.2.2 front rest buflen s hs hroom]
  simp only [Rounds.urlDecode, Rounds.decode, hfirst, Option.bind_eq_bind, Option.bind_some,
    if_neg hplus]

theorem rewrites_urlDecode_special :
    Rewrites Rounds.urlDecode [0x25, (Hex.digits ch).1, (Hex.digits ch).2] [ch] :=
  rewrites_urlDecode (by decide) rewrites_decode_special

/-- The plus and the percent sign are unsafe. -/
theorem rewrites_urlDecode_plain (h : ¬ InClass URL_UNSAFE ch) :
    Rewrites Rounds.urlDecode [ch] [ch] := by
  have hplus : ch ≠ 0x2b := by
    rintro rfl
    exact h (by decide)
  have hpercent : ch ≠ 0x25 := by
    rintro rfl
    exact h (by decide)
  exact rewrites_urlDecode hplus (rewrites_decode_plain hpercent)

/-! ## Entities -/

theorem copySequence_eq {bytes : List Byte} {buflen p n : ℕ} {s : Cursor} (h : p = n)
    (hroom : s.bufpos + bytes.length < buflen) :
    Rounds.copySequence buflen bytes { s with srcpos := p } =
      (s.write buflen bytes).map fun t => .inr { t with srcpos := n } :=
  (if_neg (Nat.not_le.mpr hroom)).trans (write_moved _ s 0 h)

theorem unsafe_cases : ∀ {ch : Byte}, InClass XML_UNSAFE ch →
    ch = 0x3c ∨ ch = 0x3e ∨ ch = 0x27 ∨ ch = 0x22 ∨ ch = 0x26 := by
  decide +kernel

/-- An entity stands for its character. -/
theorem item_entity {apostrophe : List Byte} (hapostrophe : Item apostrophe [0x27])
    (h : InClass XML_UNSAFE ch) : Item (Rounds.entity apostrophe ch) [ch] := by
  rcases unsafe_cases h with rfl | rfl | rfl | rfl | rfl
  · exact Item.named (e := (text ['l', 't', ';'], 0x3c)) (by decide)
  · exact Item.named (e := (text ['g', 't', ';'], 0x3e)) (by decide)
  · exact hapostrophe
  · exact Item.named (e := (text ['q', 'u', 'o', 't', ';'], 0x22)) (by decide)
  · exact Item.named (e := (text ['a', 'm', 'p', ';'], 0x26)) (by decide)

theorem item_apos : Item (text ['&', 'a', 'p', 'o', 's', ';']) [0x27] :=
  Item.named (e := (text ['a', 'p', 'o', 's', ';'], 0x27)) (by decide)

theorem item_39 : Item (text ['&', '#', '3', '9', ';']) [0x27] :=
  show Item (0x26 :: 0x23 :: (text ['3', '9'] ++ [0x3b])) (utf8Encode 4 39) from
    .reference rfl (by decide)

theorem item_plain (h : ¬ InClass XML_UNSAFE ch) : Item [ch] [ch] := by
  refine .plain ?_
  rintro rfl
  exact h (by decide)

theorem entity_ne_nil {apostrophe : List Byte} (hapostrophe : apostrophe ≠ [])
    (h : InClass XML_UNSAFE ch) : Rounds.entity apostrophe ch ≠ [] := by
  rcases unsafe_cases h with rfl | rfl | rfl | rfl | rfl
  · exact List.cons_ne_nil _ _
  · exact List.cons_ne_nil _ _
  · exact hapostrophe
  · exact List.cons_ne_nil _ _
  · exact List.cons_ne_nil _ _

theorem rewrites_xmlEncode_special (h : InClass XML_UNSAFE ch) :
    Rewrites Rounds.xmlEncode [ch]
      (Rounds.entity (text ['&', 'a', 'p', 'o', 's', ';']) ch) := by
  refine ⟨by simp, entity_ne_nil (by decide) h, fun front rest buflen s hs hroom => ?_⟩
  refine (bind_of_eq (a := ch) (by simp [hs])).trans ((if_pos h).trans ?_)
  exact copySequence_eq (by rw [hs, ← length_one]) hroom

theorem rewrites_xmlEncode_plain (h : ¬ InClass XML_UNSAFE ch) :
    Rewrites Rounds.xmlEncode [ch] [ch] := by
  refine ⟨by simp, by simp, fun front rest buflen s hs hroom => ?_⟩
  refine (bind_of_eq (a := ch) (by simp [hs])).trans ((if_neg h).trans ?_)
  exact write_moved _ s 0 (by rw [hs, ← length_one])

theorem rewrites_htmlEncode_special (h : InClass HTML_UNSAFE ch) :
    Rewrites Rounds.htmlEncode [ch] (Rounds.entity (text ['&', '#', '3', '9', ';']) ch) := by
  refine ⟨by simp, entity_ne_nil (by decide) h, fun front rest buflen s hs hroom => ?_⟩
  refine (bind_of_eq (a := ch) (by simp [hs])).trans ((if_pos h.1).trans ((if_pos h).trans ?_))
  exact copySequence_eq (by rw [hs, ← length_one]) hroom

theorem rewrites_htmlEncode_plain (h : ¬ InClass HTML_UNSAFE ch) (hch : ch < 128) :
    Rewrites Rounds.htmlEncode [ch] [ch] := by
  refine ⟨by simp, by simp, fun front rest buflen s hs hroom => ?_⟩
  refine (bind_of_eq (a := ch) (by simp [hs])).trans ((if_pos hch).trans ((if_neg h).trans ?_))
  exact write_moved _ s 0 (by rw [hs, ← length_one])

/-! ## Characters of several bytes -/

/-- Nothing is cut off. -/
theorem characterReference_eq {value : BitVec 64} (h : value ≤ 0x1fffff) :
    characterReference 11 value = 0x26 :: 0x23 :: (text (showNat value.toNat) ++ [0x3b]) := by
  have hle : value.toNat ≤ 0x1fffff := (bounds_iff value).2.2.2.mp h
  have hlength : (showNat value.toNat).length ≤ 7 :=
    (Nat.length_toDigits_le_iff (by decide) (by decide)).mpr (by omega)
  refine List.take_of_length_le ?_
  simp only [text, List.length_append, List.length_map, List.length_cons, List.length_nil]
  omega

theorem rewrites_htmlEncode_char {a : Byte} {tail : List Byte} (h : Utf8Char (a :: tail))
    (ha : ¬ a < 128) :
    Rewrites Rounds.htmlEncode (a :: tail) (characterReference 11 (utf8Value (a :: tail))) := by
  refine ⟨by simp, ?_, fun front rest buflen s hs hroom => ?_⟩
  · rw [characterReference_eq (utf8Value_le h)]
    exact List.cons_ne_nil _ _
  · have hdecode := utf8Decode_char h front rest
      (n := (front ++ (a :: tail ++ rest)).length - front.length) (by simp)
    refine (bind_of_eq (a := a) (by simp [hs])).trans ((if_neg ha).trans ?_)
    refine (bind_of_eq (a := ((a :: tail).length, utf8Value (a :: tail))) ?_).trans ?_
    · rw [hs]
      exact hdecode
    · exact (if_pos (Nat.succ_ne_zero _)).trans
        (copySequence_eq (by rw [hs, List.length_append]) hroom)

end Rounds

/-! ## The functions -/

/-- In buffers that are large enough, the string is encoded to a text that is decoded to it. -/
def Inverts (encoder decoder : Mem → ℕ → List Byte → Option (Mem × ℕ)) (factor : ℕ)
    (source : List Byte) : Prop :=
  ∀ (buffer buffer' : Mem) (buflen buflen' : ℕ), factor * source.length < buflen →
    source.length < buflen' →
    ∃ encoded, Yields (encoder buffer buflen source) encoded ∧
      Yields (decoder buffer' buflen' encoded) source

/-- The bytes are those of characters. -/
def WellFormed (source : List Byte) : Prop :=
  ∃ chars : List (List Byte), (∀ t ∈ chars, Utf8Char t) ∧ source = chars.flatten

section Inverts

variable {body body' : Round} {factor : ℕ} {source : List Byte}

theorem length_flatMap_le {replace : List Byte → List Byte} {chars : List (List Byte)}
    (h : ∀ t ∈ chars, (replace t).length ≤ factor * t.length) :
    (chars.flatMap replace).length ≤ factor * chars.flatten.length := by
  induction chars with
  | nil => exact Nat.zero_le _
  | cons t chars ih =>
    have ht := h t List.mem_cons_self
    have hchars := ih fun t' ht' => h t' (List.mem_cons_of_mem _ ht')
    rw [List.flatMap_cons, List.flatten_cons, List.length_append, List.length_append, Nat.mul_add]
    exact Nat.add_le_add ht hchars

/-- The parts of a string are replaced by each other. -/
theorem inverts_flatten (replace : List Byte → List Byte) {chars : List (List Byte)}
    (h : ∀ t ∈ chars, Rewrites body t (replace t) ∧ Rewrites body' (replace t) t ∧
      (replace t).length ≤ factor * t.length) :
    Inverts (fun buffer buflen source => transform buffer buflen source body)
      (fun buffer buflen source => transform buffer buflen source body') factor chars.flatten := by
  intro buffer buffer' buflen buflen' hbuflen hbuflen'
  have hfst : (chars.map fun t => (t, replace t)).flatMap Prod.fst = chars.flatten := by
    rw [List.flatMap_map]
    exact List.flatMap_id
  have hsnd : (chars.map fun t => (t, replace t)).flatMap Prod.snd = chars.flatMap replace :=
    List.flatMap_map _ _ _
  have hlength := length_flatMap_le fun t ht => (h t ht).2.2
  have hpieces : ∀ p ∈ chars.map fun t => (t, replace t),
      Rewrites body p.1 p.2 ∧ Rewrites body' p.2 p.1 := by
    intro p hp
    obtain ⟨t, ht, rfl⟩ := List.mem_map.mp hp
    exact ⟨(h t ht).1, (h t ht).2.1⟩
  have hinverts := transcribe_inverts hpieces
    (show _ < buflen by rw [hsnd]; exact Nat.lt_of_le_of_lt hlength hbuflen)
    (show _ < buflen' by rwa [hfst]) buffer buffer'
  rw [hfst] at hinverts
  simp only [transform_eq (Nat.zero_lt_of_lt hbuflen), transform_eq (Nat.zero_lt_of_lt hbuflen')]
  exact hinverts

/-- The bytes of a string are replaced by texts. -/
theorem inverts_bytes (replace : Byte → List Byte) (h : ∀ ch, Rewrites body [ch] (replace ch) ∧
    Rewrites body' (replace ch) [ch] ∧ (replace ch).length ≤ factor) (source : List Byte) :
    Inverts (fun buffer buflen source => transform buffer buflen source body)
      (fun buffer buflen source => transform buffer buflen source body') factor source := by
  have hreplace : ∀ t ∈ source.map fun ch => [ch], Rewrites body t (replace (t.headD 0)) ∧
      Rewrites body' (replace (t.headD 0)) t ∧ (replace (t.headD 0)).length ≤ factor * t.length := by
    intro t ht
    obtain ⟨ch, -, rfl⟩ := List.mem_map.mp ht
    simpa using h ch
  have hflatten := inverts_flatten (fun t => replace (t.headD 0)) hreplace
  rwa [← List.flatMap_def, List.flatMap_singleton'] at hflatten

end Inverts

theorem escape_inverts (illegal : List Byte) (escapeChar : Byte) (source : List Byte) :
    Inverts (fun buffer buflen source => escape buffer buflen source illegal escapeChar)
      (fun buffer buflen source => unescape buffer buflen source escapeChar) 2 source := by
  refine inverts_bytes (fun ch =>
    if Special illegal escapeChar ch then [escapeChar, ch] else [ch]) (fun ch => ?_) source
  by_cases h : Special illegal escapeChar ch
  · rw [if_pos h]
    exact ⟨rewrites_escape_special h, rewrites_unescape_special, le_rfl⟩
  · rw [if_neg h]
    exact ⟨rewrites_escape_plain h, rewrites_unescape_plain (mt Or.inl h), by simp⟩

theorem encode_inverts (illegal : List Byte) (escapeChar : Byte) (source : List Byte) :
    Inverts (fun buffer buflen source => encode buffer buflen source illegal escapeChar)
      (fun buffer buflen source => decode buffer buflen source escapeChar) 3 source := by
  refine inverts_bytes (fun ch => if Special illegal escapeChar ch then
    [escapeChar, (Hex.digits ch).1, (Hex.digits ch).2] else [ch]) (fun ch => ?_) source
  by_cases h : Special illegal escapeChar ch
  · rw [if_pos h]
    exact ⟨rewrites_encode_special h, rewrites_decode_special, le_rfl⟩
  · rw [if_neg h]
    exact ⟨rewrites_encode_plain h, rewrites_decode_plain (mt Or.inl h), by simp⟩

theorem urlEncode_inverts (source : List Byte) : Inverts urlEncode urlDecode 3 source := by
  refine inverts_bytes (fun ch => if InClass URL_UNSAFE ch then
    [0x25, (Hex.digits ch).1, (Hex.digits ch).2] else [ch]) (fun ch => ?_) source
  by_cases h : InClass URL_UNSAFE ch
  · rw [if_pos h]
    exact ⟨rewrites_urlEncode_special h, rewrites_urlDecode_special, le_rfl⟩
  · rw [if_neg h]
    exact ⟨rewrites_urlEncode_plain h, rewrites_urlDecode_plain h, by simp⟩

theorem length_entity {apostrophe : List Byte} (h : apostrophe.length ≤ 6) (ch : Byte) :
    (Rounds.entity apostrophe ch).length ≤ 6 := by
  unfold Rounds.entity
  split
  · decide
  · split
    · decide
    · split
      · exact h
      · split
        · decide
        · split
          · decide
          · decide

theorem xmlEncode_inverts (source : List Byte) : Inverts xmlEncode xmlDecode 6 source := by
  refine inverts_bytes (fun ch => if InClass XML_UNSAFE ch then
    Rounds.entity (text ['&', 'a', 'p', 'o', 's', ';']) ch else [ch]) (fun ch => ?_) source
  by_cases h : InClass XML_UNSAFE ch
  · rw [if_pos h]
    exact ⟨rewrites_xmlEncode_special h, (item_entity item_apos h).rewrites,
      length_entity (by decide) ch⟩
  · rw [if_neg h]
    exact ⟨rewrites_xmlEncode_plain h, (item_plain h).rewrites, by simp⟩

/-- What stands for a character in HTML. -/
def htmlText : List Byte → List Byte
  | [ch] =>
    if InClass HTML_UNSAFE ch then Rounds.entity (text ['&', '#', '3', '9', ';']) ch else [ch]
  | t => characterReference 11 (utf8Value t)

theorem htmlEncode_inverts (h : WellFormed source) : Inverts htmlEncode htmlDecode 6 source := by
  obtain ⟨chars, hchars, rfl⟩ := h
  refine inverts_flatten htmlText fun t ht => ?_
  have hlong : ∀ (a b : Byte) (tail : List Byte), Utf8Char (a :: b :: tail) → ¬ a < 128 →
      Rewrites Rounds.htmlEncode (a :: b :: tail) (htmlText (a :: b :: tail)) ∧
      Rewrites Rounds.xmlDecode (htmlText (a :: b :: tail)) (a :: b :: tail) ∧
      (htmlText (a :: b :: tail)).length ≤ 6 * (a :: b :: tail).length := by
    intro a b tail h ha
    refine ⟨rewrites_htmlEncode_char h ha, ?_, ?_⟩
    · have hitem := Item.reference (referenceNumber_decimal (utf8Value (a :: b :: tail)))
        (utf8Value_le h)
      rw [← characterReference_eq (utf8Value_le h), utf8Encode_char h] at hitem
      exact hitem.rewrites
    · refine (List.length_take_le 10 _).trans ?_
      simp only [List.length_cons]
      omega
  have hfirst : ∀ {a : Byte} (low : Byte), 128 ≤ low → low ≤ a → ¬ a < 128 :=
    fun low hlow ha => BitVec.not_lt.mpr (BitVec.le_trans hlow ha)
  cases hchars t ht with
  | @one a ha =>
    have hascii : a < 128 := Nat.lt_succ_of_le ha
    show Rewrites _ [a] (if InClass HTML_UNSAFE a then _ else _) ∧
      Rewrites _ (if InClass HTML_UNSAFE a then _ else _) [a] ∧
      (if InClass HTML_UNSAFE a then _ else _ : List Byte).length ≤ _
    by_cases h : InClass HTML_UNSAFE a
    · rw [if_pos h]
      exact ⟨rewrites_htmlEncode_special h, (item_entity item_39 h).rewrites,
        length_entity (by decide) a⟩
    · rw [if_neg h]
      exact ⟨rewrites_htmlEncode_plain h hascii, (item_plain h).rewrites, by simp⟩
  | two ha => exact hlong _ _ _ (hchars _ ht) (hfirst _ (by decide) ha.1)
  | three ha => exact hlong _ _ _ (hchars _ ht) (hfirst _ (by decide) ha.1)
  | four ha => exact hlong _ _ _ (hchars _ ht) (hfirst _ (by decide) ha.1)

theorem stringencode_inverts :
    (∀ (illegal : List Byte) (escapeChar : Byte) (source : List Byte),
      Inverts (fun buffer buflen source => escape buffer buflen source illegal escapeChar)
        (fun buffer buflen source => unescape buffer buflen source escapeChar) 2 source ∧
      Inverts (fun buffer buflen source => encode buffer buflen source illegal escapeChar)
        (fun buffer buflen source => decode buffer buflen source escapeChar) 3 source) ∧
    (∀ source : List Byte, Inverts urlEncode urlDecode 3 source ∧
      Inverts xmlEncode xmlDecode 6 source) ∧
    ∀ source : List Byte, WellFormed source → Inverts htmlEncode htmlDecode 6 source :=
  ⟨fun illegal escapeChar source =>
    ⟨escape_inverts illegal escapeChar source, encode_inverts illegal escapeChar source⟩,
    fun source => ⟨urlEncode_inverts source, xmlEncode_inverts source⟩,
    fun _ h => htmlEncode_inverts h⟩

end PerchWebrtc.Base
