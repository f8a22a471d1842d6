import PerchWebrtc.Base.XmlText

/-!
# String encoders and their buffers

Eight of the encoders and decoders stay in their blocks. References to characters in XML lead out
of them where their number runs to the end of the source, and where their character fills the
buffer.

* `Keeps` for each round (`keeps_escape` and so on);
* `xmlDecode_next`, `xmlDecode_advances`: a round in front of any text;
* `stringencode_safe`.
-/

namespace PerchWebrtc.Base

open Framework

namespace Rounds

variable {illegal : List Byte} {escapeChar : Byte}

theorem exists_source {source : List Byte} {p : ℕ} (h : p < source.length) :
    ∃ ch, source[p]? = some ch := ⟨_, List.getElem?_eq_getElem h⟩

theorem keeps_escape :
    Keeps fun source buflen => escape source buflen illegal escapeChar := by
  intro source buflen s hsource hroom
  obtain ⟨ch, hch⟩ := exists_source hsource
  simp only [escape, hch, Option.bind_eq_bind, Option.bind_some]
  split
  case isTrue =>
    split
    case isTrue => exact stays_stop (Nat.lt_of_succ_lt hroom)
    case isFalse hfits => exact stays_write (Nat.lt_succ_self _) (Nat.not_le.mp hfits) 0
  case isFalse => exact stays_write (Nat.lt_succ_self _) hroom 0

theorem keeps_unescape : Keeps fun source buflen => unescape source buflen escapeChar := by
  intro source buflen s hsource hroom
  obtain ⟨ch, hch⟩ := exists_source hsource
  simp only [unescape, hch, Option.bind_eq_bind, Option.bind_some]
  split
  case isTrue hescape =>
    obtain ⟨ch', hch'⟩ := exists_source hescape.2
    simp only [hch', Option.bind_some]
    exact stays_write (Nat.lt_succ_of_lt (Nat.lt_succ_self _)) hroom 0
  case isFalse => exact stays_write (Nat.lt_succ_self _) hroom 0

theorem keeps_encode :
    Keeps fun source buflen => encode source buflen illegal escapeChar := by
  intro source buflen s hsource hroom
  obtain ⟨ch, hch⟩ := exists_source hsource
  simp only [encode, hch, Option.bind_eq_bind, Option.bind_some]
  split
  case isTrue => exact stays_write (Nat.lt_succ_self _) hroom 0
  case isFalse =>
    split
    case isTrue => exact stays_stop (Nat.lt_of_succ_lt hroom)
    case isFalse hfits => exact stays_write (Nat.lt_succ_self _) (Nat.not_le.mp hfits) 0

/-- Both digits are read inside the source. -/
theorem exists_hexPair (source : List Byte) (p : ℕ) : ∃ pair, hexPair source p = some pair := by
  rw [hexPair]
  split
  case isFalse => exact ⟨_, rfl⟩
  case isTrue h =>
    obtain ⟨c₁, hc₁⟩ := exists_source (Nat.lt_of_succ_lt h)
    obtain ⟨c₂, hc₂⟩ := exists_source h
    simp only [hc₁, hc₂, Option.bind_eq_bind, Option.bind_some]
    cases hexDecode c₁ with
    | none => exact ⟨_, rfl⟩
    | some h₁ => exact ⟨_, rfl⟩

theorem exists_escapedPair (source : List Byte) (escapeChar ch : Byte) (p : ℕ) :
    ∃ pair, escapedPair source escapeChar ch p = some pair := by
  rw [escapedPair]
  split
  · exact exists_hexPair source p
  · exact ⟨_, rfl⟩

/-- A byte, or the two digits behind it. -/
theorem keeps_pair {buflen : ℕ} {s : Cursor} (hroom : s.bufpos + 1 < buflen) (ch : Byte)
    (pair : Option Byte) :
    ∃ x, (match pair with
      | some byte => (Cursor.write buflen [byte] { s with srcpos := s.srcpos + 1 }).map
          fun s => Sum.inr { s with srcpos := s.srcpos + 2 }
      | none => (Cursor.write buflen [ch] { s with srcpos := s.srcpos + 1 }).map .inr) = some x ∧
        Stays buflen s x := by
  cases pair with
  | some byte => exact stays_write (Nat.lt_succ_self _) hroom 2
  | none => exact stays_write (Nat.lt_succ_self _) hroom 0

theorem keeps_decode : Keeps fun source buflen => decode source buflen escapeChar := by
  intro source buflen s hsource hroom
  obtain ⟨ch, hch⟩ := exists_source hsource
  obtain ⟨pair, hpair⟩ := exists_escapedPair source escapeChar ch (s.srcpos + 1)
  simp only [decode, hch, hpair, Option.bind_eq_bind, Option.bind_some]
  exact keeps_pair hroom ch pair

theorem keeps_urlEncode : Keeps urlEncode := by
  intro source buflen s hsource hroom
  obtain ⟨ch, hch⟩ := exists_source hsource
  simp only [urlEncode, hch, Option.bind_eq_bind, Option.bind_some]
  split
  case isTrue =>
    split
    case isTrue => exact stays_stop (Nat.lt_of_succ_lt hroom)
    case isFalse hfits => exact stays_write (Nat.lt_succ_self _) (Nat.not_le.mp hfits) 0
  case isFalse => exact stays_write (Nat.lt_succ_self _) hroom 0

theorem keeps_urlDecode : Keeps urlDecode := by
  intro source buflen s hsource hroom
  obtain ⟨ch, hch⟩ := exists_source hsource
  obtain ⟨pair, hpair⟩ := exists_escapedPair source 0x25 ch (s.srcpos + 1)
  simp only [urlDecode, hch, hpair, Option.bind_eq_bind, Option.bind_some]
  split
  case isTrue => exact stays_write (Nat.lt_succ_self _) hroom 0
  case isFalse => exact keeps_pair hroom ch pair

theorem keeps_copySequence {buflen : ℕ} {s s' : Cursor} (hroom : s'.bufpos + 1 < buflen)
    (hsrcpos : s.srcpos < s'.srcpos) (escseq : List Byte) :
    ∃ x, copySequence buflen escseq s' = some x ∧ Stays buflen s x := by
  rw [copySequence]
  split
  case isTrue => exact stays_stop (Nat.lt_of_succ_lt hroom)
  case isFalse hfits => exact stays_write hsrcpos (Nat.not_le.mp hfits) 0

theorem keeps_xmlEncode : Keeps xmlEncode := by
  intro source buflen s hsource hroom
  obtain ⟨ch, hch⟩ := exists_source hsource
  simp only [xmlEncode, hch, Option.bind_eq_bind, Option.bind_some]
  split
  case isTrue =>
    refine keeps_copySequence ?_ ?_ _
    · exact hroom
    · exact Nat.lt_succ_self _
  case isFalse => exact stays_write (Nat.lt_succ_self _) hroom 0

theorem exists_bind {α β : Type} {x : Option α} {f : α → Option β} (hx : ∃ a, x = some a)
    (hf : ∀ a, ∃ r, f a = some r) : ∃ r, x >>= f = some r := by
  obtain ⟨a, rfl⟩ := hx
  exact hf a

theorem exists_ite {α : Type} {c : Prop} [Decidable c] {x y : Option α} (hx : ∃ r, x = some r)
    (hy : ¬ c → ∃ r, y = some r) : ∃ r, (if c then x else y) = some r := by
  by_cases h : c
  · rwa [if_pos h]
  · rw [if_neg h]
    exact hy h

/-- A byte is read only if the bytes that are left have it. -/
theorem exists_utf8Decode {source : List Byte} {p : ℕ} (h : p < source.length) :
    ∃ r, utf8Decode source p (source.length - p) = some r := by
  have hread : ∀ i, i < source.length - p → ∃ ch, source[p + i]? = some ch :=
    fun i hi => exists_source (by omega)
  rw [utf8Decode]
  refine exists_bind (exists_source h) fun s₀ => exists_ite ⟨_, rfl⟩ fun _ => ?_
  refine exists_ite ⟨_, rfl⟩ fun htwo => exists_bind (hread 1 (Nat.not_lt.mp htwo)) fun s₁ => ?_
  refine exists_ite ⟨_, rfl⟩ fun _ => exists_ite ⟨_, rfl⟩ fun _ => ?_
  refine exists_ite ⟨_, rfl⟩ fun hthree => exists_bind (hread 2 (Nat.not_lt.mp hthree)) fun s₂ => ?_
  refine exists_ite ⟨_, rfl⟩ fun _ => exists_ite ⟨_, rfl⟩ fun _ => ?_
  refine exists_ite ⟨_, rfl⟩ fun hfour => exists_bind (hread 3 (Nat.not_lt.mp hfour)) fun s₃ => ?_
  exact exists_ite ⟨_, rfl⟩ fun _ => exists_ite ⟨_, rfl⟩ fun _ => ⟨_, rfl⟩

theorem keeps_htmlEncode : Keeps htmlEncode := by
  intro source buflen s hsource hroom
  obtain ⟨ch, hch⟩ := exists_source hsource
  obtain ⟨⟨vallen, val⟩, hdecode⟩ := exists_utf8Decode hsource
  simp only [htmlEncode, hch, Option.bind_eq_bind, Option.bind_some]
  split
  case isTrue =>
    split
    case isTrue =>
      refine keeps_copySequence ?_ ?_ _
      · exact hroom
      · exact Nat.lt_succ_self _
    case isFalse => exact stays_write (Nat.lt_succ_self _) hroom 0
  case isFalse =>
    simp only [hdecode, Option.bind_some]
    split
    case isTrue hvallen =>
      refine keeps_copySequence ?_ ?_ _
      · exact hroom
      · exact Nat.lt_add_of_pos_right (Nat.pos_of_ne_zero hvallen)
    case isFalse =>
      refine keeps_copySequence ?_ ?_ _
      · exact hroom
      · exact Nat.lt_succ_self _

end Rounds

/-! ## References in XML -/

/-- Where the decoder comes to a reference with room for more than the zero, the number ends before
the source does, and its character does not end where the buffer ends. -/
def ReferencesFit (buflen : ℕ) (source : List Byte) : Prop :=
  ∀ pieces : List (List Byte × List Byte), (∀ p ∈ pieces, Item p.1 p.2) →
    ∀ chars, source = pieces.flatMap Prod.fst ++ 0x26 :: 0x23 :: chars →
      (pieces.flatMap Prod.snd).length + 1 < buflen →
      ∃ value n, referenceNumber chars = some (value, n) ∧
        (chars[n]? = some 0x3b → (pieces.flatMap Prod.snd).length + utf8Length value ≠ buflen)

section Xml

variable {source front chars : List Byte} {buflen : ℕ} {buffer : Mem} {s : Cursor}

/-- The number of a reference is that of its text alone. -/
theorem item_reference {value : BitVec 64} {n : ℕ}
    (hnumber : referenceNumber chars = some (value, n)) (hends : chars[n]? = some 0x3b)
    (hvalue : value ≤ 0x1fffff) :
    Item (0x26 :: 0x23 :: (chars.take n ++ [0x3b])) (utf8Encode 4 value) := by
  obtain ⟨hlength, hget⟩ := List.getElem?_eq_some_iff.mp hends
  have htext : (chars.take n ++ [0x3b]) ++ chars.drop (n + 1) = chars := by
    rw [← hget, List.take_concat_get', List.take_append_drop]
  obtain ⟨r, hr⟩ := exists_referenceNumber (show 0x3b ∈ chars.take n ++ [0x3b] by simp)
  have hall := referenceNumber_append hr (chars.drop (n + 1))
  rw [htext, hnumber] at hall
  obtain rfl := Option.some.inj hall
  refine .reference ?_ hvalue
  rw [hr, List.length_take_of_le (Nat.le_of_lt hlength)]

/-- A round comes to a text that it replaces, or ends the loop. -/
theorem xmlDecode_next {ch : Byte} {rest : List Byte} (hs : s.srcpos = front.length)
    (hroom : s.bufpos + 1 < buflen)
    (hfits : ∀ chars, ch :: rest = 0x26 :: 0x23 :: chars → ∃ value n,
      referenceNumber chars = some (value, n) ∧
        (chars[n]? = some 0x3b → s.bufpos + utf8Length value ≠ buflen)) :
    (∃ text bytes more, Item text bytes ∧ ch :: rest = text ++ more ∧
      s.bufpos + bytes.length < buflen) ∨
    ∃ s', Rounds.xmlDecode (front ++ ch :: rest) buflen s = some (.inl s') ∧
      s'.bufpos = s.bufpos := by
  by_cases hch : ch = 0x26
  case neg => exact .inl ⟨[ch], [ch], rest, .plain hch, rfl, hroom⟩
  subst hch
  rw [xmlDecode_ampersand hs]
  cases hfind : Rounds.named.find? fun e => decide (e.1 <+: rest) with
  | some e =>
    obtain ⟨more, rfl⟩ : e.1 <+: rest := by simpa using List.find?_some hfind
    exact .inl ⟨0x26 :: e.1, [e.2], more, .named (List.mem_of_find?_eq_some hfind), rfl, hroom⟩
  | none =>
    by_cases hhash : rest.head? = some 0x23
    case neg => exact .inr ⟨_, if_neg hhash, rfl⟩
    obtain ⟨chars, rfl⟩ : ∃ chars, rest = 0x23 :: chars := by
      cases rest with
      | nil => cases hhash
      | cons c chars =>
        obtain rfl := Option.some.inj hhash
        exact ⟨chars, rfl⟩
    obtain ⟨value, n, hnumber, hexact⟩ := hfits chars rfl
    simp only [if_pos hhash]
    rw [reference_eq 0x23 chars (drop_front _ _ _), hnumber, Option.bind_some]
    by_cases hends : chars[n]? = some 0x3b
    case neg => exact .inr ⟨_, if_neg hends, rfl⟩
    simp only [if_pos hends]
    rw [utf8Encode_eq value _ (show 1 < buflen - s.bufpos by omega)]
    by_cases hfit : value ≤ 0x1fffff ∧ utf8Length value ≤ buflen - s.bufpos
    · refine .inl ⟨_, _, chars.drop (n + 1), item_reference hnumber hends hfit.1, ?_, ?_⟩
      · obtain ⟨hlength, hget⟩ := List.getElem?_eq_some_iff.mp hends
        rw [List.cons_append, List.cons_append, ← hget, List.take_concat_get',
          List.take_append_drop]
      · have hne := hexact hends
        rw [length_utf8Encode]
        omega
    · refine .inr ⟨_, if_pos ?_, rfl⟩
      split
      case isFalse => rfl
      case isTrue hle =>
        have hvalue : ¬ value ≤ 0x1fffff := fun hvalue => hfit ⟨hvalue, hle⟩
        exact List.length_eq_zero_iff.mp
          ((length_utf8Encode value).trans (utf8Length_eq_zero hvalue))

/-- What has been read are texts that have been replaced, and there is room for the zero. -/
def Replaced (source : List Byte) (buflen : ℕ) (s : Cursor) : Prop :=
  s.bufpos < buflen ∧ ∃ (pieces : List (List Byte × List Byte)) (rest : List Byte),
    (∀ p ∈ pieces, Item p.1 p.2) ∧ source = pieces.flatMap Prod.fst ++ rest ∧
      s.At (pieces.flatMap Prod.fst) (pieces.flatMap Prod.snd)

theorem xmlDecode_advances (h : ReferencesFit buflen source) (hs : Replaced source buflen s) :
    Advances (Replaced source buflen) (fun s => source.length - s.srcpos)
      (fun s => s.bufpos < buflen) (guarded Rounds.xmlDecode source buflen) s := by
  obtain ⟨hroom, pieces, rest, hpieces, hsource, hat⟩ := hs
  by_cases hguard : s.srcpos < source.length ∧ s.bufpos + 1 < buflen
  case neg => exact .inl ⟨s, if_neg hguard, hroom⟩
  cases rest with
  | nil =>
    rw [List.append_nil] at hsource
    exact absurd hguard.1 (by rw [hsource, hat.srcpos]; exact lt_irrefl _)
  | cons ch rest =>
    have hfits : ∀ chars, ch :: rest = 0x26 :: 0x23 :: chars → ∃ value n,
        referenceNumber chars = some (value, n) ∧
          (chars[n]? = some 0x3b → s.bufpos + utf8Length value ≠ buflen) := by
      intro chars hchars
      rw [hat.bufpos]
      exact h pieces hpieces chars (by rw [hsource, hchars]) (by rw [← hat.bufpos]; exact hguard.2)
    rcases xmlDecode_next hat.srcpos hguard.2 hfits with
      ⟨text, bytes, more, hitem, hrest, hfit⟩ | ⟨s', hstop, hbufpos⟩
    · obtain ⟨s', hround, hat'⟩ := hitem.rewrites.round more buflen hat
        (by rwa [List.length_append, ← hat.bufpos])
      rw [← hrest, ← hsource] at hround
      refine .inr ⟨s', hround, ⟨?_, pieces ++ [(text, bytes)], more, ?_, ?_, ?_⟩, ?_⟩
      · rwa [hat'.bufpos, List.length_append, ← hat.bufpos]
      · intro p hp
        rcases List.mem_append.mp hp with hp | hp
        · exact hpieces p hp
        · obtain rfl := List.mem_singleton.mp hp
          exact hitem
      · rw [hsource, hrest]
        simp
      · simpa using hat'
      · have hpos := List.length_pos_iff.mpr hitem.rewrites.1
        have hless : s.srcpos < s'.srcpos := by
          rw [hat'.srcpos, hat.srcpos, List.length_append]
          omega
        exact Nat.sub_lt_sub_left hguard.1 hless
    · refine .inl ⟨s', ?_, lt_of_eq_of_lt hbufpos hroom⟩
      rw [guarded, if_pos hguard, hsource]
      exact hstop

theorem xmlDecode_safe (hbuflen : 0 < buflen) (h : ReferencesFit buflen source) (buffer : Mem) :
    Safe buflen (transcribe Rounds.xmlDecode source buflen buffer) := by
  have hstart : Replaced source buflen ⟨0, 0, buffer⟩ :=
    ⟨hbuflen, [], source, by simp, rfl, at_start buffer⟩
  obtain ⟨s, hs, hroom⟩ := loop_spec (fun s hs => xmlDecode_advances h hs) hstart
    (Nat.lt_succ_self (source.length - 0))
  exact safe_of_loop hs hroom

/-- The loop comes to every reference in front of which texts are replaced. -/
theorem loop_reference {pieces : List (List Byte × List Byte)}
    (hpieces : ∀ p ∈ pieces, Item p.1 p.2)
    (hsource : source = pieces.flatMap Prod.fst ++ 0x26 :: 0x23 :: chars)
    (hroom : (pieces.flatMap Prod.snd).length + 1 < buflen) (buffer : Mem) :
    ∃ s : Cursor, s.At (pieces.flatMap Prod.fst) (pieces.flatMap Prod.snd) ∧ ∃ fuel,
      loop (guarded Rounds.xmlDecode source buflen) (source.length + 1) ⟨0, 0, buffer⟩ =
        loop (guarded Rounds.xmlDecode source buflen) (fuel + 2) s ∧
      guarded Rounds.xmlDecode source buflen s =
        Rounds.xmlDecode (pieces.flatMap Prod.fst ++ 0x26 :: 0x23 :: chars) buflen s := by
  have hrewrites : ∀ p ∈ pieces, Rewrites Rounds.xmlDecode p.1 p.2 :=
    fun p hp => (hpieces p hp).rewrites
  obtain ⟨s, hat, hloop⟩ := loop_rewrites hrewrites (at_start buffer) hsource
    (Nat.lt_of_succ_lt hroom)
  have hlength := length_pieces_le hrewrites
  have hfuel : source.length + 1 =
      (pieces.flatMap Prod.fst).length - pieces.length + chars.length + 1 + 2 + pieces.length := by
    rw [hsource, List.length_append, List.length_cons, List.length_cons]
    omega
  refine ⟨s, hat, _, by rw [hfuel, hloop], ?_⟩
  have hpos : s.srcpos = (pieces.flatMap Prod.fst).length := hat.srcpos
  rw [guarded, if_pos, hsource]
  rw [hsource, List.length_append, hpos, hat.bufpos]
  exact ⟨Nat.lt_add_of_pos_right (Nat.succ_pos _), hroom⟩

theorem referencesFit_of_safe (h : Safe buflen (transcribe Rounds.xmlDecode source buflen buffer)) :
    ReferencesFit buflen source := by
  intro pieces hpieces chars hsource hroom
  obtain ⟨s, hat, fuel, hloop, hguard⟩ := loop_reference hpieces hsource hroom buffer
  have hpos : s.srcpos = (pieces.flatMap Prod.fst).length := hat.srcpos
  have hbufpos : s.bufpos = (pieces.flatMap Prod.snd).length := hat.bufpos
  cases hnumber : referenceNumber chars with
  | none =>
    refine absurd h (not_safe_of_loop ?_)
    rw [hloop, loop, hguard, xmlDecode_ampersand hpos, find_named_hash]
    simp only [List.head?_cons, if_true]
    rw [reference_eq 0x23 chars (drop_front _ _ _), hnumber, Option.bind_none]
  | some r =>
    obtain ⟨value, n⟩ := r
    refine ⟨value, n, rfl, fun hends hfull => ?_⟩
    have hvalue : value ≤ 0x1fffff := by
      by_contra hvalue
      rw [utf8Length_eq_zero hvalue] at hfull
      omega
    -- The character fills the buffer, and the next round ends the loop.
    obtain ⟨s', hround, hend⟩ : ∃ s', Rounds.xmlDecode (pieces.flatMap Prod.fst ++
        0x26 :: 0x23 :: chars) buflen s = some (.inr s') ∧ buflen ≤ s'.bufpos := by
      rw [xmlDecode_reference hpos hnumber hends (by omega) hvalue (by omega),
        write_eq_some (by rw [length_utf8Encode]; omega)]
      refine ⟨_, rfl, ?_⟩
      show buflen ≤ s.bufpos + (utf8Encode 4 value).length
      rw [length_utf8Encode]
      omega
    have hstop : guarded Rounds.xmlDecode source buflen s' = some (.inl s') :=
      if_neg fun hroom' => absurd hroom'.2 (by omega)
    have hloop' : loop (guarded Rounds.xmlDecode source buflen) (fuel + 2) s = some s' := by
      rw [loop, hguard, hround]
      show loop _ (fuel + 1) s' = some s'
      rw [loop, hstop]
    exact not_safe_of_full (hloop.trans hloop') hend h

end Xml

/-! ## The functions -/

/-- Eight functions stay in their blocks, and the other two exactly if the references fit. -/
theorem stringencode_safe (source : List Byte) {buflen : ℕ} (buffer : Mem) (hbuflen : 0 < buflen) :
    (∀ (illegal : List Byte) (escapeChar : Byte),
      Safe buflen (escape buffer buflen source illegal escapeChar) ∧
      Safe buflen (unescape buffer buflen source escapeChar) ∧
      Safe buflen (encode buffer buflen source illegal escapeChar) ∧
      Safe buflen (decode buffer buflen source escapeChar) ∧
      Safe buflen (urlEncode buffer buflen source) ∧
      Safe buflen (urlDecode buffer buflen source) ∧
      Safe buflen (htmlEncode buffer buflen source) ∧
      Safe buflen (xmlEncode buffer buflen source)) ∧
    (Safe buflen (htmlDecode buffer buflen source) ↔ ReferencesFit buflen source) ∧
    (Safe buflen (xmlDecode buffer buflen source) ↔ ReferencesFit buflen source) := by
  constructor
  · intro illegal escapeChar
    have hsafe : ∀ body, Keeps body → Safe buflen (transform buffer buflen source body) := by
      intro body hkeeps
      rw [transform_eq hbuflen]
      exact transcribe_safe hkeeps source hbuflen buffer
    exact ⟨hsafe _ Rounds.keeps_escape, hsafe _ Rounds.keeps_unescape, hsafe _ Rounds.keeps_encode,
      hsafe _ Rounds.keeps_decode, hsafe _ Rounds.keeps_urlEncode, hsafe _ Rounds.keeps_urlDecode,
      hsafe _ Rounds.keeps_htmlEncode, hsafe _ Rounds.keeps_xmlEncode⟩
  · have hiff : Safe buflen (xmlDecode buffer buflen source) ↔ ReferencesFit buflen source := by
      rw [xmlDecode, transform_eq hbuflen]
      exact ⟨referencesFit_of_safe, fun h => xmlDecode_safe hbuflen h buffer⟩
    exact ⟨hiff, hiff⟩

/-- An ampersand, in a buffer of eight bytes. -/
theorem stringencode_safe_ampersand :
    Safe 8 (htmlEncode (fun _ => 0) 8 (text ['&'])) :=
  ((stringencode_safe (text ['&']) (fun _ => 0) (by decide : 0 < 8)).1 [] 0).2.2.2.2.2.2.1

/-- "&#128;" in a buffer of two bytes, and "&#1". -/
theorem not_stringencode_safe :
    ¬ Safe 2 (xmlDecode (fun _ => 0) 2 (text ['&', '#', '1', '2', '8', ';'])) ∧
    ¬ Safe 64 (htmlDecode (fun _ => 0) 64 (text ['&', '#', '1'])) := by
  have hnone : ∀ {buflen : ℕ} {result : Option (Mem × ℕ)}, result.isNone = true →
      ¬ Safe buflen result := by
    rintro buflen result hresult ⟨buffer, n, rfl, -⟩
    exact absurd hresult Bool.false_ne_true
  exact ⟨hnone (by decide +kernel), hnone (by decide +kernel)⟩

end PerchWebrtc.Base
