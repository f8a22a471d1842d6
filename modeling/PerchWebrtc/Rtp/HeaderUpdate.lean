import PerchWebrtc.Rtp.Sender

/-!
# Updating the extensions of a built packet

`UpdateTransmissionTimeOffset` and `UpdateAbsoluteSendTime`
(`rtp_sender.cc`), which compute anew where the builder put the element of
their extension, from the extension map and the CSRC count. They count one
byte a CSRC, the builder writes four.

* `scan_get`, `find_elementsFrom`: what a parser finds in elements that were
  laid out one after the other;
* `update_agrees_iff`: an update writes the data of its element and nothing
  else exactly if there are no CSRCs, or nothing is left to change.
-/

namespace PerchWebrtc.Rtp

open RtpHeaderExtensionMap

namespace RTPSender

variable (s : RTPSender)

/-- The common body of the two updates, with the three data bytes to write:
whether the packet was updated, and the packet. -/
def updateExtension (type : RTPExtensionType) (value : BitVec 24) (rtpPacket : Mem)
    (rtpPacketLength : Nat) (rtpHeader : RTPHeader) : Bool × Mem :=
  match s.rtpHeaderExtensionMap.getLengthUntilBlockStartInBytes type with
  | none => (false, rtpPacket)
  | some extensionBlockPos =>
    let blockPos := 12 + rtpHeader.numCSRCs.toNat + extensionBlockPos
    if rtpPacketLength < blockPos + type.length ∨
        rtpHeader.headerLength.toNat < blockPos + type.length then (false, rtpPacket)
    -- Verify that header contains extension.
    else if ¬ (rtpPacket (12 + rtpHeader.numCSRCs.toNat) = 0xBE ∧
        rtpPacket (12 + rtpHeader.numCSRCs.toNat + 1) = 0xDE) then (false, rtpPacket)
    else
      match s.rtpHeaderExtensionMap.getId type with
      | none => (false, rtpPacket)
      | some id =>
        -- Verify first byte in block.
        if rtpPacket blockPos ≠ elementByte id then (false, rtpPacket)
        else (true, set24 rtpPacket (blockPos + 1) value)

/-- `UpdateTransmissionTimeOffset`. -/
def updateTransmissionTimeOffset (rtpPacket : Mem) (rtpPacketLength : Nat) (rtpHeader : RTPHeader)
    (timeDiffMs : BitVec 64) : Bool × Mem :=
  s.updateExtension .transmissionTimeOffset ((timeDiffMs * 90).setWidth 24) rtpPacket
    rtpPacketLength rtpHeader

/-- `UpdateAbsoluteSendTime`. -/
def updateAbsoluteSendTime (rtpPacket : Mem) (rtpPacketLength : Nat) (rtpHeader : RTPHeader)
    (nowMs : BitVec 64) : Bool × Mem :=
  s.updateExtension .absoluteSendTime ((((nowMs <<< 18).sdiv 1000) &&& 0x00ffffff).setWidth 24)
    rtpPacket rtpPacketLength rtpHeader

end RTPSender

/-- A call of one of the two updates. -/
inductive Update where
  | transmissionTimeOffset (timeDiffMs : BitVec 64)
  | absoluteSendTime (nowMs : BitVec 64)

namespace Update

def type : Update → RTPExtensionType
  | transmissionTimeOffset _ => .transmissionTimeOffset
  | absoluteSendTime _ => .absoluteSendTime

/-- The new value: the offset in RTP timestamps, or the time in seconds with
18 fractional bits. -/
def value : Update → BitVec 24
  | transmissionTimeOffset timeDiffMs => (timeDiffMs * 90).setWidth 24
  | absoluteSendTime nowMs => (((nowMs <<< 18).sdiv 1000) &&& 0x00ffffff).setWidth 24

def run (u : Update) (s : RTPSender) (rtpPacket : Mem) (rtpPacketLength : Nat)
    (rtpHeader : RTPHeader) : Bool × Mem :=
  match u with
  | transmissionTimeOffset timeDiffMs =>
    s.updateTransmissionTimeOffset rtpPacket rtpPacketLength rtpHeader timeDiffMs
  | absoluteSendTime nowMs => s.updateAbsoluteSendTime rtpPacket rtpPacketLength rtpHeader nowMs

theorem run_eq (u : Update) (s : RTPSender) (m : Mem) (length : Nat) (header : RTPHeader) :
    u.run s m length header = s.updateExtension u.type u.value m length header := by
  cases u <;> rfl

theorem type_length (u : Update) : u.type.length = 4 := by
  cases u <;> rfl

end Update

/-! ## What a parser makes of the elements -/

/-- The value of an extension of a parsed header. -/
def RTPHeaderExtension.get (e : RTPHeaderExtension) : RTPExtensionType → BitVec 32
  | .transmissionTimeOffset => e.transmissionTimeOffset
  | .audioLevel => 0
  | .absoluteSendTime => e.absoluteSendTime

/-- A parsed value: the offset is signed, the time is not. -/
def decode : RTPExtensionType → BitVec 24 → BitVec 32
  | .transmissionTimeOffset, v => v.signExtend 32
  | .audioLevel, _ => 0
  | .absoluteSendTime, v => v.setWidth 32

/-- The sign correction of the parser extends the sign. -/
theorem signExtend_word24 (v : BitVec 24) :
    (if v.setWidth 32 &&& 0x800000#32 ≠ 0 then v.setWidth 32 ||| 0xFF000000#32
      else v.setWidth 32) = v.signExtend 32 := by
  have hsign : v.setWidth 32 &&& 0x800000#32 = if v.msb then 0x800000#32 else 0 := by
    have h := BitVec.and_twoPow (v.setWidth 32) 23
    rwa [BitVec.getLsbD_setWidth, ← BitVec.msb_eq_getLsbD_last] at h
  have hones : ∀ i : Fin 32, (0xFF000000#32)[i] = decide (24 ≤ i.val) := by decide
  rw [hsign]
  ext i hi
  cases hm : v.msb with
  | false =>
    by_cases h24 : i < 24
    · simp [BitVec.getElem_signExtend, h24]
    · simp [BitVec.getElem_signExtend, h24, hm, BitVec.getLsbD_of_ge v i (by omega)]
  | true =>
    have hone : (0xFF000000#32)[i] = decide (24 ≤ i) := hones ⟨i, hi⟩
    by_cases h24 : i < 24
    · simp [BitVec.getElem_signExtend, hone, h24, Nat.not_le.mpr h24]
    · simp [BitVec.getElem_signExtend, hone, h24, hm, Nat.not_lt.mp h24]

theorem elementByte_fields {id : Byte} (h1 : 1 ≤ id) (h14 : id ≤ 14) :
    RTPSender.elementByte id ≠ 0 ∧ (RTPSender.elementByte id &&& 0xf0) >>> 4 = id ∧
      RTPSender.elementByte id &&& 0x0f = 2 := by
  have h : ∀ n < 15, 1 ≤ n → RTPSender.elementByte (BitVec.ofNat 8 n) ≠ 0 ∧
      (RTPSender.elementByte (BitVec.ofNat 8 n) &&& 0xf0) >>> 4 = BitVec.ofNat 8 n ∧
      RTPSender.elementByte (BitVec.ofNat 8 n) &&& 0x0f = 2 := by decide
  have := h id.toNat (by bv_omega) (by bv_omega)
  rwa [BitVec.ofNat_toNat, BitVec.setWidth_eq] at this

/-- An element with a length field of 2 is read, and sets its own value. -/
theorem parseElement_get {type : RTPExtensionType} (h : 0 < type.length) (m : Mem) (p : Nat)
    (hdr : RTPHeader) : ∃ hdr', parseElement m type 2 p hdr = some (hdr', 3) ∧
      ∀ t, hdr'.extension.get t =
        if type = t then decode t (be24 m p) else hdr.extension.get t := by
  cases type with
  | transmissionTimeOffset =>
    refine ⟨_, rfl, fun t => ?_⟩
    cases t <;> [exact signExtend_word24 _; rfl; rfl]
  | audioLevel => cases h
  | absoluteSendTime =>
    refine ⟨_, rfl, fun t => ?_⟩
    cases t <;> rfl

theorem parsePaddingBytes_eq_zero {m : Mem} {extEnd p : Nat} (h : p < extEnd → m p ≠ 0) :
    ∀ fuel, (parsePaddingBytes m extEnd fuel p 0).1 = 0
  | 0 => rfl
  | fuel + 1 => by
    rw [parsePaddingBytes]
    split
    · rw [if_pos (h (by omega))]
    · rfl

section Scan

variable {map : RtpHeaderExtensionMap} {m : Mem} {v : RTPExtensionType → BitVec 24}

/-- Nonempty elements start with a byte that is not padding. -/
theorem Laid.first_ne_zero {es : List Entry} (hes : ∀ e ∈ es, 1 ≤ e.1 ∧ e.1 ≤ 14) :
    ∀ {ptr : Nat}, Laid m v ptr es → 0 < blocksLength es → m ptr ≠ 0 := by
  induction es with
  | nil => exact fun _ h => absurd h (Nat.lt_irrefl 0)
  | cons e es ih =>
    intro ptr ⟨he, htail⟩ hpos
    rw [blocksLength_cons] at hpos
    have hid := hes e List.mem_cons_self
    rcases length_eq_zero_or e.2 with h0 | h4
    · rw [h0] at htail
      exact ih (fun x hx => hes x (List.mem_cons_of_mem _ hx)) htail (by omega)
    · rw [(he (by omega)).1]
      exact (elementByte_fields hid.1 hid.2).1

/-- One round of the scan over an element, and what `elementsFrom` makes of
it: no padding follows. -/
theorem scan_element {e : Entry} {es : List Entry} {ptr : Nat}
    (hes : ∀ x ∈ e :: es, (1 ≤ x.1 ∧ x.1 ≤ 14) ∧ map.getType x.1 = some x.2)
    (h4 : e.2.length = 4) (hl : Laid m v ptr (e :: es)) :
    elementId m ptr = e.1 ∧
    (∀ (fuel : Nat) (hdr : RTPHeader), ∃ hdr',
      (parseOneByteExtensionHeader m map (ptr + blocksLength (e :: es)) (fuel + 1) ptr hdr).1 =
        (parseOneByteExtensionHeader m map (ptr + 4 + blocksLength es) fuel (ptr + 4) hdr').1 ∧
      ∀ t, hdr'.extension.get t = if e.2 = t then decode t (v t) else hdr.extension.get t) ∧
    ∀ fuel, elementsFrom m map (ptr + blocksLength (e :: es)) (fuel + 1) ptr =
      (ptr, 3) :: elementsFrom m map (ptr + 4 + blocksLength es) fuel (ptr + 4) := by
  obtain ⟨⟨hid1, hid14⟩, htype⟩ := hes e List.mem_cons_self
  obtain ⟨hfirst, hvalue⟩ := hl.1 (by omega)
  obtain ⟨-, hid, hlen⟩ := elementByte_fields hid1 hid14
  have htail : Laid m v (ptr + 4) es := by
    have := hl.2
    rwa [h4] at this
  have heid : elementId m ptr = e.1 := by rw [elementId, hfirst, hid]
  have helen : elementLen m ptr = 2 := by rw [elementLen, hfirst, hlen]
  have hne15 : e.1 ≠ 15 := by bv_omega
  have hpad : ∀ fuel, (parsePaddingBytes m (ptr + 4 + blocksLength es) fuel (ptr + 4) 0).1 = 0 :=
    parsePaddingBytes_eq_zero fun hp => htail.first_ne_zero
      (fun x hx => (hes x (List.mem_cons_of_mem _ hx)).1) (by omega)
  have hend : ptr + blocksLength (e :: es) = ptr + 4 + blocksLength es := by
    rw [blocksLength_cons]
    omega
  rw [hend]
  refine ⟨heid, fun fuel hdr => ?_, fun fuel => ?_⟩
  · obtain ⟨hdr', hparse, hget⟩ := parseElement_get (show 0 < e.2.length by omega) m (ptr + 1) hdr
    refine ⟨hdr', ?_, fun t => ?_⟩
    · rw [parseOneByteExtensionHeader, if_pos (by omega), heid, if_neg hne15, htype, helen]
      simp only [hparse]
      rw [show ptr + 1 + 3 = ptr + 4 from rfl, hpad]
      rfl
    · rw [hget t, hvalue]
      split <;> [subst t; skip] <;> rfl
  · rw [elementsFrom, if_pos ⟨by omega, heid ▸ hne15⟩, heid, htype, helen, Option.bind_some,
      (parseElement_map_snd m e.2 2 (ptr + 1) RTPHeader.cleared).symm]
    obtain ⟨hdr', hparse, -⟩ :=
      parseElement_get (show 0 < e.2.length by omega) m (ptr + 1) RTPHeader.cleared
    rw [hparse]
    simp only [Option.map_some]
    rw [show ptr + 1 + 3 = ptr + 4 from rfl, hpad]
    rfl

/-- A scan over elements returns their values. -/
theorem scan_get {t : RTPExtensionType} (ht : 0 < t.length) {es : List Entry}
    (hes : ∀ x ∈ es, (1 ≤ x.1 ∧ x.1 ≤ 14) ∧ map.getType x.1 = some x.2) :
    ∀ {ptr : Nat} {fuel : Nat} (hdr : RTPHeader), Laid m v ptr es → blocksLength es ≤ fuel →
      (parseOneByteExtensionHeader m map (ptr + blocksLength es) fuel ptr hdr).1.extension.get t =
        if t ∈ es.map Prod.snd then decode t (v t) else hdr.extension.get t := by
  induction es with
  | nil =>
    intro ptr fuel hdr _ _
    cases fuel with
    | zero => rfl
    | succ fuel => rw [parseOneByteExtensionHeader, if_neg (by simp [blocksLength])]; rfl
  | cons e es ih =>
    intro ptr fuel hdr hl hfuel
    have ih := @ih fun x hx => hes x (List.mem_cons_of_mem _ hx)
    have hcons := blocksLength_cons e es
    simp only [List.map_cons, List.mem_cons]
    rcases length_eq_zero_or e.2 with h0 | h4
    · have hne : t ≠ e.2 := fun h => by rw [h] at ht; omega
      have htail := hl.2
      rw [h0] at htail
      rw [hcons, h0, Nat.zero_add] at hfuel ⊢
      simp only [hne, false_or]
      exact ih hdr htail hfuel
    · obtain ⟨-, hstep, -⟩ := scan_element hes h4 hl
      cases fuel with
      | zero => omega
      | succ fuel =>
        obtain ⟨hdr', hscan, hget⟩ := hstep fuel hdr
        have htail := hl.2
        rw [h4] at htail
        rw [hscan, ih hdr' htail (by omega), hget t]
        by_cases hmem : t ∈ es.map Prod.snd
        · simp [hmem]
        · by_cases he : e.2 = t
          · simp [he]
          · simp [hmem, he, Ne.symm he]

/-- The first element with the id of `e` is that of `e`. -/
theorem find_elementsFrom {e : Entry} {pre post : List Entry} (h4 : e.2.length = 4)
    (hpre : ∀ x ∈ pre, x.1 ≠ e.1)
    (hes : ∀ x ∈ pre ++ e :: post, (1 ≤ x.1 ∧ x.1 ≤ 14) ∧ map.getType x.1 = some x.2) :
    ∀ {ptr fuel : Nat}, Laid m v ptr (pre ++ e :: post) → blocksLength (pre ++ e :: post) ≤ fuel →
      (elementsFrom m map (ptr + blocksLength (pre ++ e :: post)) fuel ptr).find?
        (elementId m ·.1 = e.1) = some (ptr + blocksLength pre, 3) := by
  induction pre with
  | nil =>
    intro ptr fuel hl hfuel
    obtain ⟨hid, -, hstep⟩ := scan_element hes h4 hl
    rw [List.nil_append, blocksLength_cons] at hfuel
    cases fuel with
    | zero => omega
    | succ fuel =>
      rw [List.nil_append, hstep fuel, List.find?_cons_of_pos (by simpa using hid)]
      rfl
  | cons x pre ih =>
    intro ptr fuel hl hfuel
    have ih := @ih (fun y hy => hpre y (List.mem_cons_of_mem _ hy))
      (fun y hy => hes y (List.mem_cons_of_mem _ hy))
    have hcons := blocksLength_cons x (pre ++ e :: post)
    have hcons' := blocksLength_cons x pre
    rw [List.cons_append] at hl hfuel hes ⊢
    have htail := hl.2
    rcases length_eq_zero_or x.2 with h0 | hx4
    · rw [h0] at htail
      rw [hcons, h0, Nat.zero_add] at hfuel ⊢
      rw [hcons', h0, Nat.zero_add]
      exact ih htail hfuel
    · obtain ⟨hid, -, hstep⟩ := scan_element hes hx4 hl
      rw [hx4] at htail
      cases fuel with
      | zero => omega
      | succ fuel =>
        rw [hstep fuel, List.find?_cons_of_neg (by simpa [hid] using hpre x List.mem_cons_self),
          ih htail (by omega), hcons', hx4]
        congr 2
        omega

theorem Laid.split {e : Entry} {pre post : List Entry} (h4 : e.2.length = 4) :
    ∀ {ptr : Nat}, Laid m v ptr (pre ++ e :: post) →
      m (ptr + blocksLength pre) = RTPSender.elementByte e.1 ∧
        be24 m (ptr + blocksLength pre + 1) = v e.2 := by
  induction pre with
  | nil => exact fun hl => hl.1 (by omega)
  | cons x pre ih =>
    intro ptr hl
    rw [blocksLength_cons, ← Nat.add_assoc]
    exact ih hl.2

/-- Writing new data into one element changes its value only. -/
theorem Laid.written {e : Entry} {pre post : List Entry} (h4 : e.2.length = 4)
    (hnd : ((pre ++ e :: post).map Prod.snd).Nodup) (x : BitVec 24) :
    ∀ {ptr : Nat}, Laid m v ptr (pre ++ e :: post) →
      Laid (set24 m (ptr + blocksLength pre + 1) x) (Function.update v e.2 x) ptr
        (pre ++ e :: post) := by
  induction pre with
  | nil =>
    intro ptr hl
    rw [List.nil_append, List.map_cons, List.nodup_cons] at hnd
    refine ⟨fun hpos => ⟨?_, ?_⟩, ?_⟩
    · rw [set24_outside _ _ _ (by omega), (hl.1 hpos).1]
    · rw [Function.update_self]
      exact be24_set24 ..
    · refine Laid.congr (fun i hi _ => set24_outside _ _ _ ?_) (fun y hy => ?_) hl.2
      · simp only [blocksLength, List.map_nil, List.sum_nil]
        omega
      · exact Function.update_of_ne (fun he => hnd.1 (List.mem_map.mpr ⟨y, hy, he⟩)) _ _
  | cons y pre ih =>
    intro ptr hl
    rw [List.cons_append, List.map_cons, List.nodup_cons] at hnd
    have hy : y.2 ≠ e.2 := fun he => hnd.1 (by simp [he])
    have hcons := blocksLength_cons y pre
    refine ⟨fun hpos => ?_, ?_⟩
    · have hlen := length_eq_zero_or y.2
      rw [set24_outside _ _ _ (by omega), be24_congr fun i hi => set24_outside _ _ _ (by omega),
        Function.update_of_ne hy]
      exact hl.1 hpos
    · rw [hcons, ← Nat.add_assoc]
      exact ih hnd.2 hl.2

end Scan

/-! ## The packet -/

/-- Where the first element with the id lies in the packet. -/
def elementPos (m : Mem) (map : RtpHeaderExtensionMap) (id : Byte) : Option Nat :=
  ((elements m (some map)).find? (elementId m ·.1 = id)).map Prod.fst

namespace BuiltExtension

variable {map : RtpHeaderExtensionMap} {m m' : Mem} {v : RTPExtensionType → BitVec 24} {n : Nat}

theorem congr (h : BuiltExtension map v n m) (heq : ∀ i < builtLength map n, m' i = m i) :
    BuiltExtension map v n m' := by
  rw [builtLength] at heq
  have h0 : m' 0 = m 0 := heq 0 (by omega)
  have hcc : csrcEnd m' = csrcEnd m := by rw [csrcEnd, csrcEnd, CC, CC, h0]
  have hend : csrcEnd m = 12 + 4 * n := by rw [csrcEnd, h.csrcs]
  refine ⟨?_, ?_, ?_, ?_, ?_, ?_, h.laid.congr (fun i _ hi => heq i (by omega)) fun _ _ => rfl⟩
  · rw [V, h0]
    exact h.version
  · rw [P, h0]
    exact h.noPadding
  · rw [X, h0]
    exact h.hasExtension
  · rw [CC, h0]
    exact h.csrcs
  · rw [be16_congr fun i hi => heq _ (by omega), h.profile]
  · rw [XLen, hcc, be16_congr fun i hi => heq _ (by omega)]
    exact h.length

theorem csrcEnd_eq (h : BuiltExtension map v n m) : csrcEnd m = 12 + 4 * n := by
  rw [csrcEnd, h.csrcs]

/-- The parser accepts the packet, and reports the CSRC count, the header
length and what the scan finds. -/
theorem accepted (h : BuiltExtension map v n m) (hnd : map.types.Nodup) {length : Nat}
    (hlen : builtLength map n ≤ length) (header : RTPHeader)
    (parserMap : Option RtpHeaderExtensionMap) :
    (parse m length header parserMap).ok = true ∧
    (parse m length header parserMap).header.numCSRCs.toNat = n ∧
    (parse m length header parserMap).header.headerLength.toNat = builtLength map n ∧
    ∃ hdr, hdr.extension = ⟨0, 0⟩ ∧ (parse m length header parserMap).header.extension =
      (scanExtension m hdr parserMap).1.extension := by
  have hend := h.csrcEnd_eq
  have hoct := Rtp.csrcEnd_eq m
  have hx := h.length
  have hblocks := blocksLength_le hnd
  have hcc : (CC m).toNat ≤ 15 := by
    rw [CC, BitVec.toNat_and]
    exact Nat.and_le_right
  rw [h.csrcs] at hcc
  rw [builtLength] at hlen ⊢
  have hparse : parse m length header parserMap =
      parseExtension m length (fixedHeader m length header) parserMap := by
    rw [parse, if_neg (by omega), if_neg (by simpa using h.version), if_neg (by omega),
      if_pos h.hasExtension]
  have hok : (parse m length header parserMap).ok = true := by
    rw [hparse, parseExtension, if_neg (by omega), if_neg (by omega)]
  have hdecl := (parse_ok hok).2.2.2.1
  refine ⟨hok, ?_, ?_, ?_⟩
  · rw [hparse, parseExtension, if_neg (by omega), if_neg (by omega)]
    obtain ⟨e, he⟩ := scanExtension_header m { fixedHeader m length header with
      headerLength := (fixedHeader m length header).headerLength + 4 } parserMap
    simp only [he]
    exact h.csrcs
  · rw [hdecl, declaredHeaderLength, if_pos h.hasExtension, BitVec.toNat_add, hx,
      BitVec.toNat_ofNat, hend]
    omega
  · rw [hparse, parseExtension, if_neg (by omega), if_neg (by omega)]
    exact ⟨_, rfl, rfl⟩

theorem entries_fields (map : RtpHeaderExtensionMap) :
    ∀ x ∈ map.entries, (1 ≤ x.1 ∧ x.1 ≤ 14) ∧ map.getType x.1 = some x.2 := fun x hx => by
  obtain ⟨pre, post, hsplit⟩ := List.append_of_mem hx
  exact ⟨map.ids x hx, getType_split hsplit⟩

/-- Parsing returns the values of the elements. -/
theorem parse_get (h : BuiltExtension map v n m) (hnd : map.types.Nodup) {length : Nat}
    (hlen : builtLength map n ≤ length) (header : RTPHeader) {t : RTPExtensionType}
    (ht : 0 < t.length) (hmem : t ∈ map.types) :
    (parse m length header (some map)).header.extension.get t = decode t (v t) := by
  obtain ⟨-, -, -, hdr, hext, hscan⟩ := h.accepted hnd hlen header (some map)
  rw [hscan, scanExtension]
  simp only [h.csrcEnd_eq, h.profile, if_true, h.length]
  rw [scan_get ht (entries_fields map) hdr h.laid (Nat.le_refl _)]
  exact if_pos hmem

/-- The element of the first entry of a type. -/
theorem elementPos_eq (h : BuiltExtension map v n m) {e : Entry} {pre post : List Entry}
    (hent : map.entries = pre ++ e :: post) (h4 : e.2.length = 4) :
    elementPos m map e.1 = some (12 + 4 * n + 4 + blocksLength pre) := by
  have hsorted := map.sorted
  rw [hent, List.pairwise_append] at hsorted
  have hpre : ∀ x ∈ pre, x.1 ≠ e.1 := fun x hx hxe => by
    have := hsorted.2.2 x hx e List.mem_cons_self
    bv_omega
  have hfind := find_elementsFrom h4 hpre (hent ▸ entries_fields map) (hent ▸ h.laid)
    (Nat.le_refl _)
  rw [elementPos, elements]
  simp only [h.csrcEnd_eq, h.profile, h.hasExtension, and_self, if_true, h.length, hent, hfind]
  rfl

/-- Writing the data of an element gives the packet with its new value. -/
theorem written (h : BuiltExtension map v n m) (hnd : map.types.Nodup) {e : Entry}
    {pre post : List Entry} (hent : map.entries = pre ++ e :: post) (h4 : e.2.length = 4)
    (x : BitVec 24) :
    BuiltExtension map (Function.update v e.2 x) n
      (set24 m (12 + 4 * n + 4 + blocksLength pre + 1) x) := by
  have hout : ∀ i, i < 12 + 4 * n + 4 →
      set24 m (12 + 4 * n + 4 + blocksLength pre + 1) x i = m i := fun i hi =>
    set24_outside _ _ _ (by omega)
  have h0 := hout 0 (by omega)
  refine ⟨?_, ?_, ?_, ?_, ?_, ?_, ?_⟩
  · rw [V, h0]
    exact h.version
  · rw [P, h0]
    exact h.noPadding
  · rw [X, h0]
    exact h.hasExtension
  · rw [CC, h0]
    exact h.csrcs
  · rw [be16_congr fun i hi => hout _ (by omega), h.profile]
  · rw [XLen, show csrcEnd _ = csrcEnd m by rw [csrcEnd, csrcEnd, CC, CC, h0], h.csrcEnd_eq,
      be16_congr fun i hi => hout _ (by omega), ← h.csrcEnd_eq]
    exact h.length
  · have hl := h.laid
    rw [types, hent] at hnd
    rw [hent] at hl ⊢
    exact hl.written h4 hnd x

end BuiltExtension

/-! ## The updates -/

section Agreement

variable (s : RTPSender) (u : Update) (rtpPacket : Mem) (rtpPacketLength : Nat) (header : RTPHeader)

/-- The packet after an update that is given the parsed header of the packet,
as `TimeToSendPacket` and `SendToNetwork` do. -/
def updated : Mem :=
  (u.run s rtpPacket rtpPacketLength (parse rtpPacket rtpPacketLength header none).header).2

/-- The update changes the data of its element and nothing else, so that a
parser finds the new value; without an element it changes nothing. -/
def UpdateAgrees : Prop :=
  (s.rtpHeaderExtensionMap.getId u.type = none →
    updated s u rtpPacket rtpPacketLength header = rtpPacket) ∧
  ∀ id, s.rtpHeaderExtensionMap.getId u.type = some id →
    ∃ pos, elementPos rtpPacket s.rtpHeaderExtensionMap id = some pos ∧
      updated s u rtpPacket rtpPacketLength header = set24 rtpPacket (pos + 1) u.value ∧
      (parse (updated s u rtpPacket rtpPacketLength header) rtpPacketLength header
        (some s.rtpHeaderExtensionMap)).header.extension.get u.type = decode u.type u.value

/-- The bytes the update checks among the CSRCs, where it takes the extension
block to be. -/
def ChecksPass (id : Byte) (n blockPos : Nat) : Prop :=
  rtpPacket (12 + n) = 0xBE ∧ rtpPacket (12 + n + 1) = 0xDE ∧
    rtpPacket (12 + n + blockPos) = RTPSender.elementByte id

/-- There are no CSRCs; or the element holds the new value already, and so do
the bytes the update takes for it, if their neighbours pass its checks. -/
def UpdateHarmless (n : Nat) : Prop :=
  n = 0 ∨ ∀ id blockPos, s.rtpHeaderExtensionMap.getId u.type = some id →
    s.rtpHeaderExtensionMap.getLengthUntilBlockStartInBytes u.type = some blockPos →
    be24 rtpPacket (12 + 4 * n + blockPos + 1) = u.value ∧
    (ChecksPass rtpPacket id n blockPos → be24 rtpPacket (12 + n + blockPos + 1) = u.value)

end Agreement

namespace BuiltExtension

variable {s : RTPSender} {m : Mem} {v : RTPExtensionType → BitVec 24} {n length : Nat} {u : Update}
  {pre post : List Entry} {e : Entry}

/-- The update writes where it takes the element to be, if the checks there
pass: the lengths always do. -/
theorem updated_eq (h : BuiltExtension s.rtpHeaderExtensionMap v n m)
    (hnd : s.rtpHeaderExtensionMap.types.Nodup) (hent : s.rtpHeaderExtensionMap.entries = pre ++ e :: post)
    (he : e.2 = u.type) (hlen : builtLength s.rtpHeaderExtensionMap n ≤ length)
    (header : RTPHeader) :
    (ChecksPass m e.1 n (4 + blocksLength pre) → updated s u m length header =
      set24 m (12 + n + (4 + blocksLength pre) + 1) u.value) ∧
    (¬ ChecksPass m e.1 n (4 + blocksLength pre) → updated s u m length header = m) := by
  have hpre : e.2 ∉ pre.map Prod.snd := fun hmem => by
    rw [types, hent, List.map_append, List.map_cons] at hnd
    exact (List.nodup_append.mp hnd).2.2 _ hmem _ List.mem_cons_self rfl
  obtain ⟨-, hcsrcs, hhdr, -⟩ := h.accepted hnd hlen header none
  have hid : s.rtpHeaderExtensionMap.getId u.type = some e.1 := he ▸ getId_split hent hpre
  have hpos : s.rtpHeaderExtensionMap.getLengthUntilBlockStartInBytes u.type =
      some (4 + blocksLength pre) := he ▸ getLengthUntilBlockStartInBytes_split hent hpre
  have h4 := u.type_length
  have hblocks : blocksLength s.rtpHeaderExtensionMap.entries =
      blocksLength pre + (4 + blocksLength post) := by
    rw [hent, blocksLength, List.map_append, List.sum_append, ← blocksLength, ← blocksLength,
      blocksLength_cons, he, h4]
  rw [builtLength] at hlen hhdr
  rw [updated, u.run_eq, RTPSender.updateExtension, hpos, hid]
  simp only [hcsrcs, hhdr, h4]
  rw [if_neg (by omega)]
  constructor
  · rintro ⟨hBE, hDE, hfirst⟩
    rw [if_neg (by simp [hBE, hDE]), if_neg (by simp [hfirst])]
  · intro hchecks
    split
    · rfl
    split
    · rfl
    · rename_i hprofile hfirst
      rw [not_not] at hprofile hfirst
      exact absurd ⟨hprofile.1, hprofile.2, hfirst⟩ hchecks

end BuiltExtension

/-- An update of a built packet, with any payload behind the header, changes
its element and nothing else exactly if there are no CSRCs or nothing is left
to change. -/
theorem update_agrees_iff {s : RTPSender} {fuel hlen length : Nat} {m₀ m rtpPacket : Mem}
    {payloadType : Byte} {ssrc timestamp : BitVec 32} {markerBit : Bool}
    {sequenceNumber : BitVec 16} {csrcs : List (BitVec 32)}
    (hb : s.createRTPHeader fuel m₀ payloadType ssrc markerBit timestamp sequenceNumber csrcs =
      some ((hlen : Int), m))
    (hpacket : ∀ i < hlen, rtpPacket i = m i) (hlength : hlen ≤ length) (u : Update)
    (header : RTPHeader) :
    UpdateAgrees s u rtpPacket length header ↔ UpdateHarmless s u rtpPacket csrcs.length := by
  obtain ⟨-, hnd, hbuilt⟩ := RTPSender.createRTPHeader_built hb
  by_cases hreg : u.type ∈ s.rtpHeaderExtensionMap.types
  · obtain ⟨pre, e, post, hent, he, hpre⟩ := exists_split_of_mem hreg
    have hpre' : e.2 ∉ pre.map Prod.snd := he ▸ hpre
    have h4 : e.2.length = 4 := by rw [he, u.type_length]
    have hid : s.rtpHeaderExtensionMap.getId u.type = some e.1 := he ▸ getId_split hent hpre'
    have hpos : s.rtpHeaderExtensionMap.getLengthUntilBlockStartInBytes u.type =
        some (4 + blocksLength pre) := he ▸ getLengthUntilBlockStartInBytes_split hent hpre'
    have hblocks : 0 < blocksLength s.rtpHeaderExtensionMap.entries := by
      rw [hent, blocksLength, List.map_append, List.map_cons, List.sum_append, List.sum_cons]
      omega
    obtain ⟨hm, rfl⟩ := hbuilt hblocks
    have hp : BuiltExtension s.rtpHeaderExtensionMap s.value csrcs.length rtpPacket :=
      hm.congr hpacket
    obtain ⟨hpass, hfail⟩ := hp.updated_eq hnd hent he hlength header
    have hwritten := hp.written hnd hent h4 u.value
    -- The claimed update of the packet is parsed as its new value.
    have hagree : UpdateAgrees s u rtpPacket length header ↔
        updated s u rtpPacket length header =
          set24 rtpPacket (12 + 4 * csrcs.length + 4 + blocksLength pre + 1) u.value := by
      rw [UpdateAgrees]
      simp only [hid, reduceCtorEq, false_implies, true_and, Option.some.injEq, forall_eq',
        hp.elementPos_eq hent h4, exists_eq_left']
      refine ⟨fun h => h.1, fun h => ⟨h, ?_⟩⟩
      rw [h, hwritten.parse_get hnd hlength header (by rw [u.type_length]; omega) hreg, he,
        Function.update_self]
    have hharmless : UpdateHarmless s u rtpPacket csrcs.length ↔ csrcs.length = 0 ∨
        be24 rtpPacket (12 + 4 * csrcs.length + (4 + blocksLength pre) + 1) = u.value ∧
        (ChecksPass rtpPacket e.1 csrcs.length (4 + blocksLength pre) →
          be24 rtpPacket (12 + csrcs.length + (4 + blocksLength pre) + 1) = u.value) := by
      rw [UpdateHarmless, hid, hpos]
      exact or_congr_right ⟨fun h => h _ _ rfl rfl, by rintro h _ _ ⟨⟩ ⟨⟩; exact h⟩
    rw [hagree, hharmless, Nat.add_assoc (12 + 4 * csrcs.length)]
    by_cases hn : csrcs.length = 0
    · -- Without CSRCs the two positions are one, and the checks pass there.
      have hlaid := (hent ▸ hp.laid).split h4
      have hprofile := be16_toNat rtpPacket (12 + 4 * csrcs.length)
      rw [hp.profile, show kRtpOneByteHeaderExtensionId.toNat = 0xBEDE from rfl] at hprofile
      simp only [hn, Nat.mul_zero, Nat.add_zero] at hlaid hprofile hpass ⊢
      rw [Nat.add_assoc 12] at hlaid
      have hBE : rtpPacket 12 = 0xBE := BitVec.eq_of_toNat_eq (by
        rw [show (0xBE : Byte).toNat = 0xBE from rfl]
        omega)
      have hDE : rtpPacket (12 + 1) = 0xDE := BitVec.eq_of_toNat_eq (by
        rw [show (0xDE : Byte).toNat = 0xDE from rfl]
        omega)
      exact iff_of_true (hpass ⟨hBE, hDE, hlaid.1⟩) (Or.inl trivial)
    · by_cases hchecks : ChecksPass rtpPacket e.1 csrcs.length (4 + blocksLength pre)
      · rw [hpass hchecks, set24_eq_set24_iff _ (by omega)]
        simp only [hn, hchecks, true_implies, false_or]
        exact And.comm
      · rw [hfail hchecks, eq_comm, set24_eq_self_iff]
        simp only [hn, hchecks, false_implies, and_true, false_or]
  · -- Without an entry of the type nothing is written.
    have hid : s.rtpHeaderExtensionMap.getId u.type = none := by
      rw [getId, Option.map_eq_none_iff, List.find?_eq_none]
      exact fun x hx => by simpa using fun hxu => hreg (List.mem_map.mpr ⟨x, hx, hxu⟩)
    have hupd : updated s u rtpPacket length header = rtpPacket := by
      rw [updated, u.run_eq, RTPSender.updateExtension, getLengthUntilBlockStartInBytes, hid]
    refine iff_of_true ⟨fun _ => hupd, fun id h => ?_⟩ (Or.inr fun id blockPos h => ?_)
    · rw [hid] at h
      cases h
    · rw [hid] at h
      cases h

/-- A sender with the transmission time offset under id 1. -/
def offsetSender : RTPSender :=
  ⟨0x11223344, 0, 0, 0, 0, false, true, [], offsetMap, 0, 0⟩

/-- The header it builds, with the CSRCs `csrcs`. -/
def offsetHeader (csrcs : List (BitVec 32)) : Mem :=
  ((offsetSender.createRTPHeader 1 (fun _ => 0) 96 0x11223344 false 0 0 csrcs).map Prod.snd).getD
    fun _ => 0

/-- Without CSRCs an offset of 7 ms is written to its element. -/
theorem update_agrees_offsetHeader :
    UpdateAgrees offsetSender (.transmissionTimeOffset 7) (offsetHeader []) 20
      RTPHeader.cleared :=
  (update_agrees_iff (show offsetSender.createRTPHeader 1 (fun _ => 0) 96 0x11223344 false 0 0 [] =
    some (((20 : Nat) : Int), offsetHeader []) from rfl) (fun _ _ => rfl) (Nat.le_refl 20) _ _).mpr
    (Or.inl rfl)

/-- With one CSRC it is not written at all. -/
theorem update_disagrees :
    (offsetSender.createRTPHeader 1 (fun _ => 0) 96 0x11223344 false 0 0 [0x55667788] =
      some (((24 : Nat) : Int), offsetHeader [0x55667788])) ∧
    ¬ UpdateAgrees offsetSender (.transmissionTimeOffset 7) (offsetHeader [0x55667788]) 24
      RTPHeader.cleared := by
  refine ⟨rfl, fun h => ?_⟩
  obtain ⟨pos, hpos, hupd, -⟩ := h.2 1 (by decide)
  have h20 : elementPos (offsetHeader [0x55667788]) offsetMap 1 = some 20 := by decide
  obtain rfl : 20 = pos := Option.some.inj (h20.symm.trans hpos)
  have := congrFun hupd 22
  revert this
  decide

end PerchWebrtc.Rtp
