import PerchWebrtc.Rtp.HeaderParser

/-!
# Building the RTP header of a packet to send

`RTPSender::CreateRTPHeader` and the functions that lay out its extension
block (`rtp_sender.cc`). The loop over the registered extensions runs through
`First` and `Next`, which go round forever where one type has two ids, so it
is given a number of rounds and its result is optional.

* `buildBlocks_layout`: the loop writes one element for each registered type,
  in the order of their ids, and nothing else;
* `createRTPHeader_built`: what the header of a finished build declares, and
  the elements in it.
-/

namespace PerchWebrtc.Rtp

open RtpHeaderExtensionMap

def kRtpCsrcSize : Nat := 15
def kRtpMarkerBitMask : Byte := 0x80

/-- The fields of `RTPSender` that a header is built from. -/
structure RTPSender where
  ssrc : BitVec 32
  startTimeStamp : BitVec 32
  timestamp : BitVec 32
  sequenceNumber : BitVec 16
  captureTimeMs : BitVec 64
  lastPacketMarkerBit : Bool
  includeCsrcs : Bool
  csrcs : List (BitVec 32)
  rtpHeaderExtensionMap : RtpHeaderExtensionMap
  transmissionTimeOffset : BitVec 32
  absoluteSendTime : BitVec 32

namespace RTPSender

variable (s : RTPSender)

/-- The first byte of an element: its id, and the length field of three data
bytes. -/
def elementByte (id : Byte) : Byte := (id <<< 4) + 2

/-- An element with three data bytes written at `p`, and its length; nothing
where its type is not registered. -/
def buildElement (type : RTPExtensionType) (value : BitVec 24) (p : Nat) (m : Mem) : Nat × Mem :=
  match s.rtpHeaderExtensionMap.getId type with
  | none => (0, m)
  | some id => (type.length, set24 (m.set p (elementByte id)) (p + 1) value)

/-- `BuildTransmissionTimeOffsetExtension`. -/
def buildTransmissionTimeOffsetExtension (p : Nat) (m : Mem) : Nat × Mem :=
  s.buildElement .transmissionTimeOffset (s.transmissionTimeOffset.setWidth 24) p m

/-- `BuildAbsoluteSendTimeExtension`. -/
def buildAbsoluteSendTimeExtension (p : Nat) (m : Mem) : Nat × Mem :=
  s.buildElement .absoluteSendTime (s.absoluteSendTime.setWidth 24) p m

/-- The `switch` of the loop. `RTPSenderAudio` writes the audio level. -/
def buildBlock (type : RTPExtensionType) (p : Nat) (m : Mem) : Nat × Mem :=
  match type with
  | .transmissionTimeOffset => s.buildTransmissionTimeOffsetExtension p m
  | .audioLevel => (0, m)
  | .absoluteSendTime => s.buildAbsoluteSendTimeExtension p m

/-- The loop over the extensions, from `type` on, with its
`total_block_length`: the length of the blocks and the memory. -/
def buildBlocks (dataBuffer : Nat) :
    Nat → Option RTPExtensionType → Nat → Mem → Option (Nat × Mem)
  | _, none, totalBlockLength, m => some (totalBlockLength, m)
  | 0, some _, _, _ => none
  | fuel + 1, some type, totalBlockLength, m =>
    let block := s.buildBlock type (dataBuffer + kRtpOneByteHeaderLength + totalBlockLength) m
    buildBlocks dataBuffer fuel (s.rtpHeaderExtensionMap.next type) (totalBlockLength + block.1)
      block.2

/-- `BuildRTPHeaderExtension`: the length added, and the memory. -/
def buildRTPHeaderExtension (fuel dataBuffer : Nat) (m : Mem) : Option (Nat × Mem) :=
  if s.rtpHeaderExtensionMap.size ≤ 0 then some (0, m)
  else
    match s.buildBlocks dataBuffer fuel s.rtpHeaderExtensionMap.first 0
        (set16 m dataBuffer kRtpOneByteHeaderExtensionId) with
    | none => none
    | some (totalBlockLength, m) =>
      if totalBlockLength = 0 then some (0, m)
      else some (kRtpOneByteHeaderLength + totalBlockLength,
        set16 m (dataBuffer + 2) (BitVec.ofNat 16 (totalBlockLength / 4)))

/-- The CSRC list written from `p`. -/
def writeCSRCs (p : Nat) : List (BitVec 32) → Mem → Mem
  | [], m => m
  | csrc :: csrcs, m => writeCSRCs (p + 4) csrcs (set32 m p csrc)

/-- The twelve bytes of the fixed header. -/
def writeFixedHeader (m : Mem) (payloadType : Byte) (ssrc : BitVec 32) (markerBit : Bool)
    (timestamp : BitVec 32) (sequenceNumber : BitVec 16) : Mem :=
  let m := m.set 0 0x80
  let m := m.set 1 (if markerBit then payloadType ||| kRtpMarkerBitMask else payloadType)
  set32 (set32 (set16 m 2 sequenceNumber) 4 timestamp) 8 ssrc

/-- `CreateRTPHeader` at address 0: the header length or -1, and the memory;
`none` where the loop over the extensions is not through after `fuel`
rounds. -/
def createRTPHeader (fuel : Nat) (m : Mem) (payloadType : Byte) (ssrc : BitVec 32)
    (markerBit : Bool) (timestamp : BitVec 32) (sequenceNumber : BitVec 16)
    (csrcs : List (BitVec 32)) : Option (Int × Mem) :=
  let m := writeFixedHeader m payloadType ssrc markerBit timestamp sequenceNumber
  if csrcs.length > kRtpCsrcSize then some (-1, m)
  else
    let m := if csrcs.length > 0 then
        let m := writeCSRCs 12 csrcs m
        m.set 0 ((m 0 &&& 0xf0) ||| BitVec.ofNat 8 csrcs.length)
      else m
    let rtpHeaderLength := 12 + 4 * csrcs.length
    match s.buildRTPHeaderExtension fuel rtpHeaderLength m with
    | none => none
    | some (len, m) =>
      if len > 0 then some ((rtpHeaderLength + len : Nat), m.set 0 (m 0 ||| 0x10))
      else some (rtpHeaderLength, m)

/-- `BuildRTPheader`. -/
def buildRTPheader (fuel : Nat) (m : Mem) (payloadType : Byte) (markerBit : Bool)
    (captureTimestamp : BitVec 32) (captureTimeMs : BitVec 64) (timeStampProvided : Bool) :
    RTPSender × Option (Int × Mem) :=
  let s' := { s with
    timestamp := if timeStampProvided then s.startTimeStamp + captureTimestamp else s.timestamp + 1
    sequenceNumber := s.sequenceNumber + 1
    captureTimeMs := captureTimeMs
    lastPacketMarkerBit := markerBit }
  (s', s'.createRTPHeader fuel m payloadType s.ssrc markerBit s'.timestamp s.sequenceNumber
    (if s.includeCsrcs then s.csrcs else []))

end RTPSender

/-! ## The layout of the elements -/

/-- The bytes of the elements of `es`. -/
def blocksLength (es : List Entry) : Nat := (es.map fun e => e.2.length).sum

/-- From `ptr` on lie the elements of `es`, each with its value. -/
def Laid (m : Mem) (value : RTPExtensionType → BitVec 24) : Nat → List Entry → Prop
  | _, [] => True
  | ptr, e :: es =>
    (0 < e.2.length → m ptr = RTPSender.elementByte e.1 ∧ be24 m (ptr + 1) = value e.2) ∧
      Laid m value (ptr + e.2.length) es

theorem blocksLength_cons (e : Entry) (es : List Entry) :
    blocksLength (e :: es) = e.2.length + blocksLength es := by
  simp [blocksLength]

theorem length_eq_zero_or (type : RTPExtensionType) : type.length = 0 ∨ type.length = 4 := by
  cases type <;> decide

/-- The layout depends on the bytes of the elements and on their values. -/
theorem Laid.congr {m m' : Mem} {v v' : RTPExtensionType → BitVec 24} {es : List Entry} :
    ∀ {ptr : Nat}, (∀ i, ptr ≤ i → i < ptr + blocksLength es → m' i = m i) →
      (∀ e ∈ es, v' e.2 = v e.2) → Laid m v ptr es → Laid m' v' ptr es := by
  induction es with
  | nil => exact fun _ _ _ => trivial
  | cons e es ih =>
    intro ptr hm hv ⟨he, hes⟩
    rw [blocksLength_cons] at hm
    have hlen := length_eq_zero_or e.2
    refine ⟨fun hpos => ?_, ih (fun i hi hi' => hm i (by omega) (by omega))
      (fun x hx => hv x (List.mem_cons_of_mem _ hx)) hes⟩
    rw [hm ptr (Nat.le_refl _) (by omega), hv e List.mem_cons_self,
      be24_congr fun i hi => hm (ptr + 1 + i) (by omega) (by omega)]
    exact he hpos

namespace RTPSender

variable {s : RTPSender}

/-- The value an element is built with. -/
def value (s : RTPSender) : RTPExtensionType → BitVec 24
  | .transmissionTimeOffset => s.transmissionTimeOffset.setWidth 24
  | .audioLevel => 0
  | .absoluteSendTime => s.absoluteSendTime.setWidth 24

theorem buildBlock_eq {type : RTPExtensionType} {id : Byte}
    (h : s.rtpHeaderExtensionMap.getId type = some id) (p : Nat) (m : Mem) :
    s.buildBlock type p m = (type.length,
      if 0 < type.length then set24 (m.set p (elementByte id)) (p + 1) (s.value type) else m) := by
  cases type with
  | transmissionTimeOffset =>
    rw [buildBlock, buildTransmissionTimeOffsetExtension, buildElement, h]
    rfl
  | audioLevel => rfl
  | absoluteSendTime =>
    rw [buildBlock, buildAbsoluteSendTimeExtension, buildElement, h]
    rfl

theorem buildBlocks_none_of_closed {p : List RTPExtensionType}
    (hp : ∀ t ∈ p, ∃ t' ∈ p, s.rtpHeaderExtensionMap.next t = some t') (dataBuffer : Nat) :
    ∀ (fuel : Nat) {t : RTPExtensionType} (_ : t ∈ p) (total : Nat) (m : Mem),
      s.buildBlocks dataBuffer fuel (some t) total m = none
  | 0, _, _, _, _ => rfl
  | fuel + 1, t, ht, total, m => by
    obtain ⟨t', ht', hn⟩ := hp t ht
    rw [buildBlocks, hn]
    exact buildBlocks_none_of_closed hp dataBuffer fuel ht' _ _

/-- A build that comes to its end has no type under two ids. -/
theorem nodup_of_buildBlocks {fuel dataBuffer total : Nat} {m : Mem} {r : Nat × Mem}
    (h : s.buildBlocks dataBuffer fuel s.rtpHeaderExtensionMap.first total m = some r) :
    s.rtpHeaderExtensionMap.types.Nodup := by
  by_contra hn
  obtain ⟨p, ⟨t, ht, hf⟩, hp⟩ := next_closed_of_not_nodup hn
  rw [hf, buildBlocks_none_of_closed hp dataBuffer fuel ht] at h
  cases h

/-- The loop from the entry after `pre` on, by induction on the entries left. -/
theorem buildBlocks_layout {dataBuffer : Nat} {r : Nat × Mem} {post : List Entry}
    (hnd : s.rtpHeaderExtensionMap.types.Nodup) :
    ∀ {pre : List Entry} {fuel total : Nat} {m : Mem},
      s.rtpHeaderExtensionMap.entries = pre ++ post →
      s.buildBlocks dataBuffer fuel (post.head?.map Prod.snd) total m = some r →
      r.1 = total + blocksLength post ∧
      Laid r.2 s.value (dataBuffer + 4 + total) post ∧
      ∀ i, i < dataBuffer + 4 + total ∨ dataBuffer + 4 + r.1 ≤ i → r.2 i = m i := by
  induction post with
  | nil =>
    intro pre fuel total m _ h
    rw [List.head?_nil, Option.map_none, buildBlocks, Option.some.injEq] at h
    subst h
    exact ⟨rfl, trivial, fun _ _ => rfl⟩
  | cons e post ih =>
    intro pre fuel total m hent h
    have he : e.2 ∉ pre.map Prod.snd := fun hmem => by
      rw [types, hent, List.map_append, List.map_cons] at hnd
      exact (List.nodup_append.mp hnd).2.2 _ hmem _ List.mem_cons_self rfl
    cases fuel with
    | zero => simp [buildBlocks] at h
    | succ fuel =>
      rw [List.head?_cons, Option.map_some, buildBlocks, next_split hent he,
        buildBlock_eq (getId_split hent he)] at h
      have hent' : s.rtpHeaderExtensionMap.entries = (pre ++ [e]) ++ post := by simpa using hent
      obtain ⟨hr, hlaid, hout⟩ := ih hent' h
      have hlen := length_eq_zero_or e.2
      simp only at hr hlaid hout
      rw [blocksLength_cons]
      rw [← Nat.add_assoc (dataBuffer + 4)] at hlaid
      refine ⟨by omega, ⟨fun hpos => ?_, hlaid⟩, fun i hi => ?_⟩
      · -- The rest of the loop leaves this element alone.
        have hkeep : ∀ q, dataBuffer + 4 + total ≤ q → q < dataBuffer + 4 + total + 4 →
            r.2 q = set24 (m.set (dataBuffer + 4 + total) (elementByte e.1))
              (dataBuffer + 4 + total + 1) (s.value e.2) q := fun q _ _ => by
          rw [hout q (by omega), if_pos hpos]
          rfl
        refine ⟨?_, ?_⟩
        · rw [hkeep _ (Nat.le_refl _) (by omega), set24_outside _ _ _ (by omega)]
          exact Mem.set_self _ _ _
        · rw [be24_congr fun i hi => hkeep (dataBuffer + 4 + total + 1 + i) (by omega) (by omega),
            be24_set24]
      · rw [hout i (by omega)]
        split
        · rw [set24_outside _ _ _ (by simp only [kRtpOneByteHeaderLength]; omega),
            Mem.set_of_ne _ _ (by simp only [kRtpOneByteHeaderLength]; omega)]
        · rfl

end RTPSender

/-! ## The finished header -/

/-- A header with `n` CSRCs and an extension block that holds the elements of
`map`, as a parser reads it. -/
structure BuiltExtension (map : RtpHeaderExtensionMap) (value : RTPExtensionType → BitVec 24)
    (n : Nat) (m : Mem) : Prop where
  version : V m = 2
  noPadding : P m = false
  hasExtension : X m = true
  csrcs : (CC m).toNat = n
  profile : be16 m (12 + 4 * n) = kRtpOneByteHeaderExtensionId
  length : (XLen m).toNat = blocksLength map.entries
  laid : Laid m value (12 + 4 * n + 4) map.entries

/-- The header length of such a packet. -/
def builtLength (map : RtpHeaderExtensionMap) (n : Nat) : Nat :=
  12 + 4 * n + 4 + blocksLength map.entries

theorem four_dvd_blocksLength (es : List Entry) : 4 ∣ blocksLength es := by
  induction es with
  | nil => exact Nat.dvd_zero 4
  | cons e es ih =>
    rw [blocksLength_cons]
    rcases length_eq_zero_or e.2 with h | h <;> omega

theorem blocksLength_le_length (es : List Entry) : blocksLength es ≤ 4 * es.length := by
  induction es with
  | nil => exact Nat.zero_le _
  | cons e es ih =>
    rw [blocksLength_cons, List.length_cons]
    rcases length_eq_zero_or e.2 with h | h <;> omega

/-- Three types at most, so twelve bytes. -/
theorem blocksLength_le {es : List Entry} (h : (es.map Prod.snd).Nodup) : blocksLength es ≤ 12 := by
  have hsub : es.map Prod.snd ⊆ [.transmissionTimeOffset, .audioLevel, .absoluteSendTime] :=
    fun t _ => by cases t <;> simp
  have hlen := (List.subperm_of_subset h hsub).length_le
  have hsum := blocksLength_le_length es
  simp only [List.length_map, List.length_cons, List.length_nil] at hlen
  omega

namespace RTPSender

variable {s : RTPSender}

theorem writeCSRCs_outside (csrcs : List (BitVec 32)) :
    ∀ {p i : Nat} (m : Mem), i < p ∨ p + 4 * csrcs.length ≤ i → writeCSRCs p csrcs m i = m i := by
  induction csrcs with
  | nil => exact fun _ _ => rfl
  | cons csrc csrcs ih =>
    intro p i m h
    rw [List.length_cons] at h
    rw [writeCSRCs, ih _ (by omega), set32_outside _ _ _ (by omega)]

/-- The fields of the first byte of a header with `n` CSRCs and an
extension. -/
theorem firstByte_fields : ∀ n < 16,
    let b : Byte := (if 0 < n then (0x80 &&& 0xf0) ||| BitVec.ofNat 8 n else 0x80) ||| 0x10
    b >>> 6 = 2 ∧ b &&& 0x20 = 0 ∧ b &&& 0x10 ≠ 0 ∧ (b &&& 0x0f).toNat = n := by
  decide

/-- The extension block of a finished build. -/
theorem buildRTPHeaderExtension_built {fuel p len : Nat} {m m' : Mem}
    (h : s.buildRTPHeaderExtension fuel p m = some (len, m')) :
    (0 < len → s.rtpHeaderExtensionMap.types.Nodup ∧
      len = 4 + blocksLength s.rtpHeaderExtensionMap.entries ∧
      be16 m' p = kRtpOneByteHeaderExtensionId ∧
      (be16 m' (p + 2) * 4).toNat = blocksLength s.rtpHeaderExtensionMap.entries ∧
      Laid m' s.value (p + 4) s.rtpHeaderExtensionMap.entries) ∧
    (len = 0 → s.rtpHeaderExtensionMap.types.Nodup ∧
      blocksLength s.rtpHeaderExtensionMap.entries = 0) ∧
    ∀ i < p, m' i = m i := by
  rw [buildRTPHeaderExtension] at h
  split at h
  · rename_i hsize
    rw [Option.some.injEq, Prod.mk.injEq] at h
    obtain ⟨rfl, rfl⟩ := h
    have hnil : s.rtpHeaderExtensionMap.entries = [] :=
      List.eq_nil_of_length_eq_zero (Nat.le_zero.mp hsize)
    exact ⟨fun hpos => absurd hpos (Nat.lt_irrefl 0), fun _ => by simp [types, hnil, blocksLength],
      fun _ _ => rfl⟩
  split at h
  · cases h
  rename_i total m₁ hb
  have hnd := nodup_of_buildBlocks hb
  obtain ⟨hr, hlaid, hout⟩ := buildBlocks_layout hnd (List.nil_append _).symm hb
  have hle := blocksLength_le hnd
  have hdvd := four_dvd_blocksLength s.rtpHeaderExtensionMap.entries
  simp only [Nat.zero_add, Nat.add_zero] at hr hlaid hout
  split at h <;> rw [Option.some.injEq, Prod.mk.injEq] at h <;> obtain ⟨rfl, rfl⟩ := h
  · refine ⟨fun hpos => absurd hpos (Nat.lt_irrefl 0), fun _ => ⟨hnd, by omega⟩, fun i hi => ?_⟩
    rw [hout i (by omega), set16_outside _ _ _ (by omega)]
  · refine ⟨fun _ => ⟨hnd, by rw [hr]; rfl, ?_, ?_, ?_⟩, fun h0 => by simp [kRtpOneByteHeaderLength] at h0,
      fun i hi => ?_⟩
    · rw [be16_congr fun i hi => set16_outside _ _ _ (by omega),
        be16_congr fun i hi => hout _ (by omega), be16_set16]
    · rw [be16_set16, BitVec.toNat_mul, BitVec.toNat_ofNat, show (4 : BitVec 16).toNat = 4 from rfl]
      omega
    · refine hlaid.congr (fun i hi _ => set16_outside _ _ _ (by omega)) fun _ _ => rfl
    · rw [set16_outside _ _ _ (by omega), hout i (by omega), set16_outside _ _ _ (by omega)]

/-- What a build that returns a header length leaves in the packet: every type
is registered under one id, and if any type has an element, the extension block
holds them all. -/
theorem createRTPHeader_built {fuel hlen : Nat} {m m' : Mem} {payloadType : Byte}
    {ssrc timestamp : BitVec 32} {markerBit : Bool} {sequenceNumber : BitVec 16}
    {csrcs : List (BitVec 32)}
    (h : s.createRTPHeader fuel m payloadType ssrc markerBit timestamp sequenceNumber csrcs =
      some ((hlen : Int), m')) :
    csrcs.length ≤ 15 ∧ s.rtpHeaderExtensionMap.types.Nodup ∧
    (0 < blocksLength s.rtpHeaderExtensionMap.entries →
      BuiltExtension s.rtpHeaderExtensionMap s.value csrcs.length m' ∧
      hlen = builtLength s.rtpHeaderExtensionMap csrcs.length) := by
  rw [createRTPHeader] at h
  split at h
  · rw [Option.some.injEq, Prod.mk.injEq] at h
    omega
  rename_i hn
  simp only [kRtpCsrcSize, Nat.not_lt] at hn
  -- The first byte before the extension bit.
  generalize hw : (if csrcs.length > 0 then _ else _ : Mem) = w at h
  have hw0 : w 0 = if 0 < csrcs.length then (0x80 &&& 0xf0) ||| BitVec.ofNat 8 csrcs.length
      else 0x80 := by
    have h0 : writeFixedHeader m payloadType ssrc markerBit timestamp sequenceNumber 0 = 0x80 := by
      rw [writeFixedHeader, set32_outside _ _ _ (by omega), set32_outside _ _ _ (by omega),
        set16_outside _ _ _ (by omega), Mem.set_of_ne _ _ (by omega), Mem.set_self]
    rw [← hw]
    split
    · rw [Mem.set_self, writeCSRCs_outside _ _ (by omega), h0]
    · exact h0
  dsimp only at h
  split at h
  · cases h
  rename_i len m₁ hb
  obtain ⟨hpos, hzero, hout⟩ := buildRTPHeaderExtension_built hb
  split at h <;> rename_i hlen0 <;> rw [Option.some.injEq, Prod.mk.injEq] at h <;>
    obtain ⟨hl, rfl⟩ := h
  · obtain ⟨hnd, hlen', hid, hx, hlaid⟩ := hpos hlen0
    refine ⟨hn, hnd, fun _ => ⟨?_, by rw [builtLength]; omega⟩⟩
    have hbyte : (m₁.set 0 (m₁ 0 ||| 0x10)) 0 =
        (if 0 < csrcs.length then (0x80 &&& 0xf0) ||| BitVec.ofNat 8 csrcs.length else 0x80) |||
          0x10 := by
      rw [Mem.set_self, hout 0 (by omega), hw0]
    obtain ⟨hV, hP, hX, hCC⟩ := firstByte_fields csrcs.length (by omega)
    have hafter : ∀ q, 0 < q → (m₁.set 0 (m₁ 0 ||| 0x10)) q = m₁ q := fun q hq =>
      Mem.set_of_ne _ _ (by omega)
    have hcc : (CC (m₁.set 0 (m₁ 0 ||| 0x10))).toNat = csrcs.length := by
      rw [CC, hbyte, hCC]
    refine ⟨?_, ?_, ?_, hcc, ?_, ?_, hlaid.congr (fun q _ _ => hafter q (by omega)) fun _ _ => rfl⟩
    · rw [V, hbyte, hV]
    · rw [P, hbyte]
      simpa using hP
    · rw [X, hbyte]
      simpa using hX
    · rw [be16_congr fun i hi => hafter _ (by omega), hid]
    · rw [XLen, csrcEnd, hcc, be16_congr fun i hi => hafter _ (by omega), hx]
  · obtain ⟨hnd, h0⟩ := hzero (by omega)
    exact ⟨hn, hnd, fun hpos => by omega⟩

end RTPSender

end PerchWebrtc.Rtp
