import PerchWebrtc.Rtcp.Feedback

/-!
# The parser elsewhere in memory

A parser at the top level of a packet returns the same packets wherever the
rest of the packet stands, and whatever it has parsed before.

* `parseItem_relocated`, `parseBlock_relocated`: one item and one block;
* `iterate_relocated`: a call.
-/

namespace PerchWebrtc.Rtcp.RTCPParserV2

/-- The types that are returned with a packet of their own; with the others
the last packet is left in place. -/
def carriesPacket : RTCPPacketTypes → Bool
  | .kRtcpNotValidCode | .kRtcpSdesCode | .kRtcpExtendedIjCode | .kRtcpRtpfbSrReqCode
  | .kRtcpPsfbRembCode => false
  | _ => true

/-- The packet that the parser has returned. -/
def observed (p : RTCPParserV2) : RTCPPacketTypes × RTCPPacket :=
  (p.packetType, if carriesPacket p.packetType then p.packet else .empty)

/-- The states whose items add to the last packet. -/
def keepsPacket : ParseState → Bool
  | .PSFB_RPSIItem | .AppItem => true
  | _ => false

/-- The states whose items are counted. -/
def countsBlocks : ParseState → Bool
  | .ReportBlockItem | .SDESChunk | .BYEItem | .ExtendedJitterItem => true
  | _ => false

/-- Two parsers at the same place of the same block, of which the second starts
at `base` or behind it in its own memory and the first `d` bytes further on. -/
structure SamePlace (base d : Nat) (p p' : RTCPParserV2) : Prop where
  valid : p.validPacket = p'.validPacket
  ptr : p.ptrRTCPData = p'.ptrRTCPData + d
  le : base ≤ p'.ptrRTCPData
  blockEnd : p.ptrRTCPBlockEnd = p'.ptrRTCPBlockEnd + d
  leEnd : base ≤ p'.ptrRTCPBlockEnd

/-- Two parsers at the same place of the top level. -/
structure SameTop (base d : Nat) (p p' : RTCPParserV2) : Prop where
  valid : p.validPacket = p'.validPacket
  state : p.state = .TopLevel
  state' : p'.state = .TopLevel
  ptr : p.ptrRTCPData = p'.ptrRTCPData + d
  le : base ≤ p'.ptrRTCPData

/-- Two parsers between calls, which will return the same packets. -/
structure Relocated (base d : Nat) (p p' : RTCPParserV2) : Prop where
  valid : p.validPacket = p'.validPacket
  state : p.state = p'.state
  ptr : p.ptrRTCPData = p'.ptrRTCPData + d
  le : base ≤ p'.ptrRTCPData
  packetType : p.packetType = p'.packetType
  packet : carriesPacket p'.packetType = true → p.packet = p'.packet
  kept : keepsPacket p'.state = true → p.packet = p'.packet
  counted : countsBlocks p'.state = true → p.numberOfBlocks = p'.numberOfBlocks
  block : p'.state ≠ .TopLevel →
    p.ptrRTCPBlockEnd = p'.ptrRTCPBlockEnd + d ∧ base ≤ p'.ptrRTCPBlockEnd

/-- What two parsers make of an item or of a block: both return it, or both go
on at the top level. -/
structure SameResult (base d : Nat) (r r' : Bool × RTCPParserV2) : Prop where
  fst : r.1 = r'.1
  returned : r'.1 = true → Relocated base d r.2 r'.2
  left : r'.1 = false → SameTop base d r.2 r'.2

theorem Relocated.observed {base d : Nat} {p p' : RTCPParserV2} (h : Relocated base d p p') :
    p.observed = p'.observed := by
  rw [RTCPParserV2.observed, RTCPParserV2.observed, h.packetType]
  split
  · rename_i hcarries
    rw [h.packet hcarries]
  · rfl

section

variable {m m' : Mem} {base d : Nat} {p p' : RTCPParserV2}

/-! ## Reading -/

namespace SamePlace

variable (h : SamePlace base d p p')

include h

theorem length : p.length = p'.length := by
  rw [RTCPParserV2.length, RTCPParserV2.length, h.ptr, h.blockEnd]
  omega

theorem skip (n : Nat) : SamePlace base d (p.skip n) (p'.skip n) := by
  refine ⟨h.valid, ?_, ?_, h.blockEnd, h.leEnd⟩
  · show p.ptrRTCPData + n = p'.ptrRTCPData + n + d
    rw [h.ptr]
    omega
  · exact h.le.trans (Nat.le_add_right _ _)

theorem peek (n : Nat) : SamePlace base d (p.peek n) (p'.peek n) :=
  ⟨h.valid, h.ptr, h.le, h.blockEnd, h.leEnd⟩

theorem read (n : Nat) : SamePlace base d (p.read n) (p'.read n) := (h.peek n).skip n

theorem logItem : SamePlace base d p.logItem p'.logItem :=
  ⟨h.valid, h.ptr, h.le, h.blockEnd, h.leEnd⟩

theorem endCurrentBlock (hs : p.state = .TopLevel) (hs' : p'.state = .TopLevel) :
    SameTop base d p.endCurrentBlock p'.endCurrentBlock :=
  ⟨h.valid, hs, hs', h.blockEnd, h.leEnd⟩

theorem leaveBlock : SameResult base d p.leaveBlock p'.leaveBlock :=
  ⟨rfl, fun h => (by cases h), fun _ => ⟨h.valid, rfl, rfl, h.blockEnd, h.leEnd⟩⟩

/-- The bytes from the read pointer on. -/
theorem bytes (hm : ∀ i, base ≤ i → m (i + d) = m' i) (k : Nat) :
    m (p.ptrRTCPData + k) = m' (p'.ptrRTCPData + k) := by
  rw [h.ptr, ← hm _ (h.le.trans (Nat.le_add_right _ k)), Nat.add_right_comm]

theorem byte (hm : ∀ i, base ≤ i → m (i + d) = m' i) :
    m p.ptrRTCPData = m' p'.ptrRTCPData := h.bytes hm 0

end SamePlace

theorem SamePlace.returned (h : SamePlace base d p p') (hs : p.state = p'.state)
    (ht : p.packetType = p'.packetType)
    (hpacket : carriesPacket p'.packetType = true ∨ keepsPacket p'.state = true →
      p.packet = p'.packet)
    (hcount : countsBlocks p'.state = true → p.numberOfBlocks = p'.numberOfBlocks) :
    SameResult base d (true, p) (true, p') :=
  ⟨rfl, fun _ => ⟨h.valid, hs, h.ptr, h.le, ht, fun hc => hpacket (.inl hc),
    fun hk => hpacket (.inr hk), hcount, fun _ => ⟨h.blockEnd, h.leEnd⟩⟩, fun h => (by cases h)⟩

/-! ## Items -/

section Items

variable (hm : ∀ i, base ≤ i → m (i + d) = m' i) (h : SamePlace base d p p')
  (hs : p.state = p'.state)
  (hcount : countsBlocks p'.state = true → p.numberOfBlocks = p'.numberOfBlocks)

include h hs hcount

theorem parseItemOf_relocated {n : Nat} {packetType : RTCPPacketTypes} {packet packet' : RTCPPacket}
    (hpacket : packet = packet') :
    SameResult base d (p.parseItemOf n packetType packet) (p'.parseItemOf n packetType packet') := by
  rw [parseItemOf, parseItemOf, h.length]
  split
  · exact h.leaveBlock
  · exact SamePlace.returned ⟨h.valid, (h.read n).ptr, (h.read n).le, h.blockEnd, h.leEnd⟩ hs rfl
      (fun _ => hpacket) hcount

theorem parseCountedItem_relocated (hc : countsBlocks p'.state = true) {n : Nat}
    {packetType : RTCPPacketTypes} {packet packet' : RTCPPacket} (hpacket : packet = packet') :
    SameResult base d (p.parseCountedItem n packetType packet)
      (p'.parseCountedItem n packetType packet') := by
  rw [parseCountedItem, parseCountedItem, h.length, hcount hc]
  split
  · exact h.leaveBlock
  · exact SamePlace.returned ⟨h.valid, (h.read n).ptr, (h.read n).le, h.blockEnd, h.leEnd⟩ hs rfl
      (fun _ => hpacket) (fun _ => rfl)

omit hs hcount in
include hm in
theorem be32_relocated (k : Nat) : be32 m (p.ptrRTCPData + k) = be32 m' (p'.ptrRTCPData + k) := by
  simp only [be32, Nat.add_assoc, h.bytes hm]

include hm

theorem parseReportBlockItem_relocated (hc : countsBlocks p'.state = true) :
    SameResult base d (parseReportBlockItem m p) (parseReportBlockItem m' p') :=
  parseCountedItem_relocated h hs hcount hc (by
    simp only [be24, be32, Nat.add_assoc, h.bytes hm, h.byte hm])

theorem parseIJItem_relocated (hc : countsBlocks p'.state = true) :
    SameResult base d (parseIJItem m p) (parseIJItem m' p') :=
  parseCountedItem_relocated h hs hcount hc (by
    simp only [be32, h.bytes hm, h.byte hm])

theorem parseNACKItem_relocated :
    SameResult base d (parseNACKItem m p) (parseNACKItem m' p') :=
  parseItemOf_relocated h hs hcount (by
    simp only [be16, Nat.add_assoc, h.bytes hm, h.byte hm])

omit hs hcount in
theorem tmmbItem_relocated : tmmbItem m p.ptrRTCPData = tmmbItem m' p'.ptrRTCPData := by
  simp only [tmmbItem, be32, h.bytes hm, h.byte hm]

theorem parseTMMBRItem_relocated :
    SameResult base d (parseTMMBRItem m p) (parseTMMBRItem m' p') :=
  parseItemOf_relocated h hs hcount (congrArg _ (tmmbItem_relocated hm h))

theorem parseTMMBNItem_relocated :
    SameResult base d (parseTMMBNItem m p) (parseTMMBNItem m' p') :=
  parseItemOf_relocated h hs hcount (congrArg _ (tmmbItem_relocated hm h))

theorem parseSLIItem_relocated :
    SameResult base d (parseSLIItem m p) (parseSLIItem m' p') :=
  parseItemOf_relocated h hs hcount (by
    simp only [be32, h.bytes hm, h.byte hm])

theorem parseFIRItem_relocated :
    SameResult base d (parseFIRItem m p) (parseFIRItem m' p') := by
  rw [parseFIRItem, parseFIRItem, h.length]
  split
  · exact h.leaveBlock
  · refine SamePlace.returned ⟨h.valid, ((h.read 5).skip 3).ptr, ((h.read 5).skip 3).le,
      h.blockEnd, h.leEnd⟩ hs rfl (fun _ => ?_) hcount
    simp only [be32, h.bytes hm, h.byte hm]

theorem parseBYEItem_relocated (hc : countsBlocks p'.state = true) :
    SameResult base d (parseBYEItem m p) (parseBYEItem m' p') := by
  have hbye : RTCPPacket.BYE (be32 m p.ptrRTCPData) = .BYE (be32 m' p'.ptrRTCPData) :=
    congrArg _ (be32_relocated hm h 0)
  rw [parseBYEItem, parseBYEItem]
  dsimp only
  rw [h.length, hcount hc]
  have h4 := h.read 4
  have hblocks : (p.read 4).numberOfBlocks = (p'.read 4).numberOfBlocks := hcount hc
  split
  · exact h.leaveBlock
  rw [hblocks]
  split
  · exact SamePlace.returned ⟨h.valid, (h4.skip _).ptr, (h4.skip _).le, h.blockEnd, h.leEnd⟩ hs rfl
      (fun _ => hbye) (fun _ => rfl)
  · exact SamePlace.returned ⟨h.valid, h4.ptr, h4.le, h.blockEnd, h.leEnd⟩ hs rfl
      (fun _ => hbye) (fun _ => rfl)

omit hs hcount in
theorem parsePsfbAppItem_relocated :
    SameResult base d (parsePsfbAppItem m p) (parsePsfbAppItem m' p') := by
  rw [parsePsfbAppItem, parsePsfbAppItem]
  dsimp only
  rw [h.length, h.byte hm, h.bytes hm, h.bytes hm, h.bytes hm]
  split
  · exact h.leaveBlock
  split
  · exact (h.read 1).leaveBlock
  split
  · exact (h.read 2).leaveBlock
  split
  · exact (h.read 3).leaveBlock
  split
  · exact (h.read 4).leaveBlock
  · exact SamePlace.returned ⟨h.valid, (h.read 4).ptr, (h.read 4).le, h.blockEnd, h.leEnd⟩ rfl rfl
      (fun h => (by rcases h with h | h <;> cases h)) (fun h => (by cases h))

theorem parsePsfbREMBItem_relocated :
    SameResult base d (parsePsfbREMBItem m p) (parsePsfbREMBItem m' p') := by
  have h4 := h.read 4
  rw [parsePsfbREMBItem, parsePsfbREMBItem, h.length]
  split
  · exact h.leaveBlock
  dsimp only
  rw [h4.length, h.byte hm]
  split
  · exact h4.leaveBlock
  · refine SamePlace.returned ⟨h.valid, (h4.read _).ptr, (h4.read _).le, h.blockEnd, h.leEnd⟩ hs rfl
      (fun _ => ?_) hcount
    simp only [h.bytes hm, be32_relocated hm h4]

theorem parseRPSIItem_relocated (hpacket : p.packet = p'.packet) :
    SameResult base d (parseRPSIItem m p) (parseRPSIItem m' p') := by
  have h2 := h.read 2
  have hbytes : m.bytes (p.read 2).ptrRTCPData (p'.length - 2) =
      m'.bytes (p'.read 2).ptrRTCPData (p'.length - 2) :=
    Mem.bytes_eq_iff.mpr fun i _ => h2.bytes hm i
  rw [parseRPSIItem, parseRPSIItem]
  dsimp only
  rw [h.length]
  split
  · exact h.leaveBlock
  split
  · exact h.leaveBlock
  · refine SamePlace.returned ⟨h.valid, h2.ptr, h2.le, h.blockEnd, h.leEnd⟩ hs rfl
      (fun _ => ?_) hcount
    show RTCPPacket.RPSI _ = RTCPPacket.RPSI _
    rw [hbytes, h.byte hm, h.bytes hm, show (p.read 2).packet = (p'.read 2).packet from hpacket]

theorem parseAPPItem_relocated (hpacket : p.packet = p'.packet) :
    SameResult base d (parseAPPItem m p) (parseAPPItem m' p') := by
  have hbytes : ∀ n, m.bytes p.ptrRTCPData n = m'.bytes p'.ptrRTCPData n := fun n =>
    Mem.bytes_eq_iff.mpr fun i _ => h.bytes hm i
  rw [parseAPPItem, parseAPPItem]
  dsimp only
  rw [h.length]
  split
  · exact h.leaveBlock
  · refine SamePlace.returned ⟨h.valid, (h.read _).ptr, (h.read _).le, h.blockEnd, h.leEnd⟩ hs rfl
      (fun _ => ?_) hcount
    show RTCPPacket.APP _ = RTCPPacket.APP _
    rw [hbytes, hpacket]

end Items

/-! ## Source descriptions -/

section SDES

variable (hm : ∀ i, base ≤ i → m (i + d) = m' i)

include hm

/-- The items of a chunk. A CNAME that was found is the packet of both. -/
theorem parseSDESItemFrom_relocated : ∀ {fuel : Nat} {found : Bool} {octets : Nat}
    {p p' : RTCPParserV2}, SamePlace base d p p' → p.state = p'.state →
    p.numberOfBlocks = p'.numberOfBlocks →
    (found = true → p.packetType = p'.packetType ∧ p.packet = p'.packet) →
    (parseSDESItemFrom m fuel found octets p).1 = (parseSDESItemFrom m' fuel found octets p').1 ∧
      SamePlace base d (parseSDESItemFrom m fuel found octets p).2
        (parseSDESItemFrom m' fuel found octets p').2 ∧
      (parseSDESItemFrom m fuel found octets p).2.state =
        (parseSDESItemFrom m' fuel found octets p').2.state ∧
      (parseSDESItemFrom m fuel found octets p).2.numberOfBlocks =
        (parseSDESItemFrom m' fuel found octets p').2.numberOfBlocks ∧
      ((parseSDESItemFrom m' fuel found octets p').1 = true →
        (parseSDESItemFrom m fuel found octets p).2.packetType =
          (parseSDESItemFrom m' fuel found octets p').2.packetType ∧
        (parseSDESItemFrom m fuel found octets p).2.packet =
          (parseSDESItemFrom m' fuel found octets p').2.packet)
  | 0, _, _, _, _, h, _, hcount, _ =>
    ⟨rfl, ⟨h.valid, h.blockEnd, h.leEnd, h.blockEnd, h.leEnd⟩, rfl, hcount, fun h => (by cases h)⟩
  | fuel + 1, found, octets, p, p', h, hs, hcount, hfound => by
    have hleave : ∀ {q q' : RTCPParserV2}, SamePlace base d q q' →
        q.numberOfBlocks = q'.numberOfBlocks →
        q.leaveBlock.1 = q'.leaveBlock.1 ∧ SamePlace base d q.leaveBlock.2 q'.leaveBlock.2 ∧
          q.leaveBlock.2.state = q'.leaveBlock.2.state ∧
          q.leaveBlock.2.numberOfBlocks = q'.leaveBlock.2.numberOfBlocks ∧
          (q'.leaveBlock.1 = true → q.leaveBlock.2.packetType = q'.leaveBlock.2.packetType ∧
            q.leaveBlock.2.packet = q'.leaveBlock.2.packet) := fun h hn =>
      ⟨rfl, ⟨h.valid, h.blockEnd, h.leEnd, h.blockEnd, h.leEnd⟩, rfl, hn, fun h => (by cases h)⟩
    have h1 := h.logItem.read 1
    have h2 := h1.read 1
    have hmore : ∀ {q q' : RTCPParserV2}, SamePlace base d q q' →
        (q.ptrRTCPData < q.ptrRTCPBlockEnd ↔ q'.ptrRTCPData < q'.ptrRTCPBlockEnd) := fun h => by
      rw [h.ptr, h.blockEnd]
      omega
    have hover : ∀ n, (((p.logItem.read 1).read 1).ptrRTCPData + n ≥
        ((p.logItem.read 1).read 1).ptrRTCPBlockEnd ↔ ((p'.logItem.read 1).read 1).ptrRTCPData + n ≥
        ((p'.logItem.read 1).read 1).ptrRTCPBlockEnd) := fun n => by
      rw [h2.ptr, h2.blockEnd]
      omega
    have hcname : ∀ n, m.bytes ((p.logItem.read 1).read 1).ptrRTCPData n =
        m'.bytes ((p'.logItem.read 1).read 1).ptrRTCPData n := fun n =>
      Mem.bytes_eq_iff.mpr fun i _ => h2.bytes hm i
    rw [parseSDESItemFrom, parseSDESItemFrom]
    dsimp only
    simp only [hmore h, hmore h1, h.byte hm, h1.byte hm, hover, hcname]
    split
    swap
    · exact hleave h hcount
    split
    · exact ⟨rfl, h1.skip _, hs, hcount, hfound⟩
    split
    swap
    · exact parseSDESItemFrom_relocated h1 hs hcount hfound
    split
    swap
    · exact parseSDESItemFrom_relocated (h2.skip _) hs hcount hfound
    split
    · exact hleave h2 hcount
    split
    · exact hleave (h2.peek _) hcount
    · have h3 := (h2.peek (m' (p'.logItem.read 1).ptrRTCPData).toNat).skip
        (m' (p'.logItem.read 1).ptrRTCPData).toNat
      exact parseSDESItemFrom_relocated ⟨h.valid, h3.ptr, h3.le, h.blockEnd, h.leEnd⟩ hs hcount
        (fun _ => ⟨rfl, rfl⟩)

/-- The chunks of a block, up to one with a CNAME. -/
theorem parseSDESChunks_relocated : ∀ {fuel : Nat} {p p' : RTCPParserV2},
    SamePlace base d p p' → p.state = p'.state → p.numberOfBlocks = p'.numberOfBlocks →
    SameResult base d (parseSDESChunks m fuel p) (parseSDESChunks m' fuel p')
  | 0, _, _, h, _, _ => h.leaveBlock
  | fuel + 1, p, p', h, hs, hcount => by
    have hmore : p.ptrRTCPData < p.ptrRTCPBlockEnd ↔ p'.ptrRTCPData < p'.ptrRTCPBlockEnd := by
      rw [h.ptr, h.blockEnd]
      omega
    rw [parseSDESChunks, parseSDESChunks]
    simp only [hmore, h.length]
    split
    swap
    · exact h.leaveBlock
    split
    · exact h.leaveBlock
    have h4 := h.read 4
    have hssrc : be32 m p.ptrRTCPData = be32 m' p'.ptrRTCPData := be32_relocated hm h 0
    obtain ⟨hfst, hplace, hstate, hnumber, hpacket⟩ := @parseSDESItemFrom_relocated m m' base d hm
      ((p'.read 4).length + 1) false 0 _ _ h4 hs hcount (fun h => (by cases h))
    rw [parseSDESItem, parseSDESItem, h4.length, hfst]
    split
    · rename_i hreturned
      obtain ⟨htype, hpacket⟩ := hpacket hreturned
      refine SamePlace.returned ⟨hplace.valid, hplace.ptr, hplace.le, hplace.blockEnd, hplace.leEnd⟩
        hstate htype (fun _ => ?_) (fun _ => hnumber)
      dsimp only
      rw [hpacket, hssrc]
    · exact parseSDESChunks_relocated hplace hstate hnumber

theorem parseSDESChunk_relocated (h : SamePlace base d p p') (hs : p.state = p'.state)
    (hcount : p.numberOfBlocks = p'.numberOfBlocks) :
    SameResult base d (parseSDESChunk m p) (parseSDESChunk m' p') := by
  rw [parseSDESChunk, parseSDESChunk, hcount]
  split
  · exact h.leaveBlock
  · have hplace : SamePlace base d { p with numberOfBlocks := p'.numberOfBlocks - 1 }
        { p' with numberOfBlocks := p'.numberOfBlocks - 1 } :=
      ⟨h.valid, h.ptr, h.le, h.blockEnd, h.leEnd⟩
    dsimp only
    rw [hplace.length]
    exact parseSDESChunks_relocated hm hplace hs rfl

end SDES

/-- The item parser of any state. -/
theorem parseItem_relocated (hm : ∀ i, base ≤ i → m (i + d) = m' i)
    (h : SamePlace base d p p') (hs : p.state = p'.state)
    (hcount : countsBlocks p'.state = true → p.numberOfBlocks = p'.numberOfBlocks)
    (hpacket : keepsPacket p'.state = true → p.packet = p'.packet)
    (hblock : InBlock p'.state) : SameResult base d (parseItem m p) (parseItem m' p') := by
  rw [parseItem, parseItem, hs]
  cases hst : p'.state with
  | TopLevel => exact absurd hst hblock.1
  | XRItem => exact absurd hst hblock.2
  | ReportBlockItem => exact parseReportBlockItem_relocated hm h hs hcount (by rw [hst]; rfl)
  | SDESChunk => exact parseSDESChunk_relocated hm h hs (hcount (by rw [hst]; rfl))
  | BYEItem => exact parseBYEItem_relocated hm h hs hcount (by rw [hst]; rfl)
  | ExtendedJitterItem => exact parseIJItem_relocated hm h hs hcount (by rw [hst]; rfl)
  | RTPFB_NACKItem => exact parseNACKItem_relocated hm h hs hcount
  | RTPFB_TMMBRItem => exact parseTMMBRItem_relocated hm h hs hcount
  | RTPFB_TMMBNItem => exact parseTMMBNItem_relocated hm h hs hcount
  | PSFB_SLIItem => exact parseSLIItem_relocated hm h hs hcount
  | PSFB_RPSIItem => exact parseRPSIItem_relocated hm h hs hcount (hpacket (by rw [hst]; rfl))
  | PSFB_FIRItem => exact parseFIRItem_relocated hm h hs hcount
  | PSFB_AppItem => exact parsePsfbAppItem_relocated hm h
  | PSFB_REMBItem => exact parsePsfbREMBItem_relocated hm h hs hcount
  | AppItem => exact parseAPPItem_relocated hm h hs hcount (hpacket (by rw [hst]; rfl))

/-! ## Blocks -/

section Blocks

theorem SamePlace.atEnd (h : SamePlace base d p p') :
    SamePlace base d p.endCurrentBlock p'.endCurrentBlock :=
  ⟨h.valid, h.blockEnd, h.leEnd, h.blockEnd, h.leEnd⟩

/-- The block is skipped. -/
theorem SamePlace.skipped (h : SamePlace base d p p') (hs : p.state = .TopLevel)
    (hs' : p'.state = .TopLevel) :
    SameResult base d (false, p.endCurrentBlock) (false, p'.endCurrentBlock) :=
  ⟨rfl, fun h => (by cases h), fun _ => h.endCurrentBlock hs hs'⟩

/-- The parser stops at the top level, without a packet. -/
theorem SamePlace.stopped (h : SamePlace base d p p') (hs : p.state = .TopLevel)
    (hs' : p'.state = .TopLevel) (ht : p.packetType = .kRtcpNotValidCode)
    (ht' : p'.packetType = .kRtcpNotValidCode) : SameResult base d (true, p) (true, p') := by
  refine h.returned (by rw [hs, hs']) (by rw [ht, ht']) (fun hc => ?_) (fun hc => ?_)
  · rw [ht', hs'] at hc
    rcases hc with hc | hc <;> cases hc
  · rw [hs'] at hc
    cases hc

/-- The packet of a message is its own, except for an SR-REQ. -/
theorem feedbackMessage_packets (PT IC : Byte) (sender media : BitVec 32)
    (packet packet' : RTCPPacket) :
    (feedbackMessage PT IC sender media packet = none ∧
      feedbackMessage PT IC sender media packet' = none) ∨
    ∃ t q q' state, feedbackMessage PT IC sender media packet = some (t, q, state) ∧
      feedbackMessage PT IC sender media packet' = some (t, q', state) ∧
      (carriesPacket t = true ∨ keepsPacket state = true → q = q') ∧ countsBlocks state = false := by
  rw [feedbackMessage, feedbackMessage]
  generalize IC.toNat = count
  split
  · split
    any_goals exact .inr ⟨_, _, _, _, rfl, rfl, fun _ => rfl, rfl⟩
    · exact .inr ⟨_, _, _, _, rfl, rfl, fun h => (by rcases h with h | h <;> cases h), rfl⟩
    · exact .inl ⟨rfl, rfl⟩
  · split
    any_goals exact .inr ⟨_, _, _, _, rfl, rfl, fun _ => rfl, rfl⟩
    exact .inl ⟨rfl, rfl⟩

variable (hm : ∀ i, base ≤ i → m (i + d) = m' i) (h : SamePlace base d p p')
  (hs : p.state = .TopLevel) (hs' : p'.state = .TopLevel)

include hm h hs hs'

omit hm hs hs' in
theorem parseSDES_relocated (hcount : p.numberOfBlocks = p'.numberOfBlocks) :
    SameResult base d (parseSDES p) (parseSDES p') := by
  have h4 := h.skip 4
  rw [parseSDES, parseSDES, h.length]
  split
  · exact h.leaveBlock
  · exact SamePlace.returned ⟨h.valid, h4.ptr, h4.le, h.blockEnd, h.leEnd⟩ rfl rfl
      (fun hc => (by rcases hc with hc | hc <;> cases hc)) (fun _ => hcount)

omit hs hs' in
theorem parseBYE_relocated (hcount : p.numberOfBlocks = p'.numberOfBlocks) :
    SameResult base d (parseBYE m p) (parseBYE m' p') := by
  have h4 := h.skip 4
  exact parseBYEItem_relocated hm ⟨h.valid, h4.ptr, h4.le, h.blockEnd, h.leEnd⟩ rfl
    (fun _ => hcount) rfl

theorem parseFBCommon_relocated (header : RTCPCommonHeader) :
    SameResult base d (parseFBCommon m header p) (parseFBCommon m' header p') := by
  have h4 := h.skip 4
  have h8 := h4.read 8
  have hsender : be32 m (p.skip 4).ptrRTCPData = be32 m' (p'.skip 4).ptrRTCPData :=
    be32_relocated hm h4 0
  rw [parseFBCommon, parseFBCommon, h.length]
  split
  · exact h.skipped hs hs'
  dsimp only
  rw [hsender, be32_relocated hm h4]
  obtain ⟨hnone, hnone'⟩ | ⟨t, packet, packet', state, hsome, hsome', hpacket, hcount⟩ :=
    feedbackMessage_packets header.PT header.IC (be32 m' (p'.skip 4).ptrRTCPData)
      (be32 m' ((p'.skip 4).ptrRTCPData + 4)) ((p.skip 4).read 8).packet ((p'.skip 4).read 8).packet
  · rw [hnone, hnone']
    exact h8.skipped hs hs'
  · rw [hsome, hsome']
    refine SamePlace.returned ⟨h.valid, h8.ptr, h8.le, h.blockEnd, h.leEnd⟩ rfl rfl hpacket
      (fun hc => ?_)
    rw [hcount] at hc
    cases hc

theorem parseAPP_relocated (header : RTCPCommonHeader) :
    SameResult base d (parseAPP m header p) (parseAPP m' header p') := by
  have h4 := h.skip 4
  have h8 := h4.read 8
  rw [parseAPP, parseAPP, h.length]
  split
  · exact h.skipped hs hs'
  · dsimp only
    rw [be32_relocated hm h4]
    exact SamePlace.returned ⟨h.valid, h8.ptr, h8.le, h.blockEnd, h.leEnd⟩ rfl rfl
      (fun _ => rfl) (fun hc => (by cases hc))

theorem parseXRVOIPMetricItem_relocated :
    SameResult base d (parseXRVOIPMetricItem m p) (parseXRVOIPMetricItem m' p') := by
  have h32 := h.read 32
  rw [parseXRVOIPMetricItem, parseXRVOIPMetricItem, h.length]
  split
  · exact h.skipped hs hs'
  · refine SamePlace.returned ⟨h.valid, h32.ptr, h32.le, h.blockEnd, h.leEnd⟩ (hs.trans hs'.symm) rfl
      (fun _ => ?_) (fun hc => ?_)
    · simp only [be32, be16, h.byte hm, h.bytes hm, Nat.add_assoc]
    · have hc : countsBlocks p'.state = true := hc
      rw [hs'] at hc
      cases hc

theorem parseXR_relocated : SameResult base d (parseXR m p) (parseXR m' p') := by
  have h4 := (h.skip 4).read 4
  rw [parseXR, parseXR, h.length]
  split
  · exact h.skipped hs hs'
  dsimp only
  have hplace : ∀ packet packet' : RTCPPacket, SamePlace base d
      { (p.skip 4).read 4 with packet := packet } { (p'.skip 4).read 4 with packet := packet' } :=
    fun _ _ => ⟨h.valid, h4.ptr, h4.le, h.blockEnd, h.leEnd⟩
  generalize hq : ({ (p.skip 4).read 4 with
    packet := RTCPPacket.XR (be32 m (p.skip 4).ptrRTCPData) } : RTCPParserV2) = q
  generalize hq' : ({ (p'.skip 4).read 4 with
    packet := RTCPPacket.XR (be32 m' (p'.skip 4).ptrRTCPData) } : RTCPParserV2) = q'
  have hqq' : SamePlace base d q q' := hq ▸ hq' ▸ hplace _ _
  have hqs : q.state = .TopLevel := hq ▸ hs
  have hqs' : q'.state = .TopLevel := hq' ▸ hs'
  rw [parseXRItem, parseXRItem, hqq'.length]
  split
  · exact hqq'.skipped hqs hqs'
  dsimp only
  rw [hqq'.byte hm, hqq'.bytes hm, hqq'.bytes hm]
  split
  · split
    · exact (hqq'.read 4).skipped hqs hqs'
    · exact parseXRVOIPMetricItem_relocated hm (hqq'.read 4) hqs hqs'
  · exact (hqq'.read 4).skipped hqs hqs'

variable (ht : p.packetType = .kRtcpNotValidCode) (ht' : p'.packetType = .kRtcpNotValidCode)

include ht ht'

theorem parseSR_relocated (hcount : p.numberOfBlocks = p'.numberOfBlocks) :
    SameResult base d (true, (parseSR m p).2) (true, (parseSR m' p').2) := by
  have h4 := h.skip 4
  have h24 := h4.read 24
  have hblocks : ((p.skip 4).read 24).numberOfBlocks = ((p'.skip 4).read 24).numberOfBlocks := hcount
  have hblocks' : (p.skip 4).numberOfBlocks = (p'.skip 4).numberOfBlocks := hcount
  have hsender : be32 m (p.skip 4).ptrRTCPData = be32 m' (p'.skip 4).ptrRTCPData :=
    be32_relocated hm h4 0
  rw [parseSR, parseSR, h.length]
  split
  · exact h.atEnd.stopped hs hs' ht ht'
  dsimp only
  by_cases hnone : ((p'.skip 4).read 24).numberOfBlocks ≠ 0
  · rw [hblocks, if_pos hnone, if_pos hnone]
    refine SamePlace.returned ⟨h.valid, h24.ptr, h24.le, h.blockEnd, h.leEnd⟩ rfl rfl
      (fun _ => ?_) (fun _ => rfl)
    simp only [be32_relocated hm h4, hsender, hblocks']
  · rw [hblocks, if_neg hnone, if_neg hnone]
    refine SamePlace.returned ⟨h.valid, h.blockEnd, h.leEnd, h.blockEnd, h.leEnd⟩ rfl rfl
      (fun _ => ?_) (fun _ => rfl)
    change RTCPPacket.SR _ = RTCPPacket.SR _
    simp only [be32_relocated hm h4, hsender, hblocks']

theorem parseRR_relocated (hcount : p.numberOfBlocks = p'.numberOfBlocks) :
    SameResult base d (true, (parseRR m p).2) (true, (parseRR m' p').2) := by
  have h4 := h.skip 4
  have h44 := h4.read 4
  have hblocks : (p.skip 4).numberOfBlocks = (p'.skip 4).numberOfBlocks := hcount
  have hsender : be32 m (p.skip 4).ptrRTCPData = be32 m' (p'.skip 4).ptrRTCPData :=
    be32_relocated hm h4 0
  rw [parseRR, parseRR, h.length]
  split
  · exact h.stopped hs hs' ht ht'
  · refine SamePlace.returned ⟨h.valid, h44.ptr, h44.le, h.blockEnd, h.leEnd⟩ rfl rfl
      (fun _ => ?_) (fun _ => hcount)
    show RTCPPacket.RR _ _ = RTCPPacket.RR _ _
    rw [hsender, hblocks]

omit hm in
theorem parseIJ_relocated (hcount : p.numberOfBlocks = p'.numberOfBlocks) :
    SameResult base d (true, (parseIJ p).2) (true, (parseIJ p').2) := by
  have h4 := h.skip 4
  rw [parseIJ, parseIJ, h.length]
  split
  · exact h.stopped hs hs' ht ht'
  · exact SamePlace.returned ⟨h.valid, h4.ptr, h4.le, h.blockEnd, h.leEnd⟩ rfl rfl
      (fun hc => (by rcases hc with hc | hc <;> cases hc)) (fun _ => hcount)

theorem parseBlock_relocated (header : RTCPCommonHeader) :
    SameResult base d (parseBlock m header p) (parseBlock m' header p') := by
  have hcounted : SamePlace base d { p with numberOfBlocks := header.IC.toNat }
      { p' with numberOfBlocks := header.IC.toNat } :=
    ⟨h.valid, h.ptr, h.le, h.blockEnd, h.leEnd⟩
  rw [parseBlock, parseBlock]
  split
  · exact parseSR_relocated hm hcounted hs hs' ht ht' rfl
  split
  · exact parseRR_relocated hm hcounted hs hs' ht ht' rfl
  split
  · exact parseSDES_relocated hcounted rfl
  split
  · exact parseBYE_relocated hm hcounted rfl
  split
  · exact parseIJ_relocated hcounted hs hs' ht ht' rfl
  split
  · exact parseFBCommon_relocated hm h hs hs' header
  split
  · exact parseAPP_relocated hm h hs hs' header
  split
  · exact parseXR_relocated hm h hs hs'
  · exact h.skipped hs hs'

end Blocks

/-! ## Calls -/

variable {dataEnd : Nat}

theorem rtcpParseCommonHeader_relocated (hm : ∀ i, base ≤ i → m (i + d) = m' i) {pos : Nat}
    (hle : base ≤ pos) :
    rtcpParseCommonHeader m (pos + d) (dataEnd + d) = rtcpParseCommonHeader m' pos dataEnd := by
  have hbyte : ∀ k, m (pos + d + k) = m' (pos + k) := fun k => by
    rw [Nat.add_right_comm, hm _ (hle.trans (Nat.le_add_right _ k))]
  have hlength : be16 m (pos + d + 2) = be16 m' (pos + 2) := by
    rw [be16, be16, Nat.add_assoc (pos + d), hbyte, hbyte]
  rw [rtcpParseCommonHeader, rtcpParseCommonHeader, Nat.add_sub_add_right, hm _ hle, hbyte, hlength]

/-- The loop over the blocks, by induction on its rounds: a block that is skipped
ends behind its start. -/
theorem iterateTopLevel_relocated (hd : 4 ∣ d) (hm : ∀ i, base ≤ i → m (i + d) = m' i) :
    ∀ {fuel fuel' : Nat} {p p' : RTCPParserV2}, SameTop base d p p' →
    p.packetType = .kRtcpNotValidCode → p'.packetType = .kRtcpNotValidCode →
    4 ∣ p'.ptrRTCPData → dataEnd - p'.ptrRTCPData < fuel → dataEnd - p'.ptrRTCPData < fuel' →
    Relocated base d (iterateTopLevel m (dataEnd + d) fuel p) (iterateTopLevel m' dataEnd fuel' p')
  | 0, _, _, _, _, _, _, _, hfuel, _ => absurd hfuel (Nat.not_lt_zero _)
  | _, 0, _, _, _, _, _, _, _, hfuel => absurd hfuel (Nat.not_lt_zero _)
  | fuel + 1, fuel' + 1, p, p', h, ht, ht', h4, hfuel, hfuel' => by
    have hstop : ∀ {q q' : RTCPParserV2}, q.validPacket = p.validPacket → q.state = p.state →
        q.ptrRTCPData = p.ptrRTCPData → q.packetType = p.packetType →
        q'.validPacket = p'.validPacket → q'.state = p'.state →
        q'.ptrRTCPData = p'.ptrRTCPData → q'.packetType = p'.packetType →
        Relocated base d q q' := by
      intro q q' hv hs hp hty hv' hs' hp' hty'
      refine ⟨by rw [hv, hv', h.valid], by rw [hs, hs', h.state, h.state'], by rw [hp, hp', h.ptr],
        by rw [hp']; exact h.le, by rw [hty, hty', ht, ht'], fun hc => ?_, fun hc => ?_, fun hc => ?_,
        fun hc => ?_⟩
      · rw [hty', ht'] at hc
        cases hc
      · rw [hs', h.state'] at hc
        cases hc
      · rw [hs', h.state'] at hc
        cases hc
      · exact absurd (hs'.trans h.state') hc
    rw [iterateTopLevel, iterateTopLevel]
    dsimp only
    rw [h.ptr, rtcpParseCommonHeader_relocated hm h.le]
    cases hh : rtcpParseCommonHeader m' p'.ptrRTCPData dataEnd with
    | none => exact hstop rfl rfl rfl rfl rfl rfl rfl rfl
    | some header =>
      obtain ⟨hroom, -, -, -, hlen, hlen4⟩ := header_some hh
      dsimp only
      by_cases hbad : p'.ptrRTCPData + header.LengthInOctets.toNat > dataEnd
      · rw [if_pos (by omega), if_pos hbad]
        exact hstop rfl rfl rfl rfl rfl rfl rfl rfl
      rw [if_neg (by omega), if_neg hbad]
      generalize hq : ({ p.logHeader (dataEnd + d) with
        ptrRTCPBlockEnd := p'.ptrRTCPData + d + header.LengthInOctets.toNat } : RTCPParserV2) = q
      generalize hq' : ({ p'.logHeader dataEnd with
        ptrRTCPBlockEnd := p'.ptrRTCPData + header.LengthInOctets.toNat } : RTCPParserV2) = q'
      have hptr : q.ptrRTCPData = p'.ptrRTCPData + d := hq ▸ h.ptr
      have hptr' : q'.ptrRTCPData = p'.ptrRTCPData := by rw [← hq']; rfl
      have hend : q.ptrRTCPBlockEnd = p'.ptrRTCPData + d + header.LengthInOctets.toNat := by rw [← hq]
      have hend' : q'.ptrRTCPBlockEnd = p'.ptrRTCPData + header.LengthInOctets.toNat := by rw [← hq']
      have hplace : SamePlace base d q q' :=
        ⟨hq ▸ hq' ▸ h.valid, by rw [hptr, hptr'], by rw [hptr']; exact h.le,
          by rw [hend, hend']; omega, by rw [hend']; exact h.le.trans (Nat.le_add_right _ _)⟩
      have hs : q.state = .TopLevel := hq ▸ h.state
      have hs' : q'.state = .TopLevel := hq' ▸ h.state'
      have hqt : q.packetType = .kRtcpNotValidCode := hq ▸ ht
      have hqt' : q'.packetType = .kRtcpNotValidCode := hq' ▸ ht'
      have hresult := parseBlock_relocated hm hplace hs hs' hqt hqt' header
      have hspec : BlockSpec m (dataEnd + d) header q (parseBlock m header q) :=
        parseBlock_spec ⟨hs, by rw [hend, hptr], hlen, by
          rw [hptr]
          exact (Nat.dvd_add_right h4).mpr hd, hlen4⟩
      have hspec' : BlockSpec m' dataEnd header q' (parseBlock m' header q') :=
        parseBlock_spec ⟨hs', by rw [hend', hptr'], hlen, by rw [hptr']; exact h4, hlen4⟩
      rw [hresult.fst]
      split
      · rename_i hret
        exact hresult.returned hret
      · rename_i hskip
        have hskip' := Bool.not_eq_true _ ▸ hskip
        have hnext := @lt_nextPos m' p'.ptrRTCPData header hlen
        obtain ⟨-, -, hty, -⟩ := hspec.skipped (hresult.fst.trans hskip')
        obtain ⟨-, -, hty', hgo⟩ := hspec'.skipped hskip'
        rw [hptr'] at hgo
        exact iterateTopLevel_relocated hd hm (hresult.left hskip') (hty.trans hqt)
          (hty'.trans hqt') hspec'.aligned (by omega) (by omega)

/-- A call at the top level, whatever the parsers have parsed before. -/
theorem iterateWithin_sameTop (hd : 4 ∣ d) (hm : ∀ i, base ≤ i → m (i + d) = m' i)
    (h : SameTop base d p p') (hvalid : p'.validPacket = true) (h4 : 4 ∣ p'.ptrRTCPData)
    (depth : Nat) : Relocated base d (iterateWithin m (dataEnd + d) (depth + 1) p)
      (iterateWithin m' dataEnd (depth + 1) p') := by
  rw [iterateWithin, iterateWithin]
  dsimp only
  rw [if_pos (h.valid.trans hvalid), if_pos hvalid, if_pos h.state, if_pos h.state']
  exact @iterateTopLevel_relocated m m' base d dataEnd hd hm _ _ _ _
    ⟨h.valid, h.state, h.state', h.ptr, h.le⟩ rfl rfl h4
    (by show dataEnd - p'.ptrRTCPData < _; omega) (by show dataEnd - p'.ptrRTCPData < _; omega)

/-- A call, from the same place of the same packet. -/
theorem iterate_relocated (hd : 4 ∣ d) (hm : ∀ i, base ≤ i → m (i + d) = m' i)
    (h : Relocated base d p p') (hp' : Reachable dataEnd p') (hvalid : p'.validPacket = true) :
    Relocated base d (iterate m (dataEnd + d) p) (iterate m' dataEnd p') := by
  by_cases hst : p'.state = .TopLevel
  · exact iterateWithin_sameTop hd hm ⟨h.valid, h.state.trans hst, hst, h.ptr, h.le⟩ hvalid
      (hp'.aligned.resolve_left (by rw [hst]; decide)) 1
  obtain ⟨hend, hle⟩ := h.block hst
  obtain ⟨hend4, hend', -⟩ := hp'.block hst
  have hplace : SamePlace base d { p with packetType := RTCPPacketTypes.kRtcpNotValidCode }
      { p' with packetType := RTCPPacketTypes.kRtcpNotValidCode } :=
    ⟨h.valid, h.ptr, h.le, hend, hle⟩
  have hresult := parseItem_relocated hm hplace h.state h.counted h.kept ⟨hst, hp'.state⟩
  have hspec : ItemSpec m' dataEnd { p' with packetType := .kRtcpNotValidCode }
      (parseItem m' { p' with packetType := .kRtcpNotValidCode }) :=
    parseItem_spec ⟨hst, hp'.state⟩ hp'.aligned hend4
  rw [iterate, iterate, iterateWithin, iterateWithin]
  dsimp only
  rw [if_pos (h.valid.trans hvalid), if_pos hvalid, if_neg (by rw [h.state]; exact hst), if_neg hst,
    hresult.fst]
  split
  · rename_i hret
    exact hresult.returned hret
  · rename_i hleft
    have hleft' := Bool.not_eq_true _ ▸ hleft
    have hptr := (hspec.left hleft').2
    exact iterateWithin_sameTop hd hm (hresult.left hleft') (hspec.keeps.valid.trans hvalid)
      (by rw [hptr]; exact hend4) 0

end

end PerchWebrtc.Rtcp.RTCPParserV2
