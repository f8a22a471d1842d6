import PerchWebrtc.Framework.Buffer
import PerchWebrtc.Rtcp.Runs

/-!
# Parsing a feedback block

The calls of `Iterate` over one feedback block of a compound packet: the
first returns the message, the next ones its items, and the last one goes on
behind the block.

* `iterate_feedback`: from the top level to the items;
* `iterate_packetType`: from the top level no item is returned;
* `iterate_item`: an item that is returned;
* `iterate_left`: an item parser that gives up.
-/

namespace PerchWebrtc.Rtcp.RTCPParserV2

/-- The parser is in a block that ends at `blockEnd`, at `ptr`. -/
structure At (p : RTCPParserV2) (state : ParseState) (ptr blockEnd : Nat) : Prop where
  valid : p.validPacket = true
  state : p.state = state
  ptr : p.ptrRTCPData = ptr
  blockEnd : p.ptrRTCPBlockEnd = blockEnd

/-- The parser is at the top level, at `ptr`. -/
structure AtTopLevel (p : RTCPParserV2) (ptr : Nat) : Prop where
  valid : p.validPacket = true
  state : p.state = .TopLevel
  ptr : p.ptrRTCPData = ptr

/-- The parser has returned a packet. -/
structure Returned (p : RTCPParserV2) (packetType : RTCPPacketTypes) (packet : RTCPPacket) :
    Prop where
  packetType : p.packetType = packetType
  packet : p.packet = packet

/-- The first bytes of a feedback block of `length` octets. -/
def feedbackBytes (FMT PT : Byte) (words : BitVec 16) (senderSSRC mediaSSRC : BitVec 32) :
    List Byte :=
  [0x80 + FMT, PT] ++ (bytes16 words ++ bytes32 senderSSRC ++ bytes32 mediaSSRC)

section

variable {m : Mem} {dataEnd : Nat} {p : RTCPParserV2}

/-- The common header of a block. -/
theorem rtcpParseCommonHeader_of_bytes {pos : Nat} {count PT : Byte} {words : BitVec 16}
    (hcount : count.toNat < 32) (h0 : m pos = 0x80 + count) (h1 : m (pos + 1) = PT)
    (h2 : be16 m (pos + 2) = words) (hwords : words.toNat + 1 < 2 ^ 14)
    (hend : pos + 4 ≤ dataEnd) :
    rtcpParseCommonHeader m pos dataEnd =
      some { V := 2, P := false, IC := count, PT := PT,
             LengthInOctets := BitVec.ofNat 16 (4 * (words.toNat + 1)) } := by
  have hbits : ∀ c : Byte, c.toNat < 32 →
      (0x80 + c) >>> 6 = 2 ∧ (0x80 + c) &&& 0x20 = 0 ∧ (0x80 + c) &&& 0x1f = c := by decide +kernel
  obtain ⟨hV, hP, hIC⟩ := hbits count hcount
  have hlen : (words + 1) * 4 = BitVec.ofNat 16 (4 * (words.toNat + 1)) := by
    apply BitVec.eq_of_toNat_eq
    rw [BitVec.toNat_mul, BitVec.toNat_add, BitVec.toNat_ofNat]
    change (words.toNat + 1) % 65536 * 4 % 65536 = _
    omega
  have hne : BitVec.ofNat 16 (4 * (words.toNat + 1)) ≠ 0 := by
    intro h
    have h := congrArg BitVec.toNat h
    rw [BitVec.toNat_ofNat] at h
    change _ = 0 at h
    omega
  rw [rtcpParseCommonHeader, if_neg (by omega)]
  dsimp only
  rw [h0, h1, h2, hV, hP, hIC, hlen, if_neg hne, if_neg (by decide)]
  simp

/-- The message at the start of a feedback block. -/
theorem parseBlock_feedback {pos blockEnd : Nat} {header : RTCPCommonHeader}
    {senderSSRC mediaSSRC : BitVec 32} {packetType : RTCPPacketTypes} {packet : RTCPPacket}
    {state : ParseState} (hvalid : p.validPacket = true) (hptr : p.ptrRTCPData = pos)
    (hblockEnd : p.ptrRTCPBlockEnd = blockEnd) (hroom : pos + 12 ≤ blockEnd)
    (hPT : header.PT = PT_RTPFB ∨ header.PT = PT_PSFB)
    (h4 : be32 m (pos + 4) = senderSSRC) (h8 : be32 m (pos + 8) = mediaSSRC)
    (hmessage : ∀ packet', feedbackMessage header.PT header.IC senderSSRC mediaSSRC packet' =
      some (packetType, packet, state)) :
    ∃ q : RTCPParserV2, parseBlock m header p = (true, q) ∧ q.At state (pos + 12) blockEnd ∧
      q.Returned packetType packet := by
  have hother : ∀ PT ∈ [PT_SR, PT_RR, PT_SDES, PT_BYE, PT_IJ], header.PT ≠ PT := by
    rcases hPT with hPT | hPT
    all_goals
      rw [hPT]
      decide
  simp only [List.forall_mem_cons] at hother
  obtain ⟨hSR, hRR, hSDES, hBYE, hIJ, -⟩ := hother
  subst hptr hblockEnd
  rw [parseBlock, if_neg hSR, if_neg hRR, if_neg hSDES, if_neg hBYE, if_neg hIJ, if_pos hPT, parseFBCommon,
    if_neg (by rw [length]; omega)]
  dsimp only [skip, moveTo, read, peek]
  rw [h4, Nat.add_assoc, h8, hmessage]
  exact ⟨_, rfl, ⟨hvalid, rfl, rfl, rfl⟩, ⟨rfl, rfl⟩⟩

/-- A block that fits and returns a packet. -/
theorem iterateTopLevel_block {fuel : Nat} {header : RTCPCommonHeader} {q : RTCPParserV2}
    (h : rtcpParseCommonHeader m p.ptrRTCPData dataEnd = some header)
    (hfits : p.ptrRTCPData + header.LengthInOctets.toNat ≤ dataEnd)
    (hblock : parseBlock m header { p.logHeader dataEnd with
      ptrRTCPBlockEnd := p.ptrRTCPData + header.LengthInOctets.toNat } = (true, q)) :
    iterateTopLevel m dataEnd (fuel + 1) p = q := by
  rw [iterateTopLevel]
  dsimp only
  rw [h]
  dsimp only
  rw [if_neg (Nat.not_lt.mpr hfits), hblock]
  rfl

/-- From the top level to the items of a feedback message. -/
theorem iterate_feedback {pos : Nat} {FMT PT : Byte} {words : BitVec 16}
    {senderSSRC mediaSSRC : BitVec 32} {packetType : RTCPPacketTypes} {packet : RTCPPacket}
    {state : ParseState} (hp : p.AtTopLevel pos)
    (hbytes : m.Holds pos (feedbackBytes FMT PT words senderSSRC mediaSSRC))
    (hFMT : FMT.toNat < 32) (hPT : PT = PT_RTPFB ∨ PT = PT_PSFB)
    (hwords : 2 ≤ words.toNat ∧ words.toNat + 1 < 2 ^ 14)
    (hend : pos + 4 * (words.toNat + 1) ≤ dataEnd)
    (hmessage : ∀ packet', feedbackMessage PT FMT senderSSRC mediaSSRC packet' =
      some (packetType, packet, state)) :
    (iterate m dataEnd p).At state (pos + 12) (pos + 4 * (words.toNat + 1)) ∧
      (iterate m dataEnd p).Returned packetType packet := by
  simp only [feedbackBytes, Mem.holds_cons, Mem.holds_append, Mem.holds_nil, and_true,
    Mem.holds_bytes16, Mem.holds_bytes32, List.length_append, List.length_cons, List.length_nil,
    length_bytes16, length_bytes32, Nat.add_assoc, Nat.reduceAdd] at hbytes
  obtain ⟨⟨h0, h1⟩, ⟨h2, h4⟩, h8⟩ := hbytes
  obtain ⟨hvalid, hst, hptr⟩ := hp
  have hheader := @rtcpParseCommonHeader_of_bytes m dataEnd pos FMT PT words hFMT h0 h1 h2 hwords.2
    (by omega)
  have hlength : (BitVec.ofNat 16 (4 * (words.toNat + 1))).toNat = 4 * (words.toNat + 1) := by
    rw [BitVec.toNat_ofNat]
    omega
  subst hptr
  obtain ⟨q, hq, hat, hret⟩ := @parseBlock_feedback m
    { logHeader { p with packetType := .kRtcpNotValidCode } dataEnd with
      ptrRTCPBlockEnd := p.ptrRTCPData + 4 * (words.toNat + 1) } p.ptrRTCPData
    (p.ptrRTCPData + 4 * (words.toNat + 1))
    ⟨2, false, FMT, PT, BitVec.ofNat 16 (4 * (words.toNat + 1))⟩ senderSSRC mediaSSRC packetType
    packet state hvalid rfl rfl (by omega) hPT h4 h8 hmessage
  rw [iterate, iterateWithin]
  dsimp only
  rw [if_pos hvalid, if_pos hst, @iterateTopLevel_block m dataEnd
    { p with packetType := .kRtcpNotValidCode } dataEnd _ q hheader (by rw [hlength]; exact hend)
    (by rw [hlength]; exact hq)]
  exact ⟨hat, hret⟩

/-- The packets that only the items of a block are returned as. -/
def isItem : RTCPPacketTypes → Bool
  | .kRtcpReportBlockItemCode | .kRtcpSdesChunkCode | .kRtcpExtendedIjItemCode
  | .kRtcpRtpfbNackItemCode | .kRtcpPsfbSliItemCode | .kRtcpPsfbRembCode | .kRtcpPsfbRembItemCode
  | .kRtcpRtpfbTmmbrItemCode | .kRtcpRtpfbTmmbnItemCode | .kRtcpPsfbFirItemCode
  | .kRtcpAppItemCode => true
  | _ => false

theorem parseFBCommon_packetType (header : RTCPCommonHeader) (h : isItem p.packetType = false) :
    isItem (parseFBCommon m header p).2.packetType = false := by
  rw [parseFBCommon]
  split
  · exact h
  dsimp only
  split
  · rename_i hmessage
    rw [feedbackMessage] at hmessage
    split at hmessage
    all_goals
      split at hmessage
      all_goals
        cases hmessage
        try rfl
  · exact h

theorem parseXR_packetType (h : isItem p.packetType = false) :
    isItem (parseXR m p).2.packetType = false := by
  rw [parseXR]
  split
  · exact h
  rw [parseXRItem]
  split
  · exact h
  dsimp only
  split
  · split
    · exact h
    · rw [parseXRVOIPMetricItem]
      split
      · exact h
      · rfl
  · exact h

theorem parseBYE_packetType (h : isItem p.packetType = false) :
    isItem (parseBYE m p).2.packetType = false := by
  rw [parseBYE, parseBYEItem]
  dsimp only
  split
  · exact h
  · split <;> rfl

theorem parseBlock_packetType (header : RTCPCommonHeader) (h : isItem p.packetType = false) :
    isItem (parseBlock m header p).2.packetType = false := by
  rw [parseBlock]
  split
  · rw [parseSR]
    split
    · exact h
    · dsimp only
      split <;> rfl
  split
  · rw [parseRR]
    split
    · exact h
    · rfl
  split
  · rw [parseSDES]
    split
    · exact h
    · rfl
  split
  · exact parseBYE_packetType h
  split
  · rw [parseIJ]
    split
    · exact h
    · rfl
  split
  · exact parseFBCommon_packetType header h
  split
  · rw [parseAPP]
    split
    · exact h
    · rfl
  split
  · exact parseXR_packetType h
  · exact h

theorem iterateTopLevel_packetType : ∀ (fuel : Nat) {p : RTCPParserV2},
    isItem p.packetType = false → isItem (iterateTopLevel m dataEnd fuel p).packetType = false
  | 0, _, h => h
  | fuel + 1, p, h => by
    rw [iterateTopLevel]
    dsimp only
    split
    · exact h
    · rename_i header _
      split
      · exact h
      · have hblock := @parseBlock_packetType m { p.logHeader dataEnd with
          ptrRTCPBlockEnd := p.ptrRTCPData + header.LengthInOctets.toNat } header h
        split
        · exact hblock
        · exact iterateTopLevel_packetType fuel hblock

/-- From the top level no item is returned. -/
theorem iterate_packetType {ptr : Nat} (hp : p.AtTopLevel ptr) :
    isItem (iterate m dataEnd p).packetType = false := by
  rw [iterate, iterateWithin]
  dsimp only
  rw [if_pos hp.valid, if_pos hp.state]
  exact iterateTopLevel_packetType _ rfl

/-- What `Iterate` starts an item with. -/
def reset (p : RTCPParserV2) : RTCPParserV2 := { p with packetType := .kRtcpNotValidCode }

theorem At.reset {state : ParseState} {ptr blockEnd : Nat} (hp : p.At state ptr blockEnd) :
    p.reset.At state ptr blockEnd := ⟨hp.valid, hp.state, hp.ptr, hp.blockEnd⟩

/-- An item that is returned. -/
theorem iterate_item {state : ParseState} {ptr blockEnd : Nat} (hp : p.At state ptr blockEnd)
    (hst : state ≠ .TopLevel) {q : RTCPParserV2} (hitem : parseItem m p.reset = (true, q)) :
    iterate m dataEnd p = q := by
  have hitem : parseItem m { p with packetType := .kRtcpNotValidCode } = (true, q) := hitem
  rw [iterate, iterateWithin]
  dsimp only
  rw [if_pos hp.valid, if_neg (by rw [hp.state]; exact hst), hitem]
  rfl

/-- An item parser that gives up: the parser goes on behind the block. -/
theorem iterate_left {state : ParseState} {ptr blockEnd : Nat} (hp : p.At state ptr blockEnd)
    (hst : state ≠ .TopLevel) (hitem : parseItem m p.reset = p.reset.leaveBlock) :
    p.reset.leaveBlock.2.AtTopLevel blockEnd ∧
      iterate m dataEnd p = iterate m dataEnd p.reset.leaveBlock.2 := by
  have hitem : parseItem m { p with packetType := .kRtcpNotValidCode } =
      (false, p.reset.leaveBlock.2) := hitem
  have htop : p.reset.leaveBlock.2.state = .TopLevel := rfl
  refine ⟨⟨hp.valid, htop, hp.blockEnd⟩, ?_⟩
  rw [iterate, iterateWithin]
  dsimp only
  rw [if_pos hp.valid, if_neg (by rw [hp.state]; exact hst), hitem]
  dsimp only
  rw [if_neg Bool.false_ne_true, iterateWithin, iterate, iterateWithin]
  dsimp only
  rw [if_pos htop, if_pos htop]

end

end PerchWebrtc.Rtcp.RTCPParserV2
