import PerchWebrtc.Rtcp.Blocks

/-!
# Calls of Iterate

From any state that calls can reach (`Reachable`), a call of `Iterate` parses
common headers at positions that the bytes determine: the positions logged so
far, with those that the rest of the run will parse (`visited`), stay the same
list. A call that returns a packet moves the read pointer on.

* `iterateTopLevel_spec`: the blocks a call goes through;
* `iterate_spec`: a call, from the top level or from inside a block.
-/

namespace PerchWebrtc.Rtcp

namespace RTCPParserV2

section Visited

variable (m : Mem) (dataEnd : Nat)

/-- The positions at which common headers are parsed from `pos` on, until no
packet is returned. The first argument bounds them. -/
def visitedFrom : Nat → Nat → List Nat
  | 0, _ => []
  | fuel + 1, pos =>
    pos :: match rtcpParseCommonHeader m pos dataEnd with
      | none => []
      | some header =>
        if pos + header.LengthInOctets.toNat > dataEnd ∨ EndsRun header then []
        else visitedFrom fuel (nextPos m pos header)

def visited (pos : Nat) : List Nat := visitedFrom m dataEnd (dataEnd + 1) pos

/-- The block at the read pointer, or the next one after the items. -/
def pending (p : RTCPParserV2) : Nat :=
  if p.state = .TopLevel then p.ptrRTCPData else p.ptrRTCPBlockEnd

/-- The positions that the rest of the run visits. -/
def rest (p : RTCPParserV2) : List Nat :=
  if p.packetType = .kRtcpNotValidCode then [] else visited m dataEnd p.pending

end Visited

variable {m : Mem} {dataEnd : Nat}

theorem header_some {pos : Nat} {header : RTCPCommonHeader}
    (h : rtcpParseCommonHeader m pos dataEnd = some header) :
    4 ≤ dataEnd - pos ∧ header.PT = m (pos + 1) ∧ header.IC = m pos &&& 0x1f ∧
    header.LengthInOctets = (be16 m (pos + 2) + 1) * 4 ∧
    4 ≤ header.LengthInOctets.toNat ∧ 4 ∣ header.LengthInOctets.toNat := by
  rw [rtcpParseCommonHeader] at h
  split at h
  · cases h
  rename_i h4
  dsimp only at h
  split at h
  · cases h
  rename_i h0
  split at h
  · cases h
  rw [Option.some.injEq] at h
  subst h
  have hmul : ((be16 m (pos + 2) + 1) * 4).toNat = ((be16 m (pos + 2) + 1).toNat * 4) % 65536 := by
    rw [BitVec.toNat_mul]
    rfl
  have hne : ((be16 m (pos + 2) + 1) * 4).toNat ≠ 0 := fun hz => h0 (BitVec.eq_of_toNat_eq hz)
  refine ⟨by omega, rfl, rfl, rfl, ?_, ?_⟩
  · show 4 ≤ ((be16 m (pos + 2) + 1) * 4).toNat
    omega
  · show 4 ∣ ((be16 m (pos + 2) + 1) * 4).toNat
    omega

theorem lt_nextPos {pos : Nat} {header : RTCPCommonHeader}
    (h : 4 ≤ header.LengthInOctets.toNat) : pos + 4 ≤ nextPos m pos header := by
  rw [nextPos]
  split
  · omega
  split <;> omega

theorem nextPos_le {pos : Nat} {header : RTCPCommonHeader} :
    nextPos m pos header ≤ pos + header.LengthInOctets.toNat + 4 := by
  rw [nextPos]
  split
  · omega
  split <;> omega

theorem visitedFrom_fuel : ∀ {fuel fuel' pos : Nat}, dataEnd - pos < fuel → dataEnd - pos < fuel' →
    visitedFrom m dataEnd fuel pos = visitedFrom m dataEnd fuel' pos
  | 0, _, _, h, _ => absurd h (Nat.not_lt_zero _)
  | _, 0, _, _, h => absurd h (Nat.not_lt_zero _)
  | fuel + 1, fuel' + 1, pos, h, h' => by
    rw [visitedFrom, visitedFrom]
    cases hh : rtcpParseCommonHeader m pos dataEnd with
    | none => rfl
    | some header =>
      obtain ⟨hroom, -, -, -, hlen, -⟩ := header_some hh
      have hnext := @lt_nextPos m pos header hlen
      dsimp only
      split
      · rfl
      · exact congrArg _ (visitedFrom_fuel (by omega) (by omega))

theorem visited_none {pos : Nat} (h : rtcpParseCommonHeader m pos dataEnd = none) :
    visited m dataEnd pos = [pos] := by
  rw [visited, visitedFrom, h]

theorem visited_stop {pos : Nat} {header : RTCPCommonHeader}
    (h : rtcpParseCommonHeader m pos dataEnd = some header)
    (hstop : pos + header.LengthInOctets.toNat > dataEnd ∨ EndsRun header) :
    visited m dataEnd pos = [pos] := by
  rw [visited, visitedFrom, h]
  dsimp only
  rw [if_pos hstop]

theorem visited_next {pos : Nat} {header : RTCPCommonHeader}
    (h : rtcpParseCommonHeader m pos dataEnd = some header)
    (hgo : ¬ (pos + header.LengthInOctets.toNat > dataEnd ∨ EndsRun header)) :
    visited m dataEnd pos = pos :: visited m dataEnd (nextPos m pos header) := by
  obtain ⟨hroom, -, -, -, hlen, -⟩ := header_some h
  have hnext := @lt_nextPos m pos _ hlen
  rw [visited, visitedFrom, h]
  dsimp only
  rw [if_neg hgo, visited]
  exact congrArg _ (visitedFrom_fuel (by omega) (by omega))

/-! ## The blocks of a call -/

/-- What holds between any two calls. -/
structure Reachable (dataEnd : Nat) (p : RTCPParserV2) : Prop where
  state : p.state ≠ .XRItem
  aligned : Aligned p
  block : p.state ≠ .TopLevel → 4 ∣ p.ptrRTCPBlockEnd ∧ p.ptrRTCPBlockEnd ≤ dataEnd ∧
    p.ptrRTCPData ≤ p.ptrRTCPBlockEnd

/-- What a call does whose next common header is at `pos`. -/
structure IterateSpec (m : Mem) (dataEnd pos : Nat) (p p' : RTCPParserV2) : Prop where
  valid : p'.validPacket = p.validPacket
  log : p'.headers ++ rest m dataEnd p' = p.headers ++ visited m dataEnd pos
  reachable : Reachable dataEnd p'
  agree : Agree m dataEnd p → Agree m dataEnd p'
  progress : p'.packetType ≠ .kRtcpNotValidCode →
    p.ptrRTCPData < p'.ptrRTCPData ∧ p'.ptrRTCPData ≤ dataEnd + 4

/-- Logging a header whose block fits. -/
theorem agree_logHeader {p : RTCPParserV2} (hfit : VoipFits m dataEnd p.ptrRTCPData)
    (h : Agree m dataEnd p) : Agree m dataEnd (p.logHeader dataEnd) := by
  have hin : Inside dataEnd (p.logHeader dataEnd) ↔ Inside dataEnd p := by
    simp only [Inside, logHeader]
    split
    · rfl
    · simp only [List.forall_mem_append, List.forall_mem_singleton]
      constructor
      · exact fun h => ⟨h.1.1, h.2⟩
      · exact fun h => ⟨⟨h.1, by omega⟩, h.2⟩
  have hfits : Fits m dataEnd (p.logHeader dataEnd) ↔ Fits m dataEnd p := by
    simp only [Fits, logHeader, List.forall_mem_append, List.forall_mem_singleton, hfit, and_true]
  rw [Agree, hin, hfits]
  exact h

/-- A header that no block follows ends the run. -/
theorem iterateSpec_logged {p : RTCPParserV2} (blockEnd : Nat) (hst : p.state = .TopLevel)
    (ht : p.packetType = .kRtcpNotValidCode) (h4 : 4 ∣ p.ptrRTCPData)
    (hvisited : visited m dataEnd p.ptrRTCPData = [p.ptrRTCPData])
    (hfit : VoipFits m dataEnd p.ptrRTCPData) :
    IterateSpec m dataEnd p.ptrRTCPData p
      { p.logHeader dataEnd with ptrRTCPBlockEnd := blockEnd } := by
  refine ⟨rfl, ?_, ⟨fun h => ?_, .inr h4, fun h => absurd hst h⟩, agree_logHeader hfit,
    fun h => absurd ht h⟩
  · rw [hvisited]
    exact (congrArg _ (if_pos ht)).trans (List.append_nil _)
  · rw [show p.state = .XRItem from h] at hst
    cases hst

/-- A header at the read pointer whose block is in the buffer. -/
structure AtHeader (m : Mem) (dataEnd : Nat) (header : RTCPCommonHeader) (p : RTCPParserV2) :
    Prop where
  state : p.state = .TopLevel
  type : p.packetType = .kRtcpNotValidCode
  aligned : 4 ∣ p.ptrRTCPData
  parsed : rtcpParseCommonHeader m p.ptrRTCPData dataEnd = some header
  inside : p.ptrRTCPData + header.LengthInOctets.toNat ≤ dataEnd

/-- The parser at the block of a header. -/
def enterBlock (dataEnd : Nat) (header : RTCPCommonHeader) (p : RTCPParserV2) : RTCPParserV2 :=
  { p.logHeader dataEnd with ptrRTCPBlockEnd := p.ptrRTCPData + header.LengthInOctets.toNat }

section Enter

variable {p : RTCPParserV2} {header : RTCPCommonHeader}

@[simp] theorem enterBlock_ptrRTCPData :
    (p.enterBlock dataEnd header).ptrRTCPData = p.ptrRTCPData := rfl

@[simp] theorem enterBlock_ptrRTCPBlockEnd : (p.enterBlock dataEnd header).ptrRTCPBlockEnd =
    p.ptrRTCPData + header.LengthInOctets.toNat := rfl

@[simp] theorem enterBlock_headers :
    (p.enterBlock dataEnd header).headers = p.headers ++ [p.ptrRTCPData] := rfl

theorem voipFits_iff (hh : rtcpParseCommonHeader m p.ptrRTCPData dataEnd = some header) :
    VoipFits m dataEnd p.ptrRTCPData ↔
      (p.ptrRTCPData + header.LengthInOctets.toNat ≤ dataEnd → header.PT = PT_XR →
        IsVoipMetric m p.ptrRTCPData → header.LengthInOctets.toNat ≠ 40) := by
  rw [VoipFits, hh]

theorem AtHeader.blockSpec (h : AtHeader m dataEnd header p) :
    BlockSpec m dataEnd header (p.enterBlock dataEnd header)
      (parseBlock m header (p.enterBlock dataEnd header)) := by
  obtain ⟨-, -, -, -, hlen, hlen4⟩ := header_some h.parsed
  exact parseBlock_spec ⟨h.state, rfl, hlen, h.aligned, hlen4⟩

theorem AtHeader.agree (h : AtHeader m dataEnd header p) (hagree : Agree m dataEnd p) :
    Agree m dataEnd (parseBlock m header (p.enterBlock dataEnd header)).2 := by
  have hb := h.blockSpec
  by_cases hv : header.PT = PT_XR ∧ IsVoipMetric m p.ptrRTCPData ∧
      header.LengthInOctets.toNat = 40
  · -- The overrun shows in the reads, and the block that does not fit in the headers.
    refine iff_of_false (hb.overrun hv.1 hv.2.1 hv.2.2) fun hfits => ?_
    have hfit := hfits.1 p.ptrRTCPData (by rw [hb.keeps.headers, enterBlock_headers]; simp)
    exact (voipFits_iff h.parsed).mp hfit h.inside hv.1 hv.2.1 hv.2.2
  · have hv' : header.PT = PT_XR → IsVoipMetric m p.ptrRTCPData →
        header.LengthInOctets.toNat ≠ 40 := fun h1 h2 h3 => hv ⟨h1, h2, h3⟩
    exact hb.agree h.inside hv' (agree_logHeader ((voipFits_iff h.parsed).mpr fun _ => hv') hagree)

/-- The rest of the loop starts behind a block that is skipped. -/
theorem AtHeader.skipped (h : AtHeader m dataEnd header p) {p' : RTCPParserV2}
    (hskip : (parseBlock m header (p.enterBlock dataEnd header)).1 = false)
    (hrest : IterateSpec m dataEnd (parseBlock m header (p.enterBlock dataEnd header)).2.ptrRTCPData
      (parseBlock m header (p.enterBlock dataEnd header)).2 p') :
    IterateSpec m dataEnd p.ptrRTCPData p p' := by
  obtain ⟨-, -, -, -, hlen, -⟩ := header_some h.parsed
  have hnext := @lt_nextPos m p.ptrRTCPData header hlen
  have hinside := h.inside
  obtain ⟨hends, -, -, hptr⟩ := h.blockSpec.skipped hskip
  rw [enterBlock_ptrRTCPData] at hptr
  refine ⟨hrest.valid.trans h.blockSpec.keeps.valid, ?_, hrest.reachable,
    fun hagree => hrest.agree (h.agree hagree), fun hty => ?_⟩
  · rw [hrest.log, h.blockSpec.keeps.headers, hptr,
      visited_next h.parsed (not_or.mpr ⟨by omega, hends⟩)]
    simp
  · have hmoved := hrest.progress hty
    omega

/-- A block that ends the call with a packet, or the run. -/
theorem AtHeader.returned (h : AtHeader m dataEnd header p)
    (hret : (parseBlock m header (p.enterBlock dataEnd header)).1 = true) :
    IterateSpec m dataEnd p.ptrRTCPData p (parseBlock m header (p.enterBlock dataEnd header)).2 := by
  obtain ⟨hroom, -, -, -, hlen, hlen4⟩ := header_some h.parsed
  have hb := h.blockSpec
  have hheaders := hb.keeps.headers.trans enterBlock_headers
  have hblockEnd := hb.keeps.blockEnd.trans enterBlock_ptrRTCPBlockEnd
  have hinside := h.inside
  by_cases hends : EndsRun header
  · obtain ⟨hs, hty⟩ := hb.ended hret hends
    have hty := hty.trans h.type
    refine ⟨hb.keeps.valid, ?_, ⟨by rw [hs]; decide, .inr hb.aligned, fun h => absurd hs h⟩, h.agree,
      fun h => absurd hty h⟩
    rw [rest, if_pos hty, hheaders, visited_stop h.parsed (.inr hends), List.append_nil]
  · obtain ⟨hty, hlt, hgo⟩ := hb.stopped hret hends
    rw [enterBlock_ptrRTCPData] at hlt
    rw [enterBlock_ptrRTCPData, enterBlock_ptrRTCPBlockEnd] at hgo
    have hnext' := @nextPos_le m p.ptrRTCPData header
    have hlog : (parseBlock m header (p.enterBlock dataEnd header)).2.pending =
        nextPos m p.ptrRTCPData header := by
      rw [pending]
      rcases hgo with ⟨hs, hptr⟩ | ⟨hs, -, hend⟩
      · rw [if_pos hs, hptr]
      · rw [if_neg hs.1, hblockEnd, hend]
    refine ⟨hb.keeps.valid, ?_, ⟨?_, .inr hb.aligned, fun hs => ?_⟩, h.agree, fun _ => ?_⟩
    · rw [rest, if_neg hty, hlog, hheaders, visited_next h.parsed (not_or.mpr ⟨by omega, hends⟩)]
      simp
    · rcases hgo with ⟨hs, -⟩ | ⟨hs, -⟩
      · rw [hs]
        decide
      · exact hs.2
    · rcases hgo with ⟨htop, -⟩ | ⟨-, hle, -⟩
      · exact absurd htop hs
      · rw [hblockEnd]
        exact ⟨(Nat.dvd_add_right h.aligned).mpr hlen4, h.inside, hle⟩
    · rcases hgo with ⟨-, hptr⟩ | ⟨-, hle, -⟩ <;> omega

end Enter

theorem iterateTopLevel_spec :
    ∀ {fuel : Nat} {p : RTCPParserV2}, p.state = .TopLevel → p.packetType = .kRtcpNotValidCode →
      4 ∣ p.ptrRTCPData → dataEnd - p.ptrRTCPData < fuel →
      IterateSpec m dataEnd p.ptrRTCPData p (iterateTopLevel m dataEnd fuel p)
  | 0, _, _, _, _, h => absurd h (Nat.not_lt_zero _)
  | fuel + 1, p, hst, ht, h4, hfuel => by
    rw [iterateTopLevel]
    cases hh : rtcpParseCommonHeader m p.ptrRTCPData dataEnd with
    | none =>
      refine iterateSpec_logged p.ptrRTCPBlockEnd hst ht h4 (visited_none hh) ?_
      rw [VoipFits, hh]
      trivial
    | some header =>
      dsimp only
      split
      · rename_i hbad
        exact iterateSpec_logged _ hst ht h4 (visited_stop hh (.inl hbad))
          ((voipFits_iff hh).mpr fun h => absurd h (Nat.not_le.mpr hbad))
      · rename_i hgood
        have h : AtHeader m dataEnd header p := ⟨hst, ht, h4, hh, Nat.not_lt.mp hgood⟩
        split
        · rename_i hret
          exact h.returned hret
        · rename_i hskip
          obtain ⟨hroom, -, -, -, hlen, -⟩ := header_some hh
          have hnext := @lt_nextPos m p.ptrRTCPData header hlen
          obtain ⟨-, hs, hty, hptr⟩ := h.blockSpec.skipped (Bool.not_eq_true _ ▸ hskip)
          rw [enterBlock_ptrRTCPData] at hptr
          exact h.skipped (Bool.not_eq_true _ ▸ hskip)
            (iterateTopLevel_spec hs (hty.trans ht) h.blockSpec.aligned (by omega))

/-! ## A call -/

/-- A call at the top level. -/
theorem iterateWithin_topLevel {p : RTCPParserV2} (hvalid : p.validPacket = true)
    (hst : p.state = .TopLevel) (h4 : 4 ∣ p.ptrRTCPData) (depth : Nat) :
    IterateSpec m dataEnd p.ptrRTCPData p (iterateWithin m dataEnd (depth + 1) p) := by
  rw [iterateWithin]
  dsimp only
  rw [if_pos hvalid, if_pos hst]
  have h := @iterateTopLevel_spec m dataEnd (dataEnd + 1)
    { p with packetType := .kRtcpNotValidCode } hst rfl h4 (by
      show dataEnd - p.ptrRTCPData < dataEnd + 1
      omega)
  exact ⟨h.valid, h.log, h.reachable, h.agree, h.progress⟩

theorem iterate_spec {p : RTCPParserV2} (hp : Reachable dataEnd p) (hvalid : p.validPacket = true) :
    IterateSpec m dataEnd p.pending p (iterate m dataEnd p) := by
  by_cases hst : p.state = .TopLevel
  · rw [pending, if_pos hst]
    exact iterateWithin_topLevel hvalid hst (hp.aligned.resolve_left (by rw [hst]; decide)) 1
  obtain ⟨hend4, hend, hle⟩ := hp.block hst
  have hitem : ItemSpec m dataEnd { p with packetType := .kRtcpNotValidCode }
      (parseItem m { p with packetType := .kRtcpNotValidCode }) :=
    parseItem_spec ⟨hst, hp.state⟩ hp.aligned hend4
  have hag : Agree m dataEnd p →
      Agree m dataEnd (parseItem m { p with packetType := .kRtcpNotValidCode }).2 := hitem.agree hend
  rw [pending, if_neg hst, iterate, iterateWithin]
  dsimp only
  rw [if_pos hvalid, if_neg hst]
  generalize parseItem m { p with packetType := .kRtcpNotValidCode } = r at hitem hag
  have hblockEnd : r.2.ptrRTCPBlockEnd = p.ptrRTCPBlockEnd := hitem.keeps.blockEnd
  have hheaders : r.2.headers = p.headers := hitem.keeps.headers
  have hvalid' : r.2.validPacket = p.validPacket := hitem.keeps.valid
  split
  · rename_i hret
    obtain ⟨hs, hty, hlt, hle', ha⟩ := hitem.stays hret
    have hle' : r.2.ptrRTCPData ≤ p.ptrRTCPBlockEnd := hle'
    refine ⟨hvalid', ?_, ⟨hs.2, ha, fun _ => ?_⟩, hag, fun _ => ⟨hlt, by omega⟩⟩
    · rw [rest, if_neg hty, pending, if_neg hs.1, hblockEnd, hheaders]
    · rw [hblockEnd]
      exact ⟨hend4, hend, hle'⟩
  · rename_i hleft
    obtain ⟨hs, hptr⟩ := hitem.left (Bool.not_eq_true _ ▸ hleft)
    have hptr : r.2.ptrRTCPData = p.ptrRTCPBlockEnd := hptr
    have h := @iterateWithin_topLevel m dataEnd _ (hvalid'.trans hvalid) hs (hptr ▸ hend4) 0
    rw [hptr] at h
    exact ⟨h.valid.trans hvalid', h.log.trans (by rw [hheaders]), h.reachable,
      fun hp => h.agree (hag hp), fun hty => by
        have hmoved := h.progress hty
        rw [hptr] at hmoved
        exact ⟨Nat.lt_of_le_of_lt hle hmoved.1, hmoved.2⟩⟩

end RTCPParserV2

end PerchWebrtc.Rtcp
