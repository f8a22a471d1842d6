import PerchWebrtc.Rtcp.Framing
import PerchWebrtc.Framework.Loops

/-!
# The loops of the parser come to an end

The loops of `ParseSDESItem`, `ParseSDESChunk` and `IterateTopLevel`, and the calls that
`Iterate` makes of itself, with fuel that they may use up. With more fuel than there are
bytes they do not, and give what the parser's functions give.

* `sdesItemLoop_eq`, `sdesChunkLoop_eq`, `topLevelLoop_eq`: one loop each;
* `iterateLoop_eq`: a call of `Iterate`.
-/

namespace PerchWebrtc.Rtcp

namespace RTCPParserV2

open Framework

variable (m : Mem) (dataEnd : Nat)

/-! ## Source descriptions -/

/-- A round of `ParseSDESItem`. -/
def sdesItemRound (s : Bool × Nat × RTCPParserV2) :
    (Bool × RTCPParserV2) ⊕ (Bool × Nat × RTCPParserV2) :=
  let foundCName := s.1
  let itemOctetsRead := s.2.1 + 1
  let p := s.2.2
  if p.ptrRTCPData < p.ptrRTCPBlockEnd then
    let tag := m p.ptrRTCPData
    let p := p.logItem.read 1
    if tag = 0 then .inl (foundCName, p.skip ((4 - itemOctetsRead % 4) % 4))
    else if p.ptrRTCPData < p.ptrRTCPBlockEnd then
      let len := (m p.ptrRTCPData).toNat
      let p := p.read 1
      let itemOctetsRead := itemOctetsRead + 1
      if tag = 1 then
        if p.ptrRTCPData + len ≥ p.ptrRTCPBlockEnd then .inl p.leaveBlock
        else
          let cname := m.bytes p.ptrRTCPData len
          let legal := (cname.takeWhile legalChar).length
          if legal < len then .inl (p.peek (legal + 1)).leaveBlock
          else
            .inr (true, itemOctetsRead + len,
              { p.peek len with
                packet := .CName 0 cname
                packetType := .kRtcpSdesChunkCode }.skip len)
      else .inr (foundCName, itemOctetsRead + len, p.skip len)
    else .inr (foundCName, itemOctetsRead, p)
  else .inl p.leaveBlock

def sdesItemLoop (fuel : Nat) (p : RTCPParserV2) : Option (Bool × RTCPParserV2) :=
  loop (fun s => some (sdesItemRound m s)) fuel (false, 0, p)

/-- A round of `ParseSDESChunk`. -/
def sdesChunkRound (fuel : Nat) (p : RTCPParserV2) :
    Option ((Bool × RTCPParserV2) ⊕ RTCPParserV2) :=
  if p.ptrRTCPData < p.ptrRTCPBlockEnd then
    if p.length < 4 then some (.inl p.leaveBlock)
    else
      let SSRC := be32 m p.ptrRTCPData
      (sdesItemLoop m fuel (p.read 4)).map fun item =>
        if item.1 then
          .inl (true, { item.2 with
            packet := match item.2.packet with
              | .CName _ cname => .CName SSRC cname
              | packet => packet })
        else .inr item.2
  else some (.inl p.leaveBlock)

def sdesChunkLoop (fuel : Nat) (p : RTCPParserV2) : Option (Bool × RTCPParserV2) :=
  if p.numberOfBlocks ≤ 0 then some p.leaveBlock
  else loop (sdesChunkRound m fuel) fuel { p with numberOfBlocks := p.numberOfBlocks - 1 }

/-- The item parser of a state. -/
def itemLoop (fuel : Nat) (p : RTCPParserV2) : Option (Bool × RTCPParserV2) :=
  if p.state = .SDESChunk then sdesChunkLoop m fuel p else some (parseItem m p)

/-! ## Iterating -/

/-- A round of `IterateTopLevel`. -/
def topLevelRound (p : RTCPParserV2) : RTCPParserV2 ⊕ RTCPParserV2 :=
  let logged := p.logHeader dataEnd
  match rtcpParseCommonHeader m p.ptrRTCPData dataEnd with
  | none => .inl logged
  | some header =>
    let p := { logged with
      ptrRTCPBlockEnd := p.ptrRTCPData + header.LengthInOctets.toNat }
    if p.ptrRTCPBlockEnd > dataEnd then .inl p
    else
      let block := parseBlock m header p
      if block.1 then .inl block.2 else .inr block.2

def topLevelLoop (fuel : Nat) (p : RTCPParserV2) : Option RTCPParserV2 :=
  loop (fun p => some (topLevelRound m dataEnd p)) fuel p

/-- A call of `Iterate`, which may end in another one. -/
def iterateRound (fuel : Nat) (p : RTCPParserV2) : Option (RTCPParserV2 ⊕ RTCPParserV2) :=
  let p := { p with packetType := .kRtcpNotValidCode }
  if p.validPacket then
    if p.state = .TopLevel then (topLevelLoop m dataEnd fuel p).map .inl
    else (itemLoop m fuel p).map fun item => if item.1 then .inl item.2 else .inr item.2
  else some (.inl p)

def iterateLoop (fuel : Nat) (p : RTCPParserV2) : Option RTCPParserV2 :=
  loop (iterateRound m dataEnd fuel) fuel p

/-! ## They end -/

section Ends

variable {m dataEnd} {fuel : Nat} {p : RTCPParserV2}

/-- A round of the parser's own loop. -/
theorem parseSDESItemFrom_round (n : Nat) (s : Bool × Nat × RTCPParserV2) :
    parseSDESItemFrom m (n + 1) s.1 s.2.1 s.2.2 =
      (sdesItemRound m s).elim id fun s' => parseSDESItemFrom m n s'.1 s'.2.1 s'.2.2 := by
  unfold sdesItemRound
  rw [parseSDESItemFrom]
  dsimp only
  split_ifs <;> rfl

/-- A round that goes on has read a byte. -/
theorem sdesItemRound_length {s s' : Bool × Nat × RTCPParserV2}
    (h : sdesItemRound m s = .inr s') : s'.2.2.length < s.2.2.length := by
  unfold sdesItemRound at h
  dsimp only at h
  split_ifs at h with hlt htag hlen hcname hend hlegal
  all_goals
    obtain rfl := Sum.inr.inj h
    simp only [length, skip, read, peek, logItem, moveTo] at hlt ⊢
    omega

theorem sdesItemLoop_eq (hfuel : p.length < fuel) :
    sdesItemLoop m fuel p = some (parseSDESItem m p) :=
  @loop_eq _ _ (fun s => some (sdesItemRound m s)) (sdesItemRound m)
    (fun n s => parseSDESItemFrom m n s.1 s.2.1 s.2.2) (fun _ => True) (fun s => s.2.2.length)
    parseSDESItemFrom_round (fun _ _ => rfl) (fun _ _ _ h => ⟨trivial, sdesItemRound_length h⟩)
    fuel (p.length + 1) (false, 0, p) trivial hfuel (Nat.lt_succ_self _)

/-- A chunk without a CNAME leaves fewer bytes of its block. -/
theorem parseSDESItem_shorter (h4 : 4 ∣ p.ptrRTCPData) (hb : 4 ∣ p.ptrRTCPBlockEnd)
    (hlen : 4 ≤ p.length) (hnot : (parseSDESItem m (p.read 4)).1 = false) :
    4 ∣ (parseSDESItem m (p.read 4)).2.ptrRTCPData ∧
      4 ∣ (parseSDESItem m (p.read 4)).2.ptrRTCPBlockEnd ∧
      (parseSDESItem m (p.read 4)).2.length < p.length := by
  have hstart : 4 ∣ (p.read 4).ptrRTCPData := Nat.dvd_add h4 (Nat.dvd_refl 4)
  have hitem : SDESItemSpec m 0 (p.read 4) (parseSDESItem m (p.read 4)) :=
    parseSDESItemFrom_spec hstart hb rfl nofun
  have hend : (parseSDESItem m (p.read 4)).2.ptrRTCPBlockEnd = p.ptrRTCPBlockEnd :=
    hitem.keeps.blockEnd
  unfold length at hlen ⊢
  rw [hend]
  rcases hitem.notFound hnot with ⟨-, hlt, h4'⟩ | ⟨-, hptr⟩
  · have hlt' : p.ptrRTCPData + 4 < (parseSDESItem m (p.read 4)).2.ptrRTCPData := hlt
    exact ⟨h4', hb, by omega⟩
  · have hptr' : (parseSDESItem m (p.read 4)).2.ptrRTCPData = p.ptrRTCPBlockEnd := hptr
    rw [hptr']
    exact ⟨hb, hb, by omega⟩

/-- The rounds of the loop over chunks. -/
theorem sdesChunks_eq (h4 : 4 ∣ p.ptrRTCPData) (hb : 4 ∣ p.ptrRTCPBlockEnd)
    (hfuel : p.length < fuel) :
    loop (sdesChunkRound m fuel) fuel p = some (parseSDESChunks m (p.length + 1) p) := by
  obtain ⟨r, hloop, rfl⟩ := @loop_spec _ _ (sdesChunkRound m fuel)
    (fun q => (4 ∣ q.ptrRTCPData ∧ 4 ∣ q.ptrRTCPBlockEnd ∧ q.length < fuel) ∧
      ∃ n, q.length < n ∧ parseSDESChunks m n q = parseSDESChunks m (p.length + 1) p)
    length (· = parseSDESChunks m (p.length + 1) p) (by
      rintro q ⟨⟨h4, hb, hfuel⟩, n, hn, heq⟩
      obtain ⟨n, rfl⟩ : ∃ n', n = n' + 1 := ⟨n - 1, by omega⟩
      rw [parseSDESChunks] at heq
      unfold Advances sdesChunkRound
      by_cases hlt : q.ptrRTCPData < q.ptrRTCPBlockEnd
      · rw [if_pos hlt] at heq ⊢
        by_cases hlen : q.length < 4
        · rw [if_pos hlen] at heq ⊢
          exact .inl ⟨_, rfl, heq⟩
        · rw [if_neg hlen] at heq ⊢
          have hinner : (q.read 4).length < fuel := by
            have hless : (q.read 4).length = q.length - 4 := by
              show q.ptrRTCPBlockEnd - (q.ptrRTCPData + 4) = q.ptrRTCPBlockEnd - q.ptrRTCPData - 4
              omega
            omega
          dsimp only at heq ⊢
          rw [sdesItemLoop_eq hinner, Option.map_some]
          cases hitem : (parseSDESItem m (q.read 4)).1 with
          | true =>
            rw [hitem] at heq
            exact .inl ⟨_, rfl, heq⟩
          | false =>
            rw [hitem] at heq
            obtain ⟨h4', hb', hless⟩ := parseSDESItem_shorter h4 hb (Nat.le_of_not_lt hlen) hitem
            exact .inr ⟨_, rfl, ⟨⟨h4', hb', by omega⟩, n, by omega, heq⟩, hless⟩
      · rw [if_neg hlt] at heq ⊢
        exact .inl ⟨_, rfl, heq⟩)
    fuel p ⟨⟨h4, hb, hfuel⟩, p.length + 1, Nat.lt_succ_self _, rfl⟩ hfuel
  exact hloop

theorem sdesChunkLoop_eq (h4 : 4 ∣ p.ptrRTCPData) (hb : 4 ∣ p.ptrRTCPBlockEnd)
    (hfuel : p.length < fuel) : sdesChunkLoop m fuel p = some (parseSDESChunk m p) := by
  unfold sdesChunkLoop parseSDESChunk
  split
  · rfl
  · exact sdesChunks_eq h4 hb hfuel

theorem itemLoop_eq (ha : Aligned p) (hb : 4 ∣ p.ptrRTCPBlockEnd) (hfuel : p.length < fuel) :
    itemLoop m fuel p = some (parseItem m p) := by
  unfold itemLoop
  split
  · rename_i hstate
    rw [sdesChunkLoop_eq (ha.resolve_left (by rw [hstate]; decide)) hb hfuel, parseItem, hstate]
  · rfl

theorem iterateTopLevel_round (n : Nat) (p : RTCPParserV2) :
    iterateTopLevel m dataEnd (n + 1) p =
      (topLevelRound m dataEnd p).elim id (iterateTopLevel m dataEnd n) := by
  rw [iterateTopLevel, topLevelRound]
  cases rtcpParseCommonHeader m p.ptrRTCPData dataEnd with
  | none => rfl
  | some header =>
    dsimp only
    split_ifs <;> rfl

/-- A block that is skipped moves the read pointer behind its header. -/
theorem topLevelRound_next {p' : RTCPParserV2} (hstate : p.state = .TopLevel)
    (h4 : 4 ∣ p.ptrRTCPData) (h : topLevelRound m dataEnd p = .inr p') :
    (p'.state = .TopLevel ∧ 4 ∣ p'.ptrRTCPData) ∧
      dataEnd - p'.ptrRTCPData < dataEnd - p.ptrRTCPData := by
  unfold topLevelRound at h
  cases hheader : rtcpParseCommonHeader m p.ptrRTCPData dataEnd with
  | none =>
    rw [hheader] at h
    cases h
  | some header =>
    rw [hheader] at h
    obtain ⟨hroom, -, -, -, hlen, hlen4⟩ := header_some hheader
    dsimp only at h
    split_ifs at h with hbad hret
    obtain rfl := Sum.inr.inj h
    have hblock := @parseBlock_spec m dataEnd header { p.logHeader dataEnd with
      ptrRTCPBlockEnd := p.ptrRTCPData + header.LengthInOctets.toNat }
      ⟨hstate, rfl, hlen, h4, hlen4⟩
    obtain ⟨-, hs, -, hptr⟩ := hblock.skipped (Bool.not_eq_true _ ▸ hret)
    have hnext := @lt_nextPos m p.ptrRTCPData header hlen
    refine ⟨⟨hs, hblock.aligned⟩, ?_⟩
    rw [hptr]
    show dataEnd - nextPos m p.ptrRTCPData header < _
    omega

/-- The blocks at the top level. -/
theorem topLevelLoop_eq (hstate : p.state = .TopLevel) (h4 : 4 ∣ p.ptrRTCPData)
    (hfuel : dataEnd < fuel) :
    topLevelLoop m dataEnd fuel p = some (iterateTopLevel m dataEnd (dataEnd + 1) p) :=
  @loop_eq _ _ (fun p => some (topLevelRound m dataEnd p)) (topLevelRound m dataEnd)
    (iterateTopLevel m dataEnd) (fun q => q.state = .TopLevel ∧ 4 ∣ q.ptrRTCPData)
    (fun q => dataEnd - q.ptrRTCPData) iterateTopLevel_round (fun _ _ => rfl)
    (fun _ _ hq h => topLevelRound_next hq.1 hq.2 h) fuel (dataEnd + 1) p ⟨hstate, h4⟩
    (by omega) (by omega)

/-- A call of `Iterate`, without the loops inside. -/
def iterateNext (m : Mem) (dataEnd : Nat) (p : RTCPParserV2) : RTCPParserV2 ⊕ RTCPParserV2 :=
  let p := { p with packetType := .kRtcpNotValidCode }
  if p.validPacket then
    if p.state = .TopLevel then .inl (iterateTopLevel m dataEnd (dataEnd + 1) p)
    else
      let item := parseItem m p
      if item.1 then .inl item.2 else .inr item.2
  else .inl p

theorem iterateWithin_round (n : Nat) (p : RTCPParserV2) :
    iterateWithin m dataEnd (n + 1) p =
      (iterateNext m dataEnd p).elim id (iterateWithin m dataEnd n) := by
  rw [iterateWithin, iterateNext]
  dsimp only
  split_ifs <;> rfl

/-- A call takes the round it takes without the loops inside. -/
theorem iterateRound_eq (h : Reachable dataEnd p) (hfuel : dataEnd < fuel) :
    iterateRound m dataEnd fuel p = some (iterateNext m dataEnd p) := by
  have ha : Aligned { p with packetType := .kRtcpNotValidCode } := h.aligned
  unfold iterateRound iterateNext
  dsimp only
  split
  · by_cases hstate : p.state = .TopLevel
    · have h4 : 4 ∣ p.ptrRTCPData := h.aligned.resolve_left (by rw [hstate]; decide)
      have htop : topLevelLoop m dataEnd fuel { p with packetType := .kRtcpNotValidCode } = _ :=
        topLevelLoop_eq hstate h4 hfuel
      rw [if_pos hstate, if_pos hstate, htop]
      rfl
    · obtain ⟨hend4, hend, -⟩ := h.block hstate
      have hitem : itemLoop m fuel { p with packetType := .kRtcpNotValidCode } = _ :=
        itemLoop_eq ha hend4
          (Nat.lt_of_le_of_lt (Nat.sub_le_of_le_add (Nat.le_add_right_of_le hend)) hfuel)
      rw [if_neg hstate, if_neg hstate, hitem, Option.map_some]
  · rfl

/-- A call that ends in another one has left the block. -/
theorem iterateNext_call {p' : RTCPParserV2} (h : Reachable dataEnd p)
    (hnext : iterateNext m dataEnd p = .inr p') :
    Reachable dataEnd p' ∧
      (if p'.state = .TopLevel then 0 else 1) < if p.state = .TopLevel then 0 else 1 := by
  unfold iterateNext at hnext
  dsimp only at hnext
  split_ifs at hnext with hvalid hstate hret
  obtain rfl := Sum.inr.inj hnext
  obtain ⟨hend4, -, -⟩ := h.block hstate
  have hitem : ItemSpec m dataEnd { p with packetType := .kRtcpNotValidCode }
      (parseItem m { p with packetType := .kRtcpNotValidCode }) :=
    parseItem_spec ⟨hstate, h.state⟩ h.aligned hend4
  obtain ⟨hs, hptr⟩ := hitem.left (Bool.not_eq_true _ ▸ hret)
  refine ⟨⟨by rw [hs]; decide, .inr ?_, fun hne => absurd hs hne⟩, ?_⟩
  · rw [hptr]
    exact hend4
  · rw [if_pos hs, if_neg hstate]
    exact Nat.one_pos

/-- A call ends, and gives what the parser's function gives. -/
theorem iterateLoop_eq (h : Reachable dataEnd p) (hfuel : dataEnd + 1 < fuel) :
    iterateLoop m dataEnd fuel p = some (iterate m dataEnd p) :=
  @loop_eq _ _ (iterateRound m dataEnd fuel) (iterateNext m dataEnd) (iterateWithin m dataEnd)
    (Reachable dataEnd) (fun q => if q.state = .TopLevel then 0 else 1) iterateWithin_round
    (fun _ hq => iterateRound_eq hq (by omega)) (fun _ _ hq => iterateNext_call hq) fuel 2 p h
    (by split <;> omega) (by split <;> omega)

end Ends

end RTCPParserV2

end PerchWebrtc.Rtcp
