import PerchWebrtc.Rtcp.ParserSpec

/-!
# The top-level blocks

What the `switch` of `IterateTopLevel` does with a block whose header it
accepted. Two kinds of blocks end a run, a receiver report and a sender report
that are too short to hold a report. From any other the parser goes on at
`nextPos`: behind the block, except after a PLI or an SR-REQ, which it leaves
after 12 octets, and after VoIP metrics, which it leaves after 44.
-/

namespace PerchWebrtc.Rtcp

namespace RTCPParserV2

/-- The feedback messages that the parser takes to have no FCI: SR-REQ and
PLI. -/
def IsEmptyFeedback (header : RTCPCommonHeader) : Prop :=
  header.PT = PT_RTPFB ∧ header.IC.toNat = 5 ∨ header.PT = PT_PSFB ∧ header.IC.toNat = 1

instance (header : RTCPCommonHeader) : Decidable (IsEmptyFeedback header) :=
  inferInstanceAs (Decidable (_ ∨ _))

/-- The reports that are too short, after which no packet is returned. -/
def EndsRun (header : RTCPCommonHeader) : Prop :=
  header.PT = PT_RR ∧ header.LengthInOctets.toNat < 8 ∨
    header.PT = PT_SR ∧ header.LengthInOctets.toNat < 28

instance (header : RTCPCommonHeader) : Decidable (EndsRun header) :=
  inferInstanceAs (Decidable (_ ∨ _))

/-- Where the parser goes on after the block at `pos`. -/
def nextPos (m : Mem) (pos : Nat) (header : RTCPCommonHeader) : Nat :=
  if IsEmptyFeedback header ∧ 12 ≤ header.LengthInOctets.toNat then pos + 12
  else if header.PT = PT_XR ∧ IsVoipMetric m pos ∧ 40 ≤ header.LengthInOctets.toNat then pos + 44
  else pos + header.LengthInOctets.toNat

/-- The outcome of a block: it is skipped, or ends the run, or a packet is
returned, from its top level or with items to follow. -/
structure BlockSpec (m : Mem) (dataEnd : Nat) (header : RTCPCommonHeader) (p : RTCPParserV2)
    (r : Bool × RTCPParserV2) : Prop where
  keeps : Keeps p r.2
  skipped : r.1 = false → ¬ EndsRun header ∧ r.2.state = .TopLevel ∧
    r.2.packetType = p.packetType ∧ r.2.ptrRTCPData = nextPos m p.ptrRTCPData header
  ended : r.1 = true → EndsRun header → r.2.state = .TopLevel ∧ r.2.packetType = p.packetType
  stopped : r.1 = true → ¬ EndsRun header → r.2.packetType ≠ .kRtcpNotValidCode ∧
    p.ptrRTCPData < r.2.ptrRTCPData ∧
    (r.2.state = .TopLevel ∧ r.2.ptrRTCPData = nextPos m p.ptrRTCPData header ∨
      InBlock r.2.state ∧ r.2.ptrRTCPData ≤ p.ptrRTCPBlockEnd ∧
        p.ptrRTCPBlockEnd = nextPos m p.ptrRTCPData header)
  aligned : 4 ∣ r.2.ptrRTCPData
  agree : p.ptrRTCPBlockEnd ≤ dataEnd →
    (header.PT = PT_XR → IsVoipMetric m p.ptrRTCPData → header.LengthInOctets.toNat ≠ 40) →
    Agree m dataEnd p → Agree m dataEnd r.2
  overrun : header.PT = PT_XR → IsVoipMetric m p.ptrRTCPData →
    header.LengthInOctets.toNat = 40 → ¬ Inside dataEnd r.2

theorem nextPos_of_ne {m : Mem} {pos : Nat} {header : RTCPCommonHeader}
    (h : ¬ IsEmptyFeedback header) (hxr : header.PT ≠ PT_XR) :
    nextPos m pos header = pos + header.LengthInOctets.toNat := by
  rw [nextPos, if_neg fun h' => h h'.1, if_neg fun h' => hxr h'.1]

section Blocks

variable {m : Mem} {dataEnd : Nat} {header : RTCPCommonHeader} {p : RTCPParserV2}

/-- What is known of a block whose header was accepted. -/
structure AtBlock (header : RTCPCommonHeader) (p : RTCPParserV2) : Prop where
  state : p.state = .TopLevel
  blockEnd : p.ptrRTCPBlockEnd = p.ptrRTCPData + header.LengthInOctets.toNat
  pos : 4 ≤ header.LengthInOctets.toNat
  word : 4 ∣ p.ptrRTCPData
  words : 4 ∣ header.LengthInOctets.toNat

section Outcomes

variable {q : RTCPParserV2} (hk : Keeps p q) (h4 : 4 ∣ q.ptrRTCPData)
  (hx : header.PT = PT_XR → IsVoipMetric m p.ptrRTCPData → header.LengthInOctets.toNat ≠ 40)
  (hag : p.ptrRTCPBlockEnd ≤ dataEnd → Agree m dataEnd p → Agree m dataEnd q)

include hx hk h4 hag

/-- A packet is returned. -/
theorem BlockSpec.packet (hends : ¬ EndsRun header) (ht : q.packetType ≠ .kRtcpNotValidCode)
    (hlt : p.ptrRTCPData < q.ptrRTCPData)
    (hgo : q.state = .TopLevel ∧ q.ptrRTCPData = nextPos m p.ptrRTCPData header ∨
      InBlock q.state ∧ q.ptrRTCPData ≤ p.ptrRTCPBlockEnd ∧
        p.ptrRTCPBlockEnd = nextPos m p.ptrRTCPData header) :
    BlockSpec m dataEnd header p (true, q) :=
  ⟨hk, fun h => (by cases h), fun _ h => absurd h hends, fun _ _ => ⟨ht, hlt, hgo⟩, h4,
    fun hend _ => hag hend, fun h1 h2 h3 => absurd h3 (hx h1 h2)⟩

/-- The report is too short. -/
theorem BlockSpec.ending (hends : EndsRun header) (hs : q.state = .TopLevel)
    (ht : q.packetType = p.packetType) : BlockSpec m dataEnd header p (true, q) :=
  ⟨hk, fun h => (by cases h), fun _ _ => ⟨hs, ht⟩, fun _ h => absurd hends h, h4,
    fun hend _ => hag hend, fun h1 h2 h3 => absurd h3 (hx h1 h2)⟩

omit h4 in
/-- The block is skipped to its end. -/
theorem BlockSpec.endCurrentBlock (h : AtBlock header p) (hends : ¬ EndsRun header)
    (hs : q.state = .TopLevel) (ht : q.packetType = p.packetType)
    (hnext : nextPos m p.ptrRTCPData header = p.ptrRTCPData + header.LengthInOctets.toNat) :
    BlockSpec m dataEnd header p (false, q.endCurrentBlock) := by
  have hptr : q.ptrRTCPBlockEnd = p.ptrRTCPData + header.LengthInOctets.toNat :=
    hk.blockEnd.trans h.blockEnd
  refine ⟨⟨hk.valid, hk.headers, hk.blockEnd⟩,
    fun _ => ⟨hends, hs, ht, hptr.trans hnext.symm⟩, fun h => (by cases h), fun h => (by cases h),
    ?_, fun hend _ hp => (hag hend hp).moveTo (hk.blockEnd ▸ hend),
    fun h1 h2 h3 => absurd h3 (hx h1 h2)⟩
  show 4 ∣ q.ptrRTCPBlockEnd
  rw [hptr]
  exact (Nat.dvd_add_right h.word).mpr h.words

end Outcomes

theorem not_endsRun (h : header.PT ≠ PT_RR) (h' : header.PT ≠ PT_SR) : ¬ EndsRun header := by
  rintro (⟨h1, -⟩ | ⟨h1, -⟩)
  · exact h h1
  · exact h' h1

theorem not_isEmptyFeedback (h : header.PT ≠ PT_RTPFB) (h' : header.PT ≠ PT_PSFB) :
    ¬ IsEmptyFeedback header := by
  rintro (⟨h1, -⟩ | ⟨h1, -⟩)
  · exact h h1
  · exact h' h1

/-- Blocks other than feedback and extended reports end where their length says. -/
theorem ends_plain (h : header.PT ∉ [PT_RTPFB, PT_PSFB, PT_XR]) : header.PT ≠ PT_XR ∧
    nextPos m p.ptrRTCPData header = p.ptrRTCPData + header.LengthInOctets.toNat := by
  simp only [List.mem_cons, List.not_mem_nil, or_false, not_or] at h
  obtain ⟨hrtpfb, hpsfb, hxr⟩ := h
  exact ⟨hxr, nextPos_of_ne (not_isEmptyFeedback hrtpfb hpsfb) hxr⟩

/-! ## Reports -/

theorem parseSR_spec (h : AtBlock header p) (hPT : header.PT = PT_SR) (n : Nat) :
    BlockSpec m dataEnd header p (true, (parseSR m { p with numberOfBlocks := n }).2) := by
  obtain ⟨hxr, hnext⟩ := @ends_plain m header p (by rw [hPT]; decide)
  have hends : EndsRun header ↔ header.LengthInOctets.toNat < 28 := by
    simp [EndsRun, hPT, show PT_SR ≠ PT_RR by decide]
  obtain ⟨hst, hblock, -, hword, hwords⟩ := h
  have hend4 : 4 ∣ p.ptrRTCPBlockEnd := by omega
  have hlen : RTCPParserV2.length { p with numberOfBlocks := n } = header.LengthInOctets.toNat := by
    show p.ptrRTCPBlockEnd - p.ptrRTCPData = _
    omega
  rw [parseSR, hlen]
  split
  · rename_i hshort
    exact .ending ⟨rfl, rfl, rfl⟩ hend4 (fun h => absurd h hxr) (fun hend h => h.moveTo hend)
      (hends.mpr hshort) hst rfl
  rename_i hlong
  have hread : p.ptrRTCPBlockEnd ≤ dataEnd → Agree m dataEnd p →
      Agree m dataEnd ((p.skip 4).read 24) := fun hend h =>
    (h.moveTo (by omega)).read hend (by
      show p.ptrRTCPData + 4 + 24 ≤ p.ptrRTCPBlockEnd
      omega)
  have h28 : p.ptrRTCPData + 4 + 24 ≤ p.ptrRTCPBlockEnd := by omega
  dsimp only
  split
  · refine .packet ⟨rfl, rfl, rfl⟩ ?_ (fun h => absurd h hxr) hread (mt hends.mp hlong) nofun ?_
      (.inr ⟨by show InBlock .ReportBlockItem; decide, h28, hblock.trans hnext.symm⟩)
    · show 4 ∣ p.ptrRTCPData + 4 + 24
      omega
    · show p.ptrRTCPData < p.ptrRTCPData + 4 + 24
      omega
  · refine .packet ⟨rfl, rfl, rfl⟩ hend4 (fun h => absurd h hxr) (fun hend h => (hread hend h).moveTo hend)
      (mt hends.mp hlong) nofun ?_ (.inl ⟨rfl, hblock.trans hnext.symm⟩)
    show p.ptrRTCPData < p.ptrRTCPBlockEnd
    omega

theorem parseRR_spec (h : AtBlock header p) (hPT : header.PT = PT_RR) (n : Nat) :
    BlockSpec m dataEnd header p (true, (parseRR m { p with numberOfBlocks := n }).2) := by
  obtain ⟨hxr, hnext⟩ := @ends_plain m header p (by rw [hPT]; decide)
  have hends : EndsRun header ↔ header.LengthInOctets.toNat < 8 := by
    simp [EndsRun, hPT, show PT_RR ≠ PT_SR by decide]
  obtain ⟨hst, hblock, -, hword, hwords⟩ := h
  have hlen : RTCPParserV2.length { p with numberOfBlocks := n } = header.LengthInOctets.toNat := by
    show p.ptrRTCPBlockEnd - p.ptrRTCPData = _
    omega
  rw [parseRR, hlen]
  split
  · rename_i hshort
    exact .ending ⟨rfl, rfl, rfl⟩ hword (fun h => absurd h hxr) (fun _ h => h) (hends.mpr hshort) hst
      rfl
  rename_i hlong
  have h8 : p.ptrRTCPData + 4 + 4 ≤ p.ptrRTCPBlockEnd := by omega
  have h4 : p.ptrRTCPData + 4 ≤ p.ptrRTCPBlockEnd := by omega
  refine .packet ⟨rfl, rfl, rfl⟩ ?_ (fun h => absurd h hxr)
    (fun hend h => (h.moveTo (Nat.le_trans h4 hend)).read hend h8)
    (mt hends.mp hlong) nofun ?_
    (.inr ⟨by show InBlock .ReportBlockItem; decide, h8, hblock.trans hnext.symm⟩)
  · show 4 ∣ p.ptrRTCPData + 4 + 4
    omega
  · show p.ptrRTCPData < p.ptrRTCPData + 4 + 4
    omega

theorem parseIJ_spec (h : AtBlock header p) (hPT : header.PT = PT_IJ) (n : Nat) :
    BlockSpec m dataEnd header p (true, (parseIJ { p with numberOfBlocks := n }).2) := by
  obtain ⟨hxr, hnext⟩ := @ends_plain m header p (by rw [hPT]; decide)
  obtain ⟨hst, hblock, hpos, hword, hwords⟩ := h
  have hlen : RTCPParserV2.length { p with numberOfBlocks := n } = header.LengthInOctets.toNat := by
    show p.ptrRTCPBlockEnd - p.ptrRTCPData = _
    omega
  rw [parseIJ, hlen, if_neg (by omega)]
  have h4 : p.ptrRTCPData + 4 ≤ p.ptrRTCPBlockEnd := by omega
  refine .packet ⟨rfl, rfl, rfl⟩ ?_ (fun h => absurd h hxr) (fun hend h => h.moveTo (Nat.le_trans h4 hend))
    (not_endsRun (by rw [hPT]; decide) (by rw [hPT]; decide)) nofun ?_
    (.inr ⟨by show InBlock .ExtendedJitterItem; decide, h4, hblock.trans hnext.symm⟩)
  · show 4 ∣ p.ptrRTCPData + 4
    omega
  · show p.ptrRTCPData < p.ptrRTCPData + 4
    omega

/-! ## Source descriptions, goodbyes, application-defined packets -/

theorem parseSDES_spec (h : AtBlock header p) (hPT : header.PT = PT_SDES) (n : Nat) :
    BlockSpec m dataEnd header p (parseSDES { p with numberOfBlocks := n }) := by
  obtain ⟨hxr, hnext⟩ := @ends_plain m header p (by rw [hPT]; decide)
  have hends : ¬ EndsRun header := not_endsRun (by rw [hPT]; decide) (by rw [hPT]; decide)
  rw [parseSDES]
  split
  · exact .endCurrentBlock ⟨rfl, rfl, rfl⟩ (fun h => absurd h hxr) (fun _ h => h) h hends rfl rfl hnext
  obtain ⟨hst, hblock, hpos, hword, hwords⟩ := h
  have h4 : p.ptrRTCPData + 4 ≤ p.ptrRTCPBlockEnd := by omega
  refine .packet ⟨rfl, rfl, rfl⟩ ?_ (fun h => absurd h hxr)
    (fun hend h => h.moveTo (Nat.le_trans h4 hend)) hends nofun ?_
    (.inr ⟨by show InBlock .SDESChunk; decide, h4, hblock.trans hnext.symm⟩)
  · show 4 ∣ p.ptrRTCPData + 4
    omega
  · show p.ptrRTCPData < p.ptrRTCPData + 4
    omega

theorem parseBYE_spec (h : AtBlock header p) (hPT : header.PT = PT_BYE) (n : Nat) :
    BlockSpec m dataEnd header p (parseBYE m { p with numberOfBlocks := n }) := by
  obtain ⟨hxr, hnext⟩ := @ends_plain m header p (by rw [hPT]; decide)
  have hends : ¬ EndsRun header := not_endsRun (by rw [hPT]; decide) (by rw [hPT]; decide)
  obtain ⟨hst, hblock, hpos, hword, hwords⟩ := h
  have h4 : p.ptrRTCPData + 4 ≤ p.ptrRTCPBlockEnd := by omega
  have hword4 : 4 ∣ p.ptrRTCPData + 4 := by omega
  have hskip : p.ptrRTCPBlockEnd ≤ dataEnd → Agree m dataEnd p → Agree m dataEnd (p.skip 4) :=
    fun hend h => h.moveTo (Nat.le_trans h4 hend)
  have hitem : ItemSpec m dataEnd { { p with numberOfBlocks := n }.skip 4 with state := .BYEItem }
      (parseBYE m { p with numberOfBlocks := n }) :=
    parseBYEItem_spec (by show InBlock .BYEItem; decide) hword4
  have hk : Keeps p (parseBYE m { p with numberOfBlocks := n }).2 :=
    ⟨hitem.keeps.valid, hitem.keeps.headers, hitem.keeps.blockEnd⟩
  have hag : p.ptrRTCPBlockEnd ≤ dataEnd → Agree m dataEnd p →
      Agree m dataEnd (parseBYE m { p with numberOfBlocks := n }).2 := fun hend h =>
    hitem.agree hend (hskip hend h)
  cases hr : (parseBYE m { p with numberOfBlocks := n }).1 with
  | false =>
    obtain ⟨hs, hptr⟩ := hitem.left hr
    have ht : (parseBYE m { p with numberOfBlocks := n }).2.packetType = p.packetType := by
      rw [parseBYE, parseBYEItem] at hr ⊢
      split
      · rfl
      · rename_i hlen
        rw [if_neg hlen] at hr
        cases hr
    refine ⟨hk, fun _ => ⟨hends, hs, ht, hptr.trans (hblock.trans hnext.symm)⟩, fun h => ?_, fun h => ?_,
      ?_, fun hend _ => hag hend, fun h => absurd h hxr⟩
    · rw [hr] at h
      cases h
    · rw [hr] at h
      cases h
    · rw [hptr]
      show 4 ∣ p.ptrRTCPBlockEnd
      omega
  | true =>
    obtain ⟨hs, ht, hlt, hle, ha⟩ := hitem.stays hr
    have hs' : (parseBYE m { p with numberOfBlocks := n }).2.state = .BYEItem := by
      rw [parseBYE, parseBYEItem] at hr ⊢
      split
      · rename_i hlen
        rw [if_pos hlen] at hr
        cases hr
      · dsimp only
        split <;> rfl
    have hp := BlockSpec.packet hk (ha.resolve_left (by rw [hs']; decide)) (fun h => absurd h hxr) hag
      hends ht (Nat.lt_trans (Nat.lt_add_of_pos_right (by decide)) hlt)
      (.inr ⟨hs, hle, hblock.trans hnext.symm⟩)
    rwa [← hr] at hp

theorem parseAPP_spec (h : AtBlock header p) (hPT : header.PT = PT_APP) :
    BlockSpec m dataEnd header p (parseAPP m header p) := by
  obtain ⟨hxr, hnext⟩ := @ends_plain m header p (by rw [hPT]; decide)
  have hends : ¬ EndsRun header := not_endsRun (by rw [hPT]; decide) (by rw [hPT]; decide)
  rw [parseAPP]
  split
  · exact .endCurrentBlock (.refl p) (fun h => absurd h hxr) (fun _ h => h) h hends h.state rfl hnext
  rename_i hlong
  rw [length] at hlong
  obtain ⟨hst, hblock, hpos, hword, hwords⟩ := h
  have h12 : p.ptrRTCPData + 4 + 8 ≤ p.ptrRTCPBlockEnd := by omega
  refine .packet ⟨rfl, rfl, rfl⟩ ?_ (fun h => absurd h hxr)
    (fun hend h => (h.moveTo (by omega)).read hend h12) hends (fun h => by cases h) ?_
    (.inr ⟨by show InBlock .AppItem; decide, h12, hblock.trans hnext.symm⟩)
  · show 4 ∣ p.ptrRTCPData + 4 + 8
    omega
  · show p.ptrRTCPData < p.ptrRTCPData + 4 + 8
    omega

/-! ## Feedback -/

/-- The message of a feedback header: its items follow, unless it is taken to
have none. -/
theorem feedbackMessage_some (hPT : header.PT = PT_RTPFB ∨ header.PT = PT_PSFB)
    {sender media : BitVec 32} {packet packet' : RTCPPacket} {type : RTCPPacketTypes}
    {state : ParseState}
    (h : feedbackMessage header.PT header.IC sender media packet = some (type, packet', state)) :
    type ≠ .kRtcpNotValidCode ∧ (IsEmptyFeedback header ∧ state = .TopLevel ∨
      ¬ IsEmptyFeedback header ∧ InBlock state) := by
  have hne : PT_PSFB ≠ PT_RTPFB := by decide
  rw [feedbackMessage] at h
  rcases hPT with hPT | hPT
  · rw [if_pos hPT] at h
    split at h <;> simp only [Option.some.injEq, Prod.mk.injEq, reduceCtorEq] at h <;>
      obtain ⟨rfl, -, rfl⟩ := h <;> rename_i hIC <;>
      simp [IsEmptyFeedback, InBlock, hPT, hIC, hne.symm]
  · rw [if_neg (by rw [hPT]; exact hne)] at h
    split at h <;> simp only [Option.some.injEq, Prod.mk.injEq, reduceCtorEq] at h <;>
      obtain ⟨rfl, -, rfl⟩ := h <;> rename_i hIC <;>
      simp [IsEmptyFeedback, InBlock, hPT, hIC, hne]

theorem feedbackMessage_none {sender media : BitVec 32} {packet : RTCPPacket}
    (h : feedbackMessage header.PT header.IC sender media packet = none) :
    ¬ IsEmptyFeedback header := by
  rintro (⟨h1, h5⟩ | ⟨h2, h1⟩)
  · simp [feedbackMessage, h1, h5] at h
  · simp [feedbackMessage, h2, h1, show PT_PSFB ≠ PT_RTPFB by decide] at h

theorem parseFBCommon_spec (h : AtBlock header p)
    (hPT : header.PT = PT_RTPFB ∨ header.PT = PT_PSFB) :
    BlockSpec m dataEnd header p (parseFBCommon m header p) := by
  have hxr : header.PT ≠ PT_XR := by rcases hPT with hPT | hPT <;> rw [hPT] <;> decide
  have hends : ¬ EndsRun header := by
    apply not_endsRun <;> rcases hPT with hPT | hPT <;> rw [hPT] <;> decide
  have hlen : p.length = header.LengthInOctets.toNat := by
    rw [length, h.blockEnd]
    omega
  rw [parseFBCommon, hlen]
  split
  · rename_i hshort
    refine .endCurrentBlock (.refl p) (fun h => absurd h hxr) (fun _ h => h) h hends h.state rfl ?_
    rw [nextPos, if_neg (by omega), if_neg fun h => hxr h.1]
  rename_i hlong
  have h12 : p.ptrRTCPData + 4 + 8 ≤ p.ptrRTCPBlockEnd := by
    have := h.blockEnd
    omega
  have hread : p.ptrRTCPBlockEnd ≤ dataEnd → Agree m dataEnd p →
      Agree m dataEnd ((p.skip 4).read 8) := fun hend h => (h.moveTo (by omega)).read hend h12
  dsimp only
  split
  · rename_i type packet state hmsg
    obtain ⟨ht, hgo⟩ := feedbackMessage_some hPT hmsg
    refine .packet ⟨rfl, rfl, rfl⟩ ?_ (fun h => absurd h hxr) hread hends ht ?_ ?_
    · show 4 ∣ p.ptrRTCPData + 4 + 8
      have := h.word
      omega
    · show p.ptrRTCPData < p.ptrRTCPData + 4 + 8
      omega
    · rcases hgo with ⟨hempty, hst⟩ | ⟨hempty, hst⟩
      · exact .inl ⟨hst, by rw [nextPos, if_pos ⟨hempty, by omega⟩]; rfl⟩
      · exact .inr ⟨hst, h12, by rw [nextPos_of_ne hempty hxr, h.blockEnd]⟩
  · rename_i hmsg
    exact .endCurrentBlock ⟨rfl, rfl, rfl⟩ (fun h => absurd h hxr) hread h hends h.state rfl
      (nextPos_of_ne (feedbackMessage_none hmsg) hxr)

/-! ## Extended reports -/

theorem parseXR_spec (h : AtBlock header p) (hPT : header.PT = PT_XR) :
    BlockSpec m dataEnd header p (parseXR m p) := by
  have hempty : ¬ IsEmptyFeedback header :=
    not_isEmptyFeedback (by rw [hPT]; decide) (by rw [hPT]; decide)
  have hends : ¬ EndsRun header := not_endsRun (by rw [hPT]; decide) (by rw [hPT]; decide)
  have hskip : ¬ (IsVoipMetric m p.ptrRTCPData ∧ 40 ≤ header.LengthInOctets.toNat) →
      nextPos m p.ptrRTCPData header = p.ptrRTCPData + header.LengthInOctets.toNat := fun hv => by
    rw [nextPos, if_neg fun h => hempty h.1, if_neg fun h => hv h.2]
  have hblock := h.blockEnd
  have hword := h.word
  have hwords := h.words
  rw [parseXR, length]
  split
  · rename_i hshort
    exact .endCurrentBlock (.refl p) (fun _ _ => by omega) (fun _ h => h) h hends h.state rfl
      (hskip fun hv => by omega)
  rename_i h8
  have hread8 : p.ptrRTCPBlockEnd ≤ dataEnd → Agree m dataEnd p →
      Agree m dataEnd ((p.skip 4).read 4) := fun hend h =>
    (h.moveTo (by omega)).read hend (by
      show p.ptrRTCPData + 4 + 4 ≤ p.ptrRTCPBlockEnd
      omega)
  dsimp only
  rw [parseXRItem, length]
  split
  · rename_i hshort
    have hshort : p.ptrRTCPBlockEnd - (p.ptrRTCPData + 4 + 4) < 4 := hshort
    exact .endCurrentBlock ⟨rfl, rfl, rfl⟩ (fun _ _ => by omega) hread8 h hends h.state rfl
      (hskip fun hv => by omega)
  rename_i h12
  have h12 : ¬ p.ptrRTCPBlockEnd - (p.ptrRTCPData + 4 + 4) < 4 := h12
  have hread12 : p.ptrRTCPBlockEnd ≤ dataEnd → Agree m dataEnd p →
      Agree m dataEnd (((p.skip 4).read 4).read 4) := fun hend h =>
    (hread8 hend h).read hend (by
      show p.ptrRTCPData + 4 + 4 + 4 ≤ p.ptrRTCPBlockEnd
      omega)
  dsimp only
  split
  swap
  · rename_i htype
    have hv : ¬ IsVoipMetric m p.ptrRTCPData := fun hv => htype ⟨hv.1, hv.2.1⟩
    exact .endCurrentBlock ⟨rfl, rfl, rfl⟩ (fun _ h => absurd h hv) hread12 h hends h.state rfl
      (hskip fun h => hv h.1)
  rename_i htype
  split
  · rename_i hlength
    have hv : ¬ IsVoipMetric m p.ptrRTCPData := fun hv => hlength hv.2.2
    exact .endCurrentBlock ⟨rfl, rfl, rfl⟩ (fun _ h => absurd h hv) hread12 h hends h.state rfl
      (hskip fun h => hv h.1)
  rename_i hlength
  have hv : IsVoipMetric m p.ptrRTCPData := ⟨htype.1, htype.2, not_not.mp hlength⟩
  rw [parseXRVOIPMetricItem, length]
  split
  · rename_i hshort
    have hshort : p.ptrRTCPBlockEnd - (p.ptrRTCPData + 4 + 4 + 4) < 28 := hshort
    exact .endCurrentBlock ⟨rfl, rfl, rfl⟩ (fun _ _ => by omega) hread12 h hends h.state rfl
      (hskip fun hv => by omega)
  rename_i h40
  have h40 : ¬ p.ptrRTCPBlockEnd - (p.ptrRTCPData + 4 + 4 + 4) < 28 := h40
  have hnext : nextPos m p.ptrRTCPData header = p.ptrRTCPData + 44 := by
    rw [nextPos, if_neg fun h => hempty h.1, if_pos ⟨hPT, hv, by omega⟩]
  refine ⟨⟨rfl, rfl, rfl⟩, fun h => (by cases h), fun _ h => absurd h hends,
    fun _ _ => ⟨(fun h => by cases h), ?_, .inl ⟨h.state, hnext.symm⟩⟩, ?_, fun hend hx hp => ?_,
    fun _ _ hlen hin => ?_⟩
  · show p.ptrRTCPData < p.ptrRTCPData + 4 + 4 + 4 + 32
    omega
  · show 4 ∣ p.ptrRTCPData + 4 + 4 + 4 + 32
    omega
  · have := hx hPT hv
    exact (hread12 hend hp).read hend (by
      show p.ptrRTCPData + 4 + 4 + 4 + 32 ≤ p.ptrRTCPBlockEnd
      omega)
  · -- The last four bytes lie behind the block.
    have hin : Inside dataEnd ((((p.skip 4).read 4).read 4).read 32) := hin
    rw [read, skip, inside_moveTo, inside_peek] at hin
    have : p.ptrRTCPData + 4 + 4 + 4 + 32 ≤ p.ptrRTCPBlockEnd := hin.1.2
    omega

/-! ## Every block -/

theorem parseBlock_spec (h : AtBlock header p) :
    BlockSpec m dataEnd header p (parseBlock m header p) := by
  rw [parseBlock]
  split
  · rename_i hPT
    exact parseSR_spec h hPT _
  split
  · rename_i hPT
    exact parseRR_spec h hPT _
  split
  · rename_i hPT
    exact parseSDES_spec h hPT _
  split
  · rename_i hPT
    exact parseBYE_spec h hPT _
  split
  · rename_i hPT
    exact parseIJ_spec h hPT _
  split
  · rename_i hPT
    exact parseFBCommon_spec h hPT
  split
  · rename_i hPT
    exact parseAPP_spec h hPT
  split
  · rename_i hPT
    exact parseXR_spec h hPT
  · rename_i hSR hRR _ _ _ hFB _ hXR
    rw [not_or] at hFB
    exact .endCurrentBlock (.refl p) (fun h => absurd h hXR) (fun _ h => h) h (not_endsRun hRR hSR)
      h.state rfl (nextPos_of_ne (not_isEmptyFeedback hFB.1 hFB.2) hXR)

end Blocks

end RTCPParserV2

end PerchWebrtc.Rtcp
