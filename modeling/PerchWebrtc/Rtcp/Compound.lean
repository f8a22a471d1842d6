import PerchWebrtc.Rtcp.Nack
import PerchWebrtc.Rtcp.Rpsi

/-!
# Building a compound packet

`PrepareRTCP` of `RTCPSender` (`rtcp_sender.cc`): the packet types that a call
sends, and the builders in their order.

* `Builds`: what a builder does at a position, one lemma for each builder;
* `runs_cons`, `runs_after`: a run of builders;
* `prepareRTCP_iff`: when the packet fits and its length fields are right.
-/

namespace PerchWebrtc.Rtcp

def kRtcpReport : BitVec 32 := 0x0001
def kRtcpSr : BitVec 32 := 0x0002
def kRtcpRr : BitVec 32 := 0x0004
def kRtcpBye : BitVec 32 := 0x0008
def kRtcpPli : BitVec 32 := 0x0010
def kRtcpFir : BitVec 32 := 0x0040
def kRtcpTmmbr : BitVec 32 := 0x0080
def kRtcpTmmbn : BitVec 32 := 0x0100
def kRtcpXrVoipMetric : BitVec 32 := 0x0400
def kRtcpApp : BitVec 32 := 0x0800
def kRtcpSli : BitVec 32 := 0x4000
def kRtcpRemb : BitVec 32 := 0x10000
def kRtcpTransmissionTimeOffset : BitVec 32 := 0x20000

/-- The arguments of `PrepareRTCP`. -/
structure RTCPRequest where
  packetTypeFlags : BitVec 32
  nackList : List (BitVec 16) := []
  repeated : Bool := false
  pictureID : BitVec 64 := 0

namespace RTCPSender

/-! ## The packet types of a call -/

def isSet (rtcpPacketTypeFlags flag : BitVec 32) : Bool := rtcpPacketTypeFlags &&& flag ≠ 0

section

variable (s : RTCPSender)

/-- The report that a sender and a receiver send. -/
def reportFlag : BitVec 32 := if s.sending then kRtcpSr else kRtcpRr

/-- The flags of a call; what is sent once is used up. -/
def collectFlags (packetTypeFlags : BitVec 32) : BitVec 32 × RTCPSender :=
  let flags := if s.TMMBR then packetTypeFlags ||| kRtcpTmmbr else packetTypeFlags
  let flags := if s.appSend then flags ||| kRtcpApp else flags
  -- Always attach REMB to SR if that is configured.
  let flags := if s.REMB ∧ s.sendREMB then flags ||| kRtcpRemb else flags
  let flags := if s.xrSendVoIPMetric then flags ||| kRtcpXrVoipMetric else flags
  let flags := if s.sendTMMBN then flags ||| kRtcpTmmbn else flags
  let flags := match s.method with
    | .kRtcpCompound => flags ||| s.reportFlag
    | .kRtcpNonCompound => if isSet flags kRtcpReport then flags ||| s.reportFlag else flags
    | .kRtcpOff => flags
  (flags, { s with appSend := false, xrSendVoIPMetric := false, sendTMMBN := false })

def shouldSendReportBlocks (rtcpPacketType : BitVec 32) : Bool :=
  s.method = .kRtcpCompound || isSet rtcpPacketType kRtcpReport || isSet rtcpPacketType kRtcpSr ||
    isSet rtcpPacketType kRtcpRr

/-- The report blocks of the active statisticians that have a report. -/
def collectReports (env : Module) (flags : BitVec 32) : BitVec 32 × RTCPSender :=
  if s.shouldSendReportBlocks flags ∧ env.activeStatisticians ≠ [] then
    let blocks := env.activeStatisticians.foldl (fun blocks statistician =>
      match statistician.2 with
      | some report => addReportBlock statistician.1 report blocks
      | none => blocks) s.internal_report_blocks
    (if s.IJ then flags ||| kRtcpTransmissionTimeOffset else flags,
      { s with internal_report_blocks := blocks })
  else (flags, s)

end

/-! ## The builders of a call -/

/-- A builder; `none` where its behaviour is undefined. -/
abbrev Builder := RTCPSender → List Byte → Option (Int × RTCPSender × List Byte)

/-- A builder that leaves the sender as it is. -/
def keeping (build : RTCPSender → List Byte → Int × List Byte) : Builder :=
  fun s buffer => some ((build s buffer).1, s, (build s buffer).2)

/-- With a receiver report there is only the check for -1. -/
def buildSDECAfterRR (s : RTCPSender) (buffer : List Byte) : Int × List Byte :=
  if (s.buildSDEC buffer).1 = -2 then (0, (s.buildSDEC buffer).2) else s.buildSDEC buffer

section

variable (env : Module) (request : RTCPRequest)

def buildRequestedRPSI : Builder := fun s buffer =>
  if env.sendPayloadType = -1 then some (-1, s, buffer)
  else (s.buildRPSI request.pictureID env.sendPayloadType buffer).map fun r => (r.1, s, r.2)

/-- The report at the start of the packet. -/
def reportBuilders (flags : BitVec 32) (s : RTCPSender) : List Builder :=
  if isSet flags kRtcpSr then
    [fun s buffer => some (s.buildSR env buffer env.NTPsec env.NTPfrac), keeping buildSDEC]
  else if isSet flags kRtcpRr then
    (fun s buffer => some (s.buildRR buffer)) ::
      -- only of set
      (if s.CNAME.1 ≠ [] then [keeping buildSDECAfterRR] else [])
  else []

/-- The builders behind the report. -/
def otherBuilders : List (BitVec 32 × Builder) :=
  [(kRtcpTransmissionTimeOffset, keeping fun s => s.buildExtendedJitterReport 0),
    (kRtcpPli, keeping buildPLI),
    (kRtcpFir, fun s buffer => some (s.buildFIR request.repeated buffer)),
    (kRtcpSli, keeping fun s => s.buildSLI (request.pictureID.setWidth 8)),
    (kRtcpRpsi, buildRequestedRPSI env request),
    (kRtcpRemb, keeping buildREMB),
    (kRtcpBye, keeping buildBYE),
    (kRtcpApp, keeping buildAPP),
    (kRtcpTmmbr, keeping fun s => s.buildTMMBR env),
    (kRtcpTmmbn, keeping buildTMMBN),
    (kRtcpNack, keeping fun s => s.buildNACK request.nackList),
    (kRtcpXrVoipMetric, keeping buildVoIPMetric)]

/-- What a call returns, with the values that `position` had after each
builder. -/
structure Prepared where
  result : Int
  sender : RTCPSender
  buffer : List Byte
  positions : List Nat

def runBuilders : List Builder → RTCPSender → List Byte → List Nat → Option Prepared
  | [], s, buffer, positions => some ⟨buffer.length, s, buffer, positions⟩
  | build :: builders, s, buffer, positions =>
    match build s buffer with
    | none => none
    | some (buildVal, s, buffer) =>
      if buildVal = -1 then some ⟨-1, s, buffer, positions⟩
      else if buildVal = -2 then some ⟨buffer.length, s, buffer, positions⟩
      else runBuilders builders s buffer (positions ++ [buffer.length])

def prepareRTCP (s : RTCPSender) : Option Prepared :=
  let collected := s.collectFlags request.packetTypeFlags
  let reported := collected.2.collectReports env collected.1
  let requested := (otherBuilders env request).filter fun entry => isSet reported.1 entry.1
  runBuilders (reportBuilders env reported.1 reported.2 ++ requested.map (·.2)) reported.2 [] []

end

/-! ## What is wanted -/

/-- The blocks between the positions, from `pos` on, have their lengths in
their length fields, and end with the buffer. -/
def Tiles (buffer : List Byte) : Nat → List Nat → Prop
  | pos, [] => pos = buffer.length
  | pos, next :: positions => pos ≤ next ∧
    (pos < next → next - pos = 4 * ((be16 (Mem.ofList buffer) (pos + 2)).toNat + 1)) ∧
    Tiles buffer next positions

/-- The call stays within the packet, and the bytes that it returns are blocks
with the right length fields. -/
def WellPrepared (prepared : Option Prepared) : Prop :=
  ∃ p, prepared = some p ∧ p.buffer.length ≤ IP_PACKET_SIZE ∧
    (0 ≤ p.result → p.result = p.buffer.length ∧ Tiles p.buffer 0 p.positions)

/-! ## What a builder does -/

/-- What a builder does at a position: it stops the call with a result, or
writes a number of bytes, with the right length field or not. -/
inductive Outcome where
  | undefined
  | stops (result : Int)
  | writes (size : Nat) (sound : Bool)

/-- The outcome of a builder that checks for `guard` bytes and writes `size`. -/
def checked (guard size : Nat) (sound : Bool) (pos : Nat) : Outcome :=
  if pos + guard ≥ IP_PACKET_SIZE then .stops (-2) else .writes size sound

/-- The call stays within the packet, and nothing is undefined. -/
def Fits : Nat → List (Nat → Outcome) → Prop
  | _, [] => True
  | pos, outcome :: outcomes =>
    match outcome pos with
    | .undefined => False
    | .stops _ => True
    | .writes size _ => pos + size ≤ IP_PACKET_SIZE ∧ Fits (pos + size) outcomes

/-- The call returns -1. -/
def Fails : Nat → List (Nat → Outcome) → Prop
  | _, [] => False
  | pos, outcome :: outcomes =>
    match outcome pos with
    | .undefined => False
    | .stops result => result = -1
    | .writes size _ => Fails (pos + size) outcomes

/-- The length fields are right. -/
def Sound : Nat → List (Nat → Outcome) → Prop
  | _, [] => True
  | pos, outcome :: outcomes =>
    match outcome pos with
    | .undefined => False
    | .stops _ => True
    | .writes size sound => sound = true ∧ Sound (pos + size) outcomes

/-- What later builders do is the same: of the sender only the sequence number
of the requests and the internal report blocks have changed. -/
def Kept (s s' : RTCPSender) : Prop :=
  ∃ sequenceNumberFIR blocks,
    s' = { s with sequenceNumberFIR := sequenceNumberFIR, internal_report_blocks := blocks }

theorem Kept.refl (s : RTCPSender) : Kept s s := ⟨s.sequenceNumberFIR, s.internal_report_blocks, rfl⟩

theorem Kept.trans {s s' s'' : RTCPSender} (h : Kept s s') (h' : Kept s' s'') : Kept s s'' := by
  obtain ⟨_, _, rfl⟩ := h
  obtain ⟨sequenceNumberFIR, blocks, rfl⟩ := h'
  exact ⟨sequenceNumberFIR, blocks, rfl⟩

/-- The length field of a block. -/
def lengthField (block : List Byte) : Nat := (be16 (Mem.ofList block) 2).toNat

/-- The bytes of a block: the length field is right if the block is sound. -/
structure IsBlock (block : List Byte) (size : Nat) (sound : Bool) : Prop where
  length : block.length = size
  words : 4 ∣ size
  field : 0 < size → (size = 4 * (lengthField block + 1) ↔ sound = true)
  empty : size = 0 → sound = true

/-- A builder has this outcome for a sender and a buffer. -/
def Builds (build : Builder) (outcome : Nat → Outcome) (s : RTCPSender) (buffer : List Byte) : Prop :=
  match outcome buffer.length with
  | .undefined => build s buffer = none
  | .stops result =>
    (result = -2 ∧ ∃ s', build s buffer = some (-2, s', buffer)) ∨
      (result = -1 ∧ ∃ s' bytes, build s buffer = some (-1, s', buffer ++ bytes) ∧
        (buffer.length ≤ IP_PACKET_SIZE → (buffer ++ bytes).length ≤ IP_PACKET_SIZE))
  | .writes size sound => ∃ s' block, build s buffer = some (0, s', buffer ++ block) ∧ Kept s s' ∧
      IsBlock block size sound

/-- What a run of builders comes to, behind `buffer`. -/
def Runs (builders : List Builder) (outcomes : List (Nat → Outcome)) (s : RTCPSender)
    (buffer : List Byte) (positions : List Nat) : Prop :=
  match runBuilders builders s buffer positions with
  | none => ¬ Fits buffer.length outcomes
  | some p => (∃ rest, p.buffer = buffer ++ rest) ∧
      (buffer.length ≤ IP_PACKET_SIZE →
        (p.buffer.length ≤ IP_PACKET_SIZE ↔ Fits buffer.length outcomes)) ∧
      ((p.result = -1 ∧ Fails buffer.length outcomes) ∨
        (p.result = p.buffer.length ∧ ¬ Fails buffer.length outcomes ∧ ∃ log,
          p.positions = positions ++ log ∧
            (Tiles p.buffer buffer.length log ↔ Sound buffer.length outcomes)))

section

variable {s : RTCPSender} {buffer : List Byte} {positions : List Nat} {build : Builder}
  {builders : List Builder} {outcome : Nat → Outcome} {outcomes : List (Nat → Outcome)}

theorem runs_nil : Runs [] [] s buffer positions := by
  rw [Runs, runBuilders]
  exact ⟨⟨[], (List.append_nil _).symm⟩, fun h => iff_of_true h trivial,
    .inr ⟨rfl, id, [], (List.append_nil _).symm, iff_of_true rfl trivial⟩⟩

/-- The length field of a block in the buffer. -/
theorem be16_block {block rest : List Byte} (h4 : 4 ≤ block.length) :
    (be16 (Mem.ofList (buffer ++ block ++ rest)) (buffer.length + 2)).toNat = lengthField block := by
  have hbyte : ∀ i < block.length, Mem.ofList (buffer ++ block ++ rest) (buffer.length + i) =
      Mem.ofList block i := by
    intro i hi
    rw [Mem.byte_of_holds (Mem.holds_ofList buffer block rest) hi]
    rfl
  rw [lengthField, be16_toNat, be16_toNat, Nat.add_assoc, hbyte 2 (by omega), hbyte 3 (by omega)]

/-- A builder and the run of those behind it. -/
theorem runs_cons (hbuilds : Builds build outcome s buffer)
    (hruns : ∀ s' block, Kept s s' → 4 ∣ block.length → build s buffer = some (0, s', buffer ++ block) →
      Runs builders outcomes s' (buffer ++ block) (positions ++ [(buffer ++ block).length])) :
    Runs (build :: builders) (outcome :: outcomes) s buffer positions := by
  rw [Builds] at hbuilds
  rw [Runs, runBuilders, Fits, Fails, Sound]
  cases hout : outcome buffer.length with
  | undefined =>
    rw [hout] at hbuilds
    dsimp only at hbuilds ⊢
    rw [hbuilds]
    exact id
  | stops result =>
    rw [hout] at hbuilds
    dsimp only at hbuilds ⊢
    rcases hbuilds with ⟨hresult, s', hbuild⟩ | ⟨hresult, s', bytes, hbuild, hle⟩
    · rw [hbuild]
      dsimp only
      rw [if_neg (by decide), if_pos rfl]
      refine ⟨⟨[], (List.append_nil _).symm⟩, fun h => iff_of_true h trivial,
        .inr ⟨rfl, ?_, [], (List.append_nil _).symm, iff_of_true rfl trivial⟩⟩
      rw [hresult]
      decide
    · rw [hbuild]
      dsimp only
      rw [if_pos rfl]
      exact ⟨⟨bytes, rfl⟩, fun h => iff_of_true (hle h) trivial, .inl ⟨rfl, hresult⟩⟩
  | writes size sound =>
    rw [hout] at hbuilds
    dsimp only at hbuilds ⊢
    obtain ⟨s', block, hbuild, hkept, hblock⟩ := hbuilds
    have hrun := hruns s' block hkept (hblock.length ▸ hblock.words) hbuild
    rw [hbuild]
    dsimp only
    rw [if_neg (by decide), if_neg (by decide)]
    have hlen : (buffer ++ block).length = buffer.length + size := by
      rw [List.length_append, hblock.length]
    rw [Runs] at hrun
    cases hprepared : runBuilders builders s' (buffer ++ block)
        (positions ++ [(buffer ++ block).length]) with
    | none =>
      rw [hprepared, hlen] at hrun
      exact fun h => hrun h.2
    | some p =>
      rw [hprepared, hlen] at hrun
      obtain ⟨⟨rest, hrest⟩, hfits, hresult⟩ := hrun
      refine ⟨⟨block ++ rest, by rw [hrest, List.append_assoc]⟩, fun hle => ?_, ?_⟩
      · by_cases hroom : buffer.length + size ≤ IP_PACKET_SIZE
        · rw [hfits hroom]
          exact (and_iff_right hroom).symm
        · refine iff_of_false (fun h => hroom ?_) (fun h => hroom h.1)
          rw [hrest, List.length_append, hlen] at h
          omega
      · rcases hresult with ⟨hret, hfails⟩ | ⟨hret, hfails, log, hlog, htiles⟩
        · exact .inl ⟨hret, hfails⟩
        · refine .inr ⟨hret, hfails, (buffer.length + size) :: log, ?_, ?_⟩
          · rw [hlog, List.append_assoc, List.singleton_append]
          · rw [Tiles, htiles]
            have hfield : (buffer.length < buffer.length + size → buffer.length + size - buffer.length =
                4 * ((be16 (Mem.ofList p.buffer) (buffer.length + 2)).toNat + 1)) ↔ sound = true := by
              rw [Nat.add_sub_cancel_left]
              by_cases hsize : size = 0
              · exact iff_of_true (fun h => absurd h (by omega)) (hblock.empty hsize)
              · have hpos : 0 < size := Nat.pos_of_ne_zero hsize
                have h4 := Nat.le_of_dvd hpos hblock.words
                rw [hrest, be16_block (by rw [hblock.length]; exact h4), ← hblock.field hpos]
                exact ⟨fun h => h (by omega), fun h _ => h⟩
            rw [hfield]
            exact and_iff_right (Nat.le_add_right _ _)

end

/-! ## The builders -/

theorem lengthField_words (b0 b1 : Byte) (words : BitVec 16) (rest : List Byte) :
    lengthField ([b0, b1] ++ (bytes16 words ++ rest)) = words.toNat := by
  have hholds : (Mem.ofList ([b0, b1] ++ bytes16 words ++ rest)).Holds 2 (bytes16 words) :=
    Mem.holds_ofList [b0, b1] (bytes16 words) rest
  rw [Mem.holds_bytes16, List.append_assoc] at hholds
  rw [lengthField, hholds]

theorem lengthField_byte (b0 b1 l : Byte) (rest : List Byte) :
    lengthField ([b0, b1, 0, l] ++ rest) = l.toNat := by
  rw [lengthField, be16_toNat]
  show (0 : Byte).toNat * 256 + l.toNat = l.toNat
  rw [show (0 : Byte).toNat = 0 from rfl]
  omega

theorem isBlock_empty : IsBlock [] 0 true :=
  ⟨rfl, Nat.dvd_zero 4, fun h => absurd h (Nat.lt_irrefl 0), fun _ => rfl⟩

/-- A block with its length in one byte. -/
theorem isBlock_byte {b0 b1 l : Byte} {rest : List Byte} {size : Nat} {sound : Bool}
    (hlen : rest.length + 4 = size) (hwords : 4 ∣ size)
    (hfield : size = 4 * (l.toNat + 1) ↔ sound = true) :
    IsBlock ([b0, b1, 0, l] ++ rest) size sound :=
  ⟨by rw [← hlen, List.length_append, Nat.add_comm]; rfl, hwords,
    fun _ => by rw [lengthField_byte, hfield], fun h => by omega⟩

/-- A block with its length in a word. -/
theorem isBlock_words {b0 b1 : Byte} {words : BitVec 16} {rest : List Byte} {size : Nat} {sound : Bool}
    (hlen : rest.length + 4 = size) (hwords : 4 ∣ size)
    (hfield : size = 4 * (words.toNat + 1) ↔ sound = true) :
    IsBlock ([b0, b1] ++ (bytes16 words ++ rest)) size sound :=
  ⟨by rw [← hlen, List.length_append, List.length_append, length_bytes16]; show 2 + _ = _; omega,
    hwords, fun _ => by rw [lengthField_words, hfield], fun h => by omega⟩

/-- A block of a fixed length. -/
theorem isBlock_fixed {b0 b1 l : Byte} {rest : List Byte}
    (hlen : rest.length = 4 * l.toNat) : IsBlock ([b0, b1, 0, l] ++ rest) (4 * (l.toNat + 1)) true :=
  isBlock_byte (by omega) (Dvd.intro _ rfl) (iff_of_true rfl rfl)

section

variable {s : RTCPSender} {buffer : List Byte} {build : RTCPSender → List Byte → Int × List Byte}

/-- A builder that checks for room first. -/
theorem builds_checked {guard size : Nat} {sound : Bool} {block : List Byte}
    (hbuild : build s buffer =
      if buffer.length + guard ≥ IP_PACKET_SIZE then (-2, buffer) else (0, buffer ++ block))
    (hblock : IsBlock block size sound) :
    Builds (keeping build) (checked guard size sound) s buffer := by
  rw [Builds, checked]
  by_cases hroom : buffer.length + guard ≥ IP_PACKET_SIZE
  · rw [if_pos hroom] at hbuild ⊢
    exact .inl ⟨rfl, s, by rw [keeping, hbuild]⟩
  · rw [if_neg hroom] at hbuild ⊢
    exact ⟨s, block, by rw [keeping, hbuild], Kept.refl s, hblock⟩

/-- A builder that writes nothing. -/
theorem builds_nothing (hbuild : build s buffer = (0, buffer)) :
    Builds (keeping build) (fun _ => .writes 0 true) s buffer :=
  ⟨s, [], by rw [keeping, hbuild, List.append_nil], Kept.refl s, isBlock_empty⟩

def extendedJitterOutcome (s : RTCPSender) : Nat → Outcome :=
  if s.external_report_blocks.1.length > 0 then fun _ => .writes 0 true else checked 8 8 true

theorem builds_extendedJitterReport (offset : BitVec 32) :
    Builds (keeping fun s => s.buildExtendedJitterReport offset) s.extendedJitterOutcome s buffer := by
  rw [extendedJitterOutcome]
  split
  · rename_i hblocks
    exact builds_nothing (if_pos hblocks)
  · rename_i hblocks
    exact @builds_checked s buffer _ 8 8 true ([0x80 + 1, PT_IJ, 0, 1] ++ bytes32 offset)
      (by rw [buildExtendedJitterReport, if_neg hblocks, List.append_assoc]) (isBlock_fixed rfl)

theorem builds_PLI : Builds (keeping buildPLI) (checked 12 12 true) s buffer :=
  @builds_checked s buffer _ 12 12 true
    ([0x80 + 1, PT_PSFB, 0, 2] ++ (bytes32 s.SSRC ++ bytes32 s.remoteSSRC))
    (by rw [buildPLI, List.append_assoc, List.append_assoc]) (isBlock_fixed rfl)

theorem builds_SLI (pictureID : Byte) :
    Builds (keeping fun s => s.buildSLI pictureID) (checked 16 16 true) s buffer :=
  @builds_checked s buffer _ 16 16 true ([0x80 + 2, PT_PSFB, 0, 3] ++ (bytes32 s.SSRC ++
    (bytes32 s.remoteSSRC ++ bytes32 (((0x1fff : BitVec 32) <<< 6) + (0x3f &&& pictureID.setWidth 32)))))
    (by simp only [buildSLI, List.append_assoc]) (isBlock_fixed rfl)

theorem builds_FIR (repeated : Bool) :
    Builds (fun s buffer => some (s.buildFIR repeated buffer)) (checked 20 20 true) s buffer := by
  rw [Builds, checked]
  by_cases hroom : buffer.length + 20 ≥ IP_PACKET_SIZE
  · rw [if_pos hroom, buildFIR, if_pos hroom]
    exact .inl ⟨rfl, s, rfl⟩
  · rw [if_neg hroom, buildFIR, if_neg hroom]
    generalize (if repeated then s.sequenceNumberFIR else s.sequenceNumberFIR + 1) = number
    refine ⟨_, [0x80 + 4, PT_PSFB, 0, 4] ++ (bytes32 s.SSRC ++ ([0, 0, 0, 0] ++
      (bytes32 s.remoteSSRC ++ [number, 0, 0, 0]))), ?_, ⟨number, s.internal_report_blocks, rfl⟩,
      isBlock_fixed rfl⟩
    simp only [List.append_assoc]

theorem builds_VoIPMetric : Builds (keeping buildVoIPMetric) (checked 44 44 true) s buffer := by
  obtain ⟨rest, hlen, hbuild⟩ : ∃ rest : List Byte, rest.length = 40 ∧ s.buildVoIPMetric buffer =
      if buffer.length + 44 ≥ IP_PACKET_SIZE then (-2, buffer)
      else (0, buffer ++ ([0x80, PT_XR, 0, 10] ++ rest)) := by
    rw [buildVoIPMetric]
    simp only [List.append_assoc]
    exact ⟨_, rfl, rfl⟩
  exact builds_checked hbuild (isBlock_fixed hlen)

/-- The length is one byte, of a number of words that an octet and four give. -/
def rembOutcome (s : RTCPSender) : Nat → Outcome :=
  checked (20 + 4 * s.rembSSRC.1.length) (20 + 4 * s.rembSSRC.1.length)
    (decide (s.rembSSRC.1.length < 252))

theorem builds_REMB : Builds (keeping buildREMB) s.rembOutcome s buffer := by
  have hlt := s.rembSSRC.2
  obtain ⟨rest, hlen, hbuild⟩ : ∃ rest : List Byte, rest.length = 16 + 4 * s.rembSSRC.1.length ∧
      s.buildREMB buffer = if buffer.length + (20 + 4 * s.rembSSRC.1.length) ≥ IP_PACKET_SIZE then
        (-2, buffer)
      else (0, buffer ++ ([0x80 + 15, PT_PSFB, 0, BitVec.ofNat 8 (s.rembSSRC.1.length + 4)] ++ rest)) := by
    rw [buildREMB]
    simp only [List.append_assoc, Nat.add_assoc]
    refine ⟨_, ?_, rfl⟩
    simp only [List.length_append, length_bytes32, List.length_cons, List.length_nil,
      length_flatMap_const length_bytes32]
    omega
  refine builds_checked hbuild (isBlock_byte (by omega) (by omega) ?_)
  rw [BitVec.toNat_ofNat, decide_eq_true_eq]
  omega

/-- The CSRCs of a goodbye. -/
def byeCSRCs (s : RTCPSender) : Nat := if s.includeCSRCs then s.CSRC.1.length else 0

/-- There is only a check for the first eight bytes. -/
def byeOutcome (s : RTCPSender) : Nat → Outcome := checked 8 (8 + 4 * s.byeCSRCs) true

theorem builds_BYE : Builds (keeping buildBYE) s.byeOutcome s buffer := by
  have hle := s.CSRC.2
  change s.CSRC.1.length ≤ 15 at hle
  rw [byeOutcome, byeCSRCs]
  by_cases hcsrcs : s.includeCSRCs = true
  · rw [if_pos hcsrcs]
    refine @builds_checked s buffer _ 8 _ true ([0x80 + 1 + BitVec.ofNat 8 s.CSRC.1.length, PT_BYE, 0,
      1 + BitVec.ofNat 8 s.CSRC.1.length] ++ (bytes32 s.SSRC ++ s.CSRC.1.flatMap bytes32)) ?_
      (isBlock_byte ?_ (by omega) (iff_of_true ?_ rfl))
    · rw [buildBYE, if_pos hcsrcs]
      simp only [List.append_assoc]
    · rw [List.length_append, length_bytes32, length_flatMap_const length_bytes32]
      omega
    · rw [BitVec.toNat_add, BitVec.toNat_ofNat, show (1 : Byte).toNat = 1 from rfl]
      omega
  · rw [if_neg hcsrcs]
    refine @builds_checked s buffer _ 8 _ true ([0x80 + 1, PT_BYE, 0, 1] ++ bytes32 s.SSRC) ?_
      (isBlock_fixed rfl)
    rw [buildBYE, if_neg hcsrcs, List.append_assoc]

def appOutcome (s : RTCPSender) : Nat → Outcome :=
  match s.appData with
  | none => fun _ => .stops (-1)
  | some appData => checked (12 + appData.bytes.length) (12 + appData.bytes.length) true

theorem builds_APP : Builds (keeping buildAPP) s.appOutcome s buffer := by
  rw [appOutcome]
  cases happ : s.appData with
  | none =>
    refine .inr ⟨rfl, s, [], ?_, fun h => by rwa [List.append_nil]⟩
    rw [keeping, buildAPP, happ, List.append_nil]
  | some appData =>
    have hwords := appData.words
    have hlt := appData.lt
    refine @builds_checked s buffer _ _ _ true ([0x80 + s.appSubType, PT_APP] ++
      (bytes16 (BitVec.ofNat 16 (appData.bytes.length / 4 + 2)) ++ (bytes32 s.SSRC ++
        (bytes32 s.appName ++ appData.bytes)))) ?_ (isBlock_words ?_ (by omega) (iff_of_true ?_ rfl))
    · rw [buildAPP, happ]
      simp only [List.append_assoc, Nat.add_assoc]
    · simp only [List.length_append, length_bytes32]
      omega
    · rw [BitVec.toNat_ofNat]
      omega

theorem length_tmmbBytes (tmmbr packetOH : BitVec 32) : (tmmbBytes tmmbr packetOH).length = 4 := rfl

def tmmbrOutcome (env : Module) (s : RTCPSender) : Nat → Outcome :=
  if s.sendsTMMBR env ∧ s.tmmbr_Send ≠ 0 then checked 20 20 true else fun _ => .writes 0 true

theorem builds_TMMBR (env : Module) :
    Builds (keeping fun s => s.buildTMMBR env) (s.tmmbrOutcome env) s buffer := by
  rw [tmmbrOutcome]
  split
  · rename_i hsends
    refine @builds_checked s buffer _ 20 20 true ([0x80 + 3, PT_RTPFB, 0, 4] ++ (bytes32 s.SSRC ++
      ([0, 0, 0, 0] ++ (bytes32 s.remoteSSRC ++ tmmbBytes s.tmmbr_Send s.packetOH_Send)))) ?_
      (isBlock_fixed rfl)
    rw [buildTMMBR, if_neg (not_not.mpr hsends.1), if_neg hsends.2]
    simp only [List.append_assoc]
  · rename_i hsends
    refine builds_nothing ?_
    rw [buildTMMBR]
    by_cases htmmbr : s.sendsTMMBR env = true
    · rw [if_neg (not_not.mpr htmmbr), if_pos (by
        by_contra h
        exact hsends ⟨htmmbr, h⟩)]
    · rw [if_pos htmmbr]

/-- The entries of the bounding set that are sent. -/
def tmmbnEntries (s : RTCPSender) : List SetElement := s.boundingSetToSend.filter fun e => 0 < e.tmmbr

/-- The check is made with 32-bit numbers, and for all entries. -/
def tmmbnOutcome (s : RTCPSender) (pos : Nat) : Outcome :=
  if (pos + 12 + s.boundingSetToSend.length * 8) % 2 ^ 32 ≥ IP_PACKET_SIZE then .stops (-2)
  else .writes (12 + 8 * s.tmmbnEntries.length) (decide (2 + 2 * s.tmmbnEntries.length < 2 ^ 16))

theorem builds_TMMBN : Builds (keeping buildTMMBN) s.tmmbnOutcome s buffer := by
  rw [Builds, tmmbnOutcome]
  by_cases hroom : (buffer.length + 12 + s.boundingSetToSend.length * 8) % 2 ^ 32 ≥ IP_PACKET_SIZE
  · rw [if_pos hroom]
    refine .inl ⟨rfl, s, ?_⟩
    rw [keeping, buildTMMBN, if_pos hroom]
  · rw [if_neg hroom]
    refine ⟨s, [0x80 + 4, PT_RTPFB] ++ (bytes16 (BitVec.ofNat 16 (2 + 2 * s.tmmbnEntries.length)) ++
      (bytes32 s.SSRC ++ ([0, 0, 0, 0] ++ s.tmmbnEntries.flatMap fun e =>
        bytes32 e.ssrc ++ tmmbBytes e.tmmbr e.packetOh))), ?_, Kept.refl s,
      isBlock_words ?_ (by omega) ?_⟩
    · rw [keeping, buildTMMBN, if_neg hroom, tmmbnEntries]
      simp only [List.append_assoc]
    · rw [List.length_append, List.length_append, length_bytes32, @length_flatMap_const _ _ 8]
      · show 4 + (4 + _) + 4 = _
        omega
      · intro e
        rw [List.length_append, length_bytes32, length_tmmbBytes]
    · rw [BitVec.toNat_ofNat, decide_eq_true_eq]
      omega

/-- The number of fields depends on the position. -/
def nackOutcome (nackList : List (BitVec 16)) (pos : Nat) : Outcome :=
  checked 16 (12 + 4 * (nackFields (maxNackFields pos) nackList).1.length) true pos

theorem builds_NACK (nackList : List (BitVec 16)) :
    Builds (keeping fun s => s.buildNACK nackList) (nackOutcome nackList) s buffer := by
  rw [Builds, nackOutcome]
  have hlen := length_nackFields_le (maxNackFields buffer.length) nackList
  have hmax : maxNackFields buffer.length ≤ 253 := Nat.min_le_left _ _
  refine @builds_checked s buffer (fun s => s.buildNACK nackList) 16 _ true ([0x80 + 1, PT_RTPFB, 0,
    BitVec.ofNat 8 (2 + (nackFields (maxNackFields buffer.length) nackList).1.length)] ++
    (bytes32 s.SSRC ++ (bytes32 s.remoteSSRC ++
      (nackFields (maxNackFields buffer.length) nackList).1.flatMap fun field =>
        bytes16 field.1 ++ bytes16 field.2))) ?_ (isBlock_byte ?_ (by omega) (iff_of_true ?_ rfl))
  · simp only [buildNACK, List.append_assoc]
  · rw [List.length_append, List.length_append, length_bytes32, length_bytes32,
      @length_flatMap_const _ _ 4 (fun field => rfl)]
    omega
  · rw [BitVec.toNat_ofNat]
    omega

/-- The words of the bit string, with the padding. -/
def rpsiSize (pictureID : BitVec 64) : Nat :=
  if numberOfGroups pictureID > 6 then 24 else if numberOfGroups pictureID > 2 then 20 else 16

/-- A picture id of more than nine groups is undefined. -/
def rpsiOutcome (env : Module) (pictureID : BitVec 64) (pos : Nat) : Outcome :=
  if env.sendPayloadType = -1 then .stops (-1)
  else if pos + 24 ≥ IP_PACKET_SIZE then .stops (-2)
  else if numberOfGroups pictureID ≤ 9 then .writes (rpsiSize pictureID) true
  else .undefined

theorem isBlock_rpsi {SSRC remoteSSRC : BitVec 32} {pictureID : BitVec 64} {payloadType : Byte}
    (hn9 : numberOfGroups pictureID ≤ 9) :
    IsBlock (rpsiBytes SSRC remoteSSRC pictureID payloadType (numberOfGroups pictureID))
      (rpsiSize pictureID) true := by
  have h1 : 1 ≤ numberOfGroups pictureID := Nat.succ_le_succ (Nat.zero_le _)
  rw [rpsiSize, rpsiBytes, RTCPParserV2.feedbackBytes]
  generalize hpad : (if 4 - (2 + numberOfGroups pictureID) % 4 = 4 then 0
    else 4 - (2 + numberOfGroups pictureID) % 4) = paddingBytes
  rw [List.append_assoc, List.append_assoc, List.append_assoc]
  refine isBlock_words ?_ ?_ (iff_of_true ?_ rfl)
  · simp only [List.length_append, length_bytes32, length_groupBytes _ h1, List.length_replicate,
      List.length_cons, List.length_nil]
    split at hpad <;> split <;> (try split) <;> omega
  · split
    · decide
    · split <;> decide
  · split
    · rfl
    · split <;> rfl

theorem builds_RPSI (env : Module) (request : RTCPRequest) :
    Builds (buildRequestedRPSI env request) (rpsiOutcome env request.pictureID) s buffer := by
  rw [Builds, rpsiOutcome, buildRequestedRPSI]
  by_cases htype : env.sendPayloadType = -1
  · rw [if_pos htype, if_pos htype]
    exact .inr ⟨rfl, s, [], by rw [List.append_nil], fun h => by rwa [List.append_nil]⟩
  rw [if_neg htype, if_neg htype]
  by_cases hroom : buffer.length + 24 ≥ IP_PACKET_SIZE
  · rw [if_pos hroom, buildRPSI, if_pos hroom]
    exact .inl ⟨rfl, s, rfl⟩
  rw [if_neg hroom, buildRPSI_eq s _ _ (Nat.not_le.mp hroom)]
  by_cases hn9 : numberOfGroups request.pictureID ≤ 9
  · rw [if_pos hn9, if_pos hn9]
    exact ⟨s, _, rfl, Kept.refl s, isBlock_rpsi hn9⟩
  · rw [if_neg hn9, if_neg hn9]
    rfl

/-! ## The reports -/

/-- The bytes of a chunk behind a word boundary. -/
def chunkSize (name : CName) : Nat := 4 * ((6 + name.1.length) / 4 + 1)

/-- The bytes of the source descriptions of the sender and of its mixed
sources. -/
def sdesSize (s : RTCPSender) : Nat :=
  4 + chunkSize s.CNAME + (s.csrcCNAMEs.1.map fun cname => chunkSize cname.2).sum

/-- There is only a check for the name of the sender. -/
def sdesOutcome (s : RTCPSender) : Nat → Outcome := checked (12 + s.CNAME.1.length) s.sdesSize true

/-- With a receiver report the description is left out if there is no room. -/
def sdesAfterRROutcome (s : RTCPSender) (pos : Nat) : Outcome :=
  if pos + (12 + s.CNAME.1.length) ≥ IP_PACKET_SIZE then .writes 0 true else .writes s.sdesSize true

/-- A chunk is appended to a number of words. -/
theorem writeSDESChunk_eq {ssrc : BitVec 32} {name : CName} {r : Nat × List Byte}
    (h4 : 4 ∣ r.2.length) : ∃ chunk, chunk.length = chunkSize name ∧
      writeSDESChunk ssrc name r = (r.1 + chunkSize name, r.2 ++ chunk) := by
  have hlen : (r.2 ++ bytes32 ssrc ++ [1, BitVec.ofNat 8 name.1.length] ++ name.1).length =
      r.2.length + (6 + name.1.length) := by
    simp only [List.length_append, length_bytes32, List.length_cons, List.length_nil]
    omega
  have hpad : 6 + name.1.length + (4 - (r.2.length + (6 + name.1.length)) % 4) = chunkSize name := by
    rw [chunkSize]
    omega
  rw [writeSDESChunk, hlen]
  refine ⟨bytes32 ssrc ++ ([1, BitVec.ofNat 8 name.1.length] ++ (name.1 ++
    List.replicate (4 - (r.2.length + (6 + name.1.length)) % 4) 0)), ?_, ?_⟩
  · simp only [List.length_append, length_bytes32, List.length_cons, List.length_nil,
      List.length_replicate]
    omega
  · rw [Nat.add_assoc, Nat.add_assoc, ← Nat.add_assoc 6, hpad]
    simp only [List.append_assoc]

theorem foldl_writeSDESChunk : ∀ (cnames : List (BitVec 32 × CName)) {r : Nat × List Byte},
    4 ∣ r.2.length → ∃ chunks,
      chunks.length = (cnames.map fun cname => chunkSize cname.2).sum ∧
      cnames.foldl (fun r cname => writeSDESChunk cname.1 cname.2 r) r =
        (r.1 + (cnames.map fun cname => chunkSize cname.2).sum, r.2 ++ chunks)
  | [], r, _ => ⟨[], rfl, by rw [List.append_nil]; rfl⟩
  | cname :: cnames, r, h4 => by
    obtain ⟨chunk, hlen, heq⟩ := @writeSDESChunk_eq cname.1 cname.2 r h4
    have h4' : 4 ∣ (r.2 ++ chunk).length := by
      rw [List.length_append, hlen, chunkSize]
      exact (Nat.dvd_add_right h4).mpr (Dvd.intro _ rfl)
    obtain ⟨chunks, hlen', heq'⟩ := @foldl_writeSDESChunk cnames
      (r.1 + chunkSize cname.2, r.2 ++ chunk) h4'
    refine ⟨chunk ++ chunks, ?_, ?_⟩
    · rw [List.length_append, hlen, hlen', List.map_cons, List.sum_cons]
    · rw [List.foldl_cons, heq, heq', List.map_cons, List.sum_cons, Nat.add_assoc, List.append_assoc]

/-- A length field that was left open, behind other blocks. -/
theorem patch16_append (b0 b1 h l : Byte) (rest : List Byte) (v : BitVec 16) :
    patch16 (buffer ++ (b0 :: b1 :: h :: l :: rest)) (buffer.length + 2) v =
      buffer ++ ([b0, b1] ++ (bytes16 v ++ rest)) := by
  rw [patch16, List.set_append_right _ _ (by omega), List.set_append_right _ _ (by omega),
    show buffer.length + 2 - buffer.length = 2 by omega,
    show buffer.length + 2 + 1 - buffer.length = 3 by omega]
  rfl

theorem four_dvd_sum_chunkSize : ∀ cnames : List (BitVec 32 × CName),
    4 ∣ (cnames.map fun cname => chunkSize cname.2).sum ∧
      (cnames.map fun cname => chunkSize cname.2).sum ≤ 264 * cnames.length
  | [] => ⟨Nat.dvd_zero 4, Nat.le_refl 0⟩
  | cname :: cnames => by
    obtain ⟨hdvd, hle⟩ := four_dvd_sum_chunkSize cnames
    have hname := cname.2.2
    change cname.2.1.length < 256 at hname
    rw [List.map_cons, List.sum_cons, List.length_cons, chunkSize]
    omega

theorem buildSDEC_eq (h4 : 4 ∣ buffer.length) : ∃ block, IsBlock block s.sdesSize true ∧
    s.buildSDEC buffer =
      if buffer.length + (12 + s.CNAME.1.length) ≥ IP_PACKET_SIZE then (-2, buffer)
      else (0, buffer ++ block) := by
  have hheader : 4 ∣ (buffer ++ [BitVec.ofNat 8 (0x80 + 1 + s.csrcCNAMEs.1.length), PT_SDES, 0,
      0]).length := by
    rw [List.length_append]
    show 4 ∣ buffer.length + 4
    omega
  obtain ⟨own, hown, hownEq⟩ := @writeSDESChunk_eq s.SSRC s.CNAME (4, _) hheader
  have hownWords : 4 ∣ (buffer ++ [BitVec.ofNat 8 (0x80 + 1 + s.csrcCNAMEs.1.length), PT_SDES, 0,
      0] ++ own).length := by
    rw [List.length_append, hown, chunkSize]
    exact (Nat.dvd_add_right hheader).mpr (Dvd.intro _ rfl)
  obtain ⟨chunks, hchunks, hchunksEq⟩ := @foldl_writeSDESChunk s.csrcCNAMEs.1
    (4 + chunkSize s.CNAME, _) hownWords
  obtain ⟨hdvd, hle⟩ := four_dvd_sum_chunkSize s.csrcCNAMEs.1
  have hcnames := s.csrcCNAMEs.2
  have hname := s.CNAME.2
  change s.csrcCNAMEs.1.length ≤ 15 at hcnames
  change s.CNAME.1.length < 256 at hname
  have hsize : 4 ∣ s.sdesSize ∧ 4 ≤ s.sdesSize ∧ s.sdesSize < 2 ^ 16 := by
    rw [sdesSize, chunkSize]
    omega
  refine ⟨[BitVec.ofNat 8 (0x80 + 1 + s.csrcCNAMEs.1.length), PT_SDES] ++
    (bytes16 (BitVec.ofNat 16 (s.sdesSize / 4 - 1)) ++ (own ++ chunks)), ?_, ?_⟩
  · refine isBlock_words ?_ hsize.1 (iff_of_true ?_ rfl)
    · rw [List.length_append, hown, hchunks, sdesSize]
      omega
    · rw [BitVec.toNat_ofNat]
      omega
  · rw [buildSDEC, Nat.add_assoc]
    split
    · rfl
    · dsimp only
      rw [hownEq]
      dsimp only
      rw [hchunksEq, ← sdesSize, List.append_assoc, List.append_assoc]
      exact congrArg (Prod.mk 0) (patch16_append _ _ _ _ (own ++ chunks) _)

theorem builds_SDEC (h4 : 4 ∣ buffer.length) :
    Builds (keeping buildSDEC) s.sdesOutcome s buffer := by
  obtain ⟨block, hblock, hbuild⟩ := @buildSDEC_eq s buffer h4
  exact builds_checked hbuild hblock

theorem builds_SDECAfterRR (h4 : 4 ∣ buffer.length) :
    Builds (keeping buildSDECAfterRR) s.sdesAfterRROutcome s buffer := by
  obtain ⟨block, hblock, hbuild⟩ := @buildSDEC_eq s buffer h4
  rw [Builds, sdesAfterRROutcome]
  by_cases hroom : buffer.length + (12 + s.CNAME.1.length) ≥ IP_PACKET_SIZE
  · rw [if_pos hroom] at hbuild ⊢
    refine ⟨s, [], ?_, Kept.refl s, isBlock_empty⟩
    rw [keeping, buildSDECAfterRR, hbuild, List.append_nil]
    rfl
  · rw [if_neg hroom] at hbuild ⊢
    refine ⟨s, block, ?_, Kept.refl s, hblock⟩
    rw [keeping, buildSDECAfterRR, hbuild]
    rfl

/-- The report blocks of a report, in bytes. -/
def reportBlocksSize (s : RTCPSender) : Nat :=
  24 * (s.internal_report_blocks.1.length + s.external_report_blocks.1.length)

theorem numberOfReportBlocks_toNat :
    s.numberOfReportBlocks.toNat =
      s.internal_report_blocks.1.length + s.external_report_blocks.1.length := by
  have hinternal := s.internal_report_blocks.2
  have hexternal := s.external_report_blocks.2
  change _ ≤ 31 at hinternal hexternal
  rw [numberOfReportBlocks, BitVec.toNat_add, BitVec.toNat_ofNat, BitVec.toNat_ofNat]
  omega

theorem length_reportBlockBytes (block : BitVec 32 × RTCPReportBlock) :
    (reportBlockBytes block).length = 24 := rfl

/-- The rest of a report that starts the packet. -/
theorem finishReport_eq {b0 b1 h l : Byte} {rest : List Byte} {size : Nat}
    (hsize : rest.length + 4 + s.reportBlocksSize = size) (h4 : 4 ∣ size)
    (hroom : rest.length + 28 < IP_PACKET_SIZE) :
    (IP_PACKET_SIZE ≤ size ∧ s.finishReport 0 (b0 :: b1 :: h :: l :: rest) = none) ∨
      (size < IP_PACKET_SIZE ∧ ∃ s' block,
        s.finishReport 0 (b0 :: b1 :: h :: l :: rest) = some (s', block) ∧
        Kept s s' ∧ IsBlock block size true) := by
  have hnumber := @numberOfReportBlocks_toNat s
  have hlen : (b0 :: b1 :: h :: l :: rest).length = rest.length + 4 := rfl
  have hsum : (b0 :: b1 :: h :: l :: rest).length + s.numberOfReportBlocks.toNat * 24 = size := by
    rw [hlen, hnumber, ← hsize, reportBlocksSize]
    omega
  have hsanity : ¬ (b0 :: b1 :: h :: l :: rest).length + 24 ≥ IP_PACKET_SIZE := by
    rw [hlen]
    omega
  have hbytes : (rest ++ (s.internal_report_blocks.1.flatMap reportBlockBytes ++
      s.external_report_blocks.1.flatMap reportBlockBytes)).length + 4 = size := by
    rw [List.length_append, List.length_append, length_flatMap_const length_reportBlockBytes,
      length_flatMap_const length_reportBlockBytes, ← hsize, reportBlocksSize]
    omega
  rw [finishReport, writeAllReportBlocksToBuffer, if_neg hsanity, hsum]
  by_cases hfull : IP_PACKET_SIZE ≤ size
  · rw [if_pos hfull]
    exact .inl ⟨hfull, rfl⟩
  · rw [if_neg hfull]
    refine .inr ⟨Nat.lt_of_not_le hfull, _, [b0 + s.numberOfReportBlocks, b1] ++
      (bytes16 (BitVec.ofNat 16 (size / 4 - 1)) ++ (rest ++
        (s.internal_report_blocks.1.flatMap reportBlockBytes ++
          s.external_report_blocks.1.flatMap reportBlockBytes))), ?_,
      ⟨s.sequenceNumberFIR, ⟨[], Nat.zero_le _⟩, rfl⟩, isBlock_words ?_ h4 (iff_of_true ?_ rfl)⟩
    · have hbuffer : writeReportBlocksToBuffer (writeReportBlocksToBuffer (b0 :: b1 :: h :: l :: rest)
          s.internal_report_blocks) s.external_report_blocks = b0 :: b1 :: h :: l :: (rest ++
            (s.internal_report_blocks.1.flatMap reportBlockBytes ++
              s.external_report_blocks.1.flatMap reportBlockBytes)) := by
        simp only [writeReportBlocksToBuffer, List.append_assoc, List.cons_append]
      rw [Option.map_some]
      dsimp only
      rw [hbuffer, List.modify_zero_cons]
      simp only [List.length_cons, hbytes]
      rfl
    · exact hbytes
    · have hlt : size < 1500 := Nat.lt_of_not_le hfull
      rw [BitVec.toNat_ofNat]
      omega

/-- A sender report, at the start of the packet, fails if its report blocks do
not fit. -/
def srOutcome (s : RTCPSender) (_ : Nat) : Outcome :=
  if 28 + s.reportBlocksSize ≥ IP_PACKET_SIZE then .stops (-1)
  else .writes (28 + s.reportBlocksSize) true

/-- The report blocks of a receiver report always fit. -/
def rrOutcome (s : RTCPSender) (_ : Nat) : Outcome := .writes (8 + s.reportBlocksSize) true

theorem four_dvd_reportBlocksSize : 4 ∣ s.reportBlocksSize := Dvd.dvd.mul_right (by decide) _

theorem builds_SR (env : Module) (NTPsec NTPfrac : BitVec 32) :
    Builds (fun s buffer => some (s.buildSR env buffer NTPsec NTPfrac)) s.srOutcome s [] := by
  have h4 := @four_dvd_reportBlocksSize s
  obtain ⟨rest, hlen, hfailed, hbuilt⟩ : ∃ rest : List Byte, rest.length = 24 ∧
      (s.finishReport 0 (0x80 :: PT_SR :: 0 :: 0 :: rest) = none →
        s.buildSR env [] NTPsec NTPfrac = (-1, s, 0x80 :: PT_SR :: 0 :: 0 :: rest)) ∧
      (∀ r, s.finishReport 0 (0x80 :: PT_SR :: 0 :: 0 :: rest) = some r →
        s.buildSR env [] NTPsec NTPfrac = (0, r)) := by
    rw [buildSR, if_neg (by decide)]
    simp only [List.append_assoc, List.nil_append, List.cons_append, List.length_nil]
    generalize BitVec.ofInt 32 _ = RTPtime
    refine ⟨bytes32 s.SSRC ++ (bytes32 NTPsec ++ (bytes32 NTPfrac ++ (bytes32 RTPtime ++
      (bytes32 env.packetCountSent ++ bytes32 env.byteCountSent)))), rfl, fun h => ?_, fun r h => ?_⟩
    · rw [h]
    · rw [h]
  rw [Builds, srOutcome]
  rcases @finishReport_eq s 0x80 PT_SR 0 0 rest _ rfl (by omega) (by rw [hlen]; decide) with
    ⟨hfull, hnone⟩ | ⟨hroom, s', block, hsome, hkept, hblock⟩
  · rw [hlen] at hfull
    rw [if_pos hfull]
    refine .inr ⟨rfl, s, 0x80 :: PT_SR :: 0 :: 0 :: rest, congrArg some (hfailed hnone), fun _ => ?_⟩
    rw [List.nil_append, List.length_cons, List.length_cons, List.length_cons, List.length_cons, hlen]
    decide
  · rw [hlen] at hroom hblock
    rw [if_neg (Nat.not_le.mpr hroom)]
    exact ⟨s', block, congrArg some (hbuilt _ hsome), hkept, hblock⟩

theorem builds_RR : Builds (fun s buffer => some (s.buildRR buffer)) s.rrOutcome s [] := by
  have h4 := @four_dvd_reportBlocksSize s
  have hinternal := s.internal_report_blocks.2
  have hexternal := s.external_report_blocks.2
  change _ ≤ 31 at hinternal hexternal
  rw [Builds, rrOutcome, buildRR, if_neg (by decide)]
  dsimp only
  have hwritten : [] ++ [0x80, PT_RR, 0, 0] ++ bytes32 s.SSRC =
      0x80 :: PT_RR :: 0 :: 0 :: bytes32 s.SSRC := rfl
  rw [hwritten]
  rcases @finishReport_eq s 0x80 PT_RR 0 0 (bytes32 s.SSRC) _ rfl
    (by rw [length_bytes32]; omega) (by rw [length_bytes32]; decide) with
    ⟨hfull, hnone⟩ | ⟨hroom, s', block, hsome, hkept, hblock⟩
  · rw [length_bytes32, reportBlocksSize] at hfull
    change 1500 ≤ _ at hfull
    omega
  · refine ⟨s', block, ?_, hkept, hblock⟩
    rw [List.length_nil, hsome]
    rfl

end

/-! ## A call -/

section

variable (env : Module) (request : RTCPRequest) (s : RTCPSender)

def reportOutcomes (flags : BitVec 32) (s : RTCPSender) : List (Nat → Outcome) :=
  if isSet flags kRtcpSr then [s.srOutcome, s.sdesOutcome]
  else if isSet flags kRtcpRr then
    s.rrOutcome :: if s.CNAME.1 ≠ [] then [s.sdesAfterRROutcome] else []
  else []

def otherOutcomes : List (BitVec 32 × (Nat → Outcome)) :=
  [(kRtcpTransmissionTimeOffset, s.extendedJitterOutcome),
    (kRtcpPli, checked 12 12 true),
    (kRtcpFir, checked 20 20 true),
    (kRtcpSli, checked 16 16 true),
    (kRtcpRpsi, rpsiOutcome env request.pictureID),
    (kRtcpRemb, s.rembOutcome),
    (kRtcpBye, s.byeOutcome),
    (kRtcpApp, s.appOutcome),
    (kRtcpTmmbr, s.tmmbrOutcome env),
    (kRtcpTmmbn, s.tmmbnOutcome),
    (kRtcpNack, nackOutcome request.nackList),
    (kRtcpXrVoipMetric, checked 44 44 true)]

/-- The outcomes of the builders of a call. -/
def outcomes : List (Nat → Outcome) :=
  let collected := s.collectFlags request.packetTypeFlags
  let reported := collected.2.collectReports env collected.1
  reportOutcomes reported.1 reported.2 ++
    ((otherOutcomes env request reported.2).filter fun entry => isSet reported.1 entry.1).map (·.2)

/-- A builder has this outcome behind other builders. -/
def BuildsAfter (s : RTCPSender) (build : Builder) (outcome : Nat → Outcome) : Prop :=
  ∀ s' buffer, Kept s s' → 4 ∣ buffer.length → Builds build outcome s' buffer

variable {s} in
theorem buildsAfter_of {build : Builder} {outcome : RTCPSender → Nat → Outcome}
    (hbuilds : ∀ s buffer, 4 ∣ buffer.length → Builds build (outcome s) s buffer)
    (hkept : ∀ (s : RTCPSender) sequenceNumberFIR blocks, outcome { s with
      sequenceNumberFIR := sequenceNumberFIR
      internal_report_blocks := blocks } = outcome s) : BuildsAfter s build (outcome s) := by
  intro s' buffer hs h4
  have hbuild := hbuilds s' buffer h4
  obtain ⟨_, _, rfl⟩ := hs
  rwa [hkept] at hbuild

/-- The builders of a call, with their outcomes. -/
theorem builds_others : List.Forall₂ (fun build outcome => build.1 = outcome.1 ∧
    BuildsAfter s build.2 outcome.2) (otherBuilders env request) (otherOutcomes env request s) := by
  refine .cons ⟨rfl, ?_⟩ (.cons ⟨rfl, ?_⟩ (.cons ⟨rfl, ?_⟩ (.cons ⟨rfl, ?_⟩ (.cons ⟨rfl, ?_⟩
    (.cons ⟨rfl, ?_⟩ (.cons ⟨rfl, ?_⟩ (.cons ⟨rfl, ?_⟩ (.cons ⟨rfl, ?_⟩ (.cons ⟨rfl, ?_⟩
    (.cons ⟨rfl, ?_⟩ (.cons ⟨rfl, ?_⟩ .nil)))))))))))
  · exact buildsAfter_of (fun _ _ _ => builds_extendedJitterReport 0) fun _ _ _ => rfl
  · exact buildsAfter_of (fun _ _ _ => builds_PLI) fun _ _ _ => rfl
  · exact buildsAfter_of (fun _ _ _ => builds_FIR request.repeated) fun _ _ _ => rfl
  · exact buildsAfter_of (fun _ _ _ => builds_SLI (request.pictureID.setWidth 8)) fun _ _ _ => rfl
  · exact buildsAfter_of (fun _ _ _ => builds_RPSI env request) fun _ _ _ => rfl
  · exact buildsAfter_of (fun _ _ _ => builds_REMB) fun _ _ _ => rfl
  · exact buildsAfter_of (fun _ _ _ => builds_BYE) fun _ _ _ => rfl
  · exact buildsAfter_of (fun _ _ _ => builds_APP) fun _ _ _ => rfl
  · exact buildsAfter_of (fun _ _ _ => builds_TMMBR env) fun _ _ _ => rfl
  · exact buildsAfter_of (fun _ _ _ => builds_TMMBN) fun _ _ _ => rfl
  · exact buildsAfter_of (fun _ _ _ => builds_NACK request.nackList) fun _ _ _ => rfl
  · exact buildsAfter_of (fun _ _ _ => builds_VoIPMetric) fun _ _ _ => rfl

variable {env request s} {outcomes : List (Nat → Outcome)} {builders : List Builder}

theorem forall₂_filter {flags : BitVec 32} {R : Builder → (Nat → Outcome) → Prop}
    {builders : List (BitVec 32 × Builder)} {outcomes : List (BitVec 32 × (Nat → Outcome))}
    (h : List.Forall₂ (fun build outcome => build.1 = outcome.1 ∧ R build.2 outcome.2) builders
      outcomes) :
    List.Forall₂ R ((builders.filter fun entry => isSet flags entry.1).map (·.2))
      ((outcomes.filter fun entry => isSet flags entry.1).map (·.2)) := by
  induction h with
  | nil => exact .nil
  | cons hentry _ ih =>
    rw [List.filter_cons, List.filter_cons, hentry.1]
    split
    · exact .cons hentry.2 ih
    · exact ih

theorem runs_after (h : List.Forall₂ (BuildsAfter s) builders outcomes) :
    ∀ {s' : RTCPSender} {buffer : List Byte} {positions : List Nat}, Kept s s' → 4 ∣ buffer.length →
      Runs builders outcomes s' buffer positions := by
  induction h with
  | nil => exact fun _ _ => runs_nil
  | cons hbuilds _ ih =>
    intro s' buffer positions hkept h4
    refine runs_cons (hbuilds s' buffer hkept h4) fun s'' block hkept' hblock _ => ?_
    refine ih (hkept.trans hkept') ?_
    rw [List.length_append]
    exact (Nat.dvd_add_right h4).mpr hblock

/-- The builders of a report and those behind it. -/
theorem runs_report {flags : BitVec 32} (h : List.Forall₂ (BuildsAfter s) builders outcomes) :
    Runs (reportBuilders env flags s ++ builders) (reportOutcomes flags s ++ outcomes) s [] [] := by
  rw [reportBuilders, reportOutcomes]
  split
  · have hsdes : BuildsAfter s (keeping buildSDEC) s.sdesOutcome :=
      buildsAfter_of (fun _ _ => builds_SDEC) fun _ _ _ => rfl
    refine runs_cons (builds_SR env env.NTPsec env.NTPfrac) fun s' block hkept hblock _ => ?_
    exact runs_after (.cons hsdes h) hkept hblock
  split
  · have hsdes : BuildsAfter s (keeping buildSDECAfterRR) s.sdesAfterRROutcome :=
      buildsAfter_of (fun _ _ => builds_SDECAfterRR) fun _ _ _ => rfl
    refine runs_cons builds_RR fun s' block hkept hblock _ => ?_
    split
    · exact runs_after (.cons hsdes h) hkept hblock
    · exact runs_after h hkept hblock
  · exact runs_after h (Kept.refl s) (Nat.dvd_zero 4)

/-- A run from the start of a packet. -/
theorem wellPrepared_iff (hruns : Runs builders outcomes s [] []) :
    WellPrepared (runBuilders builders s [] []) ↔
      Fits 0 outcomes ∧ (Fails 0 outcomes ∨ Sound 0 outcomes) := by
  rw [Runs] at hruns
  revert hruns
  generalize runBuilders builders s [] [] = prepared
  intro hruns
  cases prepared with
  | none =>
    refine iff_of_false ?_ fun h => hruns h.1
    rintro ⟨p, hp, -⟩
    cases hp
  | some p =>
    obtain ⟨-, hfits, hresult⟩ := hruns
    have hfits := hfits (Nat.zero_le _)
    rcases hresult with ⟨hret, hfails⟩ | ⟨hret, hfails, log, hlog, htiles⟩
    · -- Nothing is returned.
      constructor
      · rintro ⟨_, hp, hle, -⟩
        cases hp
        exact ⟨hfits.mp hle, .inl hfails⟩
      · rintro ⟨hfit, -⟩
        refine ⟨p, rfl, hfits.mpr hfit, fun h => ?_⟩
        rw [hret] at h
        exact absurd h (by decide)
    · rw [List.nil_append] at hlog
      subst hlog
      constructor
      · rintro ⟨_, hp, hle, hall⟩
        cases hp
        exact ⟨hfits.mp hle, .inr (htiles.mp (hall (by rw [hret]; exact Int.natCast_nonneg _)).2)⟩
      · rintro ⟨hfit, h⟩
        exact ⟨p, rfl, hfits.mpr hfit, fun _ => ⟨hret, htiles.mpr (h.resolve_left hfails)⟩⟩

/-- An outcome that is right wherever a block starts. -/
def Good (outcome : Nat → Outcome) : Prop :=
  ∀ pos, 4 ∣ pos → pos ≤ IP_PACKET_SIZE →
    match outcome pos with
    | .undefined => False
    | .stops _ => True
    | .writes size sound => pos + size ≤ IP_PACKET_SIZE ∧ 4 ∣ size ∧ sound = true

theorem good_checked {guard size : Nat} (h4 : 4 ∣ size) (hguard : size ≤ guard + 4) :
    Good (checked guard size true) := by
  intro pos hpos hle
  rw [checked]
  by_cases hroom : pos + guard ≥ IP_PACKET_SIZE
  · rw [if_pos hroom]
    trivial
  · rw [if_neg hroom]
    change ¬ pos + guard ≥ 1500 at hroom
    refine ⟨?_, h4, rfl⟩
    show pos + size ≤ 1500
    omega

theorem good_nothing : Good fun _ => .writes 0 true := fun _ _ hle => ⟨hle, Nat.dvd_zero 4, rfl⟩

theorem fits_of_good : ∀ {outcomes : List (Nat → Outcome)} {pos : Nat}, (∀ o ∈ outcomes, Good o) →
    4 ∣ pos → pos ≤ IP_PACKET_SIZE → Fits pos outcomes ∧ Sound pos outcomes
  | [], _, _, _, _ => ⟨trivial, trivial⟩
  | outcome :: outcomes, pos, h, h4, hle => by
    rw [List.forall_mem_cons] at h
    have hgood := h.1 pos h4 hle
    rw [Fits, Sound]
    cases hout : outcome pos with
    | undefined =>
      rw [hout] at hgood
      exact hgood.elim
    | stops result => exact ⟨trivial, trivial⟩
    | writes size sound =>
      rw [hout] at hgood
      obtain ⟨hroom, hsize, hsound⟩ := hgood
      obtain ⟨hfits, hrest⟩ := fits_of_good h.2 ((Nat.dvd_add_right h4).mpr hsize) hroom
      exact ⟨⟨hroom, hfits⟩, hsound, hrest⟩

/-- The configurations in which every block fits wherever it starts. -/
structure Modest (request : RTCPRequest) (s : RTCPSender) : Prop where
  names : s.csrcCNAMEs.1 = []
  csrcs : s.byeCSRCs = 0
  remb : s.rembSSRC.1.length < 252
  boundingSet : s.boundingSetToSend.length < 2 ^ 28
  pictureID : numberOfGroups request.pictureID ≤ 9

theorem Modest.sdesSize (h : Modest request s) : 4 ∣ s.sdesSize ∧ s.sdesSize ≤ 14 + s.CNAME.1.length := by
  rw [RTCPSender.sdesSize, h.names, List.map_nil, List.sum_nil, chunkSize]
  omega

theorem good_rpsi (hn9 : numberOfGroups request.pictureID ≤ 9) :
    Good (rpsiOutcome env request.pictureID) := by
  intro pos hpos hle
  rw [rpsiOutcome]
  by_cases htype : env.sendPayloadType = -1
  · rw [if_pos htype]
    trivial
  rw [if_neg htype]
  by_cases hroom : pos + 24 ≥ IP_PACKET_SIZE
  · rw [if_pos hroom]
    trivial
  rw [if_neg hroom, if_pos hn9]
  have hsize : rpsiSize request.pictureID ≤ 24 ∧ 4 ∣ rpsiSize request.pictureID := by
    rw [rpsiSize]
    split
    · decide
    · split <;> decide
  exact ⟨by omega, hsize.2, rfl⟩

theorem good_tmmbn (hset : s.boundingSetToSend.length < 2 ^ 28) : Good s.tmmbnOutcome := by
  intro pos hpos hle
  have hentries : s.tmmbnEntries.length ≤ s.boundingSetToSend.length := List.length_filter_le _ _
  change pos ≤ 1500 at hle
  rw [tmmbnOutcome, Nat.mod_eq_of_lt (by omega)]
  by_cases hroom : pos + 12 + s.boundingSetToSend.length * 8 ≥ IP_PACKET_SIZE
  · rw [if_pos hroom]
    trivial
  · rw [if_neg hroom]
    change ¬ _ ≥ 1500 at hroom
    refine ⟨?_, by omega, decide_eq_true (by omega)⟩
    show pos + _ ≤ 1500
    omega

theorem good_nack (nackList : List (BitVec 16)) : Good (nackOutcome nackList) := by
  intro pos hpos hle
  have hlen := length_nackFields_le (maxNackFields pos) nackList
  have hmax : maxNackFields pos ≤ (1500 - (pos + 12)) / 4 := Nat.min_le_right _ _
  rw [nackOutcome, checked]
  by_cases hroom : pos + 16 ≥ IP_PACKET_SIZE
  · rw [if_pos hroom]
    trivial
  · rw [if_neg hroom]
    change ¬ pos + 16 ≥ 1500 at hroom
    refine ⟨?_, by omega, rfl⟩
    show pos + _ ≤ 1500
    omega

theorem good_others (h : Modest request s) : ∀ o ∈ otherOutcomes env request s, Good o.2 := by
  have hcsrcs := h.csrcs
  simp only [otherOutcomes, List.forall_mem_cons]
  refine ⟨?_, good_checked (by decide) (by decide), good_checked (by decide) (by decide),
    good_checked (by decide) (by decide), good_rpsi h.pictureID, ?_, ?_, ?_, ?_,
    good_tmmbn h.boundingSet, good_nack _, good_checked (by decide) (by decide), ?_⟩
  · rw [extendedJitterOutcome]
    split
    · exact good_nothing
    · exact good_checked (by decide) (by decide)
  · rw [rembOutcome, decide_eq_true h.remb]
    exact good_checked (by omega) (by omega)
  · rw [byeOutcome, hcsrcs]
    exact good_checked (by decide) (by decide)
  · rw [appOutcome]
    cases happ : s.appData with
    | none => exact fun _ _ _ => trivial
    | some appData =>
      have hwords := appData.words
      exact good_checked (by omega) (by omega)
  · rw [tmmbrOutcome]
    split
    · exact good_checked (by decide) (by decide)
    · exact good_nothing
  · exact fun _ h => absurd h List.not_mem_nil

theorem good_sdesAfterRR (h : Modest request s) : Good s.sdesAfterRROutcome := by
  obtain ⟨h4, hle⟩ := h.sdesSize
  intro pos hpos hpos'
  have hgood := @good_checked (12 + s.CNAME.1.length) s.sdesSize h4 (by omega) pos hpos hpos'
  rw [sdesAfterRROutcome]
  rw [checked] at hgood
  by_cases hroom : pos + (12 + s.CNAME.1.length) ≥ IP_PACKET_SIZE
  · rw [if_pos hroom]
    exact ⟨hpos', Nat.dvd_zero 4, rfl⟩
  · rw [if_neg hroom] at hgood ⊢
    exact hgood

/-- A report and good blocks behind it. -/
theorem fits_report (h : Modest request s) (flags : BitVec 32) (hgood : ∀ o ∈ outcomes, Good o) :
    Fits 0 (reportOutcomes flags s ++ outcomes) ∧
      (Fails 0 (reportOutcomes flags s ++ outcomes) ∨ Sound 0 (reportOutcomes flags s ++ outcomes)) := by
  have hblocks := @four_dvd_reportBlocksSize s
  obtain ⟨hsdes4, hsdes⟩ := h.sdesSize
  rw [reportOutcomes]
  split
  · rw [List.cons_append, Fits, Fails, Sound, srOutcome]
    by_cases hfull : 28 + s.reportBlocksSize ≥ IP_PACKET_SIZE
    · rw [if_pos hfull]
      exact ⟨trivial, .inl rfl⟩
    · rw [if_neg hfull]
      have hrest := @fits_of_good ([s.sdesOutcome] ++ outcomes) (0 + (28 + s.reportBlocksSize))
        (List.forall_mem_cons.mpr ⟨good_checked hsdes4 (by omega), hgood⟩) (by omega) (by omega)
      exact ⟨⟨by omega, hrest.1⟩, .inr ⟨rfl, hrest.2⟩⟩
  split
  · have hinternal := s.internal_report_blocks.2
    have hexternal := s.external_report_blocks.2
    change _ ≤ 31 at hinternal hexternal
    have hroom : 0 + (8 + s.reportBlocksSize) ≤ IP_PACKET_SIZE := by
      rw [reportBlocksSize]
      change _ ≤ 1500
      omega
    rw [List.cons_append, Fits, Fails, Sound, rrOutcome]
    have hrest := @fits_of_good ((if s.CNAME.1 ≠ [] then [s.sdesAfterRROutcome] else []) ++ outcomes)
      (0 + (8 + s.reportBlocksSize)) (by
        split
        · exact List.forall_mem_cons.mpr ⟨good_sdesAfterRR h, hgood⟩
        · exact hgood) (by omega) hroom
    exact ⟨⟨hroom, hrest.1⟩, .inr ⟨rfl, hrest.2⟩⟩
  · obtain ⟨hfits, hsound⟩ := @fits_of_good outcomes 0 hgood (Nat.dvd_zero 4) (Nat.zero_le _)
    exact ⟨hfits, .inr hsound⟩

/-- What the flags and the statistics change of the sender. -/
theorem Modest.collected (h : Modest request s) (flags : BitVec 32) :
    Modest request ((s.collectFlags flags).2.collectReports env (s.collectFlags flags).1).2 := by
  rw [collectReports]
  split
  · exact ⟨h.names, h.csrcs, h.remb, h.boundingSet, h.pictureID⟩
  · exact ⟨h.names, h.csrcs, h.remb, h.boundingSet, h.pictureID⟩

end

/-- Without mixed sources, and with numbers that fit in their fields, every
call stays within the packet and returns blocks with the right length fields. -/
theorem wellPrepared_of_modest (env : Module) {request : RTCPRequest} {s : RTCPSender}
    (h : Modest request s) : WellPrepared (prepareRTCP env request s) := by
  rw [prepareRTCP]
  refine (wellPrepared_iff (runs_report (forall₂_filter (builds_others env request _)))).mpr
    (fits_report (h.collected request.packetTypeFlags) _ fun o ho => ?_)
  obtain ⟨entry, hentry, rfl⟩ := List.mem_map.mp ho
  exact good_others (h.collected request.packetTypeFlags) entry (List.mem_filter.mp hentry).1

theorem wellPrepared_of_modest_name :
    WellPrepared (prepareRTCP {} { packetTypeFlags := kRtcpReport }
      { method := .kRtcpCompound, CNAME := ⟨[97], by decide⟩ }) :=
  wellPrepared_of_modest {} ⟨rfl, rfl, by decide, by decide, by decide⟩

/-- A call stays within the packet and returns blocks with the right length
fields if and only if every block that its builders come to fits, and either
the call fails or the lengths of the blocks fit in their fields. -/
theorem prepareRTCP_iff (env : Module) (request : RTCPRequest) (s : RTCPSender) :
    WellPrepared (prepareRTCP env request s) ↔
      Fits 0 (outcomes env request s) ∧
        (Fails 0 (outcomes env request s) ∨ Sound 0 (outcomes env request s)) := by
  rw [prepareRTCP, outcomes]
  exact wellPrepared_iff (runs_report (forall₂_filter (builds_others env request _)))

/-- The names of six mixed sources do not fit, and are not checked for. -/
theorem not_wellPrepared_six_names :
    let name : CName := ⟨List.replicate 255 97, by decide +kernel⟩
    let s : RTCPSender := {
      method := .kRtcpCompound
      CNAME := ⟨[97], by decide⟩
      csrcCNAMEs := ⟨[(1, name), (2, name), (3, name), (4, name), (5, name), (6, name)], by decide⟩ }
    (prepareRTCP {} { packetTypeFlags := kRtcpReport } s).map (fun p => p.buffer.length) = some 1604 ∧
      ¬ WellPrepared (prepareRTCP {} { packetTypeFlags := kRtcpReport } s) := by
  intro name s
  have hlen : (prepareRTCP {} { packetTypeFlags := kRtcpReport } s).map (fun p => p.buffer.length) =
      some 1604 := by
    decide +kernel
  refine ⟨hlen, ?_⟩
  rintro ⟨p, hp, hle, -⟩
  rw [hp, Option.map_some, Option.some_inj] at hlen
  rw [hlen] at hle
  exact absurd hle (by decide)

end RTCPSender

end PerchWebrtc.Rtcp
