import PerchWebrtc.Framework.Buffer
import PerchWebrtc.Rtcp.TMMBRSet

/-!
# The blocks that the RTCP sender builds

The builders of `RTCPSender` (`rtcp_sender.cc`). A builder gets the bytes
written so far, so that `pos` is their number, and returns its result with
the bytes after it: `rtcpbuffer[pos++] = b` appends `b`, and a length field
that is filled in later is set. Assertions are left out; that of `BuildNACK` is
named there. What a limit of the class bounds carries the bound as a field.
-/

namespace PerchWebrtc.Rtcp

def IP_PACKET_SIZE : Nat := 1500
def RTCP_CNAME_SIZE : Nat := 256
def RTCP_MAX_REPORT_BLOCKS : Nat := 31
def kRtcpMaxNackFields : Nat := 253
def kRtpCsrcSize : Nat := 15

inductive RTCPMethod where
  | kRtcpOff
  | kRtcpCompound
  | kRtcpNonCompound
  deriving DecidableEq, Repr

structure RTCPReportBlock where
  fractionLost : Byte := 0
  cumulativeLost : BitVec 32 := 0
  extendedHighSeqNum : BitVec 32 := 0
  jitter : BitVec 32 := 0
  lastSR : BitVec 32 := 0
  delaySinceLastSR : BitVec 32 := 0

structure RTCPVoIPMetric where
  lossRate : Byte := 0
  discardRate : Byte := 0
  burstDensity : Byte := 0
  gapDensity : Byte := 0
  burstDuration : BitVec 16 := 0
  gapDuration : BitVec 16 := 0
  roundTripDelay : BitVec 16 := 0
  endSystemDelay : BitVec 16 := 0
  signalLevel : Byte := 0
  noiseLevel : Byte := 0
  RERL : Byte := 0
  Gmin : Byte := 0
  Rfactor : Byte := 0
  extRfactor : Byte := 0
  MOSLQ : Byte := 0
  MOSCQ : Byte := 0
  RXconfig : Byte := 0
  JBnominal : BitVec 16 := 0
  JBmax : BitVec 16 := 0
  JBabsMax : BitVec 16 := 0

/-- The characters of a CNAME, in an array with a terminating zero. -/
abbrev CName := { name : List Byte // name.length < RTCP_CNAME_SIZE }

/-- A map of report blocks: its entries in the order of the keys. -/
abbrev ReportBlocks :=
  { blocks : List (BitVec 32 × RTCPReportBlock) // blocks.length ≤ RTCP_MAX_REPORT_BLOCKS }

/-- The data of an APP packet, whole words whose octets a `uint16_t` counts. -/
structure AppData where
  bytes : List Byte
  words : 4 ∣ bytes.length
  lt : bytes.length < 2 ^ 16

structure RTCPSender where
  audio : Bool := false
  method : RTCPMethod := .kRtcpOff
  sending : Bool := false
  sendTMMBN : Bool := false
  REMB : Bool := false
  sendREMB : Bool := false
  TMMBR : Bool := false
  IJ : Bool := false
  start_timestamp : BitVec 32 := 0
  last_rtp_timestamp : BitVec 32 := 0
  last_frame_capture_time_ms : Int := -1
  SSRC : BitVec 32 := 0
  remoteSSRC : BitVec 32 := 0
  CNAME : CName := ⟨[], by decide⟩
  internal_report_blocks : ReportBlocks := ⟨[], by decide⟩
  external_report_blocks : ReportBlocks := ⟨[], by decide⟩
  csrcCNAMEs : { names : List (BitVec 32 × CName) // names.length ≤ kRtpCsrcSize } :=
    ⟨[], by decide⟩
  CSRC : { csrcs : List (BitVec 32) // csrcs.length ≤ kRtpCsrcSize } := ⟨[], by decide⟩
  includeCSRCs : Bool := true
  sequenceNumberFIR : Byte := 0
  rembSSRC : { ssrcs : List (BitVec 32) // ssrcs.length < 2 ^ 8 } := ⟨[], by decide⟩
  rembBitrate : BitVec 32 := 0
  /-- The entries of the set in `_tmmbrHelp`. -/
  boundingSetToSend : List SetElement := []
  tmmbr_Send : BitVec 32 := 0
  packetOH_Send : BitVec 32 := 0
  appSend : Bool := false
  appSubType : Byte := 0
  appName : BitVec 32 := 0
  appData : Option AppData := none
  xrSendVoIPMetric : Bool := false
  xrVoIPMetric : RTCPVoIPMetric := {}

/-- What the builders get from the rest of the module. -/
structure Module where
  NTPsec : BitVec 32 := 0
  NTPfrac : BitVec 32 := 0
  timeInMilliseconds : Int := 0
  currentSendFrequencyHz : BitVec 32 := 0
  packetCountSent : BitVec 32 := 0
  byteCountSent : BitVec 32 := 0
  sendPayloadType : BitVec 8 := -1
  /-- The active statisticians, with the report of each that has one. -/
  activeStatisticians : List (BitVec 32 × Option RTCPReportBlock) := []
  /-- `BoundingSet`: whether we own the set received last, and its entries. -/
  boundingSet : Bool × List SetElement := (false, [])
  /-- `FindTMMBRBoundingSet`, of the entries of the candidate set. -/
  findTMMBRBoundingSet : List SetElement → List SetElement := id

/-- A length field that was left open. -/
def patch16 (buffer : List Byte) (pos : Nat) (v : BitVec 16) : List Byte :=
  (buffer.set pos (v.extractLsb' 8 8)).set (pos + 1) (v.extractLsb' 0 8)

namespace RTCPSender

variable (s : RTCPSender)

/-! ## Reports -/

def addReportBlock (ssrc : BitVec 32) (reportBlock : RTCPReportBlock) (blocks : ReportBlocks) :
    ReportBlocks :=
  if h : blocks.1.length ≥ RTCP_MAX_REPORT_BLOCKS then blocks
  else ⟨(blocks.1.filter (·.1 ≠ ssrc)).orderedInsert (fun a b => a.1 ≤ b.1) (ssrc, reportBlock), by
    have := List.length_filter_le (fun b : BitVec 32 × RTCPReportBlock => b.1 ≠ ssrc) blocks.1
    rw [List.orderedInsert_length]
    omega⟩

def reportBlockBytes (block : BitVec 32 × RTCPReportBlock) : List Byte :=
  bytes32 block.1 ++ [block.2.fractionLost] ++ bytes24 (block.2.cumulativeLost.setWidth 24) ++
    bytes32 block.2.extendedHighSeqNum ++ bytes32 block.2.jitter ++ bytes32 block.2.lastSR ++
    bytes32 block.2.delaySinceLastSR

def writeReportBlocksToBuffer (buffer : List Byte) (blocks : ReportBlocks) : List Byte :=
  buffer ++ blocks.1.flatMap reportBlockBytes

/-- The number of report blocks, an octet. -/
def numberOfReportBlocks : Byte :=
  BitVec.ofNat 8 s.external_report_blocks.1.length + BitVec.ofNat 8 s.internal_report_blocks.1.length

/-- The bytes after the report blocks; the internal ones are used up. -/
def writeAllReportBlocksToBuffer (buffer : List Byte) : Option (RTCPSender × List Byte) :=
  -- sanity one block
  if buffer.length + 24 ≥ IP_PACKET_SIZE then none
  else if buffer.length + s.numberOfReportBlocks.toNat * 24 ≥ IP_PACKET_SIZE then none
  else
    let buffer := writeReportBlocksToBuffer buffer s.internal_report_blocks
    some ({ s with internal_report_blocks := ⟨[], Nat.zero_le _⟩ },
      writeReportBlocksToBuffer buffer s.external_report_blocks)

/-- What the two reports do after their own fields. The length goes to the
first block of the buffer. -/
def finishReport (posNumberOfReportBlocks : Nat) (buffer : List Byte) :
    Option (RTCPSender × List Byte) :=
  (s.writeAllReportBlocksToBuffer buffer).map fun r =>
    let buffer := r.2.modify posNumberOfReportBlocks (· + s.numberOfReportBlocks)
    (r.1, patch16 buffer 2 (BitVec.ofNat 16 (buffer.length / 4 - 1)))

def buildSR (env : Module) (buffer : List Byte) (NTPsec NTPfrac : BitVec 32) :
    Int × RTCPSender × List Byte :=
  if buffer.length + 52 ≥ IP_PACKET_SIZE then (-2, s, buffer)
  else
    let freqHz : BitVec 32 := if s.audio then env.currentSendFrequencyHz else 90000
    let RTPtime := BitVec.ofInt 32 ((s.start_timestamp + s.last_rtp_timestamp).toNat +
      (env.timeInMilliseconds - s.last_frame_capture_time_ms) * (freqHz.toNat / 1000))
    let written := buffer ++ [0x80, PT_SR, 0, 0] ++ bytes32 s.SSRC ++ bytes32 NTPsec ++
      bytes32 NTPfrac ++ bytes32 RTPtime ++ bytes32 env.packetCountSent ++ bytes32 env.byteCountSent
    match s.finishReport buffer.length written with
    | none => (-1, s, written)
    | some r => (0, r)

def buildRR (buffer : List Byte) : Int × RTCPSender × List Byte :=
  if buffer.length + 32 ≥ IP_PACKET_SIZE then (-2, s, buffer)
  else
    let written := buffer ++ [0x80, PT_RR, 0, 0] ++ bytes32 s.SSRC
    match s.finishReport buffer.length written with
    | none => (written.length, s, written)
    | some r => (0, r)

/-! ## Source descriptions -/

/-- A chunk with a CNAME, and the zeros to the next word boundary: one at
least. The first component is `SDESLength`. -/
def writeSDESChunk (ssrc : BitVec 32) (name : CName) (r : Nat × List Byte) : Nat × List Byte :=
  let buffer := r.2 ++ bytes32 ssrc ++ [1, BitVec.ofNat 8 name.1.length] ++ name.1
  let padding := 4 - buffer.length % 4
  (r.1 + 6 + name.1.length + padding, buffer ++ List.replicate padding 0)

def buildSDEC (buffer : List Byte) : Int × List Byte :=
  if buffer.length + 12 + s.CNAME.1.length ≥ IP_PACKET_SIZE then (-2, buffer)
  else
    let SDESLengthPos := buffer.length + 2
    let header := buffer ++ [BitVec.ofNat 8 (0x80 + 1 + s.csrcCNAMEs.1.length), PT_SDES, 0, 0]
    let own := writeSDESChunk s.SSRC s.CNAME (4, header)
    let all := s.csrcCNAMEs.1.foldl (fun r cname => writeSDESChunk cname.1 cname.2 r) own
    -- in 32-bit words minus one and we don't count the header
    (0, patch16 all.2 SDESLengthPos (BitVec.ofNat 16 (all.1 / 4 - 1)))

/-! ## Blocks of a fixed length -/

def buildExtendedJitterReport (jitterTransmissionTimeOffset : BitVec 32) (buffer : List Byte) :
    Int × List Byte :=
  if s.external_report_blocks.1.length > 0 then (0, buffer)
  else if buffer.length + 8 ≥ IP_PACKET_SIZE then (-2, buffer)
  else (0, buffer ++ [0x80 + 1, PT_IJ, 0, 1] ++ bytes32 jitterTransmissionTimeOffset)

def buildPLI (buffer : List Byte) : Int × List Byte :=
  if buffer.length + 12 ≥ IP_PACKET_SIZE then (-2, buffer)
  else (0, buffer ++ [0x80 + 1, PT_PSFB, 0, 2] ++ bytes32 s.SSRC ++ bytes32 s.remoteSSRC)

/-- The sequence number does not increase if the request is repeated. -/
def buildFIR (repeated : Bool) (buffer : List Byte) : Int × RTCPSender × List Byte :=
  if buffer.length + 20 ≥ IP_PACKET_SIZE then (-2, s, buffer)
  else
    let sequenceNumberFIR := if repeated then s.sequenceNumberFIR else s.sequenceNumberFIR + 1
    (0, { s with sequenceNumberFIR := sequenceNumberFIR },
      buffer ++ [0x80 + 4, PT_PSFB, 0, 4] ++ bytes32 s.SSRC ++ [0, 0, 0, 0] ++
        bytes32 s.remoteSSRC ++ [sequenceNumberFIR, 0, 0, 0])

def buildSLI (pictureID : Byte) (buffer : List Byte) : Int × List Byte :=
  if buffer.length + 16 ≥ IP_PACKET_SIZE then (-2, buffer)
  else
    -- first = 0, 13 bits; number = 0x1fff, 13 bits
    let sliField : BitVec 32 := ((0x1fff : BitVec 32) <<< 6) + (0x3f &&& pictureID.setWidth 32)
    (0, buffer ++ [0x80 + 2, PT_PSFB, 0, 3] ++ bytes32 s.SSRC ++ bytes32 s.remoteSSRC ++
      bytes32 sliField)

def buildVoIPMetric (buffer : List Byte) : Int × List Byte :=
  if buffer.length + 44 ≥ IP_PACKET_SIZE then (-2, buffer)
  else
    let xr := s.xrVoIPMetric
    (0, buffer ++ [0x80, PT_XR, 0, 10] ++ bytes32 s.SSRC ++ [7, 0, 0, 8] ++ bytes32 s.remoteSSRC ++
      [xr.lossRate, xr.discardRate, xr.burstDensity, xr.gapDensity] ++
      bytes16 xr.burstDuration ++ bytes16 xr.gapDuration ++
      bytes16 xr.roundTripDelay ++ bytes16 xr.endSystemDelay ++
      [xr.signalLevel, xr.noiseLevel, xr.RERL, xr.Gmin] ++
      [xr.Rfactor, xr.extRfactor, xr.MOSLQ, xr.MOSCQ] ++
      [xr.RXconfig, 0] ++ bytes16 xr.JBnominal ++ bytes16 xr.JBmax ++ bytes16 xr.JBabsMax)

/-! ## Reference picture selection -/

/-- The loop for the number of 7-bit groups, from `bytesRequired` on, with
`bitsRequired` seven times as many. A shift by 64 bits or more is undefined. -/
def groupsFrom (pictureID : BitVec 64) : Nat → Nat → Option Nat
  | 0, _ => none
  | fuel + 1, bytesRequired =>
    if 64 ≤ 7 * bytesRequired then none
    else if pictureID >>> (7 * bytesRequired) > 0 then groupsFrom pictureID fuel (bytesRequired + 1)
    else some bytesRequired

/-- `none` where the number of groups is undefined. -/
def buildRPSI (pictureID : BitVec 64) (payloadType : Byte) (buffer : List Byte) :
    Option (Int × List Byte) :=
  if buffer.length + 24 ≥ IP_PACKET_SIZE then some (-2, buffer)
  else (groupsFrom pictureID 64 1).map fun bytesRequired =>
    let size : Byte := if bytesRequired > 6 then 5 else if bytesRequired > 2 then 4 else 3
    let paddingBytes := if 4 - (2 + bytesRequired) % 4 = 4 then 0 else 4 - (2 + bytesRequired) % 4
    (0, buffer ++ [0x80 + 3, PT_PSFB, 0, size] ++ bytes32 s.SSRC ++ bytes32 s.remoteSSRC ++
      [BitVec.ofNat 8 (paddingBytes * 8), payloadType] ++
      ((List.range' 1 (bytesRequired - 1)).reverse.map fun i =>
        0x80 ||| (pictureID >>> (i * 7)).setWidth 8) ++
      [(pictureID &&& 0x7f).setWidth 8] ++ List.replicate paddingBytes 0)

/-! ## Bitrates -/

/-- The exponent for a bitrate: the least `i` below 64 with
`bitrate <= (maxMantissa << i)`, or 0. -/
def bitrateExponent (maxMantissa bitrate : BitVec 32) : Nat :=
  ((List.range 64).find? fun i => bitrate ≤ maxMantissa <<< i).getD 0

def buildREMB (buffer : List Byte) : Int × List Byte :=
  let lengthRembSSRC := s.rembSSRC.1.length
  if buffer.length + 20 + 4 * lengthRembSSRC ≥ IP_PACKET_SIZE then (-2, buffer)
  else
    let brExp := bitrateExponent 262143 s.rembBitrate
    let brMantissa := s.rembBitrate >>> brExp
    (0, buffer ++ [0x80 + 15, PT_PSFB, 0, BitVec.ofNat 8 (lengthRembSSRC + 4)] ++ bytes32 s.SSRC ++
      bytes32 0 ++ [0x52, 0x45, 0x4d, 0x42, BitVec.ofNat 8 lengthRembSSRC] ++
      [((BitVec.ofNat 32 brExp <<< 2) + ((brMantissa >>> 16) &&& 0x03)).setWidth 8,
        (brMantissa >>> 8).setWidth 8, brMantissa.setWidth 8] ++ s.rembSSRC.1.flatMap bytes32)

/-- The bytes of a bitrate in kbit/s and an overhead. -/
def tmmbBytes (tmmbr packetOH : BitVec 32) : List Byte :=
  let bitRate := tmmbr * 1000
  let mmbrExp := bitrateExponent 131071 bitRate
  let mmbrMantissa := bitRate >>> mmbrExp
  [((BitVec.ofNat 32 mmbrExp <<< 2) + ((mmbrMantissa >>> 15) &&& 0x03)).setWidth 8,
    (mmbrMantissa >>> 7).setWidth 8,
    ((mmbrMantissa <<< 1) + ((packetOH >>> 8) &&& 0x01)).setWidth 8, packetOH.setWidth 8]

/-- Whether a TMMBR is sent: not the tuple of the set received last, and only
by an owner of the set that it gives. -/
def sendsTMMBR (env : Module) : Bool :=
  let candidates := env.boundingSet.2
  if candidates.length > 0 then
    if candidates.any fun e => e.tmmbr = s.tmmbr_Send ∧ e.packetOh = s.packetOH_Send then false
    else if env.boundingSet.1 then true
    else (env.findTMMBRBoundingSet (candidates ++ [⟨s.tmmbr_Send, s.packetOH_Send, s.SSRC⟩])).any
      fun e => e.ssrc = s.SSRC
  else true

def buildTMMBR (env : Module) (buffer : List Byte) : Int × List Byte :=
  if ¬ s.sendsTMMBR env then (0, buffer)
  else if s.tmmbr_Send = 0 then (0, buffer)
  else if buffer.length + 20 ≥ IP_PACKET_SIZE then (-2, buffer)
  else (0, buffer ++ [0x80 + 3, PT_RTPFB, 0, 4] ++ bytes32 s.SSRC ++ [0, 0, 0, 0] ++
    bytes32 s.remoteSSRC ++ tmmbBytes s.tmmbr_Send s.packetOH_Send)

/-- The check of the length is made with 32-bit numbers. -/
def buildTMMBN (buffer : List Byte) : Int × List Byte :=
  let lengthOfSet := s.boundingSetToSend.length
  if (buffer.length + 12 + lengthOfSet * 8) % 2 ^ 32 ≥ IP_PACKET_SIZE then (-2, buffer)
  else
    let boundingSet := s.boundingSetToSend.filter fun e => 0 < e.tmmbr
    (0, buffer ++ [0x80 + 4, PT_RTPFB] ++ bytes16 (BitVec.ofNat 16 (2 + 2 * boundingSet.length)) ++
      bytes32 s.SSRC ++ [0, 0, 0, 0] ++
      boundingSet.flatMap fun e => bytes32 e.ssrc ++ tmmbBytes e.tmmbr e.packetOh)

/-! ## Application data and goodbye -/

def buildAPP (buffer : List Byte) : Int × List Byte :=
  match s.appData with
  | none => (-1, buffer)
  | some appData =>
    if buffer.length + 12 + appData.bytes.length ≥ IP_PACKET_SIZE then (-2, buffer)
    else (0, buffer ++ [0x80 + s.appSubType, PT_APP] ++
      bytes16 (BitVec.ofNat 16 (appData.bytes.length / 4 + 2)) ++ bytes32 s.SSRC ++
      bytes32 s.appName ++ appData.bytes)

def buildBYE (buffer : List Byte) : Int × List Byte :=
  if buffer.length + 8 ≥ IP_PACKET_SIZE then (-2, buffer)
  else if s.includeCSRCs then
    let CSRCs := BitVec.ofNat 8 s.CSRC.1.length
    (0, buffer ++ [0x80 + 1 + CSRCs, PT_BYE, 0, 1 + CSRCs] ++ bytes32 s.SSRC ++
      s.CSRC.1.flatMap bytes32)
  else (0, buffer ++ [0x80 + 1, PT_BYE, 0, 1] ++ bytes32 s.SSRC)

/-! ## Negative acknowledgements -/

/-- The numbers at the start of a list that the bitmask of `nack` takes, and
those left. -/
def nackBitmask (nack bitmask : BitVec 16) : List (BitVec 16) → BitVec 16 × List (BitVec 16)
  | [] => (bitmask, [])
  | x :: nackList =>
    let shift : Int := (x - nack).toNat - 1
    if 0 ≤ shift ∧ shift ≤ 15 then nackBitmask nack (bitmask ||| (1 : BitVec 16) <<< shift.toNat) nackList
    else (bitmask, x :: nackList)

/-- The fields for a list, `maxNackFields` at most, and the numbers that are
left. -/
def nackFields : Nat → List (BitVec 16) → List (BitVec 16 × BitVec 16) × List (BitVec 16)
  | 0, nackList => ([], nackList)
  | _ + 1, [] => ([], [])
  | maxNackFields + 1, nack :: nackList =>
    let item := nackBitmask nack 0 nackList
    let fields := nackFields maxNackFields item.2
    ((nack, item.1) :: fields.1, fields.2)

/-- The number of fields a NACK at `pos` has room for. -/
def maxNackFields (pos : Nat) : Nat := min kRtcpMaxNackFields ((IP_PACKET_SIZE - (pos + 12)) / 4)

/-- The source asserts `pos + 4 < IP_PACKET_SIZE` before each field, which fails for
the field that ends at the last byte of the packet. -/
def buildNACK (nackList : List (BitVec 16)) (buffer : List Byte) : Int × List Byte :=
  if buffer.length + 16 ≥ IP_PACKET_SIZE then (-2, buffer)
  else
    let fields := (nackFields (maxNackFields buffer.length) nackList).1
    (0, buffer ++ [0x80 + 1, PT_RTPFB, 0, BitVec.ofNat 8 (2 + fields.length)] ++ bytes32 s.SSRC ++
      bytes32 s.remoteSSRC ++ fields.flatMap fun field => bytes16 field.1 ++ bytes16 field.2)

end RTCPSender

end PerchWebrtc.Rtcp
