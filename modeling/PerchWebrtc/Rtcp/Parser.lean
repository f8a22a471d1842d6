import PerchWebrtc.Rtcp.Packet

/-!
# The RTCP parser

`RTCPParserV2` (`rtcp_utility.cc`) over a buffer that starts at address 0 of
a memory `m` and ends at `dataEnd`. Pointers are addresses; the differences
of pointers that the code compares with positive bounds are truncated at 0.
Next to its own fields the parser keeps a log: the positions at which a
common header is parsed and those at which an SDES item is, the reads with the
end of the block they are made in, and the values its read pointer takes.
-/

namespace PerchWebrtc.Rtcp

/-- A read of the `n` bytes from `ptr`, in a block that ends at `limit`. -/
structure Access where
  ptr : Nat
  n : Nat
  limit : Nat
  deriving DecidableEq, Repr

structure RTCPParserV2 where
  validPacket : Bool
  ptrRTCPData : Nat
  ptrRTCPBlockEnd : Nat
  state : ParseState
  numberOfBlocks : Nat
  packetType : RTCPPacketTypes
  packet : RTCPPacket
  headers : List Nat
  /-- The positions of the SDES items, with the end of their block. -/
  items : List (Nat × Nat)
  accesses : List Access
  moves : List Nat

namespace RTCPParserV2

/-! ## Moving the read pointer -/

def moveTo (p : RTCPParserV2) (ptr : Nat) : RTCPParserV2 :=
  { p with ptrRTCPData := ptr, moves := p.moves ++ [ptr] }

def skip (p : RTCPParserV2) (n : Nat) : RTCPParserV2 := p.moveTo (p.ptrRTCPData + n)

/-- Logging that an SDES item is parsed at the read pointer. -/
def logItem (p : RTCPParserV2) : RTCPParserV2 :=
  { p with items := p.items ++ [(p.ptrRTCPData, p.ptrRTCPBlockEnd)] }

/-- Reading `n` bytes where they are. -/
def peek (p : RTCPParserV2) (n : Nat) : RTCPParserV2 :=
  { p with accesses := p.accesses ++ [⟨p.ptrRTCPData, n, p.ptrRTCPBlockEnd⟩] }

/-- Reading `n` bytes and going on behind them. -/
def read (p : RTCPParserV2) (n : Nat) : RTCPParserV2 := (p.peek n).skip n

/-- `EndCurrentBlock`. -/
def endCurrentBlock (p : RTCPParserV2) : RTCPParserV2 := p.moveTo p.ptrRTCPBlockEnd

/-- What an item parser does when it gives up: back to the top level, behind
the block. -/
def leaveBlock (p : RTCPParserV2) : Bool × RTCPParserV2 :=
  (false, { p with state := .TopLevel }.endCurrentBlock)

/-- The octets left of the block. -/
def length (p : RTCPParserV2) : Nat := p.ptrRTCPBlockEnd - p.ptrRTCPData

section Parse

variable (m : Mem)

/-! ## Reports -/

def parseRR (p : RTCPParserV2) : Bool × RTCPParserV2 :=
  if p.length < 8 then (false, p)
  else
    let p := p.skip 4 -- Skip header
    (true, { p.read 4 with
      packetType := .kRtcpRrCode
      packet := .RR (be32 m p.ptrRTCPData) p.numberOfBlocks
      state := .ReportBlockItem })

def parseSR (p : RTCPParserV2) : Bool × RTCPParserV2 :=
  if p.length < 28 then (false, p.endCurrentBlock)
  else
    let p := p.skip 4 -- Skip header
    let ptr := p.ptrRTCPData
    let p : RTCPParserV2 := { p.read 24 with
      packetType := .kRtcpSrCode
      packet := .SR {
        SenderSSRC := be32 m ptr
        NumberOfReportBlocks := p.numberOfBlocks
        NTPMostSignificant := be32 m (ptr + 4)
        NTPLeastSignificant := be32 m (ptr + 8)
        RTPTimestamp := be32 m (ptr + 12)
        SenderPacketCount := be32 m (ptr + 16)
        SenderOctetCount := be32 m (ptr + 20) } }
    -- don't go to state report block item if 0 report blocks
    if p.numberOfBlocks ≠ 0 then (true, { p with state := .ReportBlockItem })
    else (true, { p with state := .TopLevel }.endCurrentBlock)

/-- An item of `n` bytes, all of them read. -/
def parseItemOf (n : Nat) (packetType : RTCPPacketTypes) (packet : RTCPPacket) (p : RTCPParserV2) :
    Bool × RTCPParserV2 :=
  if p.length < n then p.leaveBlock
  else (true, { p.read n with packetType := packetType, packet := packet })

/-- An item of `n` bytes, of which `numberOfBlocks` are left. -/
def parseCountedItem (n : Nat) (packetType : RTCPPacketTypes) (packet : RTCPPacket)
    (p : RTCPParserV2) : Bool × RTCPParserV2 :=
  if p.length < n ∨ p.numberOfBlocks ≤ 0 then p.leaveBlock
  else (true, { p.read n with
    packetType := packetType
    packet := packet
    numberOfBlocks := p.numberOfBlocks - 1 })

def parseReportBlockItem (p : RTCPParserV2) : Bool × RTCPParserV2 :=
  let ptr := p.ptrRTCPData
  p.parseCountedItem 24 .kRtcpReportBlockItemCode (.ReportBlockItem {
    SSRC := be32 m ptr
    FractionLost := m (ptr + 4)
    CumulativeNumOfPacketsLost := (be24 m (ptr + 5)).setWidth 32
    ExtendedHighestSequenceNumber := be32 m (ptr + 8)
    Jitter := be32 m (ptr + 12)
    LastSR := be32 m (ptr + 16)
    DelayLastSR := be32 m (ptr + 20) })

def parseIJ (p : RTCPParserV2) : Bool × RTCPParserV2 :=
  if p.length < 4 then (false, p)
  else
    (true, { p.skip 4 with packetType := .kRtcpExtendedIjCode, state := .ExtendedJitterItem })

def parseIJItem (p : RTCPParserV2) : Bool × RTCPParserV2 :=
  p.parseCountedItem 4 .kRtcpExtendedIjItemCode (.ExtendedJitterReportItem (be32 m p.ptrRTCPData))

/-! ## Source descriptions -/

def parseSDES (p : RTCPParserV2) : Bool × RTCPParserV2 :=
  if p.length < 8 then p.leaveBlock
  else (true, { p.skip 4 with state := .SDESChunk, packetType := .kRtcpSdesCode })

/-- A character that a CNAME may hold. -/
def legalChar (c : Byte) : Bool := !(c < 0x20 || c > 0x7b || c == 0x25 || c == 0x5c)

/-- The loop of `ParseSDESItem`. The first argument bounds it: a round reads
a byte at least. -/
def parseSDESItemFrom : Nat → Bool → Nat → RTCPParserV2 → Bool × RTCPParserV2
  | 0, _, _, p => p.leaveBlock
  | fuel + 1, foundCName, itemOctetsRead, p =>
    if p.ptrRTCPData < p.ptrRTCPBlockEnd then
      let tag := m p.ptrRTCPData
      let p := p.logItem.read 1
      let itemOctetsRead := itemOctetsRead + 1
      -- End tag! 4 oct aligned
      if tag = 0 then (foundCName, p.skip ((4 - itemOctetsRead % 4) % 4))
      else if p.ptrRTCPData < p.ptrRTCPBlockEnd then
        let len := (m p.ptrRTCPData).toNat
        let p := p.read 1
        let itemOctetsRead := itemOctetsRead + 1
        if tag = 1 then
          if p.ptrRTCPData + len ≥ p.ptrRTCPBlockEnd then p.leaveBlock
          else
            let cname := m.bytes p.ptrRTCPData len
            let legal := (cname.takeWhile legalChar).length
            -- Illegal char
            if legal < len then (p.peek (legal + 1)).leaveBlock
            else
              parseSDESItemFrom fuel true (itemOctetsRead + len)
                ({ p.peek len with
                  packet := .CName 0 cname
                  packetType := .kRtcpSdesChunkCode }.skip len)
        else parseSDESItemFrom fuel foundCName (itemOctetsRead + len) (p.skip len)
      else parseSDESItemFrom fuel foundCName itemOctetsRead p
    -- No end tag found!
    else p.leaveBlock

def parseSDESItem (p : RTCPParserV2) : Bool × RTCPParserV2 :=
  parseSDESItemFrom m (p.length + 1) false 0 p

/-- The loop of `ParseSDESChunk`, over the chunks without a CNAME. -/
def parseSDESChunks : Nat → RTCPParserV2 → Bool × RTCPParserV2
  | 0, p => p.leaveBlock
  | fuel + 1, p =>
    if p.ptrRTCPData < p.ptrRTCPBlockEnd then
      if p.length < 4 then p.leaveBlock
      else
        let SSRC := be32 m p.ptrRTCPData
        let item := parseSDESItem m (p.read 4)
        if item.1 then
          (true, { item.2 with
            packet := match item.2.packet with
              | .CName _ cname => .CName SSRC cname
              | packet => packet })
        else parseSDESChunks fuel item.2
    else p.leaveBlock

def parseSDESChunk (p : RTCPParserV2) : Bool × RTCPParserV2 :=
  if p.numberOfBlocks ≤ 0 then p.leaveBlock
  else
    let p := { p with numberOfBlocks := p.numberOfBlocks - 1 }
    parseSDESChunks m (p.length + 1) p

/-! ## Goodbye -/

def parseBYEItem (p : RTCPParserV2) : Bool × RTCPParserV2 :=
  let length := p.length
  if length < 4 ∨ p.numberOfBlocks = 0 then p.leaveBlock
  else
    let p := { p.read 4 with packetType := .kRtcpByeCode, packet := .BYE (be32 m p.ptrRTCPData) }
    -- we can have several CSRCs attached
    let p := if length ≥ 4 * p.numberOfBlocks then p.skip ((p.numberOfBlocks - 1) * 4) else p
    (true, { p with numberOfBlocks := 0 })

def parseBYE (p : RTCPParserV2) : Bool × RTCPParserV2 :=
  parseBYEItem m { p.skip 4 with state := .BYEItem }

/-! ## Extended reports -/

def parseXRVOIPMetricItem (p : RTCPParserV2) : Bool × RTCPParserV2 :=
  if p.length < 28 then (false, p.endCurrentBlock)
  else
    let ptr := p.ptrRTCPData
    (true, { p.read 32 with
      packetType := .kRtcpXrVoipMetricCode
      packet := .XRVOIPMetricItem {
        SSRC := be32 m ptr
        lossRate := m (ptr + 4)
        discardRate := m (ptr + 5)
        burstDensity := m (ptr + 6)
        gapDensity := m (ptr + 7)
        burstDuration := be16 m (ptr + 8)
        gapDuration := be16 m (ptr + 10)
        roundTripDelay := be16 m (ptr + 12)
        endSystemDelay := be16 m (ptr + 14)
        signalLevel := m (ptr + 16)
        noiseLevel := m (ptr + 17)
        RERL := m (ptr + 18)
        Gmin := m (ptr + 19)
        Rfactor := m (ptr + 20)
        extRfactor := m (ptr + 21)
        MOSLQ := m (ptr + 22)
        MOSCQ := m (ptr + 23)
        RXconfig := m (ptr + 24)
        JBnominal := be16 m (ptr + 26)
        JBmax := be16 m (ptr + 28)
        JBabsMax := be16 m (ptr + 30) } })

def parseXRItem (p : RTCPParserV2) : Bool × RTCPParserV2 :=
  if p.length < 4 then (false, p.endCurrentBlock)
  else
    let blockType := m p.ptrRTCPData
    let typeSpecific := m (p.ptrRTCPData + 1)
    -- The second assignment drops the high byte.
    let blockLength := m (p.ptrRTCPData + 3)
    let p := p.read 4
    if blockType = 7 ∧ typeSpecific = 0 then
      if blockLength ≠ 8 then (false, p.endCurrentBlock)
      else parseXRVOIPMetricItem m p
    else (false, p.endCurrentBlock)

def parseXR (p : RTCPParserV2) : Bool × RTCPParserV2 :=
  if p.length < 8 then (false, p.endCurrentBlock)
  else
    let p := p.skip 4 -- Skip header
    parseXRItem m { p.read 4 with packet := .XR (be32 m p.ptrRTCPData) }

/-! ## Feedback -/

/-- `ParseFBCommon`: the table of feedback messages, by packet type and
count field: the reported type, the packet and the next state, `TopLevel` for
the two that have no items. -/
def feedbackMessage (PT IC : Byte) (senderSSRC mediaSSRC : BitVec 32) (packet : RTCPPacket) :
    Option (RTCPPacketTypes × RTCPPacket × ParseState) :=
  if PT = PT_RTPFB then
    match IC.toNat with
    | 1 => some (.kRtcpRtpfbNackCode, .NACK senderSSRC mediaSSRC, .RTPFB_NACKItem)
    | 3 => some (.kRtcpRtpfbTmmbrCode, .TMMBR senderSSRC mediaSSRC, .RTPFB_TMMBRItem)
    | 4 => some (.kRtcpRtpfbTmmbnCode, .TMMBN senderSSRC mediaSSRC, .RTPFB_TMMBNItem)
    -- Note: No state transition, SR REQ is empty!
    | 5 => some (.kRtcpRtpfbSrReqCode, packet, .TopLevel)
    | _ => none
  else
    match IC.toNat with
    -- Note: No state transition, PLI FCI is empty!
    | 1 => some (.kRtcpPsfbPliCode, .PLI senderSSRC mediaSSRC, .TopLevel)
    | 2 => some (.kRtcpPsfbSliCode, .SLI senderSSRC mediaSSRC, .PSFB_SLIItem)
    | 3 => some (.kRtcpPsfbRpsiCode, .RPSI ⟨senderSSRC, mediaSSRC, 0, 0, []⟩, .PSFB_RPSIItem)
    | 4 => some (.kRtcpPsfbFirCode, .FIR senderSSRC mediaSSRC, .PSFB_FIRItem)
    | 15 => some (.kRtcpPsfbAppCode, .PSFBAPP senderSSRC mediaSSRC, .PSFB_AppItem)
    | _ => none

def parseFBCommon (header : RTCPCommonHeader) (p : RTCPParserV2) : Bool × RTCPParserV2 :=
  if p.length < 12 then (false, p.endCurrentBlock) -- 4 * 3, RFC4585 section 6.1
  else
    let p := p.skip 4 -- Skip RTCP header
    let senderSSRC := be32 m p.ptrRTCPData
    let mediaSSRC := be32 m (p.ptrRTCPData + 4)
    let p := p.read 8
    match feedbackMessage header.PT header.IC senderSSRC mediaSSRC p.packet with
    | some (packetType, packet, state) =>
      (true, { p with packetType := packetType, packet := packet, state := state })
    | none => (false, p.endCurrentBlock)

def parseRPSIItem (p : RTCPParserV2) : Bool × RTCPParserV2 :=
  let length := p.length
  if length < 4 then p.leaveBlock
  else if length > 2 + RTCP_RPSI_DATA_SIZE then p.leaveBlock
  else
    let paddingBits := m p.ptrRTCPData
    let payloadType := m (p.ptrRTCPData + 1)
    let p := p.read 2
    let rpsi := match p.packet with
      | .RPSI rpsi => rpsi
      | _ => ⟨0, 0, 0, 0, []⟩
    (true, { p.peek (length - 2) with
      packetType := .kRtcpPsfbRpsiCode
      packet := .RPSI { rpsi with
        PayloadType := payloadType
        NativeBitString := m.bytes p.ptrRTCPData (length - 2)
        NumberOfValidBits := BitVec.ofNat 16 ((length - 2) * 8) - paddingBits.setWidth 16 } })

def parseNACKItem (p : RTCPParserV2) : Bool × RTCPParserV2 :=
  p.parseItemOf 4 .kRtcpRtpfbNackItemCode
    (.NACKItem (be16 m p.ptrRTCPData) (be16 m (p.ptrRTCPData + 2)))

/-- The four tests read one byte more each. -/
def parsePsfbAppItem (p : RTCPParserV2) : Bool × RTCPParserV2 :=
  let ptr := p.ptrRTCPData
  if p.length < 4 then p.leaveBlock
  else if m ptr ≠ 0x52 then (p.read 1).leaveBlock
  else if m (ptr + 1) ≠ 0x45 then (p.read 2).leaveBlock
  else if m (ptr + 2) ≠ 0x4d then (p.read 3).leaveBlock
  else if m (ptr + 3) ≠ 0x42 then (p.read 4).leaveBlock
  else (true, { p.read 4 with packetType := .kRtcpPsfbRembCode, state := .PSFB_REMBItem })

def parsePsfbREMBItem (p : RTCPParserV2) : Bool × RTCPParserV2 :=
  if p.length < 4 then p.leaveBlock
  else
    let ptr := p.ptrRTCPData
    let numberOfSSRCs := (m ptr).toNat
    let brExp := (m (ptr + 1) >>> 2) &&& 0x3f
    let brMantissa := ((m (ptr + 1) &&& 0x03).setWidth 32 <<< 16) +
      ((m (ptr + 2)).setWidth 32 <<< 8) + (m (ptr + 3)).setWidth 32
    let p := p.read 4
    if p.length < 4 * numberOfSSRCs then p.leaveBlock
    else
      (true, { p.read (4 * numberOfSSRCs) with
        packetType := .kRtcpPsfbRembItemCode
        packet := .REMBItem (brMantissa <<< brExp.toNat)
          ((List.range numberOfSSRCs).map fun i => be32 m (p.ptrRTCPData + 4 * i)) })

/-- The item of a TMMBR or TMMBN at `ptr`. -/
def tmmbItem (ptr : Nat) : RTCPPacketRTPFBTMMBItem :=
  let mxtbrExp := (m (ptr + 4) >>> 2) &&& 0x3f
  let mxtbrMantissa := ((m (ptr + 4) &&& 0x03).setWidth 32 <<< 15) +
    ((m (ptr + 5)).setWidth 32 <<< 7) + ((m (ptr + 6) >>> 1) &&& 0x7f).setWidth 32
  let measuredOH := ((m (ptr + 6) &&& 0x01).setWidth 32 <<< 8) + (m (ptr + 7)).setWidth 32
  { SSRC := be32 m ptr
    MaxTotalMediaBitRate := (mxtbrMantissa <<< mxtbrExp.toNat) / 1000
    MeasuredOverhead := measuredOH }

def parseTMMBRItem (p : RTCPParserV2) : Bool × RTCPParserV2 :=
  p.parseItemOf 8 .kRtcpRtpfbTmmbrItemCode (.TMMBRItem (tmmbItem m p.ptrRTCPData))

def parseTMMBNItem (p : RTCPParserV2) : Bool × RTCPParserV2 :=
  p.parseItemOf 8 .kRtcpRtpfbTmmbnItemCode (.TMMBNItem (tmmbItem m p.ptrRTCPData))

def parseSLIItem (p : RTCPParserV2) : Bool × RTCPParserV2 :=
  let buffer := be32 m p.ptrRTCPData
  p.parseItemOf 4 .kRtcpPsfbSliItemCode (.SLIItem (((buffer >>> 19) &&& 0x1fff).setWidth 16)
    (((buffer >>> 6) &&& 0x1fff).setWidth 16) ((buffer &&& 0x3f).setWidth 8))

def parseFIRItem (p : RTCPParserV2) : Bool × RTCPParserV2 :=
  if p.length < 8 then p.leaveBlock
  else
    let ptr := p.ptrRTCPData
    -- Skip "Reserved" bytes.
    (true, { (p.read 5).skip 3 with
      packetType := .kRtcpPsfbFirItemCode
      packet := .FIRItem (be32 m ptr) (m (ptr + 4)) })

/-! ## Application-defined packets -/

def parseAPP (header : RTCPCommonHeader) (p : RTCPParserV2) : Bool × RTCPParserV2 :=
  if p.length < 12 then (false, p.endCurrentBlock) -- 4 * 3, RFC 3550 6.7
  else
    let p := p.skip 4 -- Skip RTCP header
    let name := be32 m (p.ptrRTCPData + 4)
    (true, { p.read 8 with
      packetType := .kRtcpAppCode
      packet := .APP ⟨header.IC, name, [], 0⟩
      state := .AppItem })

def parseAPPItem (p : RTCPParserV2) : Bool × RTCPParserV2 :=
  let length := p.length
  if length < 4 then p.leaveBlock
  else
    let size := if length > kRtcpAppCode_DATA_SIZE then kRtcpAppCode_DATA_SIZE else length
    let app := match p.packet with
      | .APP app => app
      | _ => ⟨0, 0, [], 0⟩
    (true, { p.read size with
      packetType := .kRtcpAppItemCode
      packet := .APP { app with
        Data := m.bytes p.ptrRTCPData size
        Size := BitVec.ofNat 16 size } })

/-! ## Iterating -/

/-- The header at `ptr`, as far as `RTCPParseCommonHeader` accepts it. -/
def rtcpParseCommonHeader (ptr dataEnd : Nat) : Option RTCPCommonHeader :=
  if dataEnd - ptr < 4 then none
  else
    let parsedHeader : RTCPCommonHeader := {
      V := m ptr >>> 6
      P := decide (m ptr &&& 0x20 ≠ 0)
      IC := m ptr &&& 0x1f
      PT := m (ptr + 1)
      LengthInOctets := (be16 m (ptr + 2) + 1) * 4 }
    if parsedHeader.LengthInOctets = 0 then none
    else if parsedHeader.V ≠ 2 then none
    else some parsedHeader

/-- Logging that a common header is parsed at the read pointer. -/
def logHeader (p : RTCPParserV2) (dataEnd : Nat) : RTCPParserV2 :=
  { p with
    headers := p.headers ++ [p.ptrRTCPData]
    accesses := if dataEnd - p.ptrRTCPData < 4 then p.accesses
      else p.accesses ++ [⟨p.ptrRTCPData, 4, dataEnd⟩] }

/-- The `switch` of `IterateTopLevel`: whether it returns, or goes on with the
next block. -/
def parseBlock (header : RTCPCommonHeader) (p : RTCPParserV2) : Bool × RTCPParserV2 :=
  let counted := { p with numberOfBlocks := header.IC.toNat }
  if header.PT = PT_SR then (true, (parseSR m counted).2)
  else if header.PT = PT_RR then (true, (parseRR m counted).2)
  else if header.PT = PT_SDES then parseSDES counted
  else if header.PT = PT_BYE then parseBYE m counted
  else if header.PT = PT_IJ then (true, (parseIJ counted).2)
  else if header.PT = PT_RTPFB ∨ header.PT = PT_PSFB then parseFBCommon m header p
  else if header.PT = PT_APP then parseAPP m header p
  else if header.PT = PT_XR then parseXR m p
  else (false, p.endCurrentBlock) -- Not supported! Skip!

variable (dataEnd : Nat)

/-- `IterateTopLevel`. The first argument bounds its loop: a round that goes
on moves the read pointer. -/
def iterateTopLevel : Nat → RTCPParserV2 → RTCPParserV2
  | 0, p => p
  | fuel + 1, p =>
    let logged := p.logHeader dataEnd
    match rtcpParseCommonHeader m p.ptrRTCPData dataEnd with
    | none => logged
    | some header =>
      let p := { logged with
        ptrRTCPBlockEnd := p.ptrRTCPData + header.LengthInOctets.toNat }
      if p.ptrRTCPBlockEnd > dataEnd then p -- Bad block!
      else
        let block := parseBlock m header p
        if block.1 then block.2 else iterateTopLevel fuel block.2

/-- The item parser of a state. `State_XRItem` is never entered: `Iterate`
asserts. -/
def parseItem (p : RTCPParserV2) : Bool × RTCPParserV2 :=
  match p.state with
  | .TopLevel | .XRItem => (true, p)
  | .ReportBlockItem => parseReportBlockItem m p
  | .SDESChunk => parseSDESChunk m p
  | .BYEItem => parseBYEItem m p
  | .ExtendedJitterItem => parseIJItem m p
  | .RTPFB_NACKItem => parseNACKItem m p
  | .RTPFB_TMMBRItem => parseTMMBRItem m p
  | .RTPFB_TMMBNItem => parseTMMBNItem m p
  | .PSFB_SLIItem => parseSLIItem m p
  | .PSFB_RPSIItem => parseRPSIItem m p
  | .PSFB_FIRItem => parseFIRItem m p
  | .PSFB_AppItem => parsePsfbAppItem m p
  | .PSFB_REMBItem => parsePsfbREMBItem m p
  | .AppItem => parseAPPItem m p

/-- `Iterate`, calling itself where an item parser gives up. The first argument
bounds the calls: an item parser gives up at the top level. -/
def iterateWithin : Nat → RTCPParserV2 → RTCPParserV2
  | 0, p => p
  | depth + 1, p =>
    -- Reset packet type
    let p := { p with packetType := .kRtcpNotValidCode }
    if p.validPacket then
      if p.state = .TopLevel then iterateTopLevel m dataEnd (dataEnd + 1) p
      else
        let item := parseItem m p
        if item.1 then item.2 else iterateWithin depth item.2
    else p

def iterate (p : RTCPParserV2) : RTCPParserV2 := iterateWithin m dataEnd 2 p

/-- `Begin`. -/
def begin (p : RTCPParserV2) : RTCPParserV2 := iterate m dataEnd (p.moveTo 0)

/-- `Validate`. -/
def validate (rtcpReducedSizeEnable : Bool) : Bool :=
  match rtcpParseCommonHeader m 0 dataEnd with
  | none => false
  | some header => rtcpReducedSizeEnable || header.PT == PT_SR || header.PT == PT_RR

/-- The constructor. The header that `Validate` reads, at the start of the
buffer, is not among those logged. -/
def new (rtcpReducedSizeEnable : Bool) : RTCPParserV2 :=
  { validPacket := validate m dataEnd rtcpReducedSizeEnable
    ptrRTCPData := 0
    ptrRTCPBlockEnd := 0
    state := .TopLevel
    numberOfBlocks := 0
    packetType := .kRtcpNotValidCode
    packet := .empty
    headers := []
    items := []
    accesses := if dataEnd < 4 then [] else [⟨0, 4, dataEnd⟩]
    moves := [0] }

end Parse

end RTCPParserV2

end PerchWebrtc.Rtcp
