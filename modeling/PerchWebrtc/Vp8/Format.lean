import PerchWebrtc.Framework.Bytes
import PerchWebrtc.Vp8.Aggregator
import PerchWebrtc.Vp8.Header

/-!
# The VP8 packetiser

`RtpFormatVp8` (`rtp_format_vp8.cc`): a frame is cut into packets, in one of
three modes, and each packet gets a payload descriptor.
-/

namespace PerchWebrtc.Vp8

open Vp8PartitionAggregator

/-! ## The payload descriptor -/

def kXBit : Byte := 0x80
def kNBit : Byte := 0x20
def kSBit : Byte := 0x10
def kPartIdField : Byte := 0x0F
def kKeyIdxField : Byte := 0x1F
def kIBit : Byte := 0x80
def kLBit : Byte := 0x40
def kTBit : Byte := 0x20
def kKBit : Byte := 0x10
def kYBit : Byte := 0x20

namespace RTPVideoHeaderVP8

variable (hdr : RTPVideoHeaderVP8)

def pictureIdLength : Nat :=
  if hdr.pictureId = kNoPictureId then 0 else if hdr.pictureId.toInt ≤ 0x7F then 1 else 2

def pictureIdPresent : Bool := 0 < hdr.pictureIdLength

def tidFieldPresent : Bool := hdr.temporalIdx ≠ kNoTemporalIdx

def keyIdxFieldPresent : Bool := hdr.keyIdx ≠ kNoKeyIdx

def tl0PicIdxFieldPresent : Bool := hdr.tl0PicIdx ≠ kNoTl0PicIdx

def xFieldPresent : Bool :=
  hdr.tidFieldPresent || hdr.tl0PicIdxFieldPresent || hdr.pictureIdPresent ||
    hdr.keyIdxFieldPresent

def payloadDescriptorExtraLength : Nat :=
  let lengthBytes := hdr.pictureIdLength + (if hdr.tl0PicIdxFieldPresent then 1 else 0) +
    if hdr.tidFieldPresent || hdr.keyIdxFieldPresent then 1 else 0
  if 0 < lengthBytes then lengthBytes + 1 else lengthBytes

/-- The descriptor with its fixed byte. -/
def overhead : Nat := 1 + hdr.payloadDescriptorExtraLength

def writePictureID : List Byte :=
  if hdr.pictureIdLength = 2 then
    [0x80 ||| ((hdr.pictureId >>> 8).setWidth 8 &&& 0x7F), hdr.pictureId.setWidth 8]
  else if hdr.pictureIdLength = 1 then [hdr.pictureId.setWidth 8 &&& 0x7F]
  else []

def tidAndKeyIdx : Byte :=
  (if hdr.tidFieldPresent then
    hdr.temporalIdx <<< 6 ||| if hdr.layerSync then kYBit else 0
  else 0) ||| if hdr.keyIdxFieldPresent then hdr.keyIdx.setWidth 8 &&& kKeyIdxField else 0

/-- The X field and the fields it announces; `none` if they do not fit into
the buffer. Each of the three parts checks the room that is left, which is
least for the last. -/
def writeExtensionFields (bufferLength : Nat) : Option (List Byte) :=
  if hdr.xFieldPresent then
    let xField : Byte :=
      (if hdr.pictureIdPresent then kIBit else 0) |||
      (if hdr.tl0PicIdxFieldPresent then kLBit else 0) |||
      (if hdr.tidFieldPresent then kTBit else 0) |||
      if hdr.keyIdxFieldPresent then kKBit else 0
    let fields := hdr.writePictureID ++
      (if hdr.tl0PicIdxFieldPresent then [hdr.tl0PicIdx.setWidth 8] else []) ++
      if hdr.tidFieldPresent || hdr.keyIdxFieldPresent then [hdr.tidAndKeyIdx] else []
    if 0 < fields.length ∧ bufferLength < 2 + fields.length then none
    else some (xField :: fields)
  else some []

end RTPVideoHeaderVP8

/-! ## The packetiser -/

inductive VP8PacketizerMode where
  | kStrict
  | kAggregate
  | kEqualSize
  deriving DecidableEq

inductive AggregationMode where
  | kAggrNone
  | kAggrPartitions
  | kAggrFragments
  deriving DecidableEq

def aggrModes : VP8PacketizerMode → AggregationMode
  | .kStrict => .kAggrNone
  | .kAggregate => .kAggrPartitions
  | .kEqualSize => .kAggrFragments

def balanceModes : VP8PacketizerMode → Bool := fun _ => true

def separateFirstModes : VP8PacketizerMode → Bool
  | .kStrict => true
  | .kAggregate => false
  | .kEqualSize => false

/-- A partition, as an entry of an `RTPFragmentationHeader`. -/
structure Fragment where
  fragmentationOffset : Nat := 0
  fragmentationLength : Nat := 0

structure InfoStruct where
  payloadStartPos : Nat
  size : Nat
  firstFragment : Bool
  firstPartitionIx : Nat

structure RtpFormatVp8 where
  payloadData : List Byte
  partInfo : List Fragment
  aggrMode : AggregationMode
  balance : Bool
  separateFirst : Bool
  hdrInfo : RTPVideoHeaderVP8
  maxPayloadLen : Nat
  packets : List InfoStruct := []
  packetsCalculated : Bool := false

namespace RtpFormatVp8

/-- The constructor. -/
def create (payloadData : List Byte) (hdrInfo : RTPVideoHeaderVP8) (maxPayloadLen : Nat)
    (fragmentation : List Fragment) (mode : VP8PacketizerMode) : RtpFormatVp8 where
  payloadData := payloadData
  partInfo := fragmentation
  aggrMode := aggrModes mode
  balance := balanceModes mode
  separateFirst := separateFirstModes mode
  hdrInfo := hdrInfo
  maxPayloadLen := maxPayloadLen

variable (fmt : RtpFormatVp8)

def payloadSize : Nat := fmt.payloadData.length

def numPartitions : Nat := fmt.partInfo.length

def fragment (partIx : Nat) : Fragment := fmt.partInfo.getD partIx {}

/-- The bytes of a packet behind its descriptor, at most. -/
def maxPayload : Nat := fmt.maxPayloadLen - fmt.hdrInfo.overhead

/-- The quotient is rounded to the nearest number in floating point, which is
exact for numbers below 2^31. -/
def calcNextSize (balance : Bool) (maxPayloadLen remainingBytes : Nat) (splitPayload : Bool) : Nat :=
  if maxPayloadLen = 0 ∨ remainingBytes = 0 then 0
  else if !splitPayload then
    if remainingBytes ≤ maxPayloadLen then remainingBytes else 0
  else if balance then
    let numFrags := remainingBytes / maxPayloadLen + 1
    (2 * remainingBytes + numFrags) / (2 * numFrags)
  else if remainingBytes ≤ maxPayloadLen then remainingBytes else maxPayloadLen

/-- The variables of the inner loop of `GeneratePackets`. -/
structure FillState where
  packetBytes : Nat := 0
  remPayloadLen : Nat
  remainingInPartition : Nat
  partIx : Nat
  splitPayload : Bool := true

/-- The next bytes of the partition go into the packet. -/
def FillState.take (s : FillState) (nextSize : Nat) : FillState :=
  { s with
    packetBytes := s.packetBytes + nextSize
    remPayloadLen := s.remPayloadLen - nextSize
    remainingInPartition := s.remainingInPartition - nextSize }

/-- The next partition, if it may go into the same packet. -/
def advance (startOnNewFragment : Bool) (s : FillState) : FillState :=
  if s.partIx + 1 < fmt.numPartitions ∧ (fmt.aggrMode = .kAggrFragments ∨
      fmt.aggrMode = .kAggrPartitions ∧ startOnNewFragment) then
    { s with
      remainingInPartition := (fmt.fragment (s.partIx + 1)).fragmentationLength
      partIx := s.partIx + 1
      splitPayload := fmt.aggrMode = .kAggrFragments }
  else s

/-- The inner loop of `GeneratePackets`. Each iteration takes one byte at
least, so that there are no more than `remPayloadLen`. -/
def fill (startOnNewFragment beginning : Bool) : Nat → FillState → FillState
  | 0, s => s
  | fuel + 1, s =>
    let nextSize :=
      calcNextSize fmt.balance s.remPayloadLen s.remainingInPartition s.splitPayload
    if nextSize = 0 then s
    else
      let s := s.take nextSize
      if s.remainingInPartition = 0 ∧ ¬ (beginning ∧ fmt.separateFirst) then
        fill startOnNewFragment beginning fuel (fmt.advance startOnNewFragment s)
      else if fmt.balance ∧ 0 < s.remainingInPartition then s
      else fill startOnNewFragment beginning fuel s

/-- The variables of the outer loop of `GeneratePackets`. -/
structure GenerateState where
  totalBytesProcessed : Nat := 0
  startOnNewFragment : Bool := true
  beginning : Bool := true
  partIx : Nat := 0

/-- The inner loop at the beginning of a packet. -/
def startPacket (s : GenerateState) : FillState where
  remPayloadLen := fmt.maxPayload
  remainingInPartition := (fmt.fragment s.partIx).fragmentationOffset +
    (fmt.fragment s.partIx).fragmentationLength - s.totalBytesProcessed
  partIx := s.partIx

def fillPacket (s : GenerateState) : FillState :=
  fmt.fill s.startOnNewFragment s.beginning fmt.maxPayload (fmt.startPacket s)

/-- The outer loop of `GeneratePackets`; `none` if it does not end. -/
def generateLoop : Nat → GenerateState → Option (List InfoStruct)
  | 0, s => if s.totalBytesProcessed < fmt.payloadSize then none else some []
  | fuel + 1, s =>
    if s.totalBytesProcessed < fmt.payloadSize then
      let filled := fmt.fillPacket s
      let info : InfoStruct :=
        { payloadStartPos := s.totalBytesProcessed
          size := filled.packetBytes
          firstFragment := s.startOnNewFragment
          firstPartitionIx := s.partIx }
      (generateLoop fuel
        { totalBytesProcessed := s.totalBytesProcessed + filled.packetBytes
          startOnNewFragment := filled.remainingInPartition = 0
          beginning := false
          partIx := if filled.remainingInPartition = 0 then filled.partIx + 1
            else filled.partIx }).map (info :: ·)
    else some []

def generatePackets : Option (List InfoStruct) := fmt.generateLoop fmt.payloadSize {}

/-- `AggregateSmallPartitions`, from a partition on: the decisions for the
partitions, and the smallest and the largest packet. -/
def aggregateSmallPartitions (maxPayloadLen overhead : Nat) :
    List Nat → (numAggregatePackets minSize maxSize : Int) → List Int × Int × Int
  | [], _, minSize, maxSize => ([], minSize, maxSize)
  | size :: sizes, numAggregatePackets, minSize, maxSize =>
    if size < maxPayloadLen then
      let set := size :: sizes.takeWhile (· < maxPayloadLen)
      let config := findOptimalConfiguration set minSize maxSize maxPayloadLen overhead
      let bounds := calcMinMax config set minSize maxSize
      let rest := aggregateSmallPartitions maxPayloadLen overhead
        (sizes.dropWhile (· < maxPayloadLen)) (numAggregatePackets + config.getLastD 0 + 1)
        bounds.1 bounds.2
      (config.map (numAggregatePackets + ·) ++ rest.1, rest.2)
    else
      let rest := aggregateSmallPartitions maxPayloadLen overhead sizes numAggregatePackets minSize
        maxSize
      (-1 :: rest.1, rest.2)
termination_by sizes => sizes.length
decreasing_by
  · have := (List.dropWhile_suffix (l := sizes) (· < maxPayloadLen)).length_le
    simp only [List.length_cons]
    omega
  · exact Nat.lt_succ_self _

/-- The fragments of a large partition: `count` more of them. -/
def splitPartition (packetBytes partIx : Nat) :
    (count totalBytesProcessed remainingPartition : Nat) → (first : Bool) →
      (minSize maxSize : Int) → List InfoStruct × Int × Int
  | 0, _, _, _, minSize, maxSize => ([], minSize, maxSize)
  | count + 1, totalBytesProcessed, remainingPartition, first, minSize, maxSize =>
    let thisPacketBytes :=
      if packetBytes < remainingPartition then packetBytes else remainingPartition
    let rest := splitPartition packetBytes partIx count (totalBytesProcessed + thisPacketBytes)
      (remainingPartition - thisPacketBytes) false
      (if (thisPacketBytes : Int) < minSize then (thisPacketBytes : Int) else minSize)
      (if maxSize < (thisPacketBytes : Int) then (thisPacketBytes : Int) else maxSize)
    ({ payloadStartPos := totalBytesProcessed
       size := thisPacketBytes
       firstFragment := first
       firstPartitionIx := partIx } :: rest.1, rest.2)

/-- The loop of `GeneratePacketsBalancedAggregates`, over the decisions for the
partitions and their sizes. -/
def balancedLoop (maxPayloadLen overhead : Nat) :
    List (Int × Nat) → (totalBytesProcessed partIx : Nat) → (minSize maxSize : Int) →
      List InfoStruct
  | [], _, _, _, _ => []
  | (decision, size) :: parts, totalBytesProcessed, partIx, minSize, maxSize =>
    if decision = -1 then
      let numFragments :=
        (calcNumberOfFragments size maxPayloadLen overhead minSize maxSize).toNat
      let packetBytes := (size + numFragments - 1) / numFragments
      let split := splitPartition packetBytes partIx numFragments totalBytesProcessed size true
        minSize maxSize
      split.1 ++ balancedLoop maxPayloadLen overhead parts
        (totalBytesProcessed + (split.1.map InfoStruct.size).sum) (partIx + 1) split.2.1 split.2.2
    else
      let aggregated := parts.takeWhile (·.1 = decision)
      let thisPacketBytes := size + (aggregated.map Prod.snd).sum
      { payloadStartPos := totalBytesProcessed
        size := thisPacketBytes
        firstFragment := true
        firstPartitionIx := partIx } ::
        balancedLoop maxPayloadLen overhead (parts.dropWhile (·.1 = decision))
          (totalBytesProcessed + thisPacketBytes) (partIx + 1 + aggregated.length) minSize maxSize
termination_by parts => parts.length
decreasing_by
  · exact Nat.lt_succ_self _
  · have := (List.dropWhile_suffix (l := parts) (·.1 = decision)).length_le
    simp only [List.length_cons]
    omega

def generatePacketsBalancedAggregates : List InfoStruct :=
  let sizes := fmt.partInfo.map Fragment.fragmentationLength
  let overhead := fmt.hdrInfo.overhead
  let decisions := aggregateSmallPartitions fmt.maxPayload overhead sizes 0 (-1) (-1)
  balancedLoop fmt.maxPayload overhead (decisions.1.zip sizes) 0 0 decisions.2.1 decisions.2.2

/-- The packets of the frame: -1 if there is no room for a byte of payload,
and `none` if the computation does not end. -/
def calculatePackets : Option (Int × List InfoStruct) :=
  if fmt.maxPayloadLen < fmt.hdrInfo.overhead + 1 then some (-1, [])
  else if fmt.aggrMode = .kAggrPartitions ∧ fmt.balance then
    some (0, fmt.generatePacketsBalancedAggregates)
  else fmt.generatePackets.map (0, ·)

/-- The bytes that are written. The payload is copied to where the extension
ends; that is the beginning of the buffer if the extension returns -1. -/
def writeHeaderAndPayload (info : InfoStruct) : List Byte :=
  let first : Byte :=
    (if fmt.hdrInfo.xFieldPresent then kXBit else 0) |||
    (if fmt.hdrInfo.nonReference then kNBit else 0) |||
    (if info.firstFragment then kSBit else 0) |||
    (BitVec.ofNat 8 info.firstPartitionIx &&& kPartIdField)
  let payload := (fmt.payloadData.drop info.payloadStartPos).take info.size
  match fmt.hdrInfo.writeExtensionFields fmt.maxPayloadLen with
  | none => payload
  | some extension => first :: extension ++ payload

/-- The value that is returned, the bytes to send, and `last_packet`. -/
def nextPacket : Option (Int × List Byte × Bool × RtpFormatVp8) :=
  let calculated := if fmt.packetsCalculated then some (0, fmt.packets) else fmt.calculatePackets
  calculated.map fun (ret, packets) =>
    if ret < 0 then (ret, [], false, fmt)
    else
      match packets with
      | [] => (-1, [], false, { fmt with packetsCalculated := true })
      | info :: packets =>
        (info.firstPartitionIx, fmt.writeHeaderAndPayload info, packets.isEmpty,
          { fmt with packets := packets, packetsCalculated := true })

end RtpFormatVp8

/-- The packets of a frame, as `RTPSenderVideo::SendVP8` gets them: until the
last packet, with at most `calls` calls, and no error. -/
def packetize : Nat → RtpFormatVp8 → Option (List (List Byte))
  | 0, _ => none
  | calls + 1, fmt =>
    match fmt.nextPacket with
    | none => none
    | some (ret, bytes, last, fmt') =>
      if ret < 0 then none
      else if last then some [bytes]
      else (packetize calls fmt').map (bytes :: ·)

end PerchWebrtc.Vp8
