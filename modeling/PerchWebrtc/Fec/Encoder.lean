import PerchWebrtc.Fec.Packet

/-!
# The FEC encoder

`ForwardErrorCorrection::GenerateFEC` and what it calls
(`forward_error_correction.cc`, `forward_error_correction_internal.cc`). Masks
are memory with one row of bytes for each FEC packet. The tables of masks
(`fec_private_tables_random.h`, `fec_private_tables_bursty.h`) are a parameter,
of which `MaskTables.WellFormed` says what they have in common. A shift by 32
or more, a column outside of its row and a byte outside of the masks have no
result (`none`).
-/

namespace PerchWebrtc.Fec

def kTransportOverhead : Nat := 28

/-- `PacketOverhead`. -/
def packetOverhead : Nat := kFecHeaderSize + kUlpHeaderSizeLBitSet

def parseSequenceNumber (m : Mem) : BitVec 16 := be16 m 2

inductive FecMaskType where
  | kFecMaskRandom
  | kFecMaskBursty

/-- The mask tables, by the number of media packets less one, and the number of
FEC packets less one. -/
structure MaskTables where
  kPacketMaskRandomTbl : Nat → Nat → List Byte
  kPacketMaskBurstyTbl : Nat → Nat → List Byte

/-- The number of media packets that `kPacketMaskBurstyTbl` has masks for. -/
def kBurstyTblSize : Nat := 12

/-- The mask bytes of a row for so many packets. -/
def maskBytes (numPackets : Nat) : Nat :=
  if numPackets > 8 * kMaskSizeLBitClear then kMaskSizeLBitSet else kMaskSizeLBitClear

theorem maskBytes_mul_le {k : Nat} (h : k ≤ kMaxMediaPackets) : k ≤ 8 * maskBytes k := by
  unfold maskBytes kMaxMediaPackets at *
  split
  · show k ≤ 48
    omega
  · rename_i hle
    show k ≤ 16
    exact Nat.le_of_not_lt hle

theorem maskBytes_le (k : Nat) : maskBytes k ≤ kMaskSizeLBitSet := by
  unfold maskBytes
  split <;> decide

theorem maskBytes_mono {k k' : Nat} (h : k ≤ k') : maskBytes k ≤ maskBytes k' := by
  unfold maskBytes
  split <;> split <;> first | decide | omega

/-- Bit `i` of a mask whose bytes begin at `p`. -/
def maskBitAt (m : Mem) (p i : Nat) : Bool := (m (p + i / 8)).getLsbD (7 - i % 8)

/-- A mask of `n` rows for `k` media packets: every row selects some of them,
and nothing else. -/
structure IsMask (k n : Nat) (mask : List Byte) : Prop where
  length : mask.length = n * maskBytes k
  selects : ∀ row < n, ∃ i < k, maskBitAt (Mem.ofList mask) (row * maskBytes k) i = true
  within : ∀ row < n, ∀ i, k ≤ i → i < 8 * maskBytes k →
    maskBitAt (Mem.ofList mask) (row * maskBytes k) i = false

structure MaskTables.WellFormed (t : MaskTables) : Prop where
  random : ∀ k < kMaxMediaPackets, ∀ n ≤ k, IsMask (k + 1) (n + 1) (t.kPacketMaskRandomTbl k n)
  bursty : ∀ k < kBurstyTblSize, ∀ n ≤ k, IsMask (k + 1) (n + 1) (t.kPacketMaskBurstyTbl k n)

/-- `PacketMaskTable::InitMaskType`. -/
def initMaskType (fecMaskType : FecMaskType) (numMediaPackets : Nat) : FecMaskType :=
  match fecMaskType with
  | .kFecMaskRandom => .kFecMaskRandom
  | .kFecMaskBursty =>
    if numMediaPackets > kBurstyTblSize then .kFecMaskRandom else .kFecMaskBursty

/-- `PacketMaskTable::InitMaskTable`. -/
def MaskTables.initMaskTable (t : MaskTables) (fecMaskType : FecMaskType) :
    Nat → Nat → List Byte :=
  match fecMaskType with
  | .kFecMaskRandom => t.kPacketMaskRandomTbl
  | .kFecMaskBursty => t.kPacketMaskBurstyTbl

/-! ## Packet masks -/

/-- The rows of `subMask` are written to `packetMask` from `p` on. -/
def fitSubMask (numMaskBytes numSubMaskBytes numRows : Nat) (subMask : List Byte) (p : Nat)
    (packetMask : Mem) : Mem :=
  if numMaskBytes = numSubMaskBytes then
    packetMask.copy p (Mem.ofList subMask) 0 (numRows * numSubMaskBytes)
  else
    (List.range numRows).foldl (fun m i =>
      m.copy (p + i * numMaskBytes) (Mem.ofList subMask) (i * numSubMaskBytes) numSubMaskBytes)
      packetMask

/-- Half of the FEC packets at most are for the important packets. -/
def setProtectionAllocation (numMediaPackets numFecPackets numImpPackets : Nat) : Nat :=
  if numFecPackets = 1 ∧ numMediaPackets > 2 * numImpPackets then 0
  else min numImpPackets (numFecPackets / 2)

def importantPacketProtection (numFecForImpPackets numImpPackets numMaskBytes : Nat)
    (maskTable : Nat → Nat → List Byte) (packetMask : Mem) : Mem :=
  fitSubMask numMaskBytes (maskBytes numImpPackets) numFecForImpPackets
    (maskTable (numImpPackets - 1) (numFecForImpPackets - 1)) 0 packetMask

/-- With `kModeOverlap`, the only mode that is used. -/
def remainingPacketProtection (numMediaPackets numFecRemaining numFecForImpPackets numMaskBytes : Nat)
    (maskTable : Nat → Nat → List Byte) (packetMask : Mem) : Mem :=
  fitSubMask numMaskBytes numMaskBytes numFecRemaining
    (maskTable (numMediaPackets - 1) (numFecRemaining - 1)) (numFecForImpPackets * numMaskBytes)
    packetMask

def unequalProtectionMask (numMediaPackets numFecPackets numImpPackets numMaskBytes : Nat)
    (maskTable : Nat → Nat → List Byte) (packetMask : Mem) : Mem :=
  let numFecForImpPackets := setProtectionAllocation numMediaPackets numFecPackets numImpPackets
  let numFecRemaining := numFecPackets - numFecForImpPackets
  let important :=
    if numFecForImpPackets > 0 then
      importantPacketProtection numFecForImpPackets numImpPackets numMaskBytes maskTable packetMask
    else packetMask
  if numFecRemaining > 0 then
    remainingPacketProtection numMediaPackets numFecRemaining numFecForImpPackets numMaskBytes
      maskTable important
  else important

def generatePacketMasks (numMediaPackets numFecPackets numImpPackets : Nat)
    (useUnequalProtection : Bool) (maskTable : Nat → Nat → List Byte) (packetMask : Mem) : Mem :=
  let numMaskBytes := maskBytes numMediaPackets
  if !useUnequalProtection ∨ numImpPackets = 0 then
    packetMask.copy 0 (Mem.ofList (maskTable (numMediaPackets - 1) (numFecPackets - 1))) 0
      (numFecPackets * numMaskBytes)
  else
    unequalProtectionMask numMediaPackets numFecPackets numImpPackets numMaskBytes maskTable
      packetMask

/-! ## Gaps -/

section Gaps

variable (numFecPackets : Nat)

def insertZeroColumns (numZeros newMaskBytes newBitIndex : Nat) (newMask : Mem) : Mem :=
  (List.range numFecPackets).foldl (fun m row =>
    let newByteIndex := row * newMaskBytes + newBitIndex / 8
    let maxShifts := 7 - newBitIndex % 8
    m.set newByteIndex (m newByteIndex <<< min numZeros maxShifts)) newMask

/-- The leftmost bit of a byte, as the rightmost. -/
def leftBit (b : Byte) : Byte := (b &&& 0x80) >>> 7

/-- One row of `CopyColumn`. -/
def copyColumnAt (newMaskBytes oldMaskBytes newBitIndex oldBitIndex : Nat) (masks : Mem × Mem)
    (row : Nat) : Mem × Mem :=
  let newByteIndex := row * newMaskBytes + newBitIndex / 8
  let oldByteIndex := row * oldMaskBytes + oldBitIndex / 8
  let newByte := masks.1 newByteIndex ||| leftBit (masks.2 oldByteIndex)
  (masks.1.set newByteIndex (if newBitIndex % 8 ≠ 7 then newByte <<< 1 else newByte),
    masks.2.set oldByteIndex (masks.2 oldByteIndex <<< 1))

/-- A column is shifted out of the old mask and into the new one. -/
def copyColumn (newMaskBytes oldMaskBytes newBitIndex oldBitIndex : Nat) (masks : Mem × Mem) :
    Mem × Mem :=
  (List.range numFecPackets).foldl
    (copyColumnAt newMaskBytes oldMaskBytes newBitIndex oldBitIndex) masks

/-- A column is in a row of so many bytes. -/
def InRow (maskBytes bitIndex : Nat) : Prop := bitIndex / 8 < maskBytes

instance (maskBytes bitIndex : Nat) : Decidable (InRow maskBytes bitIndex) :=
  inferInstanceAs (Decidable (_ < _))

/-- The loop over the media packets after the first. It gives the number of
columns and the masks. -/
def insertZerosFrom (newMaskBytes oldMaskBytes : Nat) :
    List Packet → BitVec 16 → Nat → Nat → Mem × Mem → Option (Nat × (Mem × Mem))
  | [], _, newBitIndex, _, masks => some (newBitIndex, masks)
  | p :: media, prevSeqNum, newBitIndex, oldBitIndex, masks =>
    if newBitIndex = 8 * kMaskSizeLBitSet then some (newBitIndex, masks)
    else
      let seqNum := parseSequenceNumber p.data
      let zerosToInsert := (seqNum - prevSeqNum - 1).toNat
      let newMask :=
        if zerosToInsert > 0 then
          insertZeroColumns numFecPackets zerosToInsert newMaskBytes newBitIndex masks.1
        else masks.1
      let newBitIndex := newBitIndex + zerosToInsert
      -- The zero columns are in front of this one.
      if InRow newMaskBytes newBitIndex ∧ InRow oldMaskBytes oldBitIndex then
        insertZerosFrom newMaskBytes oldMaskBytes media seqNum (newBitIndex + 1) (oldBitIndex + 1)
          (copyColumn numFecPackets newMaskBytes oldMaskBytes newBitIndex oldBitIndex
            (newMask, masks.2))
      else none

/-- The bits of the last byte are shifted to their places. -/
def shiftLastByte (newMaskBytes newBitIndex : Nat) (newMask : Mem) : Mem :=
  if newBitIndex % 8 ≠ 0 then
    (List.range numFecPackets).foldl (fun m row =>
      let newByteIndex := row * newMaskBytes + newBitIndex / 8
      m.set newByteIndex (m newByteIndex <<< (7 - newBitIndex % 8))) newMask
  else newMask

/-- The number of columns of the mask and the mask, with zero columns for the
sequence numbers that are missing. -/
def insertZerosInBitMasks (mediaPackets : List Packet) (packetMask : Mem) (numMaskBytes : Nat) :
    Option (Nat × Mem) :=
  match mediaPackets with
  | [] => some (0, packetMask)
  | [_] => some (1, packetMask)
  | first :: media =>
    let lastSeqNum := parseSequenceNumber ((media.getLast?.getD first).data)
    let firstSeqNum := parseSequenceNumber first.data
    let totalMissingSeqNums : Int := (lastSeqNum - firstSeqNum).toNat - mediaPackets.length + 1
    if totalMissingSeqNums = 0 then some (mediaPackets.length, packetMask)
    else
      let newMaskBytes :=
        if mediaPackets.length + totalMissingSeqNums > (8 * kMaskSizeLBitClear : Nat) then
          kMaskSizeLBitSet
        else kMaskSizeLBitClear
      let firstColumn :=
        copyColumn numFecPackets newMaskBytes numMaskBytes 0 0 (fun _ => 0, packetMask)
      (insertZerosFrom numFecPackets newMaskBytes numMaskBytes media firstSeqNum 1 1 firstColumn).map
        fun columns =>
          let newMask := shiftLastByte numFecPackets newMaskBytes columns.1 columns.2.1
          (columns.1, packetMask.copy 0 newMask 0 (kMaskSizeLBitSet * numFecPackets))

end Gaps

/-! ## FEC packets -/

section BitStrings

variable (ulpHeaderSize : Nat)

/-- The bytes that are allocated for the masks. -/
def packetMaskSize (numFecPackets : Nat) : Nat := numFecPackets * kMaskSizeLBitSet

/-- A protected media packet is copied into the FEC packet, or XORed into it
if another one was before. -/
def addMediaPacket (mediaPacket fec : Packet) : Packet :=
  let mediaPayloadLength := mediaPacket.length - 12
  let fecRtpOffset := kFecHeaderSize + ulpHeaderSize - kRtpHeaderSize
  let fecPacketLength := mediaPacket.length + BitVec.ofNat 16 fecRtpOffset
  let payloadStart := kFecHeaderSize + ulpHeaderSize
  let payloadSize := mediaPacket.length.toNat - kRtpHeaderSize
  let data :=
    if fec.length = 0 then
      let header := (fec.data.copy 0 mediaPacket.data 0 2).copy 4 mediaPacket.data 4 4
      (set16 header 8 mediaPayloadLength).copy payloadStart mediaPacket.data kRtpHeaderSize payloadSize
    else
      let header := (fec.data.xor 0 mediaPacket.data 0 2).xor 4 mediaPacket.data 4 4
      (set16 header 8 (be16 header 8 ^^^ mediaPayloadLength)).xor payloadStart mediaPacket.data
        kRtpHeaderSize payloadSize
  ⟨if fecPacketLength > fec.length then fecPacketLength else fec.length, data⟩

/-- The loop over the media packets for one FEC packet, at the mask byte
`pktMaskIdx` and its bit `mediaPktIdx`. -/
def bitStringFrom (packetMask : Mem) (maskSize : Nat) :
    List Packet → Nat → Nat → Packet → Option Packet
  | [], _, _, fec => some fec
  | mediaPacket :: media, pktMaskIdx, mediaPktIdx, fec =>
    if mediaPktIdx > 7 ∨ maskSize ≤ pktMaskIdx then none
    else
      let fec :=
        if packetMask pktMaskIdx &&& ((1 : Byte) <<< (7 - mediaPktIdx)) ≠ 0 then
          addMediaPacket ulpHeaderSize mediaPacket fec
        else fec
      match media with
      | [] => some fec
      | next :: _ =>
        let gap := parseSequenceNumber next.data - parseSequenceNumber mediaPacket.data
        let mediaPktIdx := mediaPktIdx + gap.toNat
        if mediaPktIdx = 8 then bitStringFrom packetMask maskSize media (pktMaskIdx + 1) 0 fec
        else bitStringFrom packetMask maskSize media pktMaskIdx mediaPktIdx fec

end BitStrings

section Headers

variable (media : List Packet) (packetMask : Mem) (lBit : Bool)

def ulpHeaderSizeOf (lBit : Bool) : Nat :=
  if lBit then kUlpHeaderSizeLBitSet else kUlpHeaderSizeLBitClear

def maskBytesOf (lBit : Bool) : Nat := if lBit then kMaskSizeLBitSet else kMaskSizeLBitClear

/-- `GenerateFecBitStrings`, for the FEC packet `i`. -/
def generateFecBitString (maskSize i : Nat) : Option Packet :=
  bitStringFrom (ulpHeaderSizeOf lBit) packetMask maskSize media (i * maskBytesOf lBit) 0
    ⟨0, fun _ => 0⟩

/-- `GenerateFecUlpHeaders`, for the FEC packet `i`. -/
def generateFecUlpHeader (first : Packet) (i : Nat) (fec : Packet) : Packet :=
  let flags := fec.data 0 &&& 0x7f
  let flags := if lBit then flags ||| 0x40 else flags &&& 0xbf
  let header := (fec.data.set 0 flags).copy 2 first.data 2 2
  let protectionLength :=
    fec.length - BitVec.ofNat 16 kFecHeaderSize - BitVec.ofNat 16 (ulpHeaderSizeOf lBit)
  ⟨fec.length,
    (set16 header 10 protectionLength).copy 12 packetMask (i * maskBytesOf lBit) (maskBytesOf lBit)⟩

/-- The FEC packets, from `i` on, `n` of them. -/
def generateFecPackets (maskSize : Nat) (first : Packet) : Nat → Nat → Option (List Packet)
  | _, 0 => some []
  | i, n + 1 =>
    (generateFecBitString media packetMask lBit maskSize i).bind fun fec =>
      (generateFecPackets maskSize first (i + 1) n).map
        (generateFecUlpHeader packetMask lBit first i fec :: ·)

end Headers

/-! ## GenerateFEC -/

def getNumberOfFecPackets (numMediaPackets protectionFactor : Nat) : Nat :=
  let numFecPackets := (numMediaPackets * protectionFactor + (1 <<< 7)) >>> 8
  if protectionFactor > 0 ∧ numFecPackets = 0 then 1 else numFecPackets

/-- What `GenerateFEC` is called with. -/
structure FecParams where
  protectionFactor : Byte
  numImportantPackets : Int
  useUnequalProtection : Bool
  fecMaskType : FecMaskType

/-- The checks of `GenerateFEC`. -/
def accepts (media : List Packet) (params : FecParams) (fecPacketList : List Packet) : Bool :=
  !media.isEmpty && fecPacketList.isEmpty &&
    (BitVec.ofNat 16 media.length).toNat ≤ kMaxMediaPackets &&
    params.numImportantPackets ≤ (BitVec.ofNat 16 media.length).toNat &&
    0 ≤ params.numImportantPackets &&
    media.all fun p => kRtpHeaderSize ≤ p.length.toNat &&
      p.length.toNat + packetOverhead + kTransportOverhead ≤ IP_PACKET_SIZE

/-- The return code, and the list of FEC packets. -/
def generateFEC (tables : MaskTables) (media : List Packet) (params : FecParams)
    (fecPacketList : List Packet) : Option (Int × List Packet) :=
  if !accepts media params fecPacketList then some (-1, fecPacketList)
  else
    let numMediaPackets := (BitVec.ofNat 16 media.length).toNat
    let numFecPackets := getNumberOfFecPackets numMediaPackets params.protectionFactor.toNat
    if numFecPackets = 0 then some (0, fecPacketList)
    else
      let maskTable := tables.initMaskTable (initMaskType params.fecMaskType numMediaPackets)
      let packetMask :=
        generatePacketMasks numMediaPackets numFecPackets params.numImportantPackets.toNat
          params.useUnequalProtection maskTable fun _ => 0
      (insertZerosInBitMasks numFecPackets media packetMask (maskBytes numMediaPackets)).bind
        fun columns =>
          let lBit := columns.1 > 8 * kMaskSizeLBitClear
          (generateFecPackets media columns.2 lBit (packetMaskSize numFecPackets)
            (media.headD ⟨0, fun _ => 0⟩) 0 numFecPackets).map fun fec => (0, fec)

end PerchWebrtc.Fec
