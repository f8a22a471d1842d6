import PerchWebrtc.NetEq.DecoderDatabase

/-!
# Splitting of payloads

`PayloadSplitter` (`payload_splitter.cc`): the blocks of a RED payload, and the chunks of
a long audio payload. Loops over a payload have fuel; a function that has used up its
fuel has no result.
-/

namespace PerchWebrtc.NetEq

inductive SplitterReturnCode where
  | kOK
  | kNoSplit
  | kTooLargePayload
  | kFrameSplitError
  | kUnknownPayloadType
  | kRedLengthMismatch
  deriving DecidableEq

/-- `count` bytes are read from an offset into `size` bytes. -/
structure Access where
  size : Int
  offset : Int
  count : Int
  deriving DecidableEq

def Access.Inside (a : Access) : Prop :=
  0 ≤ a.offset ∧ 0 ≤ a.count ∧ a.offset + a.count ≤ a.size

instance (a : Access) : Decidable a.Inside := inferInstanceAs (Decidable (_ ∧ _))

namespace Packet

/-- The number of bytes that the payload has. -/
def size (p : Packet) : Int := if p.payload.isSome then p.payloadLength else 0

/-- What the payload pointer points at. -/
def bytes (p : Packet) : Mem := p.payload.getD fun _ => 0

/-- A new payload, copied from a part of another. -/
def slice (p : Packet) (offset count : Int) : Option Mem :=
  some (Mem.copy (fun _ => 0) 0 p.bytes offset.toNat count.toNat)

end Packet

namespace PayloadSplitter

/-! ## RED -/

/-- The timestamp offset of a header, bits 8 to 21. -/
def timestampOffset (m : Mem) (p : Nat) : Nat :=
  (m (p + 1)).toNat * 2 ^ 6 + (m (p + 2) &&& 0xFC).toNat / 2 ^ 2

/-- The block length of a header, bits 22 to 31. -/
def blockLength (m : Mem) (p : Nat) : Nat :=
  (m (p + 2) &&& 0x03).toNat * 2 ^ 8 + (m (p + 3)).toNat

/-- The F bit is not set: the header of the last block. -/
def isLast (m : Mem) (p : Nat) : Bool := m p &&& 0x80 = 0

/-- The last block, which is always primary, with `sum_length` before its header. -/
def lastBlock (red : Packet) (p : Nat) (sumLength : Int) : Packet where
  header := { red.header with payloadType := red.bytes p &&& 0x7F }
  payloadLength := red.payloadLength - (sumLength + 1)
  primary := true

def redundantBlock (red : Packet) (p : Nat) : Packet where
  header :=
    { red.header with
      payloadType := red.bytes p &&& 0x7F
      timestamp := red.timestamp - BitVec.ofNat 32 (timestampOffset red.bytes p) }
  payloadLength := blockLength red.bytes p
  primary := false

/-- The loop over the headers: the reads, and the blocks without their payloads with the
place behind the headers. `sum_length` is not wrapped around: only the last block has it,
and where it would be wrapped an earlier block does not fit. -/
def readHeaders (red : Packet) :
    Nat → Nat → Int → List Access × Option (List Packet × Nat)
  | 0, _, _ => ([], none)
  | fuel + 1, p, sumLength =>
    if isLast red.bytes p then
      ([⟨red.size, p, 1⟩], some ([lastBlock red p sumLength], p + 1))
    else
      let block := redundantBlock red p
      let rest := readHeaders red fuel (p + 4) (sumLength + block.payloadLength + 4)
      (⟨red.size, p, 4⟩ :: rest.1, rest.2.map fun blocks => (block :: blocks.1, blocks.2))

structure Populated where
  log : List Access := []
  /-- A block does not fit, and this and the remaining ones are discarded. -/
  mismatch : Bool := false
  packets : List Packet := []

/-- The loop that gives the blocks their payloads. -/
def populate (red : Packet) : List Packet → Int → Populated
  | [], _ => {}
  | block :: blocks, p =>
    if p + block.payloadLength > red.payloadLength then { mismatch := true }
    else
      let rest := populate red blocks (p + block.payloadLength)
      { rest with
        log := ⟨red.size, p, block.payloadLength⟩ :: rest.log
        packets := { block with payload := red.slice p block.payloadLength } :: rest.packets }

/-- One packet of the list, and its blocks in the order of the new list. -/
def splitRedPacket (fuel : Nat) (red : Packet) : List Access × Option (Bool × List Packet) :=
  let headers := readHeaders red fuel 0 0
  match headers.2 with
  | none => (headers.1, none)
  | some (blocks, p) =>
    let populated := populate red blocks p
    (headers.1 ++ populated.log, some (populated.mismatch, populated.packets.reverse))

/-- The fuel is for the headers of each packet. -/
def splitRed (fuel : Nat) :
    List Packet → List Access × Option (SplitterReturnCode × List Packet)
  | [] => ([], some (.kOK, []))
  | red :: packetList =>
    let split := splitRedPacket fuel red
    match split.2 with
    | none => (split.1, none)
    | some (mismatch, newPackets) =>
      let rest := splitRed fuel packetList
      (split.1 ++ rest.1, rest.2.map fun result =>
        (if mismatch then .kRedLengthMismatch else result.1, newPackets ++ result.2))

/-- The list without redundant payloads of another type than the main one, given the
main type so far. -/
def checkRedPayloadsFrom (db : DecoderDatabase) : Option Byte → List Packet → List Packet
  | _, [] => []
  | mainPayloadType, packet :: packetList =>
    let payloadType := packet.header.payloadType
    if ¬ db.isDtmf payloadType ∧ ¬ db.isComfortNoise payloadType then
      match mainPayloadType with
      | none => packet :: checkRedPayloadsFrom db (some payloadType) packetList
      | some main =>
        if payloadType ≠ main then checkRedPayloadsFrom db (some main) packetList
        else packet :: checkRedPayloadsFrom db (some main) packetList
    else packet :: checkRedPayloadsFrom db mainPayloadType packetList

def checkRedPayloads (db : DecoderDatabase) (packetList : List Packet) : List Packet :=
  checkRedPayloadsFrom db none packetList

/-! ## Audio -/

/-- Bytes and timestamps of a millisecond, for the codecs that are split by samples. -/
def samplesPerMs : NetEqDecoder → Option (Int × Int)
  | .kDecoderPCMu | .kDecoderPCMa => some (8, 8)
  | .kDecoderPCMu_2ch | .kDecoderPCMa_2ch => some (2 * 8, 8)
  | .kDecoderG722 => some (8, 16)
  | .kDecoderPCM16B => some (16, 8)
  | .kDecoderPCM16Bwb => some (32, 16)
  | .kDecoderPCM16Bswb32kHz => some (64, 32)
  | .kDecoderPCM16Bswb48kHz => some (96, 48)
  | .kDecoderPCM16B_2ch => some (2 * 16, 8)
  | .kDecoderPCM16Bwb_2ch => some (2 * 32, 16)
  | .kDecoderPCM16Bswb32kHz_2ch => some (2 * 64, 32)
  | .kDecoderPCM16Bswb48kHz_2ch => some (2 * 96, 48)
  | .kDecoderPCM16B_5ch => some (5 * 16, 8)
  | _ => none

/-- A part of a packet as a packet. -/
def chunk (packet : Packet) (timestamp : BitVec 32) (p count : Int) : Packet where
  header := { packet.header with timestamp := timestamp }
  payload := packet.slice p count
  payloadLength := count
  primary := packet.primary

/-- The loop that halves the split size. -/
def halve (minChunkSize : Int) : Nat → Int → Option Int
  | 0, _ => none
  | fuel + 1, splitSizeBytes =>
    if splitSizeBytes ≥ 2 * minChunkSize then halve minChunkSize fuel (splitSizeBytes / 2)
    else some splitSizeBytes

/-- The loop that makes chunks of one size, and the rest of the packet behind them. -/
def makeChunks (packet : Packet) (splitSizeBytes : Int) (timestampsPerChunk : Int) :
    Nat → BitVec 32 → Int → Int → Option (List Packet)
  | 0, _, _, _ => none
  | fuel + 1, timestamp, p, len =>
    if len ≥ 2 * splitSizeBytes then
      (makeChunks packet splitSizeBytes timestampsPerChunk fuel
        (timestamp + BitVec.ofInt 32 timestampsPerChunk) (p + splitSizeBytes)
        (len - splitSizeBytes)).map (chunk packet timestamp p splitSizeBytes :: ·)
    else if len > 0 then some [chunk packet timestamp p len]
    else some []

def splitBySamples (fuel : Nat) (packet : Packet) (bytesPerMs timestampsPerMs : Int) :
    Option (List Packet) :=
  match halve (bytesPerMs * 20) fuel packet.payloadLength with
  | none => none
  | some splitSizeBytes =>
    makeChunks packet splitSizeBytes ((splitSizeBytes * timestampsPerMs).tdiv bytesPerMs) fuel
      packet.timestamp 0 packet.payloadLength

/-- The loop of `SplitByFrames`. -/
def makeFrames (packet : Packet) (bytesPerFrame timestampsPerFrame : Int) :
    Nat → BitVec 32 → Int → Int → Option (List Packet)
  | 0, _, _, _ => none
  | fuel + 1, timestamp, p, len =>
    if len > 0 then
      (makeFrames packet bytesPerFrame timestampsPerFrame fuel
        (timestamp + BitVec.ofInt 32 timestampsPerFrame) (p + bytesPerFrame)
        (len - bytesPerFrame)).map (chunk packet timestamp p bytesPerFrame :: ·)
    else some []

def splitByFrames (fuel : Nat) (packet : Packet) (bytesPerFrame timestampsPerFrame : Int) :
    Option (SplitterReturnCode × List Packet) :=
  if packet.payloadLength.tmod bytesPerFrame ≠ 0 then some (.kFrameSplitError, [])
  else if packet.payloadLength.tdiv bytesPerFrame = 1 then some (.kNoSplit, [])
  else
    (makeFrames packet bytesPerFrame timestampsPerFrame fuel packet.timestamp 0
      packet.payloadLength).map (.kOK, ·)

/-- The case of iLBC. -/
def splitIlbc (fuel : Nat) (packet : Packet) : Option (SplitterReturnCode × List Packet) :=
  if packet.payloadLength ≥ 950 then some (.kTooLargePayload, [])
  else if packet.payloadLength.tmod 38 = 0 then splitByFrames fuel packet 38 160
  else if packet.payloadLength.tmod 50 = 0 then splitByFrames fuel packet 50 240
  else some (.kFrameSplitError, [])

/-- What the switch does with one packet: an error, the packet itself or new packets. -/
def splitPacket (fuel : Nat) (codecType : NetEqDecoder) (packet : Packet) :
    Option (Except SplitterReturnCode (List Packet)) :=
  match samplesPerMs codecType with
  | some (bytesPerMs, timestampsPerMs) =>
    (splitBySamples fuel packet bytesPerMs timestampsPerMs).map .ok
  | none =>
    if codecType = .kDecoderILBC then
      (splitIlbc fuel packet).map fun
        | (.kOK, newPackets) => .ok newPackets
        | (.kNoSplit, _) => .ok [packet]
        | (ret, _) => .error ret
    else some (.ok [packet])

/-- The return value, and the list where that is `kOK`. -/
def splitAudio (fuel : Nat) (db : DecoderDatabase) :
    List Packet → Option (Except SplitterReturnCode (List Packet))
  | [] => some (.ok [])
  | packet :: packetList =>
    match db.getDecoderInfo packet.header.payloadType with
    | none => some (.error .kUnknownPayloadType)
    | some info =>
      match splitPacket fuel info.codecType packet with
      | none => none
      | some (.error ret) => some (.error ret)
      | some (.ok newPackets) =>
        (splitAudio fuel db packetList).map (·.map (newPackets ++ ·))

end PayloadSplitter

end PerchWebrtc.NetEq
