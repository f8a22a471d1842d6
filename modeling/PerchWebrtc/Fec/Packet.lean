import PerchWebrtc.Framework.Bytes
import PerchWebrtc.Framework.Circular

/-!
# FEC packets

Media and FEC packets, and the fields of the FEC and ULP headers
(`forward_error_correction.h`, `forward_error_correction_internal.h`). Packet
data is memory; a packet's buffer has `IP_PACKET_SIZE` bytes.
-/

namespace PerchWebrtc.Fec

open Circular

def IP_PACKET_SIZE : Nat := 1500
def kMaxMediaPackets : Nat := 48
def kMaxFecPackets : Nat := kMaxMediaPackets
def kRtpHeaderSize : Nat := 12
def kFecHeaderSize : Nat := 10
def kMaskSizeLBitSet : Nat := 6
def kMaskSizeLBitClear : Nat := 2
def kUlpHeaderSizeLBitSet : Nat := 2 + kMaskSizeLBitSet
def kUlpHeaderSizeLBitClear : Nat := 2 + kMaskSizeLBitClear

structure Packet where
  length : BitVec 16
  data : Mem

namespace Packet

variable (p : Packet)

/-- The L bit of an FEC packet. -/
def lBit : Bool := p.data 0 &&& 0x40 ≠ 0

def maskSizeBytes : Nat := if p.lBit then kMaskSizeLBitSet else kMaskSizeLBitClear

def ulpHeaderSize : Nat := if p.lBit then kUlpHeaderSizeLBitSet else kUlpHeaderSizeLBitClear

/-- The protection length field. -/
def protectionLength : Nat := (be16 p.data 10).toNat

def seqNumBase : BitVec 16 := be16 p.data 2

/-- Bit `i` of the packet mask, `i = 8 * byte_idx + bit_idx`. -/
def maskBit (i : Nat) : Bool := (p.data (12 + i / 8)).getLsbD (7 - i % 8)

/-- The numbers that the packet mask selects, from `seq_num_base` on. -/
def maskSeqNums : List (BitVec 16) :=
  ((List.range (8 * p.maskSizeBytes)).filter p.maskBit).map fun i => p.seqNumBase + BitVec.ofNat 16 i

/-- Where the FEC payload begins. -/
def payloadStart : Nat := kFecHeaderSize + p.ulpHeaderSize

end Packet

/-- `IsNewerSequenceNumber`. -/
def isNewerSequenceNumber (sequenceNumber prevSequenceNumber : BitVec 16) : Bool :=
  sequenceNumber ≠ prevSequenceNumber && sequenceNumber - prevSequenceNumber < 0x8000

/-- `SortablePacket::LessThan` on the sequence numbers. -/
def lessThan (first second : BitVec 16) : Bool := isNewerSequenceNumber second first

theorem lessThan_iff (a b : BitVec 16) : lessThan a b = true ↔ Precedes a b := by
  simp only [lessThan, isNewerSequenceNumber, Precedes, Bool.and_eq_true, decide_eq_true_eq,
    BitVec.lt_def]
  refine and_congr_right fun _ => ?_
  show _ < 32768 ↔ 2 * _ < 65536
  omega

/-- The numbers of a mask are distinct, and in their order. -/
theorem maskSeqNums_pairwise (p : Packet) : p.maskSeqNums.Pairwise Precedes := by
  have hsize : p.maskSizeBytes ≤ 6 := by
    unfold Packet.maskSizeBytes
    split <;> decide
  refine List.pairwise_map.mpr ?_
  have hrange : ((List.range (8 * p.maskSizeBytes)).filter p.maskBit).Pairwise (· < ·) :=
    List.Pairwise.filter _ List.pairwise_lt_range
  refine hrange.imp_of_mem fun {i j} hi hj hij => ?_
  have hi' := List.mem_range.mp (List.mem_filter.mp hi).1
  have hj' := List.mem_range.mp (List.mem_filter.mp hj).1
  have hoff : ∀ k < 48, (p.seqNumBase + BitVec.ofNat 16 k - p.seqNumBase).toNat = k := by
    intro k hk
    have : p.seqNumBase + BitVec.ofNat 16 k - p.seqNumBase = BitVec.ofNat 16 k := by grind
    rw [this, BitVec.toNat_ofNat]
    omega
  have hin : ∀ k < 48, InHalf p.seqNumBase (p.seqNumBase + BitVec.ofNat 16 k) := by
    intro k hk
    unfold InHalf
    rw [hoff k hk]
    omega
  rw [precedes_iff (hin i (by omega)) (hin j (by omega)), hoff i (by omega), hoff j (by omega)]
  exact hij

end PerchWebrtc.Fec
