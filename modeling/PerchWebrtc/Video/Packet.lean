import PerchWebrtc.Framework.Bytes
import PerchWebrtc.Framework.Circular
import PerchWebrtc.Vp8.Header

/-!
# Video packets

The packets that are inserted into the video jitter buffer (`packet.h`) and
the numbers that bound it (`jitter_buffer_common.h`). A packet points to
memory before it is stored, and into the frame buffer after.
-/

namespace PerchWebrtc.Video

open Circular

def kMaxPacketsInSession : Nat := 800
def kBufferIncStepSizeBytes : Nat := 30000
def kMaxJBFrameSizeBytes : Nat := 4000000
def kH264StartCodeLengthBytes : Nat := 4

inductive FrameType where
  | kFrameEmpty
  | kAudioFrameSpeech
  | kAudioFrameCN
  | kVideoFrameKey
  | kVideoFrameDelta
  | kVideoFrameGolden
  | kVideoFrameAltRef
  deriving DecidableEq

/-- How frames with errors are treated. -/
inductive VCMDecodeErrorMode where
  | kNoErrors
  | kSelectiveErrors
  | kWithErrors
  deriving DecidableEq

/-- Which part of a NAL unit a packet holds. -/
inductive VCMNaluCompleteness where
  | kNaluUnset
  | kNaluComplete
  | kNaluStart
  | kNaluIncomplete
  | kNaluEnd
  deriving DecidableEq

/-- A packet whose data pointer is a `π`. -/
structure VCMPacket (π : Type) where
  timestamp : BitVec 32 := 0
  seqNum : BitVec 16 := 0
  /-- `none` is the null pointer. -/
  dataPtr : Option π := none
  sizeBytes : Nat := 0
  markerBit : Bool := false
  frameType : FrameType := .kFrameEmpty
  isFirstPacket : Bool := false
  completeNALU : VCMNaluCompleteness := .kNaluUnset
  insertStartCode : Bool := false
  /-- `none` if the codec is not VP8. -/
  codecHeader : Option Vp8.RTPVideoHeaderVP8 := none
  /-- Of the VP8 header, as the next field. -/
  partitionId : Nat := 0
  beginningOfPartition : Bool := false

/-- `LatestSequenceNumber`; `IsNewerSequenceNumber` is `Precedes` with its
arguments exchanged. -/
def latestSequenceNumber (sequenceNumber1 sequenceNumber2 : BitVec 16) : BitVec 16 :=
  if Precedes sequenceNumber2 sequenceNumber1 then sequenceNumber1 else sequenceNumber2

theorem latestSequenceNumber_eq_left {a b : BitVec 16} :
    latestSequenceNumber a b = a ↔ b = a ∨ Precedes b a := by
  unfold latestSequenceNumber
  by_cases h : Precedes b a
  · rw [if_pos h]
    exact iff_of_true rfl (.inr h)
  · rw [if_neg h]
    exact ⟨.inl, fun hba => hba.resolve_right h⟩

/-- In one half of the circle, `LatestSequenceNumber` compares distances from
its start. -/
theorem latestSequenceNumber_eq_left_iff {base a b : BitVec 16} (ha : InHalf base a)
    (hb : InHalf base b) :
    latestSequenceNumber a b = a ↔ (b - base).toNat ≤ (a - base).toNat := by
  rw [latestSequenceNumber_eq_left, precedes_iff hb ha]
  constructor
  · rintro (rfl | hlt)
    · exact le_refl _
    · exact le_of_lt hlt
  · intro hle
    rcases Nat.eq_or_lt_of_le hle with heq | hlt
    · exact .inl (eq_of_sub_eq heq)
    · exact .inr hlt

namespace VCMPacket

variable {π : Type}

/-- The bytes of the frame buffer that the packet takes. -/
def storedSize (p : VCMPacket π) : Nat :=
  p.sizeBytes + if p.insertStartCode then kH264StartCodeLengthBytes else 0

/-- A packet without data takes no bytes. -/
def HasData (p : VCMPacket π) : Prop := p.dataPtr = none → p.storedSize = 0

/-- The packet as it is stored, at an offset into the frame buffer. -/
def placed (p : VCMPacket π) (offset : Nat) : VCMPacket Nat where
  timestamp := p.timestamp
  seqNum := p.seqNum
  dataPtr := some offset
  sizeBytes := p.storedSize
  markerBit := p.markerBit
  frameType := p.frameType
  isFirstPacket := p.isFirstPacket
  completeNALU := p.completeNALU
  insertStartCode := p.insertStartCode
  codecHeader := p.codecHeader
  partitionId := p.partitionId
  beginningOfPartition := p.beginningOfPartition

end VCMPacket

end PerchWebrtc.Video
