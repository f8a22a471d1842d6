import PerchWebrtc.Video.FrameBuffer

/-!
# The decoding state

`VCMDecodingState` (`decoding_state.cc`): what is known of the last frame that
was given to the decoder, and whether a frame continues it.
-/

namespace PerchWebrtc.Video

open Circular
open Vp8 (kNoPictureId kNoTl0PicIdx kNoTemporalIdx)

namespace VCMSessionInfo

variable (s : VCMSessionInfo)

def lowSequenceNumber : Option (BitVec 16) :=
  match s.packets.head? with
  | none => s.emptySeqNumLow
  | some front => some front.seqNum

def highSequenceNumber : Option (BitVec 16) :=
  match s.packets.getLast?, s.emptySeqNumHigh with
  | none, high => high
  | some back, none => some back.seqNum
  | some back, some high => some (latestSequenceNumber back.seqNum high)

/-- The VP8 header of the first packet. -/
def codecHeader : Option Vp8.RTPVideoHeaderVP8 := s.packets.head?.bind VCMPacket.codecHeader

def pictureId : Int := (s.codecHeader.elim kNoPictureId Vp8.RTPVideoHeaderVP8.pictureId).toInt

def temporalId : Int := (s.codecHeader.elim kNoTemporalIdx Vp8.RTPVideoHeaderVP8.temporalIdx).toInt

def layerSync : Bool := s.codecHeader.any Vp8.RTPVideoHeaderVP8.layerSync

def tl0PicId : Int := (s.codecHeader.elim kNoTl0PicIdx Vp8.RTPVideoHeaderVP8.tl0PicIdx).toInt

end VCMSessionInfo

/-- `static_cast<uint16_t>` of a sequence number that is -1 if there is none. -/
def toUInt16 (seqNum : Option (BitVec 16)) : BitVec 16 := seqNum.getD (-1)

structure VCMDecodingState where
  sequenceNum : BitVec 16 := 0
  timeStamp : BitVec 32 := 0
  pictureId : Int := kNoPictureId.toInt
  temporalId : Int := kNoTemporalIdx.toInt
  tl0PicId : Int := kNoTl0PicIdx.toInt
  fullSync : Bool := true
  inInitialState : Bool := true

namespace VCMDecodingState

variable (st : VCMDecodingState) (frame : VCMFrameBuffer)

def isOldPacket (packet : VCMPacket Mem) : Bool :=
  !st.inInitialState && !decide (Precedes st.timeStamp packet.timestamp)

def usingPictureId : Bool :=
  frame.sessionInfo.pictureId ≠ kNoPictureId.toInt && st.pictureId ≠ kNoPictureId.toInt

/-- The conjunctions with 0x7FFF and 0x7F are remainders. -/
def continuousPictureId (pictureId : Int) : Bool :=
  let nextPictureId := st.pictureId + 1
  if pictureId < st.pictureId then
    if 0x80 ≤ st.pictureId then nextPictureId % 0x8000 = pictureId
    else nextPictureId % 0x80 = pictureId
  else nextPictureId = pictureId

def continuousSeqNum (seqNum : BitVec 16) : Bool := seqNum = st.sequenceNum + 1

def continuousLayer (temporalId tl0PicId : Int) : Bool :=
  if temporalId = kNoTemporalIdx.toInt ∨ tl0PicId = kNoTl0PicIdx.toInt then false
  else if st.tl0PicId = kNoTl0PicIdx.toInt ∧ st.temporalId = kNoTemporalIdx.toInt ∧
      temporalId = 0 then true
  else if temporalId ≠ 0 then false
  else (st.tl0PicId + 1) % 0x100 = tl0PicId

def continuousFrame : Bool :=
  let session := frame.sessionInfo
  if session.frameType = .kVideoFrameKey then true
  else if st.inInitialState then false
  else if st.continuousLayer session.temporalId session.tl0PicId then true
  else if !st.fullSync && !session.layerSync then false
  else if st.usingPictureId frame then st.continuousPictureId session.pictureId
  else st.continuousSeqNum (toUInt16 session.lowSequenceNumber)

def updateSyncState : VCMDecodingState :=
  let session := frame.sessionInfo
  if st.inInitialState then st
  else if session.temporalId = kNoTemporalIdx.toInt ∨ session.tl0PicId = kNoTl0PicIdx.toInt then
    { st with fullSync := true }
  else if session.frameType = .kVideoFrameKey ∨ session.layerSync then { st with fullSync := true }
  else if st.fullSync then
    { st with
      fullSync :=
        if st.usingPictureId frame then st.continuousPictureId session.pictureId
        else st.continuousSeqNum (toUInt16 session.lowSequenceNumber) }
  else st

def setState : VCMDecodingState :=
  { st.updateSyncState frame with
    sequenceNum := toUInt16 frame.sessionInfo.highSequenceNumber
    timeStamp := frame.timeStamp
    pictureId := frame.sessionInfo.pictureId
    temporalId := frame.sessionInfo.temporalId
    tl0PicId := frame.sessionInfo.tl0PicId
    inInitialState := false }

/-- Whether the frame can be dropped, and the state behind it. -/
def updateEmptyFrame : Bool × VCMDecodingState :=
  let session := frame.sessionInfo
  let emptyPacket : Bool := session.highSequenceNumber = session.lowSequenceNumber
  if st.inInitialState && emptyPacket then (true, st)
  else if emptyPacket && st.continuousSeqNum (toUInt16 session.highSequenceNumber) ||
      st.continuousFrame frame then
    (true, { st with
      sequenceNum := toUInt16 session.highSequenceNumber
      timeStamp := frame.timeStamp })
  else (false, st)

def updateOldPacket (packet : VCMPacket Mem) : VCMDecodingState :=
  if packet.timestamp = st.timeStamp then
    { st with sequenceNum := latestSequenceNumber packet.seqNum st.sequenceNum }
  else st

end VCMDecodingState

end PerchWebrtc.Video
