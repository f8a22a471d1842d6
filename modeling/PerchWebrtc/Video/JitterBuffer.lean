import PerchWebrtc.Framework.Ordered
import PerchWebrtc.Video.DecodingState

/-!
# The video jitter buffer

`VCMJitterBuffer` (`jitter_buffer.cc`): frames are assembled from packets, and
wait in two lists until they are decoded. A frame buffer is known by its place
in `frame_buffers_`, and the lists hold these places. The statistics and the
jitter estimate, which no decision depends on, are left out, and so is the
decoder's side, which takes frames out.
-/

namespace PerchWebrtc.Video

open Circular

def kMaxNumberOfFrames : Nat := 300
def kStartNumberOfFrames : Nat := 6
def kMaxConsecutiveOldFrames : Nat := 60
def kMaxConsecutiveOldPackets : Nat := 300

inductive VCMNackMode where
  | kNack
  | kNoNack
  deriving DecidableEq

/-- The values of `VCMFrameBufferEnum`. -/
def VCMFrameBufferEnum.value : VCMFrameBufferEnum → Int
  | .kNotInitialized => -6
  | .kOldPacket => -5
  | .kGeneralError => -4
  | .kFlushIndicator => -3
  | .kTimeStampError => -2
  | .kSizeError => -1
  | .kNoError => 0
  | .kIncomplete => 1
  | .kCompleteSession => 3
  | .kDecodableSession => 4
  | .kDuplicatePacket => 5

/-- The constructor. -/
def VCMFrameBuffer.new : VCMFrameBuffer where
  buffer _ := 0

/-- The frames of a list, ordered by their timestamps. -/
abbrev FrameList := List (BitVec 32 × Nat)

namespace FrameList

def insertFrame (frame : VCMFrameBuffer) (i : Nat) (l : FrameList) : FrameList :=
  Ordered.insert Precedes Prod.fst (frame.timeStamp, i) l

def findFrame (timestamp : BitVec 32) (l : FrameList) : Option Nat :=
  (Ordered.find Precedes Prod.fst timestamp l).map Prod.snd

/-- The list that `PopFrame` leaves; the frame is that of `findFrame`. -/
def popFrame (timestamp : BitVec 32) (l : FrameList) : FrameList :=
  Ordered.erase Precedes Prod.fst timestamp l

def frames (l : FrameList) : List Nat := l.map Prod.snd

section Clean

variable (buffers : Nat → VCMFrameBuffer)

/-- The frames that are thrown, and the list behind them, which begins with a
key frame unless it is empty. At least one frame is thrown. -/
def recycleFramesUntilKeyFrame : FrameList → List Nat × FrameList
  | [] => ([], [])
  | (_, i) :: l =>
    let keyFrame (e : BitVec 32 × Nat) : Bool :=
      (buffers e.2).sessionInfo.frameType = .kVideoFrameKey
    (i :: frames (l.takeWhile fun e => !keyFrame e), l.dropWhile fun e => !keyFrame e)

end Clean

end FrameList

structure VCMJitterBuffer where
  running : Bool := false
  maxNumberOfFrames : Nat := kStartNumberOfFrames
  frameBuffers : Nat → VCMFrameBuffer := fun _ => .new
  freeFrames : List Nat := List.range kStartNumberOfFrames
  decodableFrames : FrameList := []
  incompleteFrames : FrameList := []
  lastDecodedState : VCMDecodingState := {}
  firstPacketSinceReset : Bool := true
  numConsecutiveOldFrames : Nat := 0
  numConsecutiveOldPackets : Nat := 0
  nackMode : VCMNackMode := .kNoNack
  missingSequenceNumbers : List (BitVec 16) := []
  latestReceivedSequenceNumber : BitVec 16 := 0
  maxNackListSize : Nat := 0
  maxPacketAgeToNack : Nat := 0
  maxIncompleteTimeMs : Nat := 0
  decodeErrorMode : VCMDecodeErrorMode := .kNoErrors

namespace VCMJitterBuffer

variable (jb : VCMJitterBuffer)

def start : VCMJitterBuffer :=
  { jb with
    running := true
    numConsecutiveOldFrames := 0
    numConsecutiveOldPackets := 0
    firstPacketSinceReset := true
    lastDecodedState := {} }

def stop : VCMJitterBuffer :=
  { jb with
    running := false
    frameBuffers := fun i =>
      if i < jb.maxNumberOfFrames then (jb.frameBuffers i).reset else jb.frameBuffers i
    freeFrames := List.range jb.maxNumberOfFrames
    decodableFrames := []
    incompleteFrames := []
    lastDecodedState := {} }

def setFrame (i : Nat) (frame : VCMFrameBuffer) : VCMJitterBuffer :=
  { jb with frameBuffers := Function.update jb.frameBuffers i frame }

/-- Frames that go from a list to the free frames are reset. -/
def recycle (frames : List Nat) : VCMJitterBuffer :=
  { jb with
    frameBuffers := fun i =>
      if i ∈ frames then (jb.frameBuffers i).reset else jb.frameBuffers i
    freeFrames := jb.freeFrames ++ frames }

def flush : VCMJitterBuffer :=
  { jb.recycle (jb.decodableFrames.frames ++ jb.incompleteFrames.frames) with
    decodableFrames := []
    incompleteFrames := []
    lastDecodedState := {}
    numConsecutiveOldFrames := 0
    numConsecutiveOldPackets := 0
    firstPacketSinceReset := true
    missingSequenceNumbers := [] }

/-! ## The NACK list -/

/-- `missing_sequence_numbers_.insert`. -/
def insertMissing (seqNum : BitVec 16) (missing : List (BitVec 16)) : List (BitVec 16) :=
  Ordered.insertAtEnd Precedes id seqNum missing

def dropPacketsFromNackList (lastDecodedSequenceNumber : BitVec 16) : VCMJitterBuffer :=
  { jb with
    missingSequenceNumbers :=
      Ordered.above Precedes id lastDecodedSequenceNumber jb.missingSequenceNumbers }

def isPacketRetransmitted (packet : VCMPacket Mem) : Bool :=
  (Ordered.find Precedes id packet.seqNum jb.missingSequenceNumbers).isSome

def estimatedLowSequenceNumber (frame : VCMFrameBuffer) : BitVec 16 :=
  let low := toUInt16 frame.sessionInfo.lowSequenceNumber
  if frame.sessionInfo.haveFirstPacket then low else low - 1

/-- The oldest frames are recycled up to a key frame, incomplete ones first.
Whether a key frame was found. -/
def recycleFramesUntilKeyFrame : Bool × VCMJitterBuffer :=
  let incomplete := FrameList.recycleFramesUntilKeyFrame jb.frameBuffers jb.incompleteFrames
  let decodable := FrameList.recycleFramesUntilKeyFrame jb.frameBuffers jb.decodableFrames
  let recycled :=
    if jb.incompleteFrames = [] then
      (decodable.2, { jb.recycle decodable.1 with decodableFrames := decodable.2 })
    else (incomplete.2, { jb.recycle incomplete.1 with incompleteFrames := incomplete.2 })
  match recycled.1 with
  | (_, key) :: _ =>
    (true, { recycled.2 with lastDecodedState := {} }.dropPacketsFromNackList
      (estimatedLowSequenceNumber (recycled.2.frameBuffers key)))
  | [] =>
    if recycled.2.decodableFrames = [] then
      (false, { recycled.2 with lastDecodedState := {}, missingSequenceNumbers := [] })
    else (false, recycled.2)

/-- Frames are recycled as long as the condition holds, at most `n` times.
Whether the last time found a key frame. -/
def recycleWhile (condition : VCMJitterBuffer → Bool) :
    Nat → Bool → VCMJitterBuffer → Bool × VCMJitterBuffer
  | 0, keyFrameFound, jb => (keyFrameFound, jb)
  | n + 1, keyFrameFound, jb =>
    if condition jb then
      recycleWhile condition n jb.recycleFramesUntilKeyFrame.1 jb.recycleFramesUntilKeyFrame.2
    else (keyFrameFound, jb)

/-- Every time recycles a frame, or clears the list. -/
def recycleLimit : Nat := jb.incompleteFrames.length + jb.decodableFrames.length + 1

def tooLargeNackList : Bool := jb.maxNackListSize < jb.missingSequenceNumbers.length

def handleTooLargeNackList : Bool × VCMJitterBuffer :=
  recycleWhile tooLargeNackList jb.recycleLimit false jb

def missingTooOldPacket (latestSequenceNumber : BitVec 16) : Bool :=
  jb.missingSequenceNumbers.head?.any fun oldest =>
    jb.maxPacketAgeToNack < (latestSequenceNumber - oldest).toNat

def handleTooOldPackets (latestSequenceNumber : BitVec 16) : Bool × VCMJitterBuffer :=
  recycleWhile (missingTooOldPacket · latestSequenceNumber) jb.recycleLimit false jb

/-- The numbers from `i` up to the sequence number, at most `n` of them. -/
def pushMissing (sequenceNumber : BitVec 16) :
    Nat → BitVec 16 → List (BitVec 16) → List (BitVec 16)
  | 0, _, missing => missing
  | n + 1, i, missing =>
    if Precedes i sequenceNumber then
      pushMissing sequenceNumber n (i + 1) (insertMissing i missing)
    else missing

/-- `latest_received_sequence_number_`, or the last decoded number if that is
newer. -/
def skipDecoded : VCMJitterBuffer :=
  if jb.lastDecodedState.inInitialState then jb
  else { jb with
    latestReceivedSequenceNumber :=
      latestSequenceNumber jb.latestReceivedSequenceNumber jb.lastDecodedState.sequenceNum }

/-- The part of `UpdateNackList` behind the new numbers. -/
def limitNackList (sequenceNumber : BitVec 16) : Bool × VCMJitterBuffer :=
  let sized := if jb.tooLargeNackList then jb.handleTooLargeNackList else (true, jb)
  if !sized.1 then (false, sized.2)
  else if sized.2.missingTooOldPacket sequenceNumber then
    sized.2.handleTooOldPackets sequenceNumber
  else (true, sized.2)

/-- False if the list was flushed. -/
def updateNackList (sequenceNumber : BitVec 16) : Bool × VCMJitterBuffer :=
  if jb.nackMode = .kNoNack then (true, jb)
  else
    let jb := jb.skipDecoded
    let latest := jb.latestReceivedSequenceNumber
    if Precedes latest sequenceNumber then
      { jb with
        missingSequenceNumbers :=
          pushMissing sequenceNumber (sequenceNumber - latest).toNat (latest + 1)
            jb.missingSequenceNumbers }.limitNackList sequenceNumber
    else
      (true, { jb with
        missingSequenceNumbers :=
          Ordered.erase Precedes id sequenceNumber jb.missingSequenceNumbers })

/-! ## Frames -/

def tryToIncreaseJitterBufferSize : Option VCMJitterBuffer :=
  if kMaxNumberOfFrames ≤ jb.maxNumberOfFrames then none
  else some { jb with
    freeFrames := jb.freeFrames ++ [jb.maxNumberOfFrames]
    maxNumberOfFrames := jb.maxNumberOfFrames + 1 }

def getEmptyFrame : Option (Nat × VCMJitterBuffer) :=
  (if jb.freeFrames = [] then jb.tryToIncreaseJitterBufferSize else some jb).bind fun jb =>
    jb.freeFrames.head?.map fun i => (i, { jb with freeFrames := jb.freeFrames.tail })

/-- The frame for a packet, unless the packet is old or there is no frame. -/
def getFrame (packet : VCMPacket Mem) : VCMFrameBufferEnum × Option Nat × VCMJitterBuffer :=
  if jb.lastDecodedState.isOldPacket packet then
    let st := jb.lastDecodedState.updateOldPacket packet
    let jb := { jb with
      numConsecutiveOldPackets :=
        jb.numConsecutiveOldPackets + if 0 < packet.sizeBytes then 1 else 0
      lastDecodedState := st }.dropPacketsFromNackList st.sequenceNum
    if kMaxConsecutiveOldPackets < jb.numConsecutiveOldPackets then
      (.kFlushIndicator, none, jb.flush)
    else (.kOldPacket, none, jb)
  else
    let jb := { jb with numConsecutiveOldPackets := 0 }
    match jb.incompleteFrames.findFrame packet.timestamp,
        jb.decodableFrames.findFrame packet.timestamp with
    | some i, _ => (.kNoError, some i, jb)
    | none, some i => (.kNoError, some i, jb)
    | none, none =>
      match jb.getEmptyFrame with
      | some (i, jb) => (.kNoError, some i, jb.setFrame i (jb.frameBuffers i).reset)
      | none =>
        let recycled := jb.recycleFramesUntilKeyFrame
        match recycled.2.getEmptyFrame with
        | some (i, jb) =>
          (if recycled.1 then .kNoError else .kFlushIndicator, some i,
            jb.setFrame i (jb.frameBuffers i).reset)
        | none => (.kGeneralError, none, recycled.2)

def isContinuousInState (frame : VCMFrameBuffer) (st : VCMDecodingState) : Bool :=
  (frame.state = .kStateComplete || frame.state = .kStateDecodable) && st.continuousFrame frame

/-- The loop of `IsContinuous` over the decodable frames. -/
def isContinuousBehind (buffers : Nat → VCMFrameBuffer) (frame : VCMFrameBuffer) :
    FrameList → VCMDecodingState → Bool
  | [], _ => false
  | (_, i) :: l, st =>
    if Precedes frame.timeStamp (buffers i).timeStamp then false
    else
      let st := st.setState (buffers i)
      isContinuousInState frame st || isContinuousBehind buffers frame l st

def isContinuous (frame : VCMFrameBuffer) : Bool :=
  isContinuousInState frame jb.lastDecodedState ||
    isContinuousBehind jb.frameBuffers frame jb.decodableFrames jb.lastDecodedState

/-- The loop of `FindAndInsertContinuousFrames`, over the incomplete frames:
those that stay, and the decodable frames. -/
def findAndInsertFrom (buffers : Nat → VCMFrameBuffer) (newTimeStamp : BitVec 32) :
    FrameList → VCMDecodingState → FrameList → FrameList × FrameList
  | [], _, decodable => ([], decodable)
  | (timestamp, i) :: l, st, decodable =>
    let frame := buffers i
    let stays (rest : FrameList × FrameList) := ((timestamp, i) :: rest.1, rest.2)
    if Precedes frame.timeStamp newTimeStamp then
      stays (findAndInsertFrom buffers newTimeStamp l st decodable)
    else if isContinuousInState frame st then
      findAndInsertFrom buffers newTimeStamp l (st.setState frame) (decodable.insertFrame frame i)
    else if frame.sessionInfo.temporalId ≤ 0 then ((timestamp, i) :: l, decodable)
    else stays (findAndInsertFrom buffers newTimeStamp l st decodable)

def findAndInsertContinuousFrames (newFrame : VCMFrameBuffer) : VCMJitterBuffer :=
  let found := findAndInsertFrom jb.frameBuffers newFrame.timeStamp jb.incompleteFrames
    (jb.lastDecodedState.setState newFrame) jb.decodableFrames
  { jb with incompleteFrames := found.1, decodableFrames := found.2 }

/-- The NACK part of `InsertPacket`, for a packet that the frame `i` took. -/
def receivePacket (packet : VCMPacket Mem) (i : Nat) : Bool × VCMJitterBuffer :=
  if jb.firstPacketSinceReset then
    (true, { jb with
      latestReceivedSequenceNumber := packet.seqNum
      firstPacketSinceReset := false })
  else
    let frame := jb.frameBuffers i
    let counted :=
      if jb.isPacketRetransmitted packet then
        jb.setFrame i { frame with nackCount := frame.nackCount + 1 }
      else jb
    let updated := counted.updateNackList packet.seqNum
    (updated.1, { updated.2 with
      latestReceivedSequenceNumber :=
        latestSequenceNumber updated.2.latestReceivedSequenceNumber packet.seqNum })

/-- A frame that became complete or decodable goes to the list it belongs
to. -/
def placeFrame (packet : VCMPacket Mem) (i : Nat) (first : Bool) : VCMJitterBuffer :=
  let frame := jb.frameBuffers i
  if jb.isContinuous frame || jb.decodeErrorMode = .kWithErrors then
    let incomplete :=
      if first then jb.incompleteFrames else jb.incompleteFrames.popFrame packet.timestamp
    { jb with
      incompleteFrames := incomplete
      decodableFrames := jb.decodableFrames.insertFrame frame i }.findAndInsertContinuousFrames
      frame
  else if first then { jb with incompleteFrames := jb.incompleteFrames.insertFrame frame i }
  else jb

/-- The switch over what the frame buffer returned, with what is returned and
whether the packet was retransmitted, where that is set. -/
def switchReturn (packet : VCMPacket Mem) (i : Nat) (first : Bool)
    (previousState : VCMFrameBufferStateEnum) (bufferReturn : VCMFrameBufferEnum) :
    (VCMFrameBufferEnum × Option Bool) × VCMJitterBuffer :=
  let frame := jb.frameBuffers i
  match bufferReturn with
  | .kGeneralError | .kTimeStampError | .kSizeError =>
    ((bufferReturn, none), jb.setFrame i frame.reset)
  | .kCompleteSession | .kDecodableSession =>
    ((bufferReturn, some (0 < frame.nackCount)),
      if previousState = .kStateDecodable ∨
          bufferReturn = .kCompleteSession ∧ previousState = .kStateComplete then jb
      else jb.placeFrame packet i first)
  | .kIncomplete =>
    let dropped := jb.lastDecodedState.updateEmptyFrame frame
    if frame.state = .kStateEmpty ∧ dropped.1 then
      ((.kNoError, none),
        { jb.setFrame i frame.reset with
          lastDecodedState := dropped.2
          freeFrames := jb.freeFrames ++ [i] })
    else if previousState = .kStateDecodable then
      ((bufferReturn, none),
        { jb with
          decodableFrames := jb.decodableFrames.popFrame packet.timestamp
          incompleteFrames := jb.incompleteFrames.insertFrame frame i })
    else if first then
      ((bufferReturn, none),
        { jb with incompleteFrames := jb.incompleteFrames.insertFrame frame i })
    else ((bufferReturn, none), jb)
  | _ => ((bufferReturn, none), jb)

/-- `InsertPacket` behind `GetFrame`, for the frame `i`. -/
def insertInto (fresh : Mem) (frameData : FrameData) (packet : VCMPacket Mem) (i : Nat) :
    (VCMFrameBufferEnum × Option Bool) × VCMJitterBuffer :=
  let frame := jb.frameBuffers i
  let previousState := frame.state
  let first : Bool := frame.sessionInfo.highSequenceNumber.isNone
  let inserted := frame.insertPacket fresh jb.decodeErrorMode frameData packet
  let jb := jb.setFrame i inserted.2
  if 0 < inserted.1.value then
    let received := jb.receivePacket packet i
    received.2.switchReturn packet i first previousState
      (if received.1 then inserted.1 else .kFlushIndicator)
  else jb.switchReturn packet i first previousState inserted.1

/-- What is returned, and whether the packet was retransmitted, where that is
set. New memory holds `fresh`. -/
def insertPacket (fresh : Mem) (frameData : FrameData) (packet : VCMPacket Mem) :
    (VCMFrameBufferEnum × Option Bool) × VCMJitterBuffer :=
  match jb.getFrame packet with
  | (error, none, jb) => ((error, none), jb)
  | (_, some i, jb) =>
    if jb.lastDecodedState.isOldPacket packet then
      let jb := { jb with
        lastDecodedState := jb.lastDecodedState.updateOldPacket packet
        numConsecutiveOldFrames := jb.numConsecutiveOldFrames + 1 }
      if kMaxConsecutiveOldFrames < jb.numConsecutiveOldFrames then
        ((.kFlushIndicator, none), jb.flush)
      else ((.kNoError, none), jb)
    else { jb with numConsecutiveOldFrames := 0 }.insertInto fresh frameData packet i

/-! ## The NACK list that is sent -/

def setNackMode (mode : VCMNackMode) : VCMJitterBuffer :=
  { jb with
    nackMode := mode
    missingSequenceNumbers := if mode = .kNoNack then [] else jb.missingSequenceNumbers }

def setNackSettings (maxNackListSize maxPacketAgeToNack maxIncompleteTimeMs : Nat) :
    VCMJitterBuffer :=
  { jb with
    maxNackListSize := maxNackListSize
    maxPacketAgeToNack := maxPacketAgeToNack
    maxIncompleteTimeMs := maxIncompleteTimeMs }

/-- The difference of two timestamps, as an `int`. -/
def nonContinuousOrIncompleteDuration : Int :=
  match jb.incompleteFrames.head?, jb.incompleteFrames.getLast? with
  | some front, some back =>
    let start := (jb.decodableFrames.getLast?.getD front).2
    ((jb.frameBuffers back.2).timeStamp - (jb.frameBuffers start).timeStamp).toInt
  | _, _ => 0

def nextFrame : Option VCMFrameBuffer :=
  (jb.decodableFrames.head?.or jb.incompleteFrames.head?).map fun e => jb.frameBuffers e.2

/-- In the initial state the list begins with a key frame, if there is one. The
answer is none if there is none, together with whether frames were there. -/
def startWithKeyFrame : Option Bool × VCMJitterBuffer :=
  let firstFrameIsKey := jb.nextFrame.any fun frame =>
    frame.sessionInfo.frameType = .kVideoFrameKey && frame.sessionInfo.haveFirstPacket
  if !jb.lastDecodedState.inInitialState || firstFrameIsKey then (none, jb)
  else
    let haveNonEmptyFrame := (jb.decodableFrames ++ jb.incompleteFrames).any fun e =>
      (jb.frameBuffers e.2).state ≠ .kStateEmpty
    let recycled := jb.recycleFramesUntilKeyFrame
    (if recycled.1 then none else some haveNonEmptyFrame, recycled.2)

/-- The latest incomplete key frame, if the incomplete frames last too long. -/
def skipToKeyFrame : Option (Option Nat) :=
  if 0 < jb.maxIncompleteTimeMs ∧ 90 * (jb.maxIncompleteTimeMs : Int) <
      jb.nonContinuousOrIncompleteDuration then
    some ((jb.incompleteFrames.reverse.find? fun e =>
      (jb.frameBuffers e.2).sessionInfo.frameType = .kVideoFrameKey).map Prod.snd)
  else none

/-- The list, if there is one, and whether a key frame is requested. -/
def getNackList : (Option (List (BitVec 16)) × Bool) × VCMJitterBuffer :=
  if jb.nackMode = .kNoNack then ((none, false), jb)
  else
    match jb.startWithKeyFrame with
    | (some haveNonEmptyFrame, jb) => ((none, haveNonEmptyFrame), jb)
    | (none, jb) =>
      let sized := if jb.tooLargeNackList then jb.handleTooLargeNackList else (true, jb)
      match sized.2.skipToKeyFrame with
      | some none => ((none, true), sized.2)
      | some (some key) =>
        let skipped := { sized.2 with lastDecodedState := {} }.dropPacketsFromNackList
          (estimatedLowSequenceNumber (sized.2.frameBuffers key))
        ((some skipped.missingSequenceNumbers, !sized.1), skipped)
      | none => ((some sized.2.missingSequenceNumbers, !sized.1), sized.2)

end VCMJitterBuffer

end PerchWebrtc.Video
