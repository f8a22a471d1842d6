import PerchWebrtc.Video.SessionInfo

/-!
# The frame buffer

`VCMFrameBuffer` (`frame_buffer.cc`): a session and the memory that its
packets point into, which grows in steps. The assertions of `SetState` are
left out.

* `insertPacket_cases`: what `InsertPacket` does with a packet of the frame.
-/

namespace PerchWebrtc.Video

inductive VCMFrameBufferEnum where
  | kNotInitialized
  | kOldPacket
  | kGeneralError
  | kFlushIndicator
  | kTimeStampError
  | kSizeError
  | kNoError
  | kIncomplete
  | kCompleteSession
  | kDecodableSession
  | kDuplicatePacket
  deriving DecidableEq

inductive VCMFrameBufferStateEnum where
  | kStateEmpty
  | kStateIncomplete
  | kStateComplete
  | kStateDecodable
  deriving DecidableEq

structure VCMFrameBuffer where
  timeStamp : BitVec 32 := 0
  length : Nat := 0
  /-- The bytes that are allocated. -/
  size : Nat := 0
  buffer : Mem
  state : VCMFrameBufferStateEnum := .kStateEmpty
  sessionInfo : VCMSessionInfo := {}
  nackCount : Nat := 0

namespace VCMFrameBuffer

def reset (fb : VCMFrameBuffer) : VCMFrameBuffer where
  size := fb.size
  buffer := fb.buffer

/-- The bytes that are there are copied to new memory, which holds `fresh`. -/
def verifyAndAllocate (fresh : Mem) (minimumSize : Nat) (fb : VCMFrameBuffer) : VCMFrameBuffer :=
  if fb.size < minimumSize then
    { fb with buffer := fresh.copy 0 fb.buffer 0 fb.size, size := minimumSize }
  else fb

def requiredSizeBytes (packet : VCMPacket Mem) (fb : VCMFrameBuffer) : Nat :=
  fb.length + packet.storedSize

/-- The size after the buffer was made larger for the packet. -/
def newSize (packet : VCMPacket Mem) (fb : VCMFrameBuffer) : Nat :=
  let required := fb.requiredSizeBytes packet
  let increments :=
    required / kBufferIncStepSizeBytes + if required % kBufferIncStepSizeBytes > 0 then 1 else 0
  fb.size + increments * kBufferIncStepSizeBytes

/-- Room for the packet, unless that exceeds the limit. Pointers are offsets,
so that `UpdateDataPointers` leaves them as they are. -/
def reserve (fresh : Mem) (packet : VCMPacket Mem) (fb : VCMFrameBuffer) : Option VCMFrameBuffer :=
  if fb.size ≤ fb.requiredSizeBytes packet then
    if kMaxJBFrameSizeBytes < fb.newSize packet then none
    else some (fb.verifyAndAllocate fresh (fb.newSize packet))
  else some fb

/-- The first packet, empty or not, gives the frame its timestamp. -/
def start (packet : VCMPacket Mem) (fb : VCMFrameBuffer) : VCMFrameBuffer :=
  if fb.state = .kStateEmpty then
    { fb with
      timeStamp := packet.timestamp
      state := if packet.frameType = .kFrameEmpty then .kStateEmpty else .kStateIncomplete }
  else fb

/-- The part behind the session's `InsertPacket`, which returned `retVal`. -/
def finish (retVal : Int) (fb : VCMFrameBuffer) : VCMFrameBufferEnum × VCMFrameBuffer :=
  if retVal = -1 then (.kSizeError, fb)
  else if retVal = -2 then (.kDuplicatePacket, fb)
  else
    let fb := { fb with length := fb.length + retVal.toNat }
    if fb.sessionInfo.complete then (.kCompleteSession, { fb with state := .kStateComplete })
    else if fb.sessionInfo.decodable then (.kDecodableSession, { fb with state := .kStateDecodable })
    else (.kIncomplete, fb)

def insertPacket (fresh : Mem) (mode : VCMDecodeErrorMode) (frameData : FrameData)
    (packet : VCMPacket Mem) (fb : VCMFrameBuffer) : VCMFrameBufferEnum × VCMFrameBuffer :=
  if fb.timeStamp ≠ 0 ∧ fb.timeStamp ≠ packet.timestamp then (.kTimeStampError, fb)
  else if kMaxJBFrameSizeBytes < fb.size + packet.storedSize then (.kSizeError, fb)
  else if packet.dataPtr.isNone ∧ 0 < packet.sizeBytes then (.kSizeError, fb)
  else
    let started := fb.start packet
    match started.reserve fresh packet with
    | none => (.kSizeError, started)
    | some fb =>
      let inserted := fb.sessionInfo.insertPacket mode frameData packet fb.buffer
      finish inserted.1 { fb with buffer := inserted.2.1, sessionInfo := inserted.2.2 }

/-! ## What an insertion does -/

/-- The buffer does not have to grow beyond its limit for the packet. -/
def HasRoom (packet : VCMPacket Mem) (fb : VCMFrameBuffer) : Prop :=
  fb.size + packet.storedSize ≤ kMaxJBFrameSizeBytes ∧
    (fb.size ≤ fb.requiredSizeBytes packet → fb.newSize packet ≤ kMaxJBFrameSizeBytes)

section Insert

variable (packet : VCMPacket Mem) (fb : VCMFrameBuffer)

@[simp] theorem start_length : (fb.start packet).length = fb.length := by
  unfold start
  split <;> rfl

@[simp] theorem start_size : (fb.start packet).size = fb.size := by
  unfold start
  split <;> rfl

@[simp] theorem start_buffer : (fb.start packet).buffer = fb.buffer := by
  unfold start
  split <;> rfl

@[simp] theorem start_sessionInfo : (fb.start packet).sessionInfo = fb.sessionInfo := by
  unfold start
  split <;> rfl

theorem start_timeStamp (h : fb.timeStamp = 0 ∨ fb.timeStamp = packet.timestamp) :
    (fb.start packet).timeStamp = 0 ∨ (fb.start packet).timeStamp = packet.timestamp := by
  unfold start
  split
  · exact .inr rfl
  · exact h

@[simp] theorem start_requiredSizeBytes :
    (fb.start packet).requiredSizeBytes packet = fb.requiredSizeBytes packet := by
  simp only [requiredSizeBytes, start_length]

@[simp] theorem start_newSize : (fb.start packet).newSize packet = fb.newSize packet := by
  simp only [newSize, start_requiredSizeBytes, start_size]

theorem requiredSizeBytes_le_newSize : fb.requiredSizeBytes packet ≤ fb.newSize packet := by
  rw [newSize]
  by_cases h : fb.requiredSizeBytes packet % kBufferIncStepSizeBytes > 0
  · simp only [if_pos h]
    unfold kBufferIncStepSizeBytes
    omega
  · simp only [if_neg h]
    unfold kBufferIncStepSizeBytes at h ⊢
    omega

/-- What is left unchanged when the buffer grows. -/
structure Grown (fb fb' : VCMFrameBuffer) : Prop where
  timeStamp : fb'.timeStamp = fb.timeStamp
  length : fb'.length = fb.length
  sessionInfo : fb'.sessionInfo = fb.sessionInfo
  buffer : ∀ i < fb.size, fb'.buffer i = fb.buffer i

theorem reserve_cases (fresh : Mem) :
    (fb.size ≤ fb.requiredSizeBytes packet ∧ kMaxJBFrameSizeBytes < fb.newSize packet ∧
        fb.reserve fresh packet = none) ∨
      (fb.size ≤ fb.requiredSizeBytes packet → fb.newSize packet ≤ kMaxJBFrameSizeBytes) ∧
        ∃ fb', fb.reserve fresh packet = some fb' ∧ Grown fb fb' ∧
          fb.requiredSizeBytes packet ≤ fb'.size := by
  have hnew := requiredSizeBytes_le_newSize packet fb
  unfold reserve
  by_cases hsize : fb.size ≤ fb.requiredSizeBytes packet
  · rw [if_pos hsize]
    by_cases hmax : kMaxJBFrameSizeBytes < fb.newSize packet
    · exact .inl ⟨hsize, hmax, if_pos hmax⟩
    · refine .inr ⟨fun _ => Nat.le_of_not_lt hmax, _, if_neg hmax, ?_⟩
      unfold verifyAndAllocate
      split
      · refine ⟨⟨rfl, rfl, rfl, fun i hi => ?_⟩, hnew⟩
        show fresh.copy 0 fb.buffer 0 fb.size i = _
        rw [Mem.copy_inside _ _ (Nat.zero_le _) (by omega), Nat.zero_add, Nat.sub_zero]
      · exact ⟨⟨rfl, rfl, rfl, fun _ _ => rfl⟩, by omega⟩
  · exact .inr ⟨fun h => absurd h hsize, fb, if_neg hsize, ⟨rfl, rfl, rfl, fun _ _ => rfl⟩, by omega⟩

theorem finish_spec (retVal : Int) :
    (finish retVal fb).2.timeStamp = fb.timeStamp ∧ (finish retVal fb).2.size = fb.size ∧
      (finish retVal fb).2.buffer = fb.buffer ∧ (finish retVal fb).2.sessionInfo = fb.sessionInfo ∧
      (finish retVal fb).2.length = fb.length + retVal.toNat := by
  unfold finish
  split
  · rename_i h
    exact ⟨rfl, rfl, rfl, rfl, by rw [h]; rfl⟩
  · split
    · rename_i h
      exact ⟨rfl, rfl, rfl, rfl, by rw [h]; rfl⟩
    · dsimp only
      split_ifs <;> exact ⟨rfl, rfl, rfl, rfl, rfl⟩

/-- A packet of the frame is refused for want of room, or given to the session
together with a buffer that holds what it held before. -/
theorem insertPacket_cases {fb : VCMFrameBuffer} {packet : VCMPacket Mem} (hdata : packet.HasData)
    (htime : fb.timeStamp = 0 ∨ fb.timeStamp = packet.timestamp) (fresh : Mem)
    (mode : VCMDecodeErrorMode) (frameData : FrameData) :
    let fb' := (fb.insertPacket fresh mode frameData packet).2
    (fb'.timeStamp = 0 ∨ fb'.timeStamp = packet.timestamp) ∧
      ((¬ fb.HasRoom packet ∧ fb'.sessionInfo = fb.sessionInfo ∧ fb'.buffer = fb.buffer ∧
          fb'.length = fb.length ∧ fb'.size = fb.size) ∨
        (fb.HasRoom packet ∧ ∃ buffer : Mem, (∀ i < fb.size, buffer i = fb.buffer i) ∧
          let inserted := fb.sessionInfo.insertPacket mode frameData packet buffer
          fb'.sessionInfo = inserted.2.2 ∧ fb'.buffer = inserted.2.1 ∧
            fb'.length = fb.length + inserted.1.toNat ∧ fb.requiredSizeBytes packet ≤ fb'.size)) := by
  have htime' : ¬ (fb.timeStamp ≠ 0 ∧ fb.timeStamp ≠ packet.timestamp) := by
    rintro ⟨h0, h1⟩
    exact htime.elim h0 h1
  have hnull : ¬ (packet.dataPtr.isNone = true ∧ 0 < packet.sizeBytes) := by
    rintro ⟨hnone, hpos⟩
    have hsize := hdata (Option.isNone_iff_eq_none.mp hnone)
    unfold VCMPacket.storedSize at hsize
    omega
  rw [insertPacket, if_neg htime', if_neg hnull]
  dsimp only
  by_cases hmax : kMaxJBFrameSizeBytes < fb.size + packet.storedSize
  · rw [if_pos hmax]
    exact ⟨htime, .inl ⟨fun h => by have := h.1; omega, rfl, rfl, rfl, rfl⟩⟩
  · rw [if_neg hmax]
    have hstart := start_timeStamp packet fb htime
    rcases reserve_cases packet (fb.start packet) fresh with
      ⟨hle, hnew, hreserve⟩ | ⟨hroom, grown, hreserve, hgrown, hsize⟩
    · rw [hreserve]
      rw [start_size, start_requiredSizeBytes] at hle
      rw [start_newSize] at hnew
      refine ⟨hstart, .inl ⟨fun h => ?_, ?_⟩⟩
      · have := h.2 hle
        omega
      · exact ⟨start_sessionInfo _ _, start_buffer _ _, start_length _ _, start_size _ _⟩
    · rw [hreserve]
      rw [start_size, start_requiredSizeBytes, start_newSize] at hroom
      rw [start_requiredSizeBytes] at hsize
      obtain ⟨ftime, fsize, fbuffer, fsession, flength⟩ := finish_spec
        { grown with
          buffer := (grown.sessionInfo.insertPacket mode frameData packet grown.buffer).2.1
          sessionInfo := (grown.sessionInfo.insertPacket mode frameData packet grown.buffer).2.2 }
        (grown.sessionInfo.insertPacket mode frameData packet grown.buffer).1
      have hsession : grown.sessionInfo = fb.sessionInfo := by
        rw [hgrown.sessionInfo, start_sessionInfo]
      have hlength : grown.length = fb.length := by rw [hgrown.length, start_length]
      refine ⟨?_, .inr ⟨⟨Nat.le_of_not_lt hmax, hroom⟩, grown.buffer, ?_, ?_⟩⟩
      · rw [ftime, hgrown.timeStamp]
        exact hstart
      · intro i hi
        rw [hgrown.buffer i (by rw [start_size]; exact hi), start_buffer]
      · rw [fsession, fbuffer, flength, fsize, hsession, hlength]
        exact ⟨rfl, rfl, rfl, hsize⟩

end Insert

end VCMFrameBuffer

end PerchWebrtc.Video
