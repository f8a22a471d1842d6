import PerchWebrtc.Framework.Machine
import PerchWebrtc.NetEq.AudioMultiVector

/-!
# The sync buffer of NetEq

`SyncBuffer` (`sync_buffer.cc`): audio of a constant length, with an index of what is played next.
What is put in at one end goes out at the other. Outputs are not null pointers, which is asserted.

The part that is not played yet is a queue of frames (`PlayoutQueue`).

* `step_valid`: the lengths and the indices;
* `step_simulates`: a call to the buffer is one to the queue, if no frames are pushed out before
  they are played;
* `syncBuffer_exact`: runs.
-/

namespace PerchWebrtc.NetEq

abbrev Sample := BitVec 16

structure SyncBuffer extends AudioMultiVector Sample where
  /-- What is played next. -/
  nextIndex : Nat
  endTimestamp : BitVec 32 := 0
  /-- The first sample that is not DTMF. -/
  dtmfIndex : Nat := 0

namespace SyncBuffer

variable (s : SyncBuffer)

/-- The constructor. -/
def new (channels length : Nat) : SyncBuffer :=
  { AudioMultiVector.create channels length with nextIndex := length }

def futureLength : Nat := s.size - s.nextIndex

def setNextIndex (value : Nat) : SyncBuffer := { s with nextIndex := min value s.size }

def setDtmfIndex (value : Nat) : SyncBuffer := { s with dtmfIndex := min value s.size }

def increaseEndTimestamp (increment : BitVec 32) : SyncBuffer :=
  { s with endTimestamp := s.endTimestamp + increment }

def pushBack (appendThis : AudioMultiVector Sample) : SyncBuffer :=
  let samplesAdded := appendThis.size
  { (s.toAudioMultiVector.pushBack appendThis).popFront samplesAdded with
    nextIndex := if samplesAdded ≤ s.nextIndex then s.nextIndex - samplesAdded else 0
    endTimestamp := s.endTimestamp
    dtmfIndex := s.dtmfIndex - min s.dtmfIndex samplesAdded }

def insertZerosAtIndex (length position : Nat) : SyncBuffer :=
  let position := min position s.size
  let length := min length (s.size - position)
  let s := { s with
    toAudioMultiVector := (s.toAudioMultiVector.popBack length).insertZerosAt length position }
  let s := if position ≤ s.nextIndex then s.setNextIndex (s.nextIndex + length) else s
  if 0 < s.dtmfIndex ∧ position ≤ s.dtmfIndex then s.setDtmfIndex (s.dtmfIndex + length) else s

def pushFrontZeros (length : Nat) : SyncBuffer := s.insertZerosAtIndex length 0

def replaceAtIndex (insertThis : AudioMultiVector Sample) (length position : Nat) : SyncBuffer :=
  let position := min position s.size
  let length := min length (s.size - position)
  { s with toAudioMultiVector := s.toAudioMultiVector.overwriteAt insertThis length position }

/-- How many samples of each channel are read, and what is written to the output. -/
def getNextAudioInterleaved (requestedLen : Nat) : (Nat × List Sample) × SyncBuffer :=
  let samplesToRead := min s.futureLength requestedLen
  ((samplesToRead, s.readInterleavedFromIndex s.nextIndex samplesToRead),
    { s with nextIndex := s.nextIndex + samplesToRead })

def flush : SyncBuffer :=
  let s := { s with toAudioMultiVector := s.toAudioMultiVector.zeros s.size }
  { s with nextIndex := s.size, endTimestamp := 0, dtmfIndex := 0 }

/-! ## Calls -/

inductive Call where
  | pushBack (appendThis : AudioMultiVector Sample)
  | pushFrontZeros (length : Nat)
  | insertZerosAtIndex (length position : Nat)
  | replaceAtIndex (insertThis : AudioMultiVector Sample) (length position : Nat)
  | getNextAudioInterleaved (requestedLen : Nat)
  | flush
  | increaseEndTimestamp (increment : BitVec 32)
  | setDtmfIndex (value : Nat)

def step (s : SyncBuffer) : Call → SyncBuffer
  | .pushBack appendThis => s.pushBack appendThis
  | .pushFrontZeros length => s.pushFrontZeros length
  | .insertZerosAtIndex length position => s.insertZerosAtIndex length position
  | .replaceAtIndex insertThis length position => s.replaceAtIndex insertThis length position
  | .getNextAudioInterleaved requestedLen => (s.getNextAudioInterleaved requestedLen).2
  | .flush => s.flush
  | .increaseEndTimestamp increment => s.increaseEndTimestamp increment
  | .setDtmfIndex value => s.setDtmfIndex value

/-- What a call writes to its output. -/
def output (s : SyncBuffer) : Call → List Sample
  | .getNextAudioInterleaved requestedLen => (s.getNextAudioInterleaved requestedLen).1.2
  | _ => []

/-- The audio of a call has as many channels, of one length. -/
def Call.Matches (channels : Nat) : Call → Prop
  | .pushBack audio | .replaceAtIndex audio _ _ => audio.Shaped channels audio.size
  | _ => True

instance (channels : Nat) : ∀ call : Call, Decidable (call.Matches channels)
  | .pushBack audio | .replaceAtIndex audio _ _ =>
    inferInstanceAs (Decidable (audio.Shaped channels audio.size))
  | .pushFrontZeros _ | .insertZerosAtIndex _ _ | .flush | .getNextAudioInterleaved _
  | .increaseEndTimestamp _ | .setDtmfIndex _ => inferInstanceAs (Decidable True)

/-- Nothing is pushed out before it is played. -/
def Fits (s : SyncBuffer) : Call → Prop
  | .pushBack appendThis => appendThis.size ≤ s.nextIndex
  | _ => True

instance (s : SyncBuffer) : ∀ call, Decidable (s.Fits call)
  | .pushBack _ => inferInstanceAs (Decidable (_ ≤ _))
  | .pushFrontZeros _ | .insertZerosAtIndex _ _ | .replaceAtIndex _ _ _ | .flush
  | .getNextAudioInterleaved _ | .increaseEndTimestamp _ | .setDtmfIndex _ =>
    inferInstanceAs (Decidable True)

structure Valid (channels length : Nat) (s : SyncBuffer) : Prop where
  shaped : s.Shaped channels length
  nextIndex_le : s.nextIndex ≤ length
  dtmfIndex_le : s.dtmfIndex ≤ length

end SyncBuffer

/-! ## The queue -/

/-- The frames that are not played yet, behind those that are still in the buffer. -/
structure PlayoutQueue where
  played : Nat
  frames : List (List Sample)

namespace PlayoutQueue

variable (channels size : Nat) (q : PlayoutQueue)

/-- Zeros take the place of frames at the end. In front of the queue, they are played. -/
def insertZeros (length position : Nat) : PlayoutQueue :=
  let position := min position size
  let length := min length (size - position)
  let kept := q.frames.take (q.frames.length - length)
  if position ≤ q.played then { played := min (q.played + length) size, frames := kept }
  else
    { q with
      frames := kept.take (position - q.played) ++
        (List.replicate length (List.replicate channels 0) ++ kept.drop (position - q.played)) }

def replace (insertThis : AudioMultiVector Sample) (length position : Nat) : PlayoutQueue :=
  let position := min position size
  let length := min (min length (size - position)) insertThis.size
  { q with
    frames := q.frames.take (position - q.played) ++
      ((insertThis.frames.take length).drop (q.played - position) ++
        q.frames.drop (position + length - q.played)) }

def step (q : PlayoutQueue) : SyncBuffer.Call → PlayoutQueue
  | .pushBack audio => { played := q.played - audio.size, frames := q.frames ++ audio.frames }
  | .pushFrontZeros length => q.insertZeros channels size length 0
  | .insertZerosAtIndex length position => q.insertZeros channels size length position
  | .replaceAtIndex insertThis length position => q.replace size insertThis length position
  | .getNextAudioInterleaved requestedLen =>
    { played := q.played + min q.frames.length requestedLen, frames := q.frames.drop requestedLen }
  | .flush => { played := size, frames := [] }
  | .increaseEndTimestamp _ => q
  | .setDtmfIndex _ => q

def output (q : PlayoutQueue) : SyncBuffer.Call → List Sample
  | .getNextAudioInterleaved requestedLen => (q.frames.take requestedLen).flatten
  | _ => []

def outputs : List SyncBuffer.Call → PlayoutQueue → List Sample
  | [], _ => []
  | call :: calls, q => q.output call ++ outputs calls (q.step channels size call)

end PlayoutQueue

namespace SyncBuffer

open AudioMultiVector

/-- The frames that are not played yet. -/
def queue (s : SyncBuffer) : PlayoutQueue where
  played := s.nextIndex
  frames := s.frames.drop s.nextIndex

/-- What is read in the course of the calls. -/
def outputs : List Call → SyncBuffer → List Sample
  | [], _ => []
  | call :: calls, s => s.output call ++ outputs calls (s.step call)

/-- What is pushed. -/
def pushed : List Call → List Sample
  | [] => []
  | .pushBack audio :: calls => audio.frames.flatten ++ pushed calls
  | _ :: calls => pushed calls

/-- Only what is pushed and what is read changes the queue. -/
def LeavesQueue (s : SyncBuffer) : Call → Prop
  | .pushBack _ | .getNextAudioInterleaved _ => True
  | call => (s.step call).queue.frames = s.queue.frames

section Steps

variable {n size : Nat} {s : SyncBuffer}

/-! ## Every call -/

theorem valid_new (n size : Nat) : (new n size).Valid n size :=
  ⟨shaped_create n size, le_refl _, Nat.zero_le _⟩

variable (hs : s.Valid n size) (hn : 0 < n) {audio : AudioMultiVector Sample}

include hs hn

theorem pushBack_valid (haudio : audio.Shaped n audio.size) :
    (s.pushBack audio).Valid n size ∧
      (s.pushBack audio).frames = (s.frames ++ audio.frames).drop audio.size := by
  obtain ⟨hpush, hpushed⟩ := frames_pushBack hs.shaped hn haudio
  obtain ⟨hpop, hpopped⟩ := frames_popFront hpush hn audio.size
  rw [Nat.add_sub_cancel] at hpop
  refine ⟨⟨hpop, ?_, ?_⟩, hpopped.trans (by rw [hpushed])⟩
  · have hnext := hs.nextIndex_le
    show (if audio.size ≤ s.nextIndex then s.nextIndex - audio.size else 0) ≤ size
    split <;> omega
  · exact (Nat.sub_le _ _).trans hs.dtmfIndex_le

theorem flush_valid : s.flush.Valid n size ∧
    s.flush.frames = List.replicate size (List.replicate n 0) ∧ s.flush.nextIndex = size := by
  obtain ⟨hzeros, hframes⟩ := frames_zeros hs.shaped hn s.size
  rw [hs.shaped.size_eq hn] at hzeros hframes
  have hnext : s.flush.nextIndex = size := by
    show (s.zeros s.size).size = size
    rw [hs.shaped.size_eq hn, hzeros.size_eq hn]
  have hflushed : s.flush.toAudioMultiVector = s.zeros size := by
    show s.zeros s.size = s.zeros size
    rw [hs.shaped.size_eq hn]
  refine ⟨⟨?_, le_of_eq hnext, Nat.zero_le _⟩, ?_, hnext⟩
  · rw [hflushed]
    exact hzeros
  · rw [hflushed]
    exact hframes

theorem insertZerosAtIndex_eq {length position : Nat} (hposition : position ≤ size)
    (hlength : length ≤ size - position) :
    ∃ audio : AudioMultiVector Sample, audio.Shaped n size ∧
      audio.frames = (s.frames.take (size - length)).take position ++
        (List.replicate length (List.replicate n 0) ++
          (s.frames.take (size - length)).drop position) ∧
      s.insertZerosAtIndex length position =
        { audio with
          nextIndex := if position ≤ s.nextIndex then min (s.nextIndex + length) size else s.nextIndex
          endTimestamp := s.endTimestamp
          dtmfIndex := if 0 < s.dtmfIndex ∧ position ≤ s.dtmfIndex then
              min (s.dtmfIndex + length) size
            else s.dtmfIndex } := by
  obtain ⟨hpop, hpopped⟩ := frames_popBack hs.shaped hn length
  obtain ⟨hinsert, hinserted⟩ := @frames_insertZerosAt _ _ _ _ _ hpop hn length position (by omega)
  rw [Nat.sub_add_cancel (by omega)] at hinsert
  rw [hpopped] at hinserted
  refine ⟨_, hinsert, hinserted, ?_⟩
  have hsize := hinsert.size_eq hn
  unfold insertZerosAtIndex setNextIndex setDtmfIndex
  dsimp only
  rw [hs.shaped.size_eq hn, min_eq_left hposition, min_eq_left hlength]
  split <;> split <;> simp only [hsize]

theorem insertZerosAtIndex_cap (length position : Nat) : s.insertZerosAtIndex length position =
    s.insertZerosAtIndex (min length (size - min position size)) (min position size) := by
  unfold insertZerosAtIndex
  dsimp only
  rw [hs.shaped.size_eq hn, min_eq_left (min_le_right position size),
    min_eq_left (min_le_right length (size - min position size))]

theorem insertZerosAtIndex_valid (length position : Nat) :
    (s.insertZerosAtIndex length position).Valid n size := by
  rw [insertZerosAtIndex_cap hs hn]
  obtain ⟨audio, hshaped, -, heq⟩ := insertZerosAtIndex_eq hs hn (min_le_right position size)
    (min_le_right length (size - min position size))
  have hnext := hs.nextIndex_le
  have hdtmf := hs.dtmfIndex_le
  rw [heq]
  refine ⟨hshaped, ?_, ?_⟩
  · dsimp only
    split <;> omega
  · dsimp only
    split <;> omega

/-- Zeros in front of the queue, or inside of it. -/
theorem insertZerosAtIndex_queue (length position : Nat) :
    (s.insertZerosAtIndex length position).queue = s.queue.insertZeros n size length position := by
  rw [insertZerosAtIndex_cap hs hn]
  unfold PlayoutQueue.insertZeros
  dsimp only
  have hposition := min_le_right position size
  have hlength := min_le_right length (size - min position size)
  revert hposition hlength
  generalize min position size = position
  generalize min length (size - position) = length
  intro hposition hlength
  obtain ⟨audio, -, hframes, heq⟩ := insertZerosAtIndex_eq hs hn hposition hlength
  have hnext := hs.nextIndex_le
  have hcount := length_frames_eq hs.shaped hn
  have hkept : (s.frames.drop s.nextIndex).take ((s.frames.drop s.nextIndex).length - length) =
      (s.frames.take (size - length)).drop s.nextIndex := by
    rw [List.length_drop, hcount, List.drop_take]
    congr 1
    omega
  rw [heq, queue, queue]
  dsimp only
  rw [hkept, hframes]
  have hzeros : (List.replicate length (List.replicate n (0 : Sample))).length = length :=
    List.length_replicate
  have hfit : position ≤ (s.frames.take (size - length)).length := by
    rw [List.length_take, hcount]
    omega
  split
  · rename_i hfront
    rcases le_total (s.nextIndex + length) size with hle | hle
    · have hdrop := drop_insert_behind (v := List.replicate length (List.replicate n (0 : Sample)))
        hfront hfit
      rw [hzeros] at hdrop
      rw [min_eq_left hle, hdrop]
    · -- All that is left of the buffer is zeros.
      rw [min_eq_right hle, List.drop_eq_nil_of_le, List.drop_eq_nil_of_le]
      · rw [List.length_take]
        omega
      · simp only [List.length_append, List.length_take, List.length_replicate, List.length_drop,
          hcount]
        omega
  · rename_i hinside
    rw [drop_insert_before (Nat.le_of_not_le hinside) hfit]

theorem replaceAtIndex_eq (haudio : audio.Shaped n audio.size) {length position : Nat}
    (hposition : position ≤ size) (hlength : length ≤ size - position) :
    (s.replaceAtIndex audio length position).Valid n size ∧
      (s.replaceAtIndex audio length position).frames = s.frames.take position ++
        (audio.frames.take length ++ s.frames.drop (position + min length audio.size)) := by
  obtain ⟨hshaped, hframes⟩ :=
    @frames_overwriteAt _ _ _ _ _ hs.shaped hn _ _ haudio length position (by omega)
  have heq : (s.replaceAtIndex audio length position).toAudioMultiVector =
      s.overwriteAt audio length position := by
    unfold replaceAtIndex
    dsimp only
    rw [hs.shaped.size_eq hn, min_eq_left hposition, min_eq_left hlength]
  refine ⟨⟨?_, hs.nextIndex_le, hs.dtmfIndex_le⟩, ?_⟩
  · rw [heq]
    exact hshaped
  · rw [heq]
    exact hframes

theorem replaceAtIndex_cap (audio : AudioMultiVector Sample) (length position : Nat) :
    s.replaceAtIndex audio length position =
      s.replaceAtIndex audio (min length (size - min position size)) (min position size) := by
  unfold replaceAtIndex
  dsimp only
  rw [hs.shaped.size_eq hn, min_eq_left (min_le_right position size),
    min_eq_left (min_le_right length (size - min position size))]

theorem replaceAtIndex_queue (haudio : audio.Shaped n audio.size) (length position : Nat) :
    (s.replaceAtIndex audio length position).queue = s.queue.replace size audio length position := by
  rw [replaceAtIndex_cap hs hn]
  unfold PlayoutQueue.replace
  dsimp only
  have hposition := min_le_right position size
  have hlength := min_le_right length (size - min position size)
  revert hposition hlength
  generalize min position size = position
  generalize min length (size - position) = length
  intro hposition hlength
  obtain ⟨-, hframes⟩ := replaceAtIndex_eq hs hn haudio hposition hlength
  have hcount : (audio.frames.take length).length = min length audio.size := by
    rw [List.length_take, length_frames]
  have htake : audio.frames.take (min length audio.size) = audio.frames.take length := by
    rw [← length_frames, ← List.take_eq_take_min]
  have hfit : position ≤ s.frames.length := by
    rw [length_frames_eq hs.shaped hn]
    exact hposition
  have hsplice := drop_splice (v := audio.frames.take length) (k := s.nextIndex) hfit
  rw [hcount, ← hframes] at hsplice
  rw [queue, queue]
  dsimp only
  rw [htake]
  exact congrArg (PlayoutQueue.mk s.nextIndex) hsplice

theorem pushBack_queue (haudio : audio.Shaped n audio.size) (hfits : audio.size ≤ s.nextIndex) :
    (s.pushBack audio).queue = ⟨s.nextIndex - audio.size, s.queue.frames ++ audio.frames⟩ := by
  obtain ⟨-, hframes⟩ := pushBack_valid hs hn haudio
  have hnext := hs.nextIndex_le
  have hcount := length_frames_eq hs.shaped hn
  have hindex : (s.pushBack audio).nextIndex = s.nextIndex - audio.size := if_pos hfits
  rw [queue, queue, hindex, hframes, List.drop_drop, Nat.add_sub_cancel' hfits,
    List.drop_append_of_le_length (by omega)]

theorem getNextAudioInterleaved_queue (requestedLen : Nat) :
    (s.getNextAudioInterleaved requestedLen).2.queue =
        ⟨s.nextIndex + min s.queue.frames.length requestedLen, s.queue.frames.drop requestedLen⟩ ∧
      (s.getNextAudioInterleaved requestedLen).1.2 =
        (s.queue.frames.take requestedLen).flatten := by
  have hnext := hs.nextIndex_le
  have hcount := length_frames_eq hs.shaped hn
  have hlength : s.queue.frames.length = size - s.nextIndex := by
    rw [queue, List.length_drop, hcount]
  have hfuture : s.futureLength = size - s.nextIndex := by
    rw [futureLength, hs.shaped.size_eq hn]
  constructor
  · rw [hlength]
    unfold getNextAudioInterleaved queue
    dsimp only
    rw [hfuture, List.drop_drop]
    refine congrArg (PlayoutQueue.mk _) ?_
    rcases le_total (size - s.nextIndex) requestedLen with hle | hle
    · rw [min_eq_left hle, List.drop_eq_nil_of_le (by omega), List.drop_eq_nil_of_le (by omega)]
    · rw [min_eq_right hle]
  · unfold getNextAudioInterleaved
    dsimp only
    rw [hfuture, readInterleavedFromIndex_eq hs.shaped hn (by omega), ← hlength, min_comm]
    exact congrArg List.flatten List.take_eq_take_min.symm

end Steps

section Runs

variable {n size : Nat} {s : SyncBuffer}

theorem step_valid (hn : 0 < n) (hs : s.Valid n size) {call : Call} (hcall : call.Matches n) :
    (s.step call).Valid n size := by
  cases call with
  | pushBack audio => exact (pushBack_valid hs hn hcall).1
  | pushFrontZeros length => exact insertZerosAtIndex_valid hs hn length 0
  | insertZerosAtIndex length position => exact insertZerosAtIndex_valid hs hn length position
  | replaceAtIndex audio length position =>
    show (s.replaceAtIndex audio length position).Valid n size
    rw [replaceAtIndex_cap hs hn]
    exact (replaceAtIndex_eq hs hn hcall (min_le_right _ _) (min_le_right _ _)).1
  | getNextAudioInterleaved requestedLen =>
    refine ⟨hs.shaped, ?_, hs.dtmfIndex_le⟩
    have hnext := hs.nextIndex_le
    show s.nextIndex + min s.futureLength requestedLen ≤ size
    rw [futureLength, hs.shaped.size_eq hn]
    omega
  | flush => exact (flush_valid hs hn).1
  | increaseEndTimestamp increment => exact ⟨hs.shaped, hs.nextIndex_le, hs.dtmfIndex_le⟩
  | setDtmfIndex value =>
    refine ⟨hs.shaped, hs.nextIndex_le, ?_⟩
    show min value s.size ≤ size
    rw [hs.shaped.size_eq hn]
    exact min_le_right _ _

/-- A call to the buffer is one to the queue. -/
theorem step_simulates (hn : 0 < n) (hs : s.Valid n size) {call : Call} (hcall : call.Matches n)
    (hfits : s.Fits call) :
    (s.step call).queue = s.queue.step n size call ∧ s.output call = s.queue.output call := by
  cases call with
  | pushBack audio => exact ⟨pushBack_queue hs hn hcall hfits, rfl⟩
  | pushFrontZeros length => exact ⟨insertZerosAtIndex_queue hs hn length 0, rfl⟩
  | insertZerosAtIndex length position =>
    exact ⟨insertZerosAtIndex_queue hs hn length position, rfl⟩
  | replaceAtIndex audio length position =>
    exact ⟨replaceAtIndex_queue hs hn hcall length position, rfl⟩
  | getNextAudioInterleaved requestedLen => exact getNextAudioInterleaved_queue hs hn requestedLen
  | flush =>
    obtain ⟨hvalid, hframes, hnext⟩ := flush_valid hs hn
    refine ⟨?_, rfl⟩
    show s.flush.queue = ⟨size, []⟩
    rw [queue, hnext, hframes, List.drop_eq_nil_of_le (by rw [List.length_replicate])]
  | increaseEndTimestamp increment => exact ⟨rfl, rfl⟩
  | setDtmfIndex value => exact ⟨rfl, rfl⟩

theorem along_matches {calls : List Call} (h : ∀ call ∈ calls, call.Matches n) (s : SyncBuffer) :
    Machine.Along step (fun _ call => call.Matches n) s calls := by
  induction calls generalizing s with
  | nil => trivial
  | cons call calls ih =>
    exact ⟨h call List.mem_cons_self, ih (fun c hc => h c (List.mem_cons_of_mem _ hc)) _⟩

/-- What is read is what comes out of the queue. -/
theorem outputs_eq (hn : 0 < n) {calls : List Call} (hs : s.Valid n size)
    (hcalls : ∀ call ∈ calls, call.Matches n) (hfits : Machine.Along step Fits s calls) :
    outputs calls s = s.queue.outputs n size calls := by
  induction calls generalizing s with
  | nil => rfl
  | cons call calls ih =>
    have hcall := hcalls call List.mem_cons_self
    obtain ⟨hstep, houtput⟩ := step_simulates hn hs hcall hfits.1
    rw [outputs, PlayoutQueue.outputs, houtput, ← hstep]
    refine congrArg (_ ++ ·) (ih (step_valid hn hs hcall) ?_ hfits.2)
    exact fun c hc => hcalls c (List.mem_cons_of_mem _ hc)

theorem pushed_cons (call : Call) (calls : List Call) :
    pushed (call :: calls) = pushed [call] ++ pushed calls := by
  cases call with
  | pushBack audio =>
    show _ = (audio.frames.flatten ++ []) ++ _
    rw [List.append_nil]
    rfl
  | _ => rfl

theorem step_conserves (hn : 0 < n) (hs : s.Valid n size) {call : Call} (hcall : call.Matches n)
    (hfits : s.Fits call) (hleaves : s.LeavesQueue call) :
    s.output call ++ (s.step call).queue.frames.flatten =
      s.queue.frames.flatten ++ pushed [call] := by
  cases call with
  | pushBack audio =>
    show (s.pushBack audio).queue.frames.flatten = _ ++ (audio.frames.flatten ++ [])
    rw [pushBack_queue hs hn hcall hfits, List.append_nil]
    exact List.flatten_append
  | getNextAudioInterleaved requestedLen =>
    obtain ⟨hqueue, houtput⟩ := getNextAudioInterleaved_queue hs hn requestedLen
    show (s.getNextAudioInterleaved requestedLen).1.2 ++
      (s.getNextAudioInterleaved requestedLen).2.queue.frames.flatten = _ ++ []
    rw [hqueue, houtput, ← List.flatten_append, List.take_append_drop, List.append_nil]
  | _ =>
    show [] ++ _ = _ ++ []
    rw [List.nil_append, List.append_nil]
    exact congrArg List.flatten hleaves

/-- What is pushed is what is read, and what is left. -/
theorem outputs_conserve (hn : 0 < n) {calls : List Call} (hs : s.Valid n size)
    (hcalls : ∀ call ∈ calls, call.Matches n)
    (halong : Machine.Along step (fun s call => s.Fits call ∧ s.LeavesQueue call) s calls) :
    outputs calls s ++ (Machine.run step s calls).queue.frames.flatten =
      s.queue.frames.flatten ++ pushed calls := by
  induction calls generalizing s with
  | nil => exact (List.append_nil _).symm
  | cons call calls ih =>
    have hcall := hcalls call List.mem_cons_self
    have hstep := step_conserves hn hs hcall halong.1.1 halong.1.2
    have hrest := ih (step_valid hn hs hcall) (fun c hc => hcalls c (List.mem_cons_of_mem _ hc))
      halong.2
    calc outputs (call :: calls) s ++ (Machine.run step s (call :: calls)).queue.frames.flatten
        = s.output call ++
            (outputs calls (s.step call) ++ (Machine.run step (s.step call) calls).queue.frames.flatten) :=
          List.append_assoc _ _ _
      _ = (s.output call ++ (s.step call).queue.frames.flatten) ++ pushed calls := by
          rw [hrest, List.append_assoc]
      _ = s.queue.frames.flatten ++ pushed (call :: calls) := by
          rw [hstep, List.append_assoc, ← pushed_cons]

end Runs

/-- A run of calls on a new buffer: the lengths and the indices; the zeros that are left by
`Flush`; what is read, which is what comes out of the queue if nothing is pushed out before it is
played; and if nothing else is done to the queue, that is what was pushed. -/
theorem syncBuffer_exact {channels length : Nat} (hchannels : 0 < channels) {calls : List Call}
    (hcalls : ∀ call ∈ calls, call.Matches channels) :
    Machine.Always step (Valid channels length) (new channels length) calls ∧
      Machine.Along step (fun s call => call = .flush →
          (s.step call).frames = List.replicate length (List.replicate channels 0))
        (new channels length) calls ∧
      (Machine.Along step Fits (new channels length) calls →
        outputs calls (new channels length) =
          PlayoutQueue.outputs channels length calls ⟨length, []⟩) ∧
      (Machine.Along step (fun s call => s.Fits call ∧ s.LeavesQueue call) (new channels length) calls →
        outputs calls (new channels length) ++
            (Machine.run step (new channels length) calls).queue.frames.flatten = pushed calls) := by
  have hnew := valid_new channels length
  have hmatches := along_matches hcalls (new channels length)
  have hqueue : (new channels length).queue = ⟨length, []⟩ := by
    have hcount := length_frames_eq hnew.shaped hchannels
    rw [queue, List.drop_eq_nil_of_le (by rw [hcount]; exact le_refl _)]
    rfl
  refine ⟨?_, ?_, fun hfits => ?_, fun halong => ?_⟩
  · exact Machine.always_of_along (fun s call hs hcall => step_valid hchannels hs hcall) hnew hmatches
  · refine Machine.along_of_along (fun s call hs hcall => ?_) hnew hmatches
    refine ⟨step_valid hchannels hs hcall, ?_⟩
    rintro rfl
    exact (flush_valid hs hchannels).2.1
  · rw [outputs_eq hchannels hnew hcalls hfits, hqueue]
  · rw [outputs_conserve hchannels hnew hcalls halong, hqueue]
    rfl

def stereo (left right : List Sample) : AudioMultiVector Sample := ⟨[left, right]⟩

def stereoCalls : List Call :=
  [.pushBack (stereo [1, 2, 3] [5, 6, 7]), .setDtmfIndex 2, .getNextAudioInterleaved 1,
    .insertZerosAtIndex 1 3, .replaceAtIndex (stereo [9] [9]) 1 2, .getNextAudioInterleaved 5,
    .pushBack (stereo [4] [8]), .getNextAudioInterleaved 1, .flush]

/-- Zeros and other samples take the place of some that are not played yet. -/
theorem syncBuffer_exact_stereo :
    Machine.Always step (Valid 2 4) (new 2 4) stereoCalls ∧
      outputs stereoCalls (new 2 4) = [1, 5, 9, 9, 0, 0, 4, 8] := by
  have hcalls : ∀ call ∈ stereoCalls, call.Matches 2 := by decide
  have hfits : Machine.Along step Fits (new 2 4) stereoCalls := by decide +kernel
  refine ⟨(syncBuffer_exact (by decide) hcalls).1, ?_⟩
  rw [(syncBuffer_exact (by decide) hcalls).2.2.1 hfits]
  decide +kernel

/-- A sample that is not played yet is overwritten: what is pushed is not what is read. -/
theorem syncBuffer_not_exact :
    ¬ ∀ calls : List Call, (∀ call ∈ calls, call.Matches 1) →
      Machine.Along step Fits (new 1 4) calls → outputs calls (new 1 4) <+: pushed calls := by
  intro h
  have hprefix := h [.pushBack ⟨[[1, 2]]⟩, .replaceAtIndex ⟨[[9]]⟩ 1 2, .getNextAudioInterleaved 2]
    (by decide) (by decide +kernel)
  exact absurd hprefix (by decide +kernel)

end SyncBuffer

end PerchWebrtc.NetEq
