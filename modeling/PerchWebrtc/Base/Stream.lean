import PerchWebrtc.Base.ByteBuffer
import PerchWebrtc.Framework.Loops

/-!
# Streams

The streams that are read and written in parts, and `Flow` (`stream.cc`), which moves the bytes of
one stream to another one through a buffer. A stream may do anything with the region that it reads
into, also where it fails, and has a state of its own.

* `fillRound_conserves`, `drainRound_conserves`, `kept_of_draining`: the two loops inside, and what
  is left of the bytes that are not written;
* `flow_conserves`: `Flow` where it returns.
-/

namespace PerchWebrtc.Base

open Framework (loop loop_post)

inductive StreamResult where
  | error
  | success
  | block
  | eos
  deriving DecidableEq

inductive StreamState where
  | closed
  | opening
  | opened
  deriving DecidableEq

inductive StreamEvent where
  | read
  | write
  deriving DecidableEq

/-- What a stream that reads into a region of `len` bytes leaves there; the first `count` are data. -/
structure ReadAnswer (len : ℕ) where
  result : StreamResult
  region : List Byte
  count : ℕ
  length_region : region.length = len
  count_le : count ≤ len

structure WriteAnswer (len : ℕ) where
  result : StreamResult
  count : ℕ
  count_le : count ≤ len

structure Source (σ : Type*) where
  read : σ → (region : List Byte) → σ × ReadAnswer region.length

structure Sink (τ : Type*) where
  write : τ → (data : List Byte) → τ × WriteAnswer data.length

variable {σ τ : Type*}

/-- The variables of `Flow`, the streams, the bytes that were read and those that were accepted. -/
structure FlowState (σ τ : Type*) where
  source : σ
  sink : τ
  buffer : List Byte
  readPos : ℕ
  writePos : ℕ := 0
  endOfStream : Bool := false
  received : List Byte := []
  accepted : List Byte := []

structure Flowed (σ τ : Type*) where
  result : StreamResult
  dataLen : Option ℕ
  state : FlowState σ τ

section

variable (source : Source σ) (sink : Sink τ)

/-- Read until the buffer is full, end of stream, or error. -/
def fillRound (dataLen : Option ℕ) (s : FlowState σ τ) :
    Option ((Flowed σ τ ⊕ FlowState σ τ) ⊕ FlowState σ τ) :=
  if !s.endOfStream && s.readPos < s.buffer.length then
    let answer := source.read s.source (s.buffer.drop s.readPos)
    let buffer := s.buffer.take s.readPos ++ answer.2.region
    if answer.2.result = .eos then
      some (.inr { s with source := answer.1, buffer, endOfStream := true })
    else if answer.2.result ≠ .success then
      some (.inl (.inl ⟨answer.2.result, dataLen.map fun _ => s.readPos,
        { s with source := answer.1, buffer }⟩))
    else
      some (.inr { s with
        source := answer.1
        buffer
        readPos := s.readPos + answer.2.count
        received := s.received ++ answer.2.region.take answer.2.count })
  else some (.inl (.inr s))

/-- Write until the buffer is empty, or error (including end of stream). -/
def drainRound (dataLen : Option ℕ) (s : FlowState σ τ) :
    Option ((Flowed σ τ ⊕ FlowState σ τ) ⊕ FlowState σ τ) :=
  if s.writePos < s.readPos then
    let data := (s.buffer.drop s.writePos).take (s.readPos - s.writePos)
    let answer := sink.write s.sink data
    if answer.2.result ≠ .success then
      let buffer := if dataLen.isSome && 0 < s.writePos then memcpy s.buffer 0 data else s.buffer
      some (.inl (.inl ⟨answer.2.result, dataLen.map fun _ => s.readPos - s.writePos,
        { s with sink := answer.1, buffer }⟩))
    else
      some (.inr { s with
        sink := answer.1
        writePos := s.writePos + answer.2.count
        accepted := s.accepted ++ data.take answer.2.count })
  else some (.inl (.inr s))

/-- One round of the outer loop. -/
def flowRound (fuel : ℕ) (dataLen : Option ℕ) (s : FlowState σ τ) :
    Option (Flowed σ τ ⊕ FlowState σ τ) :=
  (loop (fillRound source dataLen) fuel s).bind fun
    | .inl flowed => some (.inl flowed)
    | .inr s =>
      (loop (drainRound sink dataLen) fuel { s with writePos := 0 }).bind fun
        | .inl flowed => some (.inl flowed)
        | .inr s =>
          if s.endOfStream then
            some (.inl ⟨.success, dataLen.map fun _ => 0, { s with readPos := 0 }⟩)
          else some (.inr { s with readPos := 0 })

/-- With fuel for the rounds of each loop; `none` where that is used up. -/
def flow (fuel : ℕ) (s : σ) (t : τ) (buffer : List Byte) (dataLen : Option ℕ) :
    Option (Flowed σ τ) :=
  loop (flowRound source sink fuel dataLen) fuel
    { source := s, sink := t, buffer, readPos := dataLen.getD 0 }

end

/-! ## Where the bytes are -/

section

variable {initial : List Byte} {size n : ℕ} {source : Source σ} {sink : Sink τ}
  {s : FlowState σ τ}

/-- The bytes in front of the read position are those that were not accepted. -/
structure Filled (initial : List Byte) (size : ℕ) (s : FlowState σ τ) : Prop where
  length : s.buffer.length = size
  readPos_le : s.readPos ≤ size
  bytes : s.accepted ++ s.buffer.take s.readPos = initial ++ s.received

/-- Those between the write position and the read position are. -/
structure Draining (initial : List Byte) (size : ℕ) (s : FlowState σ τ) : Prop where
  length : s.buffer.length = size
  readPos_le : s.readPos ≤ size
  writePos_le : s.writePos ≤ s.readPos
  bytes : s.accepted ++ (s.buffer.drop s.writePos).take (s.readPos - s.writePos) =
    initial ++ s.received

/-- The first bytes of the buffer are, as many as is said. -/
structure Kept (initial : List Byte) (size : ℕ) (r : Flowed σ τ) : Prop where
  length : r.state.buffer.length = size
  bytes : ∃ n ≤ size, r.dataLen = some n ∧
    r.state.accepted ++ r.state.buffer.take n = initial ++ r.state.received

/-- What the source has done to the buffer. -/
theorem take_read (hs : Filled initial size s) (answer : ReadAnswer (s.buffer.drop s.readPos).length)
    (count : ℕ) :
    (s.buffer.take s.readPos ++ answer.region).length = size ∧
      (s.buffer.take s.readPos ++ answer.region).take (s.readPos + count) =
        s.buffer.take s.readPos ++ answer.region.take count := by
  have hle : s.readPos ≤ s.buffer.length := hs.readPos_le.trans_eq hs.length.symm
  have hfront : (s.buffer.take s.readPos).length = s.readPos := by
    rw [List.length_take, min_eq_left hle]
  constructor
  · rw [List.length_append, hfront, answer.length_region, List.length_drop, ← hs.length]
    omega
  · rw [List.take_append, hfront, Nat.add_sub_cancel_left, List.take_of_length_le]
    rw [hfront]
    exact Nat.le_add_right _ _

theorem fillRound_conserves {x : (Flowed σ τ ⊕ FlowState σ τ) ⊕ FlowState σ τ}
    (hs : Filled initial size s) (hround : fillRound source (some n) s = some x) :
    Sum.elim (Sum.elim (Kept initial size) (Filled initial size)) (Filled initial size) x := by
  rw [fillRound] at hround
  by_cases hmore : (!s.endOfStream && s.readPos < s.buffer.length) = true
  · rw [if_pos hmore] at hround
    dsimp only at hround
    generalize (source.read s.source (s.buffer.drop s.readPos)) = answer at hround
    obtain ⟨hlength, -⟩ := take_read hs answer.2 0
    have hstill : (s.buffer.take s.readPos ++ answer.2.region).take s.readPos =
        s.buffer.take s.readPos := by
      have htake := (take_read hs answer.2 0).2
      rwa [Nat.add_zero, List.take_zero, List.append_nil] at htake
    have hkept : s.accepted ++ (s.buffer.take s.readPos ++ answer.2.region).take s.readPos =
        initial ++ s.received := by rw [hstill, hs.bytes]
    split at hround
    · cases hround
      exact ⟨hlength, hs.readPos_le, hkept⟩
    · split at hround
      · cases hround
        exact ⟨hlength, s.readPos, hs.readPos_le, rfl, hkept⟩
      · cases hround
        have hle := hs.readPos_le
        have hcount : answer.2.count ≤ size - s.readPos :=
          answer.2.count_le.trans_eq (by rw [List.length_drop, hs.length])
        refine ⟨hlength, ?_, ?_⟩
        · show s.readPos + answer.2.count ≤ size
          omega
        · show s.accepted ++ List.take (s.readPos + answer.2.count) _ = _
          rw [(take_read hs answer.2 answer.2.count).2, ← List.append_assoc, hs.bytes,
            List.append_assoc]
  · rw [if_neg hmore] at hround
    cases hround
    exact hs

/-- The bytes that were not written are moved to the front. -/
theorem kept_of_draining (hs : Draining initial size s) (sink : τ) (result : StreamResult) :
    Kept initial size ⟨result, some (s.readPos - s.writePos),
      { s with
        sink
        buffer :=
          if 0 < s.writePos then
            memcpy s.buffer 0 ((s.buffer.drop s.writePos).take (s.readPos - s.writePos))
          else s.buffer }⟩ := by
  have hread := hs.readPos_le
  have hlength := hs.length
  have hdata : ((s.buffer.drop s.writePos).take (s.readPos - s.writePos)).length =
      s.readPos - s.writePos := by
    rw [List.length_take, List.length_drop]
    omega
  have hle : s.readPos - s.writePos ≤ size := (Nat.sub_le _ _).trans hread
  by_cases hmoved : 0 < s.writePos
  · have htake := take_memcpy ((s.buffer.drop s.writePos).take (s.readPos - s.writePos))
      (Nat.zero_le s.buffer.length)
    rw [Nat.zero_add, List.take_zero, List.nil_append, hdata] at htake
    rw [if_pos hmoved]
    refine ⟨?_, s.readPos - s.writePos, hle, rfl, ?_⟩
    · show (memcpy s.buffer 0 _).length = size
      rw [length_memcpy, hlength]
      rw [hdata]
      omega
    · show s.accepted ++ (memcpy s.buffer 0 _).take (s.readPos - s.writePos) = _
      rw [htake, hs.bytes]
  · have hzero : s.writePos = 0 := by omega
    have hbytes := hs.bytes
    rw [hzero, List.drop_zero] at hbytes
    rw [if_neg hmoved]
    refine ⟨hlength, s.readPos - s.writePos, hle, rfl, ?_⟩
    show s.accepted ++ s.buffer.take (s.readPos - s.writePos) = _
    rw [hzero, hbytes]

theorem drainRound_conserves {x : (Flowed σ τ ⊕ FlowState σ τ) ⊕ FlowState σ τ}
    (hs : Draining initial size s) (hround : drainRound sink (some n) s = some x) :
    Sum.elim (Sum.elim (Kept initial size)
      fun s => Draining initial size s ∧ s.writePos = s.readPos) (Draining initial size) x := by
  have hread := hs.readPos_le
  have hwrite := hs.writePos_le
  have hlength := hs.length
  rw [drainRound] at hround
  by_cases hmore : s.writePos < s.readPos
  · rw [if_pos hmore] at hround
    dsimp only at hround
    have hdata : ((s.buffer.drop s.writePos).take (s.readPos - s.writePos)).length =
        s.readPos - s.writePos := by
      rw [List.length_take, List.length_drop]
      omega
    generalize (sink.write s.sink _) = answer at hround
    have hcount : answer.2.count ≤ s.readPos - s.writePos := answer.2.count_le.trans_eq hdata
    split at hround
    · cases hround
      have hkept := kept_of_draining hs answer.1 answer.2.result
      simpa using hkept
    · cases hround
      refine ⟨hlength, hread, ?_, ?_⟩
      · show s.writePos + answer.2.count ≤ s.readPos
        omega
      · have htail : (s.buffer.drop (s.writePos + answer.2.count)).take
            (s.readPos - (s.writePos + answer.2.count)) =
              ((s.buffer.drop s.writePos).take (s.readPos - s.writePos)).drop answer.2.count := by
          rw [List.drop_take, List.drop_drop, Nat.sub_sub]
        show (s.accepted ++ _) ++ (s.buffer.drop (s.writePos + answer.2.count)).take _ = _
        rw [htail, List.append_assoc, List.take_append_drop, hs.bytes]
  · rw [if_neg hmore] at hround
    cases hround
    exact ⟨hs, Nat.le_antisymm hwrite (Nat.not_lt.mp hmore)⟩

/-- One round of the outer loop. -/
theorem flowRound_conserves {fuel : ℕ} {x : Flowed σ τ ⊕ FlowState σ τ}
    (hs : Filled initial size s) (hround : flowRound source sink fuel (some n) s = some x) :
    Sum.elim (Kept initial size) (Filled initial size) x := by
  rw [flowRound] at hround
  obtain ⟨filled, hfill, hround⟩ := Option.bind_eq_some_iff.mp hround
  have hfilled := loop_post (fun _ _ => fillRound_conserves) hs hfill
  cases filled with
  | inl flowed =>
    cases hround
    exact hfilled
  | inr s₁ =>
    have hfilled : Filled initial size s₁ := hfilled
    obtain ⟨drained, hdrain, hround⟩ := Option.bind_eq_some_iff.mp hround
    have hstart : Draining initial size { s₁ with writePos := 0 } :=
      ⟨hfilled.length, hfilled.readPos_le, Nat.zero_le _, hfilled.bytes⟩
    have hdrained := loop_post (fun _ _ => drainRound_conserves) hstart hdrain
    cases drained with
    | inl flowed =>
      cases hround
      exact hdrained
    | inr s₂ =>
      obtain ⟨hdraining, hempty⟩ : Draining initial size s₂ ∧ s₂.writePos = s₂.readPos := hdrained
      have hbytes := hdraining.bytes
      rw [hempty, Nat.sub_self, List.take_zero] at hbytes
      dsimp only at hround
      split at hround
      · cases hround
        exact ⟨hdraining.length, 0, Nat.zero_le _, rfl, hbytes⟩
      · cases hround
        exact ⟨hdraining.length, Nat.zero_le _, hbytes⟩

/-- The bytes that the sink accepted and those that are left in the buffer are those that were in
the buffer and those that were read, in their order. -/
theorem flow_conserves (source : Source σ) (sink : Sink τ) (fuel : ℕ) (s : σ) (t : τ)
    (buffer : List Byte) (dataLen : ℕ) (flowed : Flowed σ τ) (hfits : dataLen ≤ buffer.length)
    (hreturns : flow source sink fuel s t buffer (some dataLen) = some flowed) :
    flowed.state.buffer.length = buffer.length ∧ ∃ left ≤ buffer.length,
      flowed.dataLen = some left ∧
      flowed.state.accepted ++ flowed.state.buffer.take left =
        buffer.take dataLen ++ flowed.state.received := by
  have hstart : Filled (buffer.take dataLen) buffer.length
      ({ source := s, sink := t, buffer, readPos := dataLen } : FlowState σ τ) :=
    ⟨rfl, hfits, (List.append_nil _).symm⟩
  have hkept := loop_post (fun _ _ => flowRound_conserves) hstart hreturns
  exact ⟨hkept.length, hkept.bytes⟩

end

/-- A source that gives its bytes in pieces of two. -/
def pieces : Source (List Byte) where
  read bytes region :=
    let piece := (bytes.take 2).take region.length
    (bytes.drop piece.length,
      { result := if bytes = [] then .eos else .success
        region := piece ++ region.drop piece.length
        count := piece.length
        length_region := by
          rw [List.length_append, List.length_drop, Nat.add_sub_cancel' (List.length_take_le _ _)]
        count_le := List.length_take_le _ _ })

/-- A sink that takes one byte at a time, and blocks when it has taken `room`. -/
def cramped : Sink ℕ where
  write room data :=
    (room - 1,
      { result := if room = 0 then .block else .success
        count := min data.length 1
        count_le := min_le_left _ _ })

/-- The sink blocks while bytes are left in the buffer. -/
theorem flow_conserves_cramped :
    ∃ flowed, flow pieces cramped 10 [2, 3, 4, 5] 3 [1, 0, 0, 0] (some 1) = some flowed ∧
      flowed.state.buffer.length = 4 ∧ ∃ left ≤ 4, flowed.dataLen = some left ∧
        flowed.state.accepted ++ flowed.state.buffer.take left = [1] ++ flowed.state.received :=
  ⟨_, rfl, flow_conserves pieces cramped 10 [2, 3, 4, 5] 3 [1, 0, 0, 0] 1 _ (by decide) rfl⟩

end PerchWebrtc.Base
