import Mathlib
import PerchWebrtc.Video.Packet

/-!
# The session of a frame

`VCMSessionInfo` (`session_info.cc`): the packets of one frame, in the order
of their sequence numbers, and their bytes in the frame buffer.

* `layout`: the stored packets, from the packets that were given;
* `insertPacket_layout`: the cases of `InsertPacket` for a media packet;
* `InOrder`: the order of the packets; `InOrder.insert`.
-/

namespace PerchWebrtc.Video

open Circular

/-- What the jitter buffer tells a session. The two comparisons of the number
of packets with fractions of the average (`rolling_average_packets_per_frame`,
a float) are one predicate. -/
structure FrameData where
  rttMs : Int
  betweenThresholds : Nat → Bool

def kRttThreshold : Int := 100

structure VCMSessionInfo where
  complete : Bool := false
  decodable : Bool := false
  frameType : FrameType := .kVideoFrameDelta
  packets : List (VCMPacket Nat) := []
  /-- `none` is -1. -/
  emptySeqNumLow : Option (BitVec 16) := none
  emptySeqNumHigh : Option (BitVec 16) := none
  packetsNotDecodable : Nat := 0

namespace VCMSessionInfo

/-! ## The model -/

def sessionLength (s : VCMSessionInfo) : Nat := (s.packets.map VCMPacket.sizeBytes).sum

def numPackets (s : VCMSessionInfo) : Nat := s.packets.length

def haveFirstPacket (s : VCMSessionInfo) : Bool := s.packets.head?.any VCMPacket.isFirstPacket

def haveLastPacket (s : VCMSessionInfo) : Bool := s.packets.getLast?.any VCMPacket.markerBit

/-- The packets behind an inserted one are moved, in memory and with their
pointers. -/
def shiftSubsequentPackets (frameBuffer : Mem) (behind : List (VCMPacket Nat)) (stepsToShift : Nat) :
    Mem × List (VCMPacket Nat) :=
  let moved := behind.map fun q => { q with dataPtr := q.dataPtr.map (· + stepsToShift) }
  match behind.head?.bind VCMPacket.dataPtr with
  | none => (frameBuffer, moved)
  | some first =>
    (frameBuffer.copy (first + stepsToShift) frameBuffer first
      (behind.map VCMPacket.sizeBytes).sum, moved)

def startCode : List Byte := [0, 0, 0, 1]

/-- The two copies of `InsertBuffer`: the start code, and the payload behind
it. The size of the second is the one that is stored, start code included. -/
def copyPacket (frameBuffer : Mem) (packet : VCMPacket Mem) (offset : Nat) : Mem :=
  let withStartCode :=
    if packet.insertStartCode then
      frameBuffer.copy offset (Mem.ofList startCode) 0 kH264StartCodeLengthBytes
    else frameBuffer
  match packet.dataPtr with
  | none => withStartCode  -- A packet without data has no bytes to copy.
  | some data =>
    withStartCode.copy (offset + if packet.insertStartCode then kH264StartCodeLengthBytes else 0)
      data 0 packet.storedSize

/-- `InsertBuffer`, for the packet between `before` and `behind`. -/
def insertBuffer (frameBuffer : Mem) (before : List (VCMPacket Nat)) (packet : VCMPacket Mem)
    (behind : List (VCMPacket Nat)) : Mem × List (VCMPacket Nat) :=
  let offset := (before.map VCMPacket.sizeBytes).sum
  let shifted := shiftSubsequentPackets frameBuffer behind packet.storedSize
  (copyPacket shifted.1 packet offset, before ++ packet.placed offset :: shifted.2)

/-- `InSequence`, for two neighbours in the list. -/
def InSequence (prev packet : VCMPacket Nat) : Prop := prev.seqNum + 1 = packet.seqNum

instance (prev packet : VCMPacket Nat) : Decidable (InSequence prev packet) :=
  inferInstanceAs (Decidable (_ = _))

def updateCompleteSession (s : VCMSessionInfo) : VCMSessionInfo :=
  if s.haveFirstPacket && s.haveLastPacket then
    { s with complete := decide (s.packets.IsChain InSequence) }
  else s

def updateDecodableSession (frameData : FrameData) (s : VCMSessionInfo) : VCMSessionInfo :=
  if s.complete || s.decodable then s
  else if frameData.rttMs < kRttThreshold ∨ s.frameType = .kVideoFrameKey ∨ !s.haveFirstPacket ∨
      frameData.betweenThresholds s.numPackets then s
  else { s with decodable := true }

def updateDecodable (mode : VCMDecodeErrorMode) (frameData : FrameData) (s : VCMSessionInfo) :
    VCMSessionInfo :=
  match mode with
  | .kWithErrors => { s with decodable := true }
  | .kSelectiveErrors => s.updateDecodableSession frameData
  | .kNoErrors => s

def informOfEmptyPacket (seqNum : BitVec 16) (s : VCMSessionInfo) : VCMSessionInfo :=
  { s with
    emptySeqNumHigh :=
      some (match s.emptySeqNumHigh with
        | none => seqNum
        | some high => latestSequenceNumber seqNum high)
    emptySeqNumLow :=
      match s.emptySeqNumLow with
      | none => some seqNum
      | some low => some (if Precedes seqNum low then seqNum else low) }

def updateFrameType (packet : VCMPacket Mem) (s : VCMSessionInfo) : VCMSessionInfo :=
  if packet.isFirstPacket then { s with frameType := packet.frameType }
  else if s.frameType = .kFrameEmpty ∧ packet.frameType ≠ .kFrameEmpty then
    { s with frameType := packet.frameType }
  else s

/-- The loop in reverse order passes over `q`. -/
def follows (seqNum : BitVec 16) (q : VCMPacket Nat) : Bool :=
  latestSequenceNumber seqNum q.seqNum ≠ seqNum

def packetsBefore (seqNum : BitVec 16) (s : VCMSessionInfo) : List (VCMPacket Nat) :=
  s.packets.rdropWhile (follows seqNum)

def packetsBehind (seqNum : BitVec 16) (s : VCMSessionInfo) : List (VCMPacket Nat) :=
  s.packets.rtakeWhile (follows seqNum)

/-- The packet at which the loop stops has the number, and has bytes. -/
def isDuplicate (seqNum : BitVec 16) (s : VCMSessionInfo) : Bool :=
  (s.packetsBefore seqNum).getLast?.any fun q => q.seqNum = seqNum && 0 < q.sizeBytes

/-- The bytes that were added, -1 if the session is full, -2 for a
duplicate. -/
def insertPacket (mode : VCMDecodeErrorMode) (frameData : FrameData) (packet : VCMPacket Mem)
    (frameBuffer : Mem) (s : VCMSessionInfo) : Int × Mem × VCMSessionInfo :=
  let s := s.updateFrameType packet
  if packet.frameType = .kFrameEmpty then (0, frameBuffer, s.informOfEmptyPacket packet.seqNum)
  else if s.packets.length = kMaxPacketsInSession then (-1, frameBuffer, s)
  else if s.isDuplicate packet.seqNum then (-2, frameBuffer, s)
  else
    let inserted := insertBuffer frameBuffer (s.packetsBefore packet.seqNum) packet
      (s.packetsBehind packet.seqNum)
    let s := { s with packets := inserted.2 }.updateCompleteSession
    (packet.storedSize, inserted.1, s.updateDecodable mode frameData)

/-! ## What the updates leave unchanged -/

section Unchanged

variable (s : VCMSessionInfo) (packet : VCMPacket Mem) (mode : VCMDecodeErrorMode)
  (frameData : FrameData) (seqNum : BitVec 16)

@[simp] theorem updateFrameType_packets : (s.updateFrameType packet).packets = s.packets := by
  unfold updateFrameType
  split_ifs <;> rfl

@[simp] theorem updateFrameType_complete : (s.updateFrameType packet).complete = s.complete := by
  unfold updateFrameType
  split_ifs <;> rfl

@[simp] theorem updateCompleteSession_packets : s.updateCompleteSession.packets = s.packets := by
  unfold updateCompleteSession
  split_ifs <;> rfl

theorem updateCompleteSession_complete : s.updateCompleteSession.complete =
    if s.haveFirstPacket && s.haveLastPacket then decide (s.packets.IsChain InSequence)
    else s.complete := by
  unfold updateCompleteSession
  split <;> rfl

@[simp] theorem updateDecodable_packets :
    (s.updateDecodable mode frameData).packets = s.packets := by
  unfold updateDecodable updateDecodableSession
  split
  · rfl
  · split_ifs <;> rfl
  · rfl

@[simp] theorem updateDecodable_complete :
    (s.updateDecodable mode frameData).complete = s.complete := by
  unfold updateDecodable updateDecodableSession
  split
  · rfl
  · split_ifs <;> rfl
  · rfl

@[simp] theorem updateFrameType_packetsBefore :
    (s.updateFrameType packet).packetsBefore seqNum = s.packetsBefore seqNum := by
  simp only [packetsBefore, updateFrameType_packets]

@[simp] theorem updateFrameType_packetsBehind :
    (s.updateFrameType packet).packetsBehind seqNum = s.packetsBehind seqNum := by
  simp only [packetsBehind, updateFrameType_packets]

@[simp] theorem updateFrameType_isDuplicate :
    (s.updateFrameType packet).isDuplicate seqNum = s.isDuplicate seqNum := by
  simp only [isDuplicate, updateFrameType_packetsBefore]

end Unchanged

/-! ## The layout of the packets -/

/-- The packets as they are stored from an offset on, one behind the other. -/
def layout : Nat → List (VCMPacket Mem) → List (VCMPacket Nat)
  | _, [] => []
  | offset, p :: ps => p.placed offset :: layout (offset + p.storedSize) ps

/-- The bytes that packets take. -/
def totalSize (ps : List (VCMPacket Mem)) : Nat := (ps.map VCMPacket.storedSize).sum

@[simp] theorem totalSize_cons (p : VCMPacket Mem) (ps : List (VCMPacket Mem)) :
    totalSize (p :: ps) = p.storedSize + totalSize ps := rfl

@[simp] theorem totalSize_append (ps qs : List (VCMPacket Mem)) :
    totalSize (ps ++ qs) = totalSize ps + totalSize qs := by
  simp [totalSize]

theorem layout_append : ∀ (offset : Nat) (ps qs : List (VCMPacket Mem)),
    layout offset (ps ++ qs) = layout offset ps ++ layout (offset + totalSize ps) qs
  | _, [], _ => rfl
  | offset, p :: ps, qs => by
    have ih := layout_append (offset + p.storedSize) ps qs
    simp only [List.cons_append, layout, ih, totalSize_cons, Nat.add_assoc]

theorem layout_sizes : ∀ (offset : Nat) (ps : List (VCMPacket Mem)),
    ((layout offset ps).map VCMPacket.sizeBytes).sum = totalSize ps
  | _, [] => rfl
  | offset, p :: ps => by
    have ih := layout_sizes (offset + p.storedSize) ps
    simp only [layout, List.map_cons, List.sum_cons, ih, totalSize_cons, VCMPacket.placed]

theorem layout_length : ∀ (offset : Nat) (ps : List (VCMPacket Mem)),
    (layout offset ps).length = ps.length
  | _, [] => rfl
  | offset, p :: ps => by
    rw [layout, List.length_cons, List.length_cons, layout_length _ ps]

/-- What does not depend on the place of a packet. -/
theorem layout_map {β : Type} {f : VCMPacket Nat → β} {g : VCMPacket Mem → β}
    (h : ∀ p offset, f (p.placed offset) = g p) : ∀ (offset : Nat) (ps : List (VCMPacket Mem)),
    (layout offset ps).map f = ps.map g
  | _, [] => rfl
  | offset, p :: ps => by
    have ih := layout_map h (offset + p.storedSize) ps
    simp only [layout, List.map_cons, ih, h]

theorem layout_seqNums (offset : Nat) (ps : List (VCMPacket Mem)) :
    (layout offset ps).map VCMPacket.seqNum = ps.map VCMPacket.seqNum :=
  layout_map (fun _ _ => rfl) offset ps

theorem layout_moved (n : Nat) : ∀ (offset : Nat) (ps : List (VCMPacket Mem)),
    ((layout offset ps).map fun q => { q with dataPtr := q.dataPtr.map (· + n) }) =
      layout (offset + n) ps
  | _, [] => rfl
  | offset, p :: ps => by
    have ih := layout_moved n (offset + p.storedSize) ps
    rw [Nat.add_right_comm] at ih
    simp only [layout, List.map_cons, ih, VCMPacket.placed, Option.map_some]

theorem shiftSubsequentPackets_layout (m : Mem) (offset n : Nat) (ps : List (VCMPacket Mem)) :
    shiftSubsequentPackets m (layout offset ps) n =
      (m.copy (offset + n) m offset (totalSize ps), layout (offset + n) ps) := by
  unfold shiftSubsequentPackets
  rw [layout_moved, layout_sizes]
  cases ps with
  | nil =>
    have hcopy : m.copy (offset + n) m offset 0 = m := funext fun i => m.copy_outside m (by omega)
    exact congrArg (·, []) hcopy.symm
  | cons p ps => rfl

/-- The frame buffer after a packet was written at an offset, with `behind`
bytes behind it. -/
def write (m : Mem) (p : VCMPacket Mem) (offset behind : Nat) : Mem :=
  copyPacket (m.copy (offset + p.storedSize) m offset behind) p offset

theorem insertBuffer_layout (m : Mem) (p : VCMPacket Mem) (before behind : List (VCMPacket Mem)) :
    insertBuffer m (layout 0 before) p (layout (totalSize before) behind) =
      (write m p (totalSize before) (totalSize behind), layout 0 (before ++ p :: behind)) := by
  simp only [insertBuffer, write, shiftSubsequentPackets_layout, layout_sizes]
  rw [layout_append, Nat.zero_add, layout]

/-- The place at which a packet is inserted: the packets behind it follow it,
and the last before it does not. -/
structure Splits (seqNum : BitVec 16) (before behind : List (VCMPacket Mem)) : Prop where
  behind : ∀ q ∈ behind, latestSequenceNumber seqNum q.seqNum ≠ seqNum
  before : ∀ q ∈ before.getLast?, latestSequenceNumber seqNum q.seqNum = seqNum

theorem layout_split (seqNum : BitVec 16) (ps : List (VCMPacket Mem)) :
    ∃ before behind, ps = before ++ behind ∧ Splits seqNum before behind ∧
      (layout 0 ps).rdropWhile (follows seqNum) = layout 0 before ∧
      (layout 0 ps).rtakeWhile (follows seqNum) = layout (totalSize before) behind := by
  induction ps using List.reverseRecOn with
  | nil =>
    exact ⟨[], [], rfl, ⟨fun _ h => absurd h List.not_mem_nil, fun _ h => absurd h (Option.not_mem_none _)⟩,
      rfl, rfl⟩
  | append_singleton ps p ih =>
    have hlayout : layout 0 (ps ++ [p]) = layout 0 ps ++ [p.placed (totalSize ps)] := by
      rw [layout_append, Nat.zero_add]
      rfl
    by_cases hp : follows seqNum (p.placed (totalSize ps)) = true
    · obtain ⟨before, behind, rfl, hsplits, hdrop, htake⟩ := ih
      refine ⟨before, behind ++ [p], (List.append_assoc _ _ _), ⟨?_, hsplits.before⟩, ?_, ?_⟩
      · intro q hq
        rcases List.mem_append.mp hq with hq | hq
        · exact hsplits.behind q hq
        · rw [List.mem_singleton.mp hq]
          exact of_decide_eq_true hp
      · rw [hlayout, List.rdropWhile_concat_pos _ _ _ hp, hdrop]
      · rw [hlayout, List.rtakeWhile_concat_pos _ _ _ hp, htake, layout_append, totalSize_append]
        rfl
    · refine ⟨ps ++ [p], [], (List.append_nil _).symm,
        ⟨fun _ h => absurd h List.not_mem_nil, ?_⟩, ?_, ?_⟩
      · intro q hq
        rw [List.getLast?_concat, Option.mem_some_iff] at hq
        rw [← hq]
        by_contra hne
        exact hp (decide_eq_true hne)
      · rw [hlayout, List.rdropWhile_concat_neg _ _ _ hp]
      · rw [hlayout, List.rtakeWhile_concat_neg _ _ _ hp]
        rfl

theorem isDuplicate_layout {s : VCMSessionInfo} {seqNum : BitVec 16} {before : List (VCMPacket Mem)}
    (hbefore : s.packetsBefore seqNum = layout 0 before) :
    s.isDuplicate seqNum = before.getLast?.any fun q => q.seqNum = seqNum && 0 < q.storedSize := by
  rw [isDuplicate, hbefore]
  cases before using List.reverseRecOn with
  | nil => rfl
  | append_singleton ps p =>
    rw [layout_append, layout, layout, List.getLast?_concat, List.getLast?_concat]
    rfl

/-- What `InsertPacket` does with a media packet, when the session holds
`ps`. -/
theorem insertPacket_layout {s : VCMSessionInfo} {ps : List (VCMPacket Mem)}
    (hs : s.packets = layout 0 ps) {p : VCMPacket Mem} (hp : p.frameType ≠ .kFrameEmpty)
    (mode : VCMDecodeErrorMode) (frameData : FrameData) (m : Mem) :
    ∃ before behind, ps = before ++ behind ∧ Splits p.seqNum before behind ∧
      s.packetsBefore p.seqNum = layout 0 before ∧
      s.packetsBehind p.seqNum = layout (totalSize before) behind ∧
      ((ps.length = kMaxPacketsInSession ∧
          insertPacket mode frameData p m s = (-1, m, s.updateFrameType p)) ∨
        (ps.length ≠ kMaxPacketsInSession ∧
          (∃ q ∈ before.getLast?, q.seqNum = p.seqNum ∧ 0 < q.storedSize) ∧
          insertPacket mode frameData p m s = (-2, m, s.updateFrameType p)) ∨
        (ps.length ≠ kMaxPacketsInSession ∧
          (∀ q ∈ before.getLast?, q.seqNum = p.seqNum → q.storedSize = 0) ∧
          insertPacket mode frameData p m s =
            ((p.storedSize : Int), write m p (totalSize before) (totalSize behind),
              ({ s.updateFrameType p with
                  packets := layout 0 (before ++ p :: behind) }.updateCompleteSession).updateDecodable
                mode frameData))) := by
  obtain ⟨before, behind, hps, hsplits, hdrop, htake⟩ := layout_split p.seqNum ps
  rw [← hs] at hdrop htake
  have hbefore : s.packetsBefore p.seqNum = layout 0 before := hdrop
  have hbehind : s.packetsBehind p.seqNum = layout (totalSize before) behind := htake
  have hlength : s.packets.length = ps.length := by rw [hs, layout_length]
  have hdup := isDuplicate_layout hbefore
  refine ⟨before, behind, hps, hsplits, hbefore, hbehind, ?_⟩
  simp only [insertPacket, if_neg hp, updateFrameType_packets, hlength, updateFrameType_isDuplicate,
    updateFrameType_packetsBefore, updateFrameType_packetsBehind]
  by_cases hfull : ps.length = kMaxPacketsInSession
  · exact .inl ⟨hfull, if_pos hfull⟩
  · refine .inr ?_
    rw [if_neg hfull]
    by_cases hd : s.isDuplicate p.seqNum = true
    · refine .inl ⟨hfull, ?_, if_pos hd⟩
      rw [hdup, Option.any_eq_true] at hd
      obtain ⟨q, hq, hqd⟩ := hd
      rw [Bool.and_eq_true, decide_eq_true_eq, decide_eq_true_eq] at hqd
      exact ⟨q, hq, hqd⟩
    · refine .inr ⟨hfull, ?_, ?_⟩
      · intro q hq hseq
        by_contra hsize
        refine hd ?_
        rw [hdup, Option.any_eq_true]
        refine ⟨q, hq, ?_⟩
        rw [Bool.and_eq_true, decide_eq_true_eq, decide_eq_true_eq]
        exact ⟨hseq, Nat.pos_of_ne_zero hsize⟩
      · rw [if_neg hd, hbefore, hbehind, insertBuffer_layout]

/-! ## The order of the packets -/

/-- The order of sequence numbers; only packets without bytes occur twice. -/
def InOrder (os : List (VCMPacket Mem)) : Prop :=
  os.Pairwise fun p q => Precedes p.seqNum q.seqNum ∨ p = q ∧ p.storedSize = 0

section Order

variable {base : BitVec 16} {p : VCMPacket Mem} {before behind os ps : List (VCMPacket Mem)}

theorem InOrder.distances (horder : InOrder os) (hbase : ∀ q ∈ os, InHalf base q.seqNum) :
    os.Pairwise fun q r => (q.seqNum - base).toNat ≤ (r.seqNum - base).toNat := by
  refine horder.imp_of_mem fun {q r} hq hr hqr => ?_
  rcases hqr with hlt | ⟨rfl, -⟩
  · exact le_of_lt ((precedes_iff (hbase q hq) (hbase r hr)).mp hlt)
  · exact le_refl _

/-- Where a number that is there is inserted again, it is the last before. -/
theorem last_of_mem (hbase : ∀ q ∈ before ++ behind, InHalf base q.seqNum)
    (hp : InHalf base p.seqNum) (horder : InOrder (before ++ behind))
    (hsplits : Splits p.seqNum before behind)
    (hmem : p.seqNum ∈ (before ++ behind).map VCMPacket.seqNum) :
    ∃ q ∈ before.getLast?, q.seqNum = p.seqNum := by
  obtain ⟨q, hq, hseq⟩ := List.mem_map.mp hmem
  rcases List.mem_append.mp hq with hq | hq
  · rcases List.eq_nil_or_concat' before with rfl | ⟨init, last, rfl⟩
    · exact absurd hq List.not_mem_nil
    · refine ⟨last, List.getLast?_concat, ?_⟩
      have hlast : last ∈ init ++ [last] ++ behind :=
        List.mem_append_left _ (List.mem_append_right _ List.mem_cons_self)
      have hle := hsplits.before last List.getLast?_concat
      rw [latestSequenceNumber_eq_left_iff hp (hbase last hlast)] at hle
      rcases List.mem_append.mp hq with hq' | hq'
      · have hdist := (List.pairwise_append.mp (horder.distances hbase)).1
        have hge := (List.pairwise_append.mp hdist).2.2 q hq' last List.mem_cons_self
        rw [hseq] at hge
        exact eq_of_sub_eq (le_antisymm hle hge)
      · rw [← List.mem_singleton.mp hq']
        exact hseq
  · refine absurd ?_ (hsplits.behind q hq)
    rw [hseq, latestSequenceNumber_eq_left]
    exact .inl rfl

theorem InOrder.insert (hbase : ∀ q ∈ before ++ behind, InHalf base q.seqNum)
    (hp : InHalf base p.seqNum) (horder : InOrder (before ++ behind))
    (hsplits : Splits p.seqNum before behind)
    (hlast : ∀ q ∈ before.getLast?, q.seqNum = p.seqNum → q = p ∧ q.storedSize = 0) :
    InOrder (before ++ p :: behind) := by
  obtain ⟨hbefore, hbehind, hcross⟩ := List.pairwise_append.mp horder
  have hfollows : ∀ q ∈ behind, Precedes p.seqNum q.seqNum := by
    intro q hq
    have hqbase := hbase q (List.mem_append_right _ hq)
    have hne := hsplits.behind q hq
    rw [ne_eq, latestSequenceNumber_eq_left_iff hp hqbase] at hne
    exact (precedes_iff hp hqbase).mpr (by omega)
  have hprecedes : ∀ q ∈ before, Precedes q.seqNum p.seqNum ∨ q = p ∧ q.storedSize = 0 := by
    rcases List.eq_nil_or_concat' before with rfl | ⟨init, last, rfl⟩
    · exact fun _ h => absurd h List.not_mem_nil
    · have hlastmem : last ∈ init ++ [last] := List.mem_append_right _ List.mem_cons_self
      have hlastbase := hbase last (List.mem_append_left _ hlastmem)
      have hle := hsplits.before last List.getLast?_concat
      rw [latestSequenceNumber_eq_left_iff hp hlastbase] at hle
      have hlast' : Precedes last.seqNum p.seqNum ∨ last = p ∧ last.storedSize = 0 := by
        by_cases hseq : last.seqNum = p.seqNum
        · obtain ⟨rfl, hnil⟩ := hlast last List.getLast?_concat hseq
          exact .inr ⟨rfl, hnil⟩
        · refine .inl ((precedes_iff hlastbase hp).mpr (lt_of_le_of_ne hle fun e => ?_))
          exact hseq (eq_of_sub_eq e)
      intro q hq
      rcases List.mem_append.mp hq with hq | hq
      · rcases (List.pairwise_append.mp hbefore).2.2 q hq last List.mem_cons_self with hlt | ⟨rfl, -⟩
        · have hqbase := hbase q (List.mem_append_left _ (List.mem_append_left _ hq))
          rw [precedes_iff hqbase hlastbase] at hlt
          exact .inl ((precedes_iff hqbase hp).mpr (by omega))
        · exact hlast'
      · rw [List.mem_singleton.mp hq]
        exact hlast'
  refine List.pairwise_append.mpr ⟨hbefore, List.pairwise_cons.mpr ⟨?_, hbehind⟩, ?_⟩
  · exact fun q hq => .inl (hfollows q hq)
  · intro q hq r hr
    rcases List.mem_cons.mp hr with rfl | hr
    · exact hprecedes q hq
    · exact hcross q hq r hr

/-- Packets of one frame are known by their numbers. -/
theorem eq_of_seqNums (hunique : ∀ q ∈ ps, ∀ r ∈ ps, q.seqNum = r.seqNum → q = r) :
    ∀ {as bs : List (VCMPacket Mem)}, (∀ q ∈ as, q ∈ ps) → (∀ q ∈ bs, q ∈ ps) →
      as.map VCMPacket.seqNum = bs.map VCMPacket.seqNum → as = bs
  | [], [], _, _, _ => rfl
  | [], _ :: _, _, _, h => absurd h (by simp)
  | _ :: _, [], _, _, h => absurd h (by simp)
  | a :: as, b :: bs, ha, hb, h => by
    rw [List.map_cons, List.map_cons, List.cons_eq_cons] at h
    have hhead := hunique a (ha a List.mem_cons_self) b (hb b List.mem_cons_self) h.1
    have htail := eq_of_seqNums hunique (fun q hq => ha q (List.mem_cons_of_mem _ hq))
      (fun q hq => hb q (List.mem_cons_of_mem _ hq)) h.2
    rw [hhead, htail]

end Order

end VCMSessionInfo

end PerchWebrtc.Video
