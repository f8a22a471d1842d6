import PerchWebrtc.Video.Completeness

/-!
# Making a session decodable

`MakeDecodable` of `VCMSessionInfo` (`session_info.cc`): the packets of NAL units whose start
was lost are emptied, and the bytes behind them move up.

* `Compacts`: what stays in the buffer; `makeDecodableFrom_compacts`;
* `BelongsToNalu`: a packet with all of its NAL unit before it; `makeDecodableFrom_decodable`;
* `makeDecodable_iff`: when a session only keeps NAL units from their start on.
-/

namespace PerchWebrtc.Video

open Circular

/-- The packet with its bytes nearer to the start of the buffer. -/
def VCMPacket.moveBack (steps : Nat) (q : VCMPacket Nat) : VCMPacket Nat :=
  { q with dataPtr := q.dataPtr.map (· - steps) }

/-- The packet without its data. -/
def VCMPacket.emptied (q : VCMPacket Nat) : VCMPacket Nat := { q with sizeBytes := 0, dataPtr := none }

namespace VCMSessionInfo

/-! ## The model -/

def startOfNalu (packet : VCMPacket Nat) : Bool :=
  packet.completeNALU = .kNaluStart ∨ packet.completeNALU = .kNaluComplete

/-- The loop of `FindNaluEnd`: the number of packets up to the end. -/
def packetsToNaluEnd : List (VCMPacket Nat) → Nat
  | [] => 0
  | packet :: packets =>
    if packet.completeNALU = .kNaluComplete ∧ 0 < packet.sizeBytes ∨
        packet.completeNALU = .kNaluStart then 0 -- Found next NALU.
    else if packet.completeNALU = .kNaluEnd then 1
    else packetsToNaluEnd packets + 1

/-- `FindNaluEnd`, as the number of packets up to the one that it finds. -/
def findNaluEnd : List (VCMPacket Nat) → Nat
  | [] => 0
  | packet :: packets =>
    if packet.completeNALU = .kNaluEnd ∨ packet.completeNALU = .kNaluComplete then 1
    else packetsToNaluEnd (packet :: packets)

def bytesIn (packets : List (VCMPacket Nat)) : Nat := (packets.map VCMPacket.sizeBytes).sum

/-- `ShiftSubsequentPackets` by a negative number of steps. -/
def shiftSubsequentPacketsBack (frameBuffer : Mem) (behind : List (VCMPacket Nat)) (steps : Nat) :
    Mem × List (VCMPacket Nat) :=
  let moved := behind.map (VCMPacket.moveBack steps)
  match behind.head?.bind VCMPacket.dataPtr with
  | none => (frameBuffer, moved)
  | some first => (frameBuffer.copy (first - steps) frameBuffer first (bytesIn behind), moved)

/-- What is there behind a call of `DeletePacketData` or a part of `MakeDecodable`: the bytes
that were deleted, the frame buffer, and the packets. -/
structure Decodable where
  returnLength : Nat
  frameBuffer : Mem
  packets : List (VCMPacket Nat)
  packetsNotDecodable : Nat

/-- The packets are those behind the deleted ones. -/
def deletePacketData (frameBuffer : Mem) (nalu behind : List (VCMPacket Nat)) : Decodable :=
  let bytesToDelete := bytesIn nalu
  let shifted :=
    if 0 < bytesToDelete then shiftSubsequentPacketsBack frameBuffer behind bytesToDelete
    else (frameBuffer, behind)
  ⟨bytesToDelete, shifted.1, shifted.2, nalu.length⟩

/-- The NAL unit at `packet` is deleted, and `rest` goes on behind its last packet. -/
def deleteNalu (frameBuffer : Mem) (packet : VCMPacket Nat) (packets : List (VCMPacket Nat))
    (rest : VCMPacket Nat → Mem → List (VCMPacket Nat) → Decodable) : Decodable :=
  let naluEnd := findNaluEnd (packet :: packets)
  let nalu := (packet :: packets).take naluEnd
  let deleted := deletePacketData frameBuffer nalu ((packet :: packets).drop naluEnd)
  let made := rest (nalu.getLastD packet).emptied deleted.frameBuffer deleted.packets
  { returnLength := deleted.returnLength + made.returnLength
    frameBuffer := made.frameBuffer
    packets := nalu.map VCMPacket.emptied ++ made.packets
    packetsNotDecodable := deleted.packetsNotDecodable + made.packetsNotDecodable }

/-- The packet stays where it is. -/
def keepPacket (packet : VCMPacket Nat) (made : Decodable) : Decodable :=
  { made with packets := packet :: made.packets }

/-- The loop of `MakeDecodable` from the packet behind `prev` on. The fuel bounds the packets. -/
def makeDecodableFrom : Nat → VCMPacket Nat → Mem → List (VCMPacket Nat) → Decodable
  | fuel + 1, prev, frameBuffer, packet :: packets =>
    if ¬ startOfNalu packet ∧ ¬ InSequence prev packet then
      -- Found a sequence number gap due to packet loss.
      deleteNalu frameBuffer packet packets (makeDecodableFrom fuel)
    else keepPacket packet (makeDecodableFrom fuel packet frameBuffer packets)
  | _, _, frameBuffer, packets => ⟨0, frameBuffer, packets, 0⟩

/-- The first NAL unit is removed if it's not decodable. -/
def makeDecodablePackets (frameBuffer : Mem) : List (VCMPacket Nat) → Decodable
  | [] => ⟨0, frameBuffer, [], 0⟩
  | packet :: packets =>
    if packet.completeNALU = .kNaluIncomplete ∨ packet.completeNALU = .kNaluEnd then
      deleteNalu frameBuffer packet packets (makeDecodableFrom packets.length)
    else keepPacket packet (makeDecodableFrom packets.length packet frameBuffer packets)

/-- The bytes that were removed, with the frame buffer and the session. -/
def makeDecodable (frameBuffer : Mem) (s : VCMSessionInfo) : Nat × Mem × VCMSessionInfo :=
  let made := makeDecodablePackets frameBuffer s.packets
  (made.returnLength, made.frameBuffer,
    { s with
      packets := made.packets
      packetsNotDecodable := s.packetsNotDecodable + made.packetsNotDecodable })

/-! ## What stays in the buffer -/

/-- The packets with their bytes one behind the other from an offset on. -/
def Laid : Nat → List (VCMPacket Nat) → Prop
  | _, [] => True
  | offset, q :: qs => q.dataPtr = some offset ∧ Laid (offset + q.sizeBytes) qs

def bytesOf (m : Mem) (q : VCMPacket Nat) : List Byte :=
  match q.dataPtr with
  | none => []
  | some offset => m.bytes offset q.sizeBytes

/-- The bytes of the packets that stay, in their order. -/
def remaining (m : Mem) (ps qs : List (VCMPacket Nat)) : List Byte :=
  (ps.zip qs).flatMap fun x => if x.2.dataPtr.isSome then bytesOf m x.1 else []

/-- The packet stays, maybe in another place, or it was emptied. -/
def Outlives (p q : VCMPacket Nat) : Prop :=
  q = { p with dataPtr := q.dataPtr } ∧ q.dataPtr.isSome ∨ q = p.emptied

/-- The packets were at an offset of the buffer. -/
structure Compacts (m : Mem) (offset : Nat) (ps : List (VCMPacket Nat)) (made : Decodable) :
    Prop where
  packets : List.Forall₂ Outlives ps made.packets
  before : ∀ i < offset, made.frameBuffer i = m i
  bytes : made.frameBuffer.bytes offset (bytesIn made.packets) = remaining m ps made.packets
  removed : made.returnLength + bytesIn made.packets = bytesIn ps

section Compacting

variable {m : Mem} {offset : Nat} {p : VCMPacket Nat} {ps nalu behind : List (VCMPacket Nat)}
  {made : Decodable}

@[simp] theorem bytesIn_nil : bytesIn [] = 0 := rfl

@[simp] theorem bytesIn_cons (p : VCMPacket Nat) (ps : List (VCMPacket Nat)) :
    bytesIn (p :: ps) = p.sizeBytes + bytesIn ps := rfl

@[simp] theorem bytesIn_append (ps qs : List (VCMPacket Nat)) :
    bytesIn (ps ++ qs) = bytesIn ps + bytesIn qs := by
  simp [bytesIn]

theorem bytesIn_emptied (ps : List (VCMPacket Nat)) : bytesIn (ps.map VCMPacket.emptied) = 0 := by
  induction ps with
  | nil => rfl
  | cons p ps ih => rw [List.map_cons, bytesIn_cons, ih]; rfl

theorem bytesIn_moveBack (steps : Nat) (ps : List (VCMPacket Nat)) :
    bytesIn (ps.map (VCMPacket.moveBack steps)) = bytesIn ps := by
  rw [bytesIn, List.map_map]
  rfl

theorem layout_laid : ∀ (offset : Nat) (ps : List (VCMPacket Mem)), Laid offset (layout offset ps)
  | _, [] => trivial
  | offset, p :: ps => ⟨rfl, layout_laid (offset + p.storedSize) ps⟩

theorem Laid.append : Laid offset (nalu ++ behind) ↔
    Laid offset nalu ∧ Laid (offset + bytesIn nalu) behind := by
  induction nalu generalizing offset with
  | nil => simp [Laid]
  | cons p ps ih => simp only [List.cons_append, Laid, ih, bytesIn_cons, Nat.add_assoc, and_assoc]

@[simp] theorem remaining_cons (q : VCMPacket Nat) (qs : List (VCMPacket Nat)) :
    remaining m (p :: ps) (q :: qs) =
      (if q.dataPtr.isSome then bytesOf m p else []) ++ remaining m ps qs := rfl

theorem remaining_emptied (qs : List (VCMPacket Nat)) :
    remaining m (nalu ++ behind) (nalu.map VCMPacket.emptied ++ qs) = remaining m behind qs := by
  induction nalu with
  | nil => rfl
  | cons p ps ih => rw [List.cons_append, List.map_cons, List.cons_append, remaining_cons, ih]; rfl

/-- Packets whose bytes are found nearer to the start of another buffer. -/
theorem remaining_moveBack {m' : Mem} {steps : Nat} (hlaid : Laid (offset + steps) behind)
    (hm : ∀ i < bytesIn behind, m' (offset + i) = m (offset + steps + i))
    (qs : List (VCMPacket Nat)) :
    Laid offset (behind.map (VCMPacket.moveBack steps)) ∧
      remaining m' (behind.map (VCMPacket.moveBack steps)) qs = remaining m behind qs := by
  induction behind generalizing offset qs with
  | nil => exact ⟨trivial, rfl⟩
  | cons p ps ih =>
    obtain ⟨hptr, hlaid⟩ := hlaid
    have hptr' : (p.moveBack steps).dataPtr = some offset := by
      rw [VCMPacket.moveBack, hptr, Option.map_some, Nat.add_sub_cancel]
    have hbytes : bytesOf m' (p.moveBack steps) = bytesOf m p := by
      rw [bytesOf, bytesOf, hptr', hptr]
      exact Mem.bytes_eq_iff.mpr fun i hi => hm i (Nat.lt_add_right _ hi)
    have hrest : ∀ i < bytesIn ps,
        m' (offset + p.sizeBytes + i) = m (offset + p.sizeBytes + steps + i) := fun i hi => by
      have hbyte := hm (p.sizeBytes + i) (Nat.add_lt_add_left hi _)
      rw [← Nat.add_assoc, ← Nat.add_assoc] at hbyte
      rw [hbyte, Nat.add_right_comm offset]
    rw [Nat.add_right_comm] at hlaid
    refine ⟨⟨hptr', (ih hlaid hrest []).1⟩, ?_⟩
    cases qs with
    | nil => rfl
    | cons q qs => rw [List.map_cons, remaining_cons, remaining_cons, hbytes, (ih hlaid hrest qs).2]

theorem moveBack_zero (q : VCMPacket Nat) : q.moveBack 0 = q := by
  rw [VCMPacket.moveBack, show (fun x : Nat => x - 0) = id from rfl, Option.map_id]
  rfl

theorem deletePacketData_moved (m : Mem) (nalu behind : List (VCMPacket Nat)) :
    ∃ steps, (deletePacketData m nalu behind).packets = behind.map (VCMPacket.moveBack steps) := by
  unfold deletePacketData
  dsimp only
  split
  · refine ⟨bytesIn nalu, ?_⟩
    unfold shiftSubsequentPacketsBack
    cases behind.head?.bind VCMPacket.dataPtr <;> rfl
  · exact ⟨0, by rw [funext moveBack_zero, List.map_id']⟩

/-- What deleting the packets in front does to those behind them. -/
structure Deletes (m : Mem) (offset : Nat) (nalu behind : List (VCMPacket Nat))
    (deleted : Decodable) : Prop where
  removed : deleted.returnLength = bytesIn nalu
  before : ∀ i < offset, deleted.frameBuffer i = m i
  moved : ∃ steps, deleted.packets = behind.map (VCMPacket.moveBack steps)
  laid : Laid offset deleted.packets
  bytes : ∀ qs, remaining deleted.frameBuffer deleted.packets qs = remaining m behind qs

theorem deletePacketData_deletes (hlaid : Laid offset (nalu ++ behind)) (m : Mem) :
    Deletes m offset nalu behind (deletePacketData m nalu behind) := by
  obtain ⟨-, hbehind⟩ := Laid.append.mp hlaid
  unfold deletePacketData
  dsimp only
  by_cases hnone : 0 < bytesIn nalu
  · rw [if_pos hnone]
    cases behind with
    | nil => exact ⟨rfl, fun _ _ => rfl, ⟨0, rfl⟩, trivial, fun _ => rfl⟩
    | cons p ps =>
      have hshift : shiftSubsequentPacketsBack m (p :: ps) (bytesIn nalu) =
          (m.copy offset m (offset + bytesIn nalu) (bytesIn (p :: ps)),
            (p :: ps).map (VCMPacket.moveBack (bytesIn nalu))) := by
        rw [shiftSubsequentPacketsBack, List.head?_cons, Option.bind_some, hbehind.1]
        dsimp only
        rw [Nat.add_sub_cancel]
      have hcopied : ∀ i < bytesIn (p :: ps),
          m.copy offset m (offset + bytesIn nalu) (bytesIn (p :: ps)) (offset + i) =
            m (offset + bytesIn nalu + i) := fun i hi => by
        rw [Mem.copy_inside _ _ (Nat.le_add_right _ _) (Nat.add_lt_add_left hi _),
          Nat.add_sub_cancel_left]
      have hmoved := fun qs => remaining_moveBack hbehind hcopied qs
      rw [hshift]
      exact ⟨rfl, fun i hi => m.copy_outside m (.inl hi), ⟨_, rfl⟩, (hmoved []).1,
        fun qs => (hmoved qs).2⟩
  · rw [if_neg hnone]
    have hzero : bytesIn nalu = 0 := Nat.eq_zero_of_not_pos hnone
    have hmoved : behind = behind.map (VCMPacket.moveBack 0) := by
      rw [funext moveBack_zero, List.map_id']
    exact ⟨rfl, fun _ _ => rfl, ⟨0, hmoved⟩, by rwa [hzero] at hbehind, fun _ => rfl⟩

theorem Outlives.of_moveBack {steps : Nat} {q : VCMPacket Nat} (h : Outlives (p.moveBack steps) q) :
    Outlives p q := by
  rcases h with ⟨hq, hsome⟩ | hq
  · exact .inl ⟨hq, hsome⟩
  · exact .inr hq

theorem Compacts.keepPacket (hptr : p.dataPtr = some offset)
    (h : Compacts m (offset + p.sizeBytes) ps made) :
    Compacts m offset (p :: ps) (keepPacket p made) where
  packets := .cons (.inl ⟨rfl, by rw [hptr]; rfl⟩) h.packets
  before i hi := h.before i (Nat.lt_add_right _ hi)
  bytes := by
    have hsame : made.frameBuffer.bytes offset p.sizeBytes = m.bytes offset p.sizeBytes :=
      Mem.bytes_eq_iff.mpr fun i hi => h.before _ (Nat.add_lt_add_left hi _)
    show made.frameBuffer.bytes offset (p.sizeBytes + bytesIn made.packets) = _
    rw [Mem.bytes_add, hsame, h.bytes]
    show _ = remaining m (p :: ps) (p :: made.packets)
    rw [remaining_cons, bytesOf, hptr]
    rfl
  removed := by
    show made.returnLength + (p.sizeBytes + bytesIn made.packets) = p.sizeBytes + bytesIn ps
    rw [← h.removed]
    omega

/-- Deleting packets in front of those that the rest goes on with. -/
theorem Compacts.deleted {deleted : Decodable} (hdeleted : Deletes m offset nalu behind deleted)
    (h : Compacts deleted.frameBuffer offset deleted.packets made) (n : Nat) :
    Compacts m offset (nalu ++ behind)
      ⟨deleted.returnLength + made.returnLength, made.frameBuffer,
        nalu.map VCMPacket.emptied ++ made.packets, n⟩ where
  packets := by
    obtain ⟨steps, hmoved⟩ := hdeleted.moved
    refine List.rel_append ?_ ?_
    · rw [List.forall₂_map_right_iff, List.forall₂_same]
      exact fun p _ => .inr rfl
    · have hpackets := h.packets
      rw [hmoved, List.forall₂_map_left_iff] at hpackets
      exact hpackets.imp fun _ _ => Outlives.of_moveBack
  before i hi := (h.before i hi).trans (hdeleted.before i hi)
  bytes := by
    show made.frameBuffer.bytes offset (bytesIn (nalu.map VCMPacket.emptied ++ made.packets)) = _
    rw [bytesIn_append, bytesIn_emptied, Nat.zero_add, h.bytes, hdeleted.bytes]
    exact (remaining_emptied made.packets).symm
  removed := by
    obtain ⟨steps, hmoved⟩ := hdeleted.moved
    have hrest := h.removed
    rw [hmoved, bytesIn_moveBack] at hrest
    show deleted.returnLength + made.returnLength +
      bytesIn (nalu.map VCMPacket.emptied ++ made.packets) = bytesIn (nalu ++ behind)
    rw [hdeleted.removed, bytesIn_append, bytesIn_append, bytesIn_emptied, ← hrest]
    omega

/-- Packets that are not looked at stay. -/
theorem compacts_rest (hlaid : Laid offset ps) : Compacts m offset ps ⟨0, m, ps, 0⟩ := by
  induction ps generalizing offset with
  | nil => exact ⟨.nil, fun _ _ => rfl, rfl, rfl⟩
  | cons p ps ih => exact (ih hlaid.2).keepPacket hlaid.1

/-- A NAL unit is deleted, if the rest compacts what is behind it. -/
theorem deleteNalu_compacts (hlaid : Laid offset (p :: ps))
    {rest : VCMPacket Nat → Mem → List (VCMPacket Nat) → Decodable}
    (hrest : ∀ prev m qs, Laid offset qs → Compacts m offset qs (rest prev m qs)) :
    Compacts m offset (p :: ps) (deleteNalu m p ps rest) := by
  rw [← List.take_append_drop (findNaluEnd (p :: ps)) (p :: ps)] at hlaid
  have hdeleted := deletePacketData_deletes hlaid m
  have h := fun prev n => Compacts.deleted hdeleted (hrest prev _ _ hdeleted.laid) n
  simp only [List.take_append_drop] at h
  exact h _ _

theorem makeDecodableFrom_compacts (fuel : Nat) (prev : VCMPacket Nat) (hlaid : Laid offset ps) :
    Compacts m offset ps (makeDecodableFrom fuel prev m ps) := by
  induction fuel generalizing prev m offset ps with
  | zero => exact compacts_rest hlaid
  | succ fuel ih =>
    cases ps with
    | nil => exact compacts_rest hlaid
    | cons p ps =>
      rw [makeDecodableFrom]
      split
      · exact deleteNalu_compacts hlaid fun prev _ _ hqs => ih prev hqs
      · exact (ih p hlaid.2).keepPacket hlaid.1

theorem makeDecodablePackets_compacts (hlaid : Laid offset ps) :
    Compacts m offset ps (makeDecodablePackets m ps) := by
  cases ps with
  | nil => exact compacts_rest hlaid
  | cons p ps =>
    rw [makeDecodablePackets]
    split
    · exact deleteNalu_compacts hlaid fun prev _ _ hqs => makeDecodableFrom_compacts _ prev hqs
    · exact (makeDecodableFrom_compacts _ p hlaid.2).keepPacket hlaid.1

end Compacting

/-! ## What is decodable -/

/-- All packets of the NAL unit of `p` are there from its start to `p`, behind the others before
it: they follow each other, and the unit does not end before `p`. -/
def BelongsToNalu (before : List (VCMPacket Nat)) (p : VCMPacket Nat) : Prop :=
  ∃ others nalu, before ++ [p] = others ++ nalu ∧
    (∃ start ∈ nalu.head?, startOfNalu start = true) ∧ nalu.IsChain InSequence ∧
    ∀ q ∈ nalu.dropLast, q.completeNALU ≠ .kNaluEnd

/-- So it is for every packet of `ps` with bytes. -/
def OnlyNalus (before ps : List (VCMPacket Nat)) : Prop :=
  ∀ init p behind, ps = init ++ p :: behind → 0 < p.sizeBytes → BelongsToNalu (before ++ init) p

/-- The packets that follow in sequence, up to one that starts a NAL unit. -/
def continuation (prev : VCMPacket Nat) : List (VCMPacket Nat) → List (VCMPacket Nat)
  | [] => []
  | p :: ps => if ¬ startOfNalu p ∧ InSequence prev p then p :: continuation p ps else []

def NoBytes (ps : List (VCMPacket Nat)) : Prop := ∀ p ∈ ps, p.sizeBytes = 0

/-- No bytes follow in sequence behind the end of a NAL unit, up to the start of one. -/
def StartsFollowEnds : List (VCMPacket Nat) → Prop
  | [] => True
  | p :: ps => (p.completeNALU = .kNaluEnd → NoBytes (continuation p ps)) ∧ StartsFollowEnds ps

section Nalus

variable {before ps nalu behind : List (VCMPacket Nat)} {p q : VCMPacket Nat}

theorem belongsToNalu_start (h : startOfNalu p = true) : BelongsToNalu before p :=
  ⟨before, [p], rfl, ⟨p, rfl, h⟩, .singleton p, fun _ hq => absurd hq List.not_mem_nil⟩

theorem not_belongsToNalu_nil (h : ¬ startOfNalu p = true) : ¬ BelongsToNalu [] p := by
  rintro ⟨others, nalu, heq, ⟨start, hhead, hstart⟩, -, -⟩
  cases others with
  | nil =>
    obtain rfl : [p] = nalu := heq
    obtain rfl : p = start := Option.some.inj hhead
    exact h hstart
  | cons _ _ =>
    obtain ⟨-, hnil⟩ := List.append_eq_nil_iff.mp (List.tail_eq_of_cons_eq heq).symm
    rw [hnil] at hhead
    exact absurd hhead (Option.not_mem_none _)

/-- A packet that does not start a NAL unit goes on with the one of the packet before it. -/
theorem belongsToNalu_concat (h : ¬ startOfNalu p = true) :
    BelongsToNalu (before ++ [q]) p ↔
      InSequence q p ∧ q.completeNALU ≠ .kNaluEnd ∧ BelongsToNalu before q := by
  constructor
  · rintro ⟨others, nalu, heq, ⟨start, hhead, hstart⟩, hchain, hend⟩
    rcases List.eq_nil_or_concat' nalu with rfl | ⟨init, last, rfl⟩
    · exact absurd hhead (Option.not_mem_none _)
    rw [← List.append_assoc] at heq
    obtain ⟨hbefore, hp⟩ := List.append_inj' heq rfl
    obtain rfl : p = last := List.head_eq_of_cons_eq hp
    rw [List.dropLast_concat] at hend
    rcases List.eq_nil_or_concat' init with rfl | ⟨init, last, rfl⟩
    · obtain rfl : p = start := Option.some.inj hhead
      exact absurd hstart h
    have hinner := hbefore
    rw [← List.append_assoc] at hinner
    obtain ⟨-, hq⟩ := List.append_inj' hinner rfl
    obtain rfl : q = last := List.head_eq_of_cons_eq hq
    obtain ⟨hinit, -, hseq⟩ := List.isChain_append.mp hchain
    refine ⟨hseq q List.getLast?_concat p rfl, hend q (List.mem_append_right _ List.mem_cons_self),
      others, init ++ [q], hbefore, ⟨start, ?_, hstart⟩, hinit, fun r hr => hend r ?_⟩
    · rwa [List.head?_append_of_ne_nil _ (List.concat_ne_nil _ _)] at hhead
    · exact List.mem_of_mem_dropLast hr
  · rintro ⟨hseq, hne, others, nalu, heq, ⟨start, hhead, hstart⟩, hchain, hend⟩
    rcases List.eq_nil_or_concat' nalu with rfl | ⟨init, last, rfl⟩
    · exact absurd hhead (Option.not_mem_none _)
    have hinner := heq
    rw [← List.append_assoc] at hinner
    obtain ⟨-, hq⟩ := List.append_inj' hinner rfl
    obtain rfl : q = last := List.head_eq_of_cons_eq hq
    rw [List.dropLast_concat] at hend
    refine ⟨others, init ++ [q] ++ [p], by rw [heq, List.append_assoc],
      ⟨start, ?_, hstart⟩, List.isChain_append.mpr ⟨hchain, .singleton p, ?_⟩, ?_⟩
    · rwa [List.head?_append_of_ne_nil _ (List.concat_ne_nil _ _)]
    · intro r hr s hs
      obtain rfl : q = r := Option.some.inj (List.getLast?_concat.symm.trans hr)
      obtain rfl : p = s := Option.some.inj hs
      exact hseq
    · rw [List.dropLast_concat]
      intro r hr
      rcases List.mem_append.mp hr with hr | hr
      · exact hend r hr
      · rw [List.mem_singleton.mp hr]
        exact hne

theorem onlyNalus_nil : OnlyNalus before [] := fun init p behind h => by
  cases init <;> cases h

theorem onlyNalus_cons : OnlyNalus before (p :: ps) ↔
    (0 < p.sizeBytes → BelongsToNalu before p) ∧ OnlyNalus (before ++ [p]) ps := by
  constructor
  · intro h
    refine ⟨fun hp => ?_, fun init q behind hps hq => ?_⟩
    · have hbelongs := h [] p ps rfl hp
      rwa [List.append_nil] at hbelongs
    · have hbelongs := h (p :: init) q behind (by rw [hps]; rfl) hq
      rwa [List.append_cons] at hbelongs
  · rintro ⟨hp, hps⟩ init q behind heq hq
    cases init with
    | nil =>
      obtain ⟨rfl, -⟩ := List.cons_eq_cons.mp heq
      rw [List.append_nil]
      exact hp hq
    | cons r init =>
      obtain ⟨rfl, hrest⟩ := List.cons_eq_cons.mp heq
      rw [List.append_cons]
      exact hps init q behind hrest hq

/-- Packets that were emptied have no bytes. -/
theorem onlyNalus_emptied : OnlyNalus before (nalu.map VCMPacket.emptied ++ ps) ↔
    OnlyNalus (before ++ nalu.map VCMPacket.emptied) ps := by
  induction nalu generalizing before with
  | nil => rw [List.map_nil, List.append_nil, List.nil_append]
  | cons p nalu ih =>
    rw [List.map_cons, List.cons_append, onlyNalus_cons, ih, List.append_assoc, List.singleton_append]
    exact and_iff_right fun h => absurd h (Nat.lt_irrefl 0)

/-! ## Deleting a NAL unit -/

/-- The packets up to the end of a NAL unit: only the last of them may end it, and if it does
not, there is none behind it that does not start one. -/
theorem packetsToNaluEnd_spec (ps : List (VCMPacket Nat)) :
    (∃ init e, ps.take (packetsToNaluEnd ps) = init ++ [e] ∧
        (∀ q ∈ init, q.completeNALU ≠ .kNaluEnd) ∧ e.completeNALU = .kNaluEnd) ∨
      (∀ q ∈ ps.take (packetsToNaluEnd ps), q.completeNALU ≠ .kNaluEnd) ∧
        ∀ r ∈ (ps.drop (packetsToNaluEnd ps)).head?, startOfNalu r = true := by
  induction ps with
  | nil => exact .inr ⟨fun _ h => absurd h List.not_mem_nil, fun _ h => absurd h (Option.not_mem_none _)⟩
  | cons p ps ih =>
    rw [packetsToNaluEnd]
    by_cases hstart : p.completeNALU = .kNaluComplete ∧ 0 < p.sizeBytes ∨ p.completeNALU = .kNaluStart
    · rw [if_pos hstart]
      refine .inr ⟨fun _ h => absurd h List.not_mem_nil, fun r hr => ?_⟩
      obtain rfl : p = r := Option.some.inj hr
      exact decide_eq_true (hstart.elim (fun h => .inr h.1) .inl)
    rw [if_neg hstart]
    by_cases hend : p.completeNALU = .kNaluEnd
    · rw [if_pos hend]
      exact .inl ⟨[], p, rfl, fun _ h => absurd h List.not_mem_nil, hend⟩
    rw [if_neg hend]
    rcases ih with ⟨init, e, htake, hinit, he⟩ | ⟨htake, hhead⟩
    · refine .inl ⟨p :: init, e, by rw [List.take_succ_cons, htake]; rfl, fun q hq => ?_, he⟩
      rcases List.mem_cons.mp hq with rfl | hq
      · exact hend
      · exact hinit q hq
    · refine .inr ⟨fun q hq => ?_, hhead⟩
      rw [List.take_succ_cons] at hq
      rcases List.mem_cons.mp hq with rfl | hq
      · exact hend
      · exact htake q hq

theorem findNaluEnd_spec (hp : ¬ startOfNalu p = true) (ps : List (VCMPacket Nat)) :
    ∃ init e, (p :: ps).take (findNaluEnd (p :: ps)) = init ++ [e] ∧
      (∀ q ∈ init, q.completeNALU ≠ .kNaluEnd) ∧
      (e.completeNALU = .kNaluEnd ∨
        ∀ r ∈ ((p :: ps).drop (findNaluEnd (p :: ps))).head?, startOfNalu r = true) := by
  have hp' : ¬ (p.completeNALU = .kNaluStart ∨ p.completeNALU = .kNaluComplete) :=
    fun h => hp (decide_eq_true h)
  rw [findNaluEnd]
  by_cases hend : p.completeNALU = .kNaluEnd
  · rw [if_pos (.inl hend)]
    exact ⟨[], p, rfl, fun _ h => absurd h List.not_mem_nil, .inl hend⟩
  rw [if_neg (not_or.mpr ⟨hend, fun h => hp' (.inr h)⟩)]
  rcases packetsToNaluEnd_spec (p :: ps) with ⟨init, e, htake, hinit, he⟩ | ⟨htake, hhead⟩
  · exact ⟨init, e, htake, hinit, .inl he⟩
  · have hnext : packetsToNaluEnd (p :: ps) = packetsToNaluEnd ps + 1 := by
      rw [packetsToNaluEnd, if_neg (fun h => hp' (h.elim (fun h => .inr h.1) .inl)), if_neg hend]
    rcases List.eq_nil_or_concat' ((p :: ps).take (packetsToNaluEnd (p :: ps))) with
      hnil | ⟨init, e, hsplit⟩
    · rw [hnext, List.take_succ_cons] at hnil
      exact absurd hnil (List.cons_ne_nil _ _)
    · rw [hsplit] at htake
      exact ⟨init, e, hsplit, fun q hq => htake q (List.mem_append_left _ hq), .inr hhead⟩

theorem continuation_of_start (h : ∀ r ∈ ps.head?, startOfNalu r = true) (q : VCMPacket Nat) :
    continuation q ps = [] := by
  cases ps with
  | nil => rfl
  | cons p ps => rw [continuation, if_neg fun hp => hp.1 (h p rfl)]

/-- What is looked at are the numbers and flags, which moving does not change. -/
theorem continuation_moveBack (steps : Nat) (q q' : VCMPacket Nat) (h : q'.seqNum = q.seqNum) :
    continuation q' (ps.map (VCMPacket.moveBack steps)) =
      (continuation q ps).map (VCMPacket.moveBack steps) := by
  induction ps generalizing q q' with
  | nil => rfl
  | cons p ps ih =>
    have hseq : InSequence q' (p.moveBack steps) ↔ InSequence q p := by
      show q'.seqNum + 1 = p.seqNum ↔ q.seqNum + 1 = p.seqNum
      rw [h]
    rw [List.map_cons, continuation, continuation,
      ih p (p.moveBack steps) rfl]
    by_cases hp : ¬ startOfNalu p ∧ InSequence q p
    · rw [if_pos hp, if_pos (show ¬ startOfNalu (p.moveBack steps) ∧ _ from ⟨hp.1, hseq.mpr hp.2⟩)]
      rfl
    · rw [if_neg hp, if_neg fun hp' => hp ⟨hp'.1, hseq.mp hp'.2⟩]
      rfl

theorem noBytes_cons : NoBytes (p :: ps) ↔ p.sizeBytes = 0 ∧ NoBytes ps := List.forall_mem_cons

theorem noBytes_moveBack (steps : Nat) : NoBytes (ps.map (VCMPacket.moveBack steps)) ↔ NoBytes ps :=
  List.forall_mem_map

theorem startsFollowEnds_moveBack (steps : Nat) :
    StartsFollowEnds (ps.map (VCMPacket.moveBack steps)) ↔ StartsFollowEnds ps := by
  induction ps with
  | nil => exact Iff.rfl
  | cons p ps ih =>
    rw [List.map_cons, StartsFollowEnds, StartsFollowEnds, ih,
      continuation_moveBack steps p (p.moveBack steps) rfl, noBytes_moveBack]
    exact Iff.rfl

theorem startsFollowEnds_append (h : ∀ q ∈ ps, q.completeNALU ≠ .kNaluEnd) :
    StartsFollowEnds (ps ++ behind) ↔ StartsFollowEnds behind := by
  induction ps with
  | nil => exact Iff.rfl
  | cons p ps ih =>
    rw [List.cons_append, StartsFollowEnds, ih fun q hq => h q (List.mem_cons_of_mem _ hq)]
    exact and_iff_right fun hp => absurd hp (h p List.mem_cons_self)

/-- What has to hold behind a packet, `prev`, that is kept or deleted. -/
def Follows (before : List (VCMPacket Nat)) (prev : VCMPacket Nat) (ps : List (VCMPacket Nat)) :
    Prop :=
  (¬ (prev.completeNALU ≠ .kNaluEnd ∧ BelongsToNalu before prev) → NoBytes (continuation prev ps)) ∧
    StartsFollowEnds ps

/-- Only the last packet of what is deleted counts for what follows. -/
theorem deleteNalu_decodable (hp : ¬ startOfNalu p = true) (m : Mem)
    {rest : VCMPacket Nat → Mem → List (VCMPacket Nat) → Decodable}
    (hrest : ∀ before prev m qs, qs.length ≤ ps.length →
      (OnlyNalus (before ++ [prev]) (rest prev m qs).packets ↔ Follows before prev qs)) :
    OnlyNalus before (deleteNalu m p ps rest).packets ↔ StartsFollowEnds (p :: ps) := by
  obtain ⟨init, e, htake, hinit, he⟩ := findNaluEnd_spec hp ps
  have hsplit := (List.take_append_drop (findNaluEnd (p :: ps)) (p :: ps)).symm
  unfold deleteNalu
  dsimp only
  generalize (p :: ps).drop (findNaluEnd (p :: ps)) = behind at he hsplit
  rw [htake, List.append_assoc, List.singleton_append] at hsplit
  rw [htake, List.getLastD_concat]
  have hlength : behind.length ≤ ps.length := by
    have heq := congrArg List.length hsplit
    rw [List.length_append, List.length_cons, List.length_cons] at heq
    omega
  obtain ⟨steps, hmoved⟩ := deletePacketData_moved m (init ++ [e]) behind
  rw [onlyNalus_emptied, List.map_append, List.map_singleton, ← List.append_assoc, hmoved,
    hrest _ _ _ _ (by rwa [List.length_map]), hsplit, startsFollowEnds_append hinit,
    StartsFollowEnds, Follows, startsFollowEnds_moveBack, continuation_moveBack steps e e.emptied rfl,
    noBytes_moveBack]
  refine and_congr_left fun _ => ?_
  rcases he with he | he
  · exact ⟨fun h _ => h fun hne => hne.1 he, fun h _ => h he⟩
  · rw [continuation_of_start he]
    exact iff_of_true (fun _ _ hr => absurd hr List.not_mem_nil)
      fun _ _ hr => absurd hr List.not_mem_nil

/-- The loop keeps what goes on with a NAL unit, and what follows the end of a deleted one. -/
theorem makeDecodableFrom_decodable : ∀ (fuel : Nat) (before : List (VCMPacket Nat))
    (prev : VCMPacket Nat) (m : Mem) (ps : List (VCMPacket Nat)), ps.length ≤ fuel →
      (OnlyNalus (before ++ [prev]) (makeDecodableFrom fuel prev m ps).packets ↔
        Follows before prev ps)
  | fuel, before, prev, m, [], _ => by
    have hpackets : (makeDecodableFrom fuel prev m []).packets = [] := by cases fuel <;> rfl
    rw [hpackets]
    exact iff_of_true onlyNalus_nil ⟨fun _ _ hr => absurd hr List.not_mem_nil, trivial⟩
  | 0, _, _, _, _ :: _, h => absurd h (Nat.not_succ_le_zero _)
  | fuel + 1, before, prev, m, p :: ps, h => by
    have hps : ps.length ≤ fuel := Nat.le_of_succ_le_succ h
    have ih := makeDecodableFrom_decodable fuel
    rw [makeDecodableFrom, Follows, continuation]
    by_cases hstart : startOfNalu p = true
    · have hend : p.completeNALU ≠ .kNaluEnd := by
        rcases of_decide_eq_true hstart with hp | hp <;> rw [hp] <;> decide
      have hbelongs : BelongsToNalu (before ++ [prev]) p := belongsToNalu_start hstart
      rw [if_neg fun hp => hp.1 hstart, if_neg fun hp => hp.1 hstart]
      rw [keepPacket, onlyNalus_cons, ih _ p m ps hps, Follows, StartsFollowEnds]
      simp only [hbelongs, hend, implies_true, true_and, ne_eq, not_false_eq_true, not_true_eq_false,
        false_implies]
      exact (and_iff_right fun _ _ hr => absurd hr List.not_mem_nil).symm
    by_cases hseq : InSequence prev p
    · rw [if_neg fun hp => hp.2 hseq, if_pos ⟨hstart, hseq⟩]
      rw [keepPacket, onlyNalus_cons, ih _ p m ps hps, Follows, StartsFollowEnds,
        belongsToNalu_concat hstart, noBytes_cons, and_iff_right hseq]
      -- Whether the unit of `prev` is there decides about `p` and what goes on behind it.
      generalize (prev.completeNALU ≠ .kNaluEnd ∧ BelongsToNalu before prev) = whole
      generalize NoBytes (continuation p ps) = none
      rw [Nat.pos_iff_ne_zero]
      tauto
    · rw [if_pos ⟨hstart, hseq⟩, if_neg fun hp => hseq hp.2]
      rw [deleteNalu_decodable hstart m fun before prev m qs hqs => ih before prev m qs (hqs.trans hps)]
      exact (and_iff_right fun _ _ hr => absurd hr List.not_mem_nil).symm

/-! ## A session -/

/-- Behind the end of a NAL unit no bytes follow in sequence before the next start, and neither
does the session begin with bytes of an unset packet, or in sequence behind one. -/
def NalusFlagged : List (VCMPacket Nat) → Prop
  | [] => True
  | p :: ps => (p.completeNALU = .kNaluUnset → NoBytes (p :: continuation p ps)) ∧
      StartsFollowEnds (p :: ps)

theorem makeDecodablePackets_decodable (m : Mem) (ps : List (VCMPacket Nat)) :
    OnlyNalus [] (makeDecodablePackets m ps).packets ↔ NalusFlagged ps := by
  cases ps with
  | nil => exact iff_of_true onlyNalus_nil trivial
  | cons p ps =>
    have hloop := fun before prev m qs hqs => makeDecodableFrom_decodable ps.length before prev m qs hqs
    rw [makeDecodablePackets, NalusFlagged]
    by_cases hdelete : p.completeNALU = .kNaluIncomplete ∨ p.completeNALU = .kNaluEnd
    · have hstart : ¬ startOfNalu p = true := fun h => by
        rcases hdelete with hp | hp <;> rw [startOfNalu, hp] at h <;> exact absurd h (by decide)
      have hunset : p.completeNALU ≠ .kNaluUnset := by
        rcases hdelete with hp | hp <;> rw [hp] <;> decide
      rw [if_pos hdelete, deleteNalu_decodable hstart m hloop]
      exact (and_iff_right fun hp => absurd hp hunset).symm
    · have hend : p.completeNALU ≠ .kNaluEnd := fun hp => hdelete (.inr hp)
      rw [if_neg hdelete, keepPacket, onlyNalus_cons, hloop [] p m ps le_rfl, Follows,
        StartsFollowEnds, noBytes_cons]
      by_cases hstart : startOfNalu p = true
      · have hunset : p.completeNALU ≠ .kNaluUnset := by
          rcases of_decide_eq_true hstart with hp | hp <;> rw [hp] <;> decide
        have hbelongs : BelongsToNalu [] p := belongsToNalu_start hstart
        tauto
      · have hunset : p.completeNALU = .kNaluUnset := by
          have hp : ¬ (p.completeNALU = .kNaluStart ∨ p.completeNALU = .kNaluComplete) :=
            fun h => hstart (decide_eq_true h)
          cases hflag : p.completeNALU <;> simp [hflag] at hp hdelete ⊢
        have hbelongs := not_belongsToNalu_nil hstart
        rw [Nat.pos_iff_ne_zero]
        tauto

end Nalus

/-- In the order of the numbers on the circle, if half of it holds them. -/
def InSequenceOrder (numbers : List (BitVec 16)) : Prop :=
  ∀ base, (∀ a ∈ numbers, InHalf base a) →
    numbers.Pairwise fun a b => (a - base).toNat ≤ (b - base).toNat

/-- The packets that stay are parts of NAL units that are there from their start on, and the
buffer holds their bytes in sequence order; the others are those removed. -/
structure MakesDecodable (m : Mem) (s : VCMSessionInfo) : Prop where
  nalus : OnlyNalus [] (s.makeDecodable m).2.2.packets
  packets : List.Forall₂ Outlives s.packets (s.makeDecodable m).2.2.packets
  order : InSequenceOrder ((s.makeDecodable m).2.2.packets.map VCMPacket.seqNum)
  bytes : (s.makeDecodable m).2.1.bytes 0 (s.makeDecodable m).2.2.sessionLength =
    remaining m s.packets (s.makeDecodable m).2.2.packets
  removed : (s.makeDecodable m).1 + (s.makeDecodable m).2.2.sessionLength = s.sessionLength

section Sessions

variable {ps before behind : List (VCMPacket Mem)} {s : VCMSessionInfo}

theorem Splits.inSequenceOrder {p : VCMPacket Mem} (hsplits : Splits p.seqNum before behind)
    (h : InSequenceOrder ((before ++ behind).map VCMPacket.seqNum)) :
    InSequenceOrder ((before ++ p :: behind).map VCMPacket.seqNum) := by
  intro base hbase
  rw [List.forall_mem_map] at hbase
  have hp : InHalf base p.seqNum := hbase p (List.mem_append_right _ List.mem_cons_self)
  have hbefore : ∀ q ∈ before, InHalf base q.seqNum := fun q hq =>
    hbase q (List.mem_append_left _ hq)
  have hbehind : ∀ q ∈ behind, InHalf base q.seqNum := fun q hq =>
    hbase q (List.mem_append_right _ (List.mem_cons_of_mem _ hq))
  have hsorted := h base (List.forall_mem_map.mpr fun q hq =>
    (List.mem_append.mp hq).elim (hbefore q) (hbehind q))
  rw [List.pairwise_map] at hsorted ⊢
  obtain ⟨hinit, hrest, hcross⟩ := List.pairwise_append.mp hsorted
  have hlater : ∀ q ∈ behind, (p.seqNum - base).toNat ≤ (q.seqNum - base).toNat := fun q hq => by
    have hne := hsplits.behind q hq
    rw [ne_eq, latestSequenceNumber_eq_left_iff hp (hbehind q hq)] at hne
    omega
  have hearlier : ∀ q ∈ before, (q.seqNum - base).toNat ≤ (p.seqNum - base).toNat := by
    rcases List.eq_nil_or_concat' before with rfl | ⟨init, last, rfl⟩
    · exact fun _ h => absurd h List.not_mem_nil
    · have hmem : last ∈ init ++ [last] := List.mem_append_right _ List.mem_cons_self
      have hlast := hsplits.before last List.getLast?_concat
      rw [latestSequenceNumber_eq_left_iff hp (hbefore last hmem)] at hlast
      intro q hq
      rcases List.mem_append.mp hq with hq | hq
      · exact ((List.pairwise_append.mp hinit).2.2 q hq last List.mem_cons_self).trans hlast
      · rw [List.mem_singleton.mp hq]
        exact hlast
  refine List.pairwise_append.mpr ⟨hinit, List.pairwise_cons.mpr ⟨hlater, hrest⟩, ?_⟩
  intro q hq r hr
  rcases List.mem_cons.mp hr with rfl | hr
  · exact hearlier q hq
  · exact hcross q hq r hr

/-- An insertion keeps the packets, or puts another one between them. -/
theorem insertPacket_packets (hs : s.packets = layout 0 ps) (mode : VCMDecodeErrorMode)
    (frameData : FrameData) (p : VCMPacket Mem) (m : Mem) :
    (s.insertPacket mode frameData p m).2.2.packets = layout 0 ps ∨
      ∃ before behind, ps = before ++ behind ∧ Splits p.seqNum before behind ∧
        (s.insertPacket mode frameData p m).2.2.packets = layout 0 (before ++ p :: behind) := by
  by_cases hempty : p.frameType = .kFrameEmpty
  · left
    rw [insertPacket, if_pos hempty]
    show (s.updateFrameType p).packets = layout 0 ps
    rw [updateFrameType_packets, hs]
  obtain ⟨before, behind, hps, hsplits, -, -, hcases⟩ :=
    insertPacket_layout hs hempty mode frameData m
  rcases hcases with ⟨-, hinsert⟩ | ⟨-, -, hinsert⟩ | ⟨-, -, hinsert⟩
  · left
    rw [hinsert, updateFrameType_packets, hs]
  · left
    rw [hinsert, updateFrameType_packets, hs]
  · refine .inr ⟨before, behind, hps, hsplits, ?_⟩
    rw [hinsert, updateDecodable_packets, updateCompleteSession_packets]

/-- The packets of a session: one behind the other, and in order. -/
theorem run_laid (m : Mem) (calls : List Call) :
    ∃ ps, (run m calls).2.packets = layout 0 ps ∧
      InSequenceOrder (ps.map VCMPacket.seqNum) := by
  induction calls using List.reverseRecOn with
  | nil => exact ⟨[], rfl, fun _ _ => .nil⟩
  | append_singleton calls call ih =>
    obtain ⟨ps, hps, horder⟩ := ih
    rw [run_append]
    rcases insertPacket_packets hps call.mode call.frameData call.packet (run m calls).1 with
      hsame | ⟨before, behind, rfl, hsplits, hinserted⟩
    · exact ⟨ps, hsame, horder⟩
    · exact ⟨_, hinserted, hsplits.inSequenceOrder horder⟩

theorem outlives_seqNums {ps qs : List (VCMPacket Nat)} (h : List.Forall₂ Outlives ps qs) :
    qs.map VCMPacket.seqNum = ps.map VCMPacket.seqNum := by
  induction h with
  | nil => rfl
  | cons hpq _ ih =>
    rw [List.map_cons, List.map_cons, ih]
    rcases hpq with ⟨hq, -⟩ | hq
    · rw [hq]
    · rw [hq]
      rfl

/-- Whatever packets were inserted, the session is made decodable exactly if the flags of its
packets let a NAL unit follow each end of one. -/
theorem makeDecodable_iff (m : Mem) (calls : List Call) :
    MakesDecodable (run m calls).1 (run m calls).2 ↔ NalusFlagged (run m calls).2.packets := by
  obtain ⟨ps, hps, horder⟩ := run_laid m calls
  have hlaid : Laid 0 (run m calls).2.packets := hps ▸ layout_laid 0 ps
  have hcompacts := makeDecodablePackets_compacts (m := (run m calls).1) hlaid
  rw [← makeDecodablePackets_decodable (run m calls).1]
  refine ⟨fun h => h.nalus, fun h => ⟨h, hcompacts.packets, ?_, hcompacts.bytes, hcompacts.removed⟩⟩
  show InSequenceOrder ((makeDecodablePackets _ _).packets.map VCMPacket.seqNum)
  rw [outlives_seqNums hcompacts.packets, hps, layout_seqNums]
  exact horder

/-- A packet of one byte. -/
def flaggedCall (seqNum : BitVec 16) (completeNALU : VCMNaluCompleteness) : Call where
  mode := .kNoErrors
  frameData := ⟨0, fun _ => false⟩
  packet :=
    { seqNum := seqNum, dataPtr := some (Mem.ofList [7]), sizeBytes := 1,
      frameType := .kVideoFrameDelta, completeNALU := completeNALU }

/-- The end of a NAL unit without its start is deleted, and what follows in sequence stays. -/
theorem not_makesDecodable :
    ¬ ∀ (m : Mem) (calls : List Call), MakesDecodable (run m calls).1 (run m calls).2 := by
  intro h
  have hnalus := (h (Mem.ofList []) [flaggedCall 1 .kNaluEnd, flaggedCall 2 .kNaluIncomplete]).nalus
  have hpackets : ((run (Mem.ofList []) [flaggedCall 1 .kNaluEnd,
      flaggedCall 2 .kNaluIncomplete]).2.makeDecodable (run (Mem.ofList []) [flaggedCall 1 .kNaluEnd,
        flaggedCall 2 .kNaluIncomplete]).1).2.2.packets =
      [((flaggedCall 1 .kNaluEnd).packet.placed 0).emptied,
        (flaggedCall 2 .kNaluIncomplete).packet.placed 0] := rfl
  rw [hpackets, onlyNalus_cons, onlyNalus_cons] at hnalus
  have hbelongs := hnalus.2.1 Nat.one_pos
  rw [belongsToNalu_concat (by decide)] at hbelongs
  exact hbelongs.2.1 rfl

end Sessions

end VCMSessionInfo

end PerchWebrtc.Video
