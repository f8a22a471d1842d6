import PerchWebrtc.Video.MakeDecodable

/-!
# The partitions of a VP8 frame

`BuildVP8FragmentationHeader` of `VCMSessionInfo` (`session_info.cc`): the ranges of the frame
buffer that hold the partitions, each from a packet at which it begins up to a loss or another
partition.

* `findPartitionEnd_spec`: the packets of a range;
* `buildPartitions_built`: the ranges that are there when the packets up to one were passed;
* `fillEmpty_spec`: where the partitions without bytes are put;
* `buildVP8FragmentationHeader_fragments`: what holds of the header of any session.
-/

namespace PerchWebrtc.Video

def kMaxVP8Partitions : Nat := 9

/-- The two arrays that are used, by their indices. -/
structure RTPFragmentationHeader where
  fragmentationVectorSize : Nat := 0
  fragmentationOffset : Nat → Nat := fun _ => 0
  fragmentationLength : Nat → Nat := fun _ => 0

namespace RTPFragmentationHeader

/-- New places of the arrays are set to zero. -/
def verifyAndAllocateFragmentationHeader (size : Nat) (h : RTPFragmentationHeader) :
    RTPFragmentationHeader :=
  if h.fragmentationVectorSize < size then
    { fragmentationVectorSize := size
      fragmentationOffset := fun i =>
        if i < h.fragmentationVectorSize then h.fragmentationOffset i else 0
      fragmentationLength := fun i =>
        if i < h.fragmentationVectorSize then h.fragmentationLength i else 0 }
  else h

end RTPFragmentationHeader

namespace VCMSessionInfo

open RTPFragmentationHeader

/-! ## The model -/

/-- The packets from the one that is found on, and how many were skipped. -/
def findNextPartitionBeginning : List (VCMPacket Nat) → List (VCMPacket Nat) × Nat
  | [] => ([], 0)
  | packet :: packets =>
    if packet.beginningOfPartition then (packet :: packets, 0)
    else
      let found := findNextPartitionBeginning packets
      (found.1, found.2 + 1)

/-- The loop of `FindPartitionEnd` behind `prev`: the packets up to the end of the partition,
and those behind it. -/
def findPartitionEnd (partitionId : Nat) (prev : VCMPacket Nat) :
    List (VCMPacket Nat) → List (VCMPacket Nat) × List (VCMPacket Nat)
  | [] => ([], [])
  | packet :: packets =>
    let packetLossFound := !packet.beginningOfPartition ∧ ¬ InSequence prev packet
    if packetLossFound ∨ packet.beginningOfPartition ∧ packet.partitionId ≠ partitionId then
      -- Missing packet, the previous packet was the last in sequence.
      ([], packet :: packets)
    else
      let found := findPartitionEnd partitionId packet packets
      (packet :: found.1, found.2)

structure Partitions where
  newLength : Nat := 0
  packetsNotDecodable : Nat := 0
  fragmentation : RTPFragmentationHeader

/-- One partition, whose packets were found. -/
def addPartition (packet : VCMPacket Nat) (behind : List (VCMPacket Nat)) (b : Partitions) :
    Partitions :=
  let partitionEnd := behind.getLastD packet
  let offset := packet.dataPtr.getD 0
  let length := partitionEnd.dataPtr.getD 0 + partitionEnd.sizeBytes - offset
  let f := b.fragmentation
  { b with
    newLength := b.newLength + length
    fragmentation :=
      { fragmentationVectorSize := max f.fragmentationVectorSize (packet.partitionId + 1)
        fragmentationOffset := Function.update f.fragmentationOffset packet.partitionId offset
        fragmentationLength := Function.update f.fragmentationLength packet.partitionId length } }

/-- The loop over the partitions, from the beginning of one on. The fuel bounds the packets. -/
def buildPartitions : Nat → List (VCMPacket Nat) → Partitions → Partitions
  | fuel + 1, packet :: packets, b =>
    let found := findPartitionEnd packet.partitionId packet packets
    let next := findNextPartitionBeginning found.2
    let added := addPartition packet found.1 b
    buildPartitions fuel next.1
      { added with packetsNotDecodable := added.packetsNotDecodable + next.2 }
  | _, _, b => b

/-- An empty fragment starts where the previous one ends. -/
def fillEmptyAt (f : RTPFragmentationHeader) (i : Nat) : RTPFragmentationHeader :=
  if f.fragmentationLength i = 0 then
    let previousEnd := f.fragmentationOffset (i - 1) + f.fragmentationLength (i - 1)
    { f with fragmentationOffset := Function.update f.fragmentationOffset i previousEnd }
  else f

def fillEmpty (f : RTPFragmentationHeader) : RTPFragmentationHeader :=
  let first :=
    if f.fragmentationLength 0 = 0 then
      { f with fragmentationOffset := Function.update f.fragmentationOffset 0 0 }
    else f
  (List.range' 1 (f.fragmentationVectorSize - 1)).foldl fillEmptyAt first

/-- The header before the first partition. -/
def emptyFragmentation (fragmentation : RTPFragmentationHeader) : RTPFragmentationHeader :=
  let f := fragmentation.verifyAndAllocateFragmentationHeader kMaxVP8Partitions
  { f with
    fragmentationVectorSize := 0
    fragmentationLength := fun i => if i < kMaxVP8Partitions then 0 else f.fragmentationLength i }

/-- The length of the partitions, the header, and the session with the packets that were skipped
counted. -/
def buildVP8FragmentationHeader (fragmentation : RTPFragmentationHeader) (s : VCMSessionInfo) :
    Nat × RTPFragmentationHeader × VCMSessionInfo :=
  let f := emptyFragmentation fragmentation
  if s.packets.isEmpty then (0, f, s)
  else
    let first := findNextPartitionBeginning s.packets
    let b := buildPartitions s.packets.length first.1
      { packetsNotDecodable := s.packetsNotDecodable + first.2, fragmentation := f }
    (b.newLength, fillEmpty b.fragmentation, { s with packetsNotDecodable := b.packetsNotDecodable })

/-! ## The packets of a partition -/

/-- A packet that does not end the partition: it begins the partition again, or follows in
sequence and begins none. -/
def GoesOn (partitionId : Nat) (prev packet : VCMPacket Nat) : Prop :=
  if packet.beginningOfPartition then packet.partitionId = partitionId else InSequence prev packet

/-- A range of the buffer holds packets that follow each other in the list, from one on at which
the partition begins. -/
def IsRange (packets : List (VCMPacket Nat)) (partitionId offset length : Nat) : Prop :=
  ∃ before run behind, packets = before ++ run ++ behind ∧ offset = bytesIn before ∧
    length = bytesIn run ∧
    (∃ first ∈ run.head?, first.beginningOfPartition = true ∧ first.partitionId = partitionId) ∧
    run.IsChain (GoesOn partitionId)

section Packets

variable {packets done run behind ps : List (VCMPacket Nat)} {p : VCMPacket Nat} {offset : Nat}
  {b : Partitions}

theorem findNextPartitionBeginning_spec (ps : List (VCMPacket Nat)) :
    (∃ skipped, ps = skipped ++ (findNextPartitionBeginning ps).1) ∧
      ∀ q ∈ (findNextPartitionBeginning ps).1.head?, q.beginningOfPartition = true := by
  induction ps with
  | nil => exact ⟨⟨[], rfl⟩, fun _ h => absurd h (Option.not_mem_none _)⟩
  | cons p ps ih =>
    rw [findNextPartitionBeginning]
    by_cases hp : p.beginningOfPartition = true
    · rw [if_pos hp]
      refine ⟨⟨[], rfl⟩, fun q hq => ?_⟩
      obtain rfl : p = q := Option.some.inj hq
      exact hp
    · rw [if_neg hp]
      obtain ⟨⟨skipped, hskipped⟩, hhead⟩ := ih
      exact ⟨⟨p :: skipped, congrArg (p :: ·) hskipped⟩, hhead⟩

theorem findPartitionEnd_spec (partitionId : Nat) (prev : VCMPacket Nat)
    (ps : List (VCMPacket Nat)) :
    ps = (findPartitionEnd partitionId prev ps).1 ++ (findPartitionEnd partitionId prev ps).2 ∧
      (prev :: (findPartitionEnd partitionId prev ps).1).IsChain (GoesOn partitionId) := by
  induction ps generalizing prev with
  | nil => exact ⟨rfl, .singleton prev⟩
  | cons p ps ih =>
    rw [findPartitionEnd]
    dsimp only
    split
    · exact ⟨rfl, .singleton prev⟩
    · rename_i hgo
      obtain ⟨hsplit, hchain⟩ := ih p
      refine ⟨congrArg (p :: ·) hsplit, List.isChain_cons_cons.mpr ⟨?_, hchain⟩⟩
      rw [GoesOn]
      split
      · rename_i hbeginning
        by_contra hne
        exact hgo (.inr ⟨hbeginning, hne⟩)
      · rename_i hbeginning
        by_contra hloss
        exact hgo (.inl ⟨by simpa using hbeginning, hloss⟩)

/-- The place behind the last packet. -/
theorem laid_last (h : Laid offset (p :: run)) :
    (run.getLastD p).dataPtr.getD 0 + (run.getLastD p).sizeBytes = offset + bytesIn (p :: run) := by
  induction run generalizing p offset with
  | nil => rw [List.getLastD_nil, h.1, Option.getD_some]; rfl
  | cons q run ih =>
    rw [List.getLastD_cons, ih h.2, bytesIn_cons p, Nat.add_assoc]

/-- The range of a partition, from the bytes in front of its packets. -/
theorem addPartition_eq (hlaid : Laid 0 (done ++ p :: run ++ behind)) (b : Partitions) :
    addPartition p run b =
      { b with
        newLength := b.newLength + bytesIn (p :: run)
        fragmentation :=
          { fragmentationVectorSize := max b.fragmentation.fragmentationVectorSize (p.partitionId + 1)
            fragmentationOffset :=
              Function.update b.fragmentation.fragmentationOffset p.partitionId (bytesIn done)
            fragmentationLength := Function.update b.fragmentation.fragmentationLength
              p.partitionId (bytesIn (p :: run)) } } := by
  have hrun : Laid (bytesIn done) (p :: run) := by
    have h := (Laid.append.mp (Laid.append.mp hlaid).1).2
    rwa [Nat.zero_add] at h
  have hlast := laid_last hrun
  unfold addPartition
  dsimp only
  rw [hrun.1, Option.getD_some, hlast, Nat.add_sub_cancel_left]

end Packets

/-! ## The ranges -/

/-- Partitions begin in the order of their ids, or begin again. -/
def OrderedPartitions (packets : List (VCMPacket Nat)) : Prop :=
  packets.Pairwise fun p q => p.beginningOfPartition = true → q.beginningOfPartition = true →
    p.partitionId ≤ q.partitionId

/-- The ranges when the packets in `done` were passed. -/
structure Built (packets done : List (VCMPacket Nat)) (b : Partitions) : Prop where
  size : b.fragmentation.fragmentationVectorSize ≤ kMaxVP8Partitions
  total : b.newLength ≤ bytesIn done
  used : ∀ i < kMaxVP8Partitions, 0 < b.fragmentation.fragmentationLength i →
    i < b.fragmentation.fragmentationVectorSize
  range : ∀ i < kMaxVP8Partitions, 0 < b.fragmentation.fragmentationLength i →
    IsRange packets i (b.fragmentation.fragmentationOffset i) (b.fragmentation.fragmentationLength i)
  inside : ∀ i < kMaxVP8Partitions, 0 < b.fragmentation.fragmentationLength i →
    b.fragmentation.fragmentationOffset i + b.fragmentation.fragmentationLength i ≤ bytesIn done
  begun : ∀ i < kMaxVP8Partitions, 0 < b.fragmentation.fragmentationLength i →
    ∃ q ∈ done, q.beginningOfPartition = true ∧ q.partitionId = i
  apart : ∀ i < kMaxVP8Partitions, ∀ j < kMaxVP8Partitions, i ≠ j →
    0 < b.fragmentation.fragmentationLength i → 0 < b.fragmentation.fragmentationLength j →
    b.fragmentation.fragmentationOffset i + b.fragmentation.fragmentationLength i ≤
        b.fragmentation.fragmentationOffset j ∨
      b.fragmentation.fragmentationOffset j + b.fragmentation.fragmentationLength j ≤
        b.fragmentation.fragmentationOffset i
  ordered : OrderedPartitions packets → ∀ j < kMaxVP8Partitions, ∀ i < j,
    0 < b.fragmentation.fragmentationLength i → 0 < b.fragmentation.fragmentationLength j →
    b.fragmentation.fragmentationOffset i + b.fragmentation.fragmentationLength i ≤
      b.fragmentation.fragmentationOffset j

section Ranges

variable {packets done run behind ps : List (VCMPacket Nat)} {p : VCMPacket Nat} {b : Partitions}

theorem emptyFragmentation_length (f : RTPFragmentationHeader) {i : Nat}
    (hi : i < kMaxVP8Partitions) : (emptyFragmentation f).fragmentationLength i = 0 :=
  if_pos hi

/-- Before the first partition. -/
theorem built_empty (f : RTPFragmentationHeader) (n : Nat) :
    Built packets done { packetsNotDecodable := n, fragmentation := emptyFragmentation f } where
  size := Nat.zero_le _
  total := Nat.zero_le _
  used i hi h := absurd h (by rw [emptyFragmentation_length f hi]; exact Nat.lt_irrefl 0)
  range i hi h := absurd h (by rw [emptyFragmentation_length f hi]; exact Nat.lt_irrefl 0)
  inside i hi h := absurd h (by rw [emptyFragmentation_length f hi]; exact Nat.lt_irrefl 0)
  begun i hi h := absurd h (by rw [emptyFragmentation_length f hi]; exact Nat.lt_irrefl 0)
  apart i hi _ _ _ h := absurd h (by rw [emptyFragmentation_length f hi]; exact Nat.lt_irrefl 0)
  ordered _ j hj _ _ _ h := absurd h (by rw [emptyFragmentation_length f hj]; exact Nat.lt_irrefl 0)

/-- Packets that are skipped. -/
theorem Built.skip (h : Built packets done b) (skipped : List (VCMPacket Nat)) (n : Nat) :
    Built packets (done ++ skipped) { b with packetsNotDecodable := n } where
  size := h.size
  total := by
    rw [bytesIn_append]
    exact h.total.trans (Nat.le_add_right _ _)
  used := h.used
  range := h.range
  inside i hi hlen := by
    rw [bytesIn_append]
    exact (h.inside i hi hlen).trans (Nat.le_add_right _ _)
  begun i hi hlen := by
    obtain ⟨q, hq, hbegun⟩ := h.begun i hi hlen
    exact ⟨q, List.mem_append_left _ hq, hbegun⟩
  apart := h.apart
  ordered := h.ordered

/-- A partition that was found behind the others. -/
theorem Built.add (h : Built packets done b) (hsplit : packets = done ++ p :: run ++ behind)
    (hlaid : Laid 0 packets) (hid : p.partitionId < kMaxVP8Partitions)
    (hbeginning : p.beginningOfPartition = true)
    (hchain : (p :: run).IsChain (GoesOn p.partitionId)) :
    Built packets (done ++ p :: run) (addPartition p run b) := by
  have hrange : IsRange packets p.partitionId (bytesIn done) (bytesIn (p :: run)) :=
    ⟨done, p :: run, behind, hsplit, rfl, rfl, ⟨p, rfl, hbeginning, rfl⟩, hchain⟩
  have hearlier : OrderedPartitions packets → ∀ i < kMaxVP8Partitions,
      0 < b.fragmentation.fragmentationLength i → i ≤ p.partitionId := fun hordered i hi hlen => by
    obtain ⟨q, hq, hqbeginning, hqid⟩ := h.begun i hi hlen
    rw [hsplit, OrderedPartitions, List.append_assoc] at hordered
    rw [← hqid]
    exact (List.pairwise_append.mp hordered).2.2 q hq p List.mem_cons_self hqbeginning hbeginning
  rw [hsplit] at hlaid
  rw [addPartition_eq hlaid]
  -- A range is the new one, or it was there.
  have hcases : ∀ i,
      (i = p.partitionId ∧
        Function.update b.fragmentation.fragmentationOffset p.partitionId (bytesIn done) i =
          bytesIn done ∧
        Function.update b.fragmentation.fragmentationLength p.partitionId (bytesIn (p :: run)) i =
          bytesIn (p :: run)) ∨
      (i ≠ p.partitionId ∧
        Function.update b.fragmentation.fragmentationOffset p.partitionId (bytesIn done) i =
          b.fragmentation.fragmentationOffset i ∧
        Function.update b.fragmentation.fragmentationLength p.partitionId (bytesIn (p :: run)) i =
          b.fragmentation.fragmentationLength i) := fun i => by
    by_cases hi : i = p.partitionId
    · rw [hi, Function.update_self, Function.update_self]
      exact .inl ⟨rfl, rfl, rfl⟩
    · rw [Function.update_of_ne hi, Function.update_of_ne hi]
      exact .inr ⟨hi, rfl, rfl⟩
  generalize Function.update b.fragmentation.fragmentationOffset p.partitionId (bytesIn done) =
    offset at hcases ⊢
  generalize Function.update b.fragmentation.fragmentationLength p.partitionId
    (bytesIn (p :: run)) = length at hcases ⊢
  have hsum : bytesIn (done ++ p :: run) = bytesIn done + bytesIn (p :: run) := bytesIn_append _ _
  refine ⟨max_le h.size hid, ?_, fun i hi hlen => ?_, fun i hi hlen => ?_, fun i hi hlen => ?_,
    fun i hi hlen => ?_, fun i hi j hj hij hleni hlenj => ?_,
    fun hordered j hj i hij hleni hlenj => ?_⟩
  · rw [hsum]
    exact Nat.add_le_add_right h.total _
  · show i < max _ _
    rcases hcases i with ⟨rfl, -⟩ | ⟨-, -, hlength⟩
    · exact Nat.lt_of_lt_of_le (Nat.lt_succ_self _) (le_max_right _ _)
    · have hlen : 0 < length i := hlen
      rw [hlength] at hlen
      exact (h.used i hi hlen).trans_le (le_max_left _ _)
  · show IsRange packets i (offset i) (length i)
    have hlen : 0 < length i := hlen
    rcases hcases i with ⟨rfl, hoffset, hlength⟩ | ⟨-, hoffset, hlength⟩ <;>
      rw [hlength] at hlen <;> rw [hoffset, hlength]
    · exact hrange
    · exact h.range i hi hlen
  · show offset i + length i ≤ _
    have hlen : 0 < length i := hlen
    rcases hcases i with ⟨rfl, hoffset, hlength⟩ | ⟨-, hoffset, hlength⟩ <;>
      rw [hlength] at hlen <;> rw [hoffset, hlength, hsum]
    exact (h.inside i hi hlen).trans (Nat.le_add_right _ _)
  · have hlen : 0 < length i := hlen
    rcases hcases i with ⟨rfl, -⟩ | ⟨-, -, hlength⟩
    · exact ⟨p, List.mem_append_right _ List.mem_cons_self, hbeginning, rfl⟩
    · rw [hlength] at hlen
      obtain ⟨q, hq, hbegun⟩ := h.begun i hi hlen
      exact ⟨q, List.mem_append_left _ hq, hbegun⟩
  · show offset i + length i ≤ offset j ∨ offset j + length j ≤ offset i
    have hleni : 0 < length i := hleni
    have hlenj : 0 < length j := hlenj
    rcases hcases i with ⟨rfl, hoffset, hlength⟩ | ⟨hi', hoffset, hlength⟩ <;>
      rcases hcases j with ⟨rfl, hoffset', hlength'⟩ | ⟨hj', hoffset', hlength'⟩ <;>
      simp only [hoffset, hlength, hoffset', hlength'] at hleni hlenj ⊢
    · exact absurd rfl hij
    · exact .inr (h.inside j hj hlenj)
    · exact .inl (h.inside i hi hleni)
    · exact h.apart i hi j hj hij hleni hlenj
  · show offset i + length i ≤ offset j
    have hleni : 0 < length i := hleni
    have hlenj : 0 < length j := hlenj
    have hi : i < kMaxVP8Partitions := hij.trans hj
    rcases hcases i with ⟨rfl, hoffset, hlength⟩ | ⟨hi', hoffset, hlength⟩ <;>
      rcases hcases j with ⟨rfl, hoffset', hlength'⟩ | ⟨hj', hoffset', hlength'⟩ <;>
      simp only [hoffset, hlength, hoffset', hlength'] at hleni hlenj ⊢
    · exact absurd hij (Nat.lt_irrefl _)
    · exact absurd (hearlier hordered j hj hlenj) (Nat.not_le.mpr hij)
    · exact h.inside i hi hleni
    · exact h.ordered hordered j hj i hij hleni hlenj

/-- The loop: what it has passed grows to all packets. -/
theorem buildPartitions_built (hlaid : Laid 0 packets)
    (hids : ∀ q ∈ packets, q.partitionId < kMaxVP8Partitions) :
    ∀ (fuel : Nat) {ps done : List (VCMPacket Nat)} {b : Partitions}, ps.length ≤ fuel →
      packets = done ++ ps → (∀ q ∈ ps.head?, q.beginningOfPartition = true) →
      Built packets done b → Built packets packets (buildPartitions fuel ps b)
  | fuel, [], done, b, _, hsplit, _, hb => by
    have hdone : buildPartitions fuel [] b = b := by cases fuel <;> rfl
    rw [List.append_nil] at hsplit
    rw [hdone]
    exact hsplit ▸ hb
  | 0, _ :: _, _, _, h, _, _, _ => absurd h (Nat.not_succ_le_zero _)
  | fuel + 1, p :: ps, done, b, h, hsplit, hhead, hb => by
    obtain ⟨hrun, hchain⟩ := findPartitionEnd_spec p.partitionId p ps
    obtain ⟨⟨skipped, hskipped⟩, hnext⟩ :=
      findNextPartitionBeginning_spec (findPartitionEnd p.partitionId p ps).2
    rw [buildPartitions]
    generalize findPartitionEnd p.partitionId p ps = found at hrun hchain hskipped hnext ⊢
    generalize findNextPartitionBeginning found.2 = next at hskipped hnext ⊢
    have hpackets : packets = done ++ p :: found.1 ++ found.2 := by
      rw [hsplit, hrun, List.append_assoc]
      rfl
    have hid : p.partitionId < kMaxVP8Partitions :=
      hids p (hsplit ▸ List.mem_append_right _ List.mem_cons_self)
    have hadded := hb.add hpackets hlaid hid (hhead p rfl) hchain
    have hlength : next.1.length ≤ fuel := by
      have heq := congrArg List.length hrun
      rw [hskipped, List.length_append, List.length_append] at heq
      rw [List.length_cons] at h
      omega
    refine buildPartitions_built hlaid hids fuel hlength ?_ hnext (hadded.skip skipped _)
    rw [hpackets, List.append_assoc _ skipped, ← hskipped]

end Ranges

/-! ## The partitions without bytes -/

/-- The offsets once those of empty partitions are set. -/
def filledOffset (f : RTPFragmentationHeader) : Nat → Nat
  | 0 => if f.fragmentationLength 0 = 0 then 0 else f.fragmentationOffset 0
  | i + 1 =>
    if f.fragmentationLength (i + 1) = 0 then filledOffset f i + f.fragmentationLength i
    else f.fragmentationOffset (i + 1)

section Filling

variable {f : RTPFragmentationHeader} {packets : List (VCMPacket Nat)} {b : Partitions}

theorem fillEmptyAt_length (f : RTPFragmentationHeader) (i : Nat) :
    (fillEmptyAt f i).fragmentationLength = f.fragmentationLength ∧
      (fillEmptyAt f i).fragmentationVectorSize = f.fragmentationVectorSize := by
  unfold fillEmptyAt
  split <;> exact ⟨rfl, rfl⟩

/-- The loop up to an index, from the header whose first offset is set. -/
theorem fillEmptyAt_foldl {first : RTPFragmentationHeader}
    (hlength : first.fragmentationLength = f.fragmentationLength)
    (hfirst : first.fragmentationOffset 0 = filledOffset f 0)
    (hothers : ∀ i, 0 < i → first.fragmentationOffset i = f.fragmentationOffset i) (n : Nat) :
    ((List.range' 1 n).foldl fillEmptyAt first).fragmentationLength = f.fragmentationLength ∧
      ((List.range' 1 n).foldl fillEmptyAt first).fragmentationVectorSize =
        first.fragmentationVectorSize ∧
      ∀ i, ((List.range' 1 n).foldl fillEmptyAt first).fragmentationOffset i =
        if i ≤ n then filledOffset f i else f.fragmentationOffset i := by
  induction n with
  | zero =>
    refine ⟨hlength, rfl, fun i => ?_⟩
    show first.fragmentationOffset i = _
    cases i with
    | zero => exact hfirst
    | succ i => rw [if_neg (Nat.not_succ_le_zero i), hothers _ (Nat.succ_pos i)]
  | succ n ih =>
    rw [List.range'_concat, List.foldl_append, List.foldl_cons, List.foldl_nil, Nat.one_mul,
      Nat.add_comm 1 n]
    obtain ⟨ihlength, ihsize, ihoffset⟩ := ih
    generalize (List.range' 1 n).foldl fillEmptyAt first = g at ihlength ihsize ihoffset ⊢
    obtain ⟨hkept, hsize⟩ := fillEmptyAt_length g (n + 1)
    refine ⟨hkept.trans ihlength, hsize.trans ihsize, fun i => ?_⟩
    unfold fillEmptyAt
    rw [ihlength]
    by_cases hempty : f.fragmentationLength (n + 1) = 0
    · rw [if_pos hempty]
      show Function.update g.fragmentationOffset (n + 1)
        (g.fragmentationOffset n + f.fragmentationLength n) i = _
      rcases eq_or_ne i (n + 1) with rfl | hne
      · rw [Function.update_self, ihoffset, if_pos le_rfl, if_pos le_rfl, filledOffset, if_pos hempty]
      · rw [Function.update_of_ne hne, ihoffset]
        exact if_congr (by omega) rfl rfl
    · rw [if_neg hempty, ihoffset]
      rcases eq_or_ne i (n + 1) with rfl | hne
      · rw [if_neg (by omega), if_pos le_rfl, filledOffset, if_neg hempty]
      · exact if_congr (by omega) rfl rfl

theorem fillEmpty_spec (f : RTPFragmentationHeader) :
    (fillEmpty f).fragmentationLength = f.fragmentationLength ∧
      (fillEmpty f).fragmentationVectorSize = f.fragmentationVectorSize ∧
      ∀ i < f.fragmentationVectorSize, (fillEmpty f).fragmentationOffset i = filledOffset f i := by
  have hfirst : ∃ first : RTPFragmentationHeader,
      first.fragmentationLength = f.fragmentationLength ∧
      first.fragmentationVectorSize = f.fragmentationVectorSize ∧
      first.fragmentationOffset 0 = filledOffset f 0 ∧
      (∀ i, 0 < i → first.fragmentationOffset i = f.fragmentationOffset i) ∧
      fillEmpty f = (List.range' 1 (f.fragmentationVectorSize - 1)).foldl fillEmptyAt first := by
    rw [fillEmpty, filledOffset]
    split
    · exact ⟨{ f with fragmentationOffset := Function.update f.fragmentationOffset 0 0 }, rfl, rfl,
        Function.update_self 0 0 f.fragmentationOffset,
        fun i hi => Function.update_of_ne hi.ne' 0 f.fragmentationOffset, rfl⟩
    · exact ⟨_, rfl, rfl, rfl, fun _ _ => rfl, rfl⟩
  obtain ⟨first, hlength, hsize, hzero, hothers, heq⟩ := hfirst
  obtain ⟨hlen, hvec, hoffset⟩ :=
    fillEmptyAt_foldl hlength hzero hothers (f.fragmentationVectorSize - 1)
  rw [heq]
  refine ⟨hlen, hvec.trans hsize, fun i hi => ?_⟩
  rw [hoffset, if_pos (by omega)]

theorem filledOffset_of_pos {i : Nat} (h : 0 < f.fragmentationLength i) :
    filledOffset f i = f.fragmentationOffset i := by
  cases i <;> rw [filledOffset, if_neg (Nat.pos_iff_ne_zero.mp h)]

theorem Built.filled_inside (h : Built packets packets b) {i : Nat} (hi : i < kMaxVP8Partitions) :
    filledOffset b.fragmentation i + b.fragmentation.fragmentationLength i ≤ bytesIn packets := by
  rcases Nat.eq_zero_or_pos (b.fragmentation.fragmentationLength i) with hempty | hpos
  · rw [hempty, Nat.add_zero]
    cases i with
    | zero => rw [filledOffset, if_pos hempty]; exact Nat.zero_le _
    | succ i =>
      rw [filledOffset, if_pos hempty]
      exact h.filled_inside (Nat.lt_of_succ_lt hi)
  · rw [filledOffset_of_pos hpos]
    exact h.inside i hi hpos

/-- In front of a partition with bytes, where the ids are in order. -/
theorem Built.filled_before (h : Built packets packets b) (hordered : OrderedPartitions packets)
    {j : Nat} (hj : j < kMaxVP8Partitions) (hpos : 0 < b.fragmentation.fragmentationLength j)
    {i : Nat} (hij : i < j) :
    filledOffset b.fragmentation i + b.fragmentation.fragmentationLength i ≤
      b.fragmentation.fragmentationOffset j := by
  rcases Nat.eq_zero_or_pos (b.fragmentation.fragmentationLength i) with hempty | hpos'
  · rw [hempty, Nat.add_zero]
    cases i with
    | zero => rw [filledOffset, if_pos hempty]; exact Nat.zero_le _
    | succ i =>
      rw [filledOffset, if_pos hempty]
      exact h.filled_before hordered hj hpos (Nat.lt_of_succ_lt hij)
  · rw [filledOffset_of_pos hpos']
    exact h.ordered hordered j hj i hij hpos' hpos

theorem Built.filled_ordered (h : Built packets packets b) (hordered : OrderedPartitions packets)
    {j : Nat} (hj : j < kMaxVP8Partitions) {i : Nat} (hij : i < j) :
    filledOffset b.fragmentation i + b.fragmentation.fragmentationLength i ≤
      filledOffset b.fragmentation j := by
  induction j with
  | zero => exact absurd hij (Nat.not_lt_zero i)
  | succ j ih =>
    rcases Nat.eq_zero_or_pos (b.fragmentation.fragmentationLength (j + 1)) with hempty | hpos
    · rw [filledOffset.eq_2 b.fragmentation j, if_pos hempty]
      rcases Nat.lt_succ_iff_lt_or_eq.mp hij with hlt | rfl
      · exact (ih (Nat.lt_of_succ_lt hj) hlt).trans (Nat.le_add_right _ _)
      · exact le_rfl
    · rw [filledOffset_of_pos hpos]
      exact h.filled_before hordered hj hpos hij

end Filling

/-! ## The header of a session -/

/-- The ranges of the partitions of a session: in the buffer, none over another, and, where the
partitions begin in order, one behind the other. -/
structure Fragments (s : VCMSessionInfo) (newLength : Nat) (f : RTPFragmentationHeader) : Prop where
  size : f.fragmentationVectorSize ≤ kMaxVP8Partitions
  total : newLength ≤ s.sessionLength
  inside : ∀ i < f.fragmentationVectorSize,
    f.fragmentationOffset i + f.fragmentationLength i ≤ s.sessionLength
  apart : ∀ i < f.fragmentationVectorSize, ∀ j < f.fragmentationVectorSize, i ≠ j →
    0 < f.fragmentationLength i → 0 < f.fragmentationLength j →
    f.fragmentationOffset i + f.fragmentationLength i ≤ f.fragmentationOffset j ∨
      f.fragmentationOffset j + f.fragmentationLength j ≤ f.fragmentationOffset i
  increasing : OrderedPartitions s.packets → ∀ j < f.fragmentationVectorSize, ∀ i < j,
    f.fragmentationOffset i + f.fragmentationLength i ≤ f.fragmentationOffset j
  partition : ∀ i < f.fragmentationVectorSize, 0 < f.fragmentationLength i →
    IsRange s.packets i (f.fragmentationOffset i) (f.fragmentationLength i)

theorem Built.fragments {s : VCMSessionInfo} {b : Partitions} (h : Built s.packets s.packets b) :
    Fragments s b.newLength (fillEmpty b.fragmentation) := by
  obtain ⟨hlength, hsize, hoffset⟩ := fillEmpty_spec b.fragmentation
  have hlt : ∀ i < b.fragmentation.fragmentationVectorSize, i < kMaxVP8Partitions :=
    fun i hi => Nat.lt_of_lt_of_le hi h.size
  rw [← hsize] at hoffset hlt
  refine ⟨hsize ▸ h.size, h.total, fun i hi => ?_, fun i hi j hj hij hleni hlenj => ?_,
    fun hordered j hj i hij => ?_, fun i hi hlen => ?_⟩
  · rw [hlength, hoffset i hi]
    exact h.filled_inside (hlt i hi)
  · rw [hlength] at hleni hlenj ⊢
    rw [hoffset i hi, hoffset j hj, filledOffset_of_pos hleni, filledOffset_of_pos hlenj]
    exact h.apart i (hlt i hi) j (hlt j hj) hij hleni hlenj
  · rw [hlength, hoffset i (hij.trans hj), hoffset j hj]
    exact h.filled_ordered hordered (hlt j hj) hij
  · rw [hlength] at hlen ⊢
    rw [hoffset i hi, filledOffset_of_pos hlen]
    exact h.range i (hlt i hi) hlen

section Sessions

variable {m : Mem} {calls : List Call} (fragmentation : RTPFragmentationHeader)

/-- What holds of the header of a session, whatever was lost. A range may hold packets with
another id: behind the end of one partition its packet may begin the next. -/
theorem buildVP8FragmentationHeader_fragments
    (hids : ∀ q ∈ (run m calls).2.packets, q.partitionId < kMaxVP8Partitions) :
    Fragments (run m calls).2 ((run m calls).2.buildVP8FragmentationHeader fragmentation).1
      ((run m calls).2.buildVP8FragmentationHeader fragmentation).2.1 := by
  obtain ⟨ps, hps, -⟩ := run_laid m calls
  have hlaid : Laid 0 (run m calls).2.packets := hps ▸ layout_laid 0 ps
  generalize (run m calls).2 = s at hlaid hids ⊢
  unfold buildVP8FragmentationHeader
  dsimp only
  split
  · exact ⟨Nat.zero_le _, Nat.zero_le _, fun _ hi => absurd hi (Nat.not_lt_zero _),
      fun _ hi => absurd hi (Nat.not_lt_zero _), fun _ _ hi => absurd hi (Nat.not_lt_zero _),
      fun _ hi => absurd hi (Nat.not_lt_zero _)⟩
  · obtain ⟨⟨skipped, hskipped⟩, hhead⟩ := findNextPartitionBeginning_spec s.packets
    have hlength : (findNextPartitionBeginning s.packets).1.length ≤ s.packets.length := by
      conv_rhs => rw [hskipped, List.length_append]
      exact Nat.le_add_left _ _
    exact (buildPartitions_built hlaid hids s.packets.length hlength hskipped hhead
      (built_empty fragmentation _)).fragments

/-- A packet of one byte of a VP8 frame. -/
def partitionCall (seqNum : BitVec 16) (partitionId : Nat) (beginningOfPartition : Bool) : Call where
  mode := .kNoErrors
  frameData := ⟨0, fun _ => false⟩
  packet :=
    { seqNum := seqNum, dataPtr := some (Mem.ofList [7]), sizeBytes := 1,
      frameType := .kVideoFrameDelta, partitionId := partitionId,
      beginningOfPartition := beginningOfPartition }

/-- Two partitions, the second of which begins in the packet that ends the first, and a third. -/
def aggregatedCalls : List Call :=
  [partitionCall 0 0 true, partitionCall 1 1 false, partitionCall 2 2 true]

theorem aggregatedCalls_ids : ∀ q ∈ (run (Mem.ofList []) aggregatedCalls).2.packets,
    q.partitionId < kMaxVP8Partitions := by
  have hpackets : (run (Mem.ofList []) aggregatedCalls).2.packets =
      layout 0 (aggregatedCalls.map Call.packet) := rfl
  rw [hpackets]
  decide

theorem buildVP8FragmentationHeader_aggregated :
    Fragments (run (Mem.ofList []) aggregatedCalls).2
      ((run (Mem.ofList []) aggregatedCalls).2.buildVP8FragmentationHeader {}).1
      ((run (Mem.ofList []) aggregatedCalls).2.buildVP8FragmentationHeader {}).2.1 :=
  buildVP8FragmentationHeader_fragments {} aggregatedCalls_ids

/-- The packet begins in the range of a partition. -/
def Within (f : RTPFragmentationHeader) (i : Nat) (q : VCMPacket Nat) : Prop :=
  ∃ offset ∈ q.dataPtr, f.fragmentationOffset i ≤ offset ∧
    offset < f.fragmentationOffset i + f.fragmentationLength i

/-- Ranges that each hold packets of one partition, in sequence, in the order of the ids. -/
structure Separates (packets : List (VCMPacket Nat)) (f : RTPFragmentationHeader) : Prop where
  partition : ∀ i < f.fragmentationVectorSize, ∀ q ∈ packets, Within f i q → q.partitionId = i
  sequence : ∀ i < f.fragmentationVectorSize, ∀ before p q behind,
    packets = before ++ p :: q :: behind → Within f i p → Within f i q → InSequence p q
  increasing : ∀ j < f.fragmentationVectorSize, ∀ i < j,
    f.fragmentationOffset i + f.fragmentationLength i ≤ f.fragmentationOffset j

/-- The session of some packets of one byte, and its header. -/
def sessionOf (calls : List Call) : VCMSessionInfo := (run (Mem.ofList []) calls).2

def headerOf (calls : List Call) : RTPFragmentationHeader :=
  ((sessionOf calls).buildVP8FragmentationHeader {}).2.1

/-- Each part fails: a packet that ends one partition begins another; a partition begins again
behind a loss; and the ids are not in order. -/
theorem not_separates :
    (∃ q ∈ (sessionOf aggregatedCalls).packets, 0 < (headerOf aggregatedCalls).fragmentationVectorSize ∧
      Within (headerOf aggregatedCalls) 0 q ∧ q.partitionId = 1) ∧
    (∃ p q, (sessionOf [partitionCall 0 0 true, partitionCall 2 0 true]).packets = [p, q] ∧
      Within (headerOf [partitionCall 0 0 true, partitionCall 2 0 true]) 0 p ∧
      Within (headerOf [partitionCall 0 0 true, partitionCall 2 0 true]) 0 q ∧
      ¬ InSequence p q) ∧
    (headerOf [partitionCall 0 1 true, partitionCall 1 0 true]).fragmentationOffset 1 <
      (headerOf [partitionCall 0 1 true, partitionCall 1 0 true]).fragmentationOffset 0 := by
  refine ⟨⟨(partitionCall 1 1 false).packet.placed 1, List.mem_cons_of_mem _ List.mem_cons_self,
    by decide, ⟨1, rfl, by decide, by decide⟩, rfl⟩,
    ⟨(partitionCall 0 0 true).packet.placed 0, (partitionCall 2 0 true).packet.placed 1, rfl,
      ⟨0, rfl, by decide, by decide⟩, ⟨1, rfl, by decide, by decide⟩, by decide⟩, by decide⟩

/-- So it is not so for every session. -/
theorem not_allSeparate :
    ¬ ∀ (m : Mem) (calls : List Call) (fragmentation : RTPFragmentationHeader),
      (∀ q ∈ (run m calls).2.packets, q.partitionId < kMaxVP8Partitions) →
        Separates (run m calls).2.packets
          ((run m calls).2.buildVP8FragmentationHeader fragmentation).2.1 := by
  intro h
  have hseparates := h (Mem.ofList []) aggregatedCalls {} aggregatedCalls_ids
  obtain ⟨⟨q, hq, hsize, hwithin, hid⟩, -, -⟩ := not_separates
  have hzero : q.partitionId = 0 := hseparates.partition 0 hsize q hq hwithin
  exact absurd (hid.symm.trans hzero) (by decide)

end Sessions

end VCMSessionInfo

end PerchWebrtc.Video
