import Mathlib
import PerchWebrtc.Vp8.Format

/-!
# The packets of a VP8 frame

In every mode the packets of a frame are consecutive parts of it, none of them
empty or too large.

* `fill_filling`, `generateLoop_placed`: the loops of `GeneratePackets`;
* `aggregateSmallPartitions_decided`, `splitPartition_placed`,
  `balancedLoop_placed`: those of `GeneratePacketsBalancedAggregates`;
* `packetize_eq`: the packets are written one for each entry of the queue;
* `packetize_tiles`: the payloads of the packets make up the frame.
-/

namespace PerchWebrtc.Vp8

open Vp8PartitionAggregator

/-! ## The frame and its parts -/

/-- Where a partition begins. -/
def partitionStart (fragmentation : List Fragment) (i : Nat) : Nat :=
  ((fragmentation.take i).map Fragment.fragmentationLength).sum

/-- The partitions are not empty, and cover the frame one behind the other. -/
structure Tiles (fragmentation : List Fragment) (payloadSize : Nat) : Prop where
  nonempty : fragmentation ≠ []
  positive : ∀ f ∈ fragmentation, 0 < f.fragmentationLength
  offset : ∀ i (h : i < fragmentation.length),
    fragmentation[i].fragmentationOffset = partitionStart fragmentation i
  size : partitionStart fragmentation fragmentation.length = payloadSize

/-- A packet of at most `maxPayload` bytes that begins in the partition it
names. -/
structure Placed (fragmentation : List Fragment) (maxPayload : Nat) (info : InfoStruct) : Prop where
  pos : 0 < info.size
  le : info.size ≤ maxPayload
  partIx_lt : info.firstPartitionIx < fragmentation.length
  start_le : partitionStart fragmentation info.firstPartitionIx ≤ info.payloadStartPos
  lt_end : info.payloadStartPos < partitionStart fragmentation (info.firstPartitionIx + 1)

/-- A packet is marked if it begins with the first byte of its partition. -/
def Marked (fragmentation : List Fragment) (info : InfoStruct) : Prop :=
  info.firstFragment = true ↔
    info.payloadStartPos = partitionStart fragmentation info.firstPartitionIx

/-- The packets cover the bytes from a position up to another. -/
def Consecutive (P : InfoStruct → Prop) : Nat → List InfoStruct → Nat → Prop
  | pos, [], last => pos = last
  | pos, info :: infos, last =>
    info.payloadStartPos = pos ∧ P info ∧ Consecutive P (pos + info.size) infos last

section Parts

variable {fragmentation : List Fragment} {P Q : InfoStruct → Prop}

theorem Consecutive.append : ∀ {a b c : Nat} {infos infos' : List InfoStruct},
    Consecutive P a infos b → Consecutive P b infos' c → Consecutive P a (infos ++ infos') c
  | _, _, _, [], _, h, h' => (show _ = _ from h) ▸ h'
  | _, _, _, _ :: _, _, h, h' => ⟨h.1, h.2.1, h.2.2.append h'⟩

theorem Consecutive.le : ∀ {a b : Nat} {infos : List InfoStruct}, Consecutive P a infos b → a ≤ b
  | _, _, [], h => Nat.le_of_eq h
  | _, _, _ :: _, h => (Nat.le_add_right _ _).trans h.2.2.le

theorem Consecutive.sum_size : ∀ {a b : Nat} {infos : List InfoStruct}, Consecutive P a infos b →
    a + (infos.map InfoStruct.size).sum = b
  | _, _, [], h => h
  | _, _, _ :: _, h => by
    rw [List.map_cons, List.sum_cons, ← Nat.add_assoc]
    exact h.2.2.sum_size

/-- The parts of the frame that the packets cover. -/
theorem Consecutive.flatMap_slices (data : List Byte) : ∀ {a b : Nat} {infos : List InfoStruct},
    Consecutive P a infos b →
      infos.flatMap (fun info => (data.drop info.payloadStartPos).take info.size) =
        (data.drop a).take (b - a)
  | a, b, [], h => by
    rw [show b - a = 0 from Nat.sub_eq_zero_of_le (Nat.le_of_eq h.symm)]
    rfl
  | a, b, info :: infos, h => by
    have hle := h.2.2.le
    rw [List.flatMap_cons, h.2.2.flatMap_slices data, h.1, ← List.drop_drop, ← List.take_add,
      show info.size + (b - (a + info.size)) = b - a by omega]

theorem Consecutive.imp (hPQ : ∀ info, P info → Q info) : ∀ {a b : Nat} {infos : List InfoStruct},
    Consecutive P a infos b → Consecutive Q a infos b
  | _, _, [], h => h
  | _, _, _ :: _, h => ⟨h.1, hPQ _ h.2.1, h.2.2.imp hPQ⟩

theorem Consecutive.of_mem : ∀ {a b : Nat} {infos : List InfoStruct}, Consecutive P a infos b →
    ∀ info ∈ infos, P info ∧ info.payloadStartPos + info.size ≤ b
  | _, _, [], _ => nofun
  | _, _, _ :: _, h => by
    intro info hinfo
    rcases List.mem_cons.mp hinfo with rfl | hinfo
    · exact ⟨h.2.1, h.1 ▸ h.2.2.le⟩
    · exact h.2.2.of_mem info hinfo

theorem getD_of_lt {i : Nat} (hi : i < fragmentation.length) :
    fragmentation.getD i {} = fragmentation[i] := by
  rw [List.getD_eq_getElem?_getD, List.getElem?_eq_getElem hi]
  rfl

theorem partitionStart_succ {i : Nat} (hi : i < fragmentation.length) :
    partitionStart fragmentation (i + 1) =
      partitionStart fragmentation i + (fragmentation.getD i {}).fragmentationLength := by
  unfold partitionStart
  rw [List.take_add_one, List.getElem?_eq_getElem hi, List.map_append, List.sum_append,
    getD_of_lt hi]
  rfl

theorem partitionStart_mono {i j : Nat} (hij : i ≤ j) :
    partitionStart fragmentation i ≤ partitionStart fragmentation j := by
  obtain ⟨rest, hrest⟩ : fragmentation.take i <+: fragmentation.take j :=
    List.take_prefix_take_left hij
  unfold partitionStart
  rw [← hrest, List.map_append, List.sum_append]
  exact Nat.le_add_right _ _

theorem Tiles.getD_pos {payloadSize i : Nat} (h : Tiles fragmentation payloadSize)
    (hi : i < fragmentation.length) : 0 < (fragmentation.getD i {}).fragmentationLength := by
  rw [getD_of_lt hi]
  exact h.positive _ (List.getElem_mem hi)

theorem Tiles.le_size {payloadSize i : Nat} (h : Tiles fragmentation payloadSize)
    (hi : i ≤ fragmentation.length) : partitionStart fragmentation i ≤ payloadSize :=
  h.size ▸ partitionStart_mono hi

end Parts

namespace RtpFormatVp8

/-! ## Cutting through the frame -/

section Generate

variable {fmt : RtpFormatVp8} {total : Nat} {s : FillState}

theorem calcNextSize_le (maxPayloadLen remainingBytes : Nat) (splitPayload : Bool) :
    calcNextSize true maxPayloadLen remainingBytes splitPayload ≤ maxPayloadLen ∧
      calcNextSize true maxPayloadLen remainingBytes splitPayload ≤ remainingBytes := by
  unfold calcNextSize
  split
  · exact ⟨Nat.zero_le _, Nat.zero_le _⟩
  · rename_i hpos
    obtain ⟨hmax, hrem⟩ := not_or.mp hpos
    split
    · split
      · rename_i hle
        exact ⟨hle, Nat.le_refl _⟩
      · exact ⟨Nat.zero_le _, Nat.zero_le _⟩
    · rw [if_pos rfl]
      dsimp only
      -- Less than `numFrags` full packets remain, so that the mean fits into one.
      have hfull : remainingBytes < maxPayloadLen * (remainingBytes / maxPayloadLen + 1) :=
        Nat.lt_mul_div_succ _ (Nat.pos_of_ne_zero hmax)
      generalize remainingBytes / maxPayloadLen + 1 = numFrags at hfull
      have hnum : 0 < numFrags := Nat.pos_of_ne_zero fun h => by simp [h] at hfull
      constructor
      · refine Nat.le_of_lt_succ ((Nat.div_lt_iff_lt_mul (by omega)).mpr ?_)
        calc 2 * remainingBytes + numFrags < 2 * (maxPayloadLen * numFrags) + 2 * numFrags := by omega
          _ = (maxPayloadLen + 1) * (2 * numFrags) := by ring
      · refine Nat.le_of_lt_succ ((Nat.div_lt_iff_lt_mul (by omega)).mpr ?_)
        have hmul : remainingBytes ≤ remainingBytes * numFrags := Nat.le_mul_of_pos_right _ hnum
        calc 2 * remainingBytes + numFrags < 2 * (remainingBytes * numFrags) + 2 * numFrags := by omega
          _ = (remainingBytes + 1) * (2 * numFrags) := by ring

theorem calcNextSize_pos {maxPayloadLen remainingBytes : Nat} (hmax : 0 < maxPayloadLen)
    (hrem : 0 < remainingBytes) : 0 < calcNextSize true maxPayloadLen remainingBytes true := by
  unfold calcNextSize
  rw [if_neg (by omega), if_neg (by decide), if_pos rfl]
  dsimp only
  refine Nat.div_pos ?_ (Nat.mul_pos (by decide) (Nat.succ_pos _))
  have hdiv : remainingBytes / maxPayloadLen ≤ remainingBytes := Nat.div_le_self _ _
  omega

/-- The inner loop stands in a partition, and what it has taken reaches up to
what remains of it. -/
structure Filling (fmt : RtpFormatVp8) (total : Nat) (s : FillState) : Prop where
  partIx_lt : s.partIx < fmt.partInfo.length
  reach : total + s.packetBytes + s.remainingInPartition =
    partitionStart fmt.partInfo (s.partIx + 1)
  remaining_le : s.remainingInPartition ≤ (fmt.fragment s.partIx).fragmentationLength
  room : s.packetBytes + s.remPayloadLen = fmt.maxPayload

theorem Filling.take (h : Filling fmt total s) {nextSize : Nat} (hroom : nextSize ≤ s.remPayloadLen)
    (hremaining : nextSize ≤ s.remainingInPartition) : Filling fmt total (s.take nextSize) := by
  obtain ⟨hpart, hreach, hle, hsum⟩ := h
  refine ⟨hpart, ?_, ?_, ?_⟩
  · show total + (s.packetBytes + nextSize) + (s.remainingInPartition - nextSize) =
      partitionStart fmt.partInfo (s.partIx + 1)
    omega
  · exact (Nat.sub_le _ _).trans hle
  · show s.packetBytes + nextSize + (s.remPayloadLen - nextSize) = fmt.maxPayload
    omega

theorem Filling.advance (h : Filling fmt total s) (hzero : s.remainingInPartition = 0)
    (startOnNewFragment : Bool) : Filling fmt total (fmt.advance startOnNewFragment s) := by
  unfold RtpFormatVp8.advance
  split
  · rename_i hmore
    refine ⟨hmore.1, ?_, Nat.le_refl _, h.room⟩
    show total + s.packetBytes + (fmt.fragment (s.partIx + 1)).fragmentationLength = _
    have hreach := h.reach
    rw [partitionStart_succ hmore.1, ← hreach, hzero]
    rfl
  · exact h

theorem advance_packetBytes (startOnNewFragment : Bool) (s : FillState) :
    (fmt.advance startOnNewFragment s).packetBytes = s.packetBytes := by
  unfold advance
  split <;> rfl

theorem advance_remPayloadLen (startOnNewFragment : Bool) (s : FillState) :
    (fmt.advance startOnNewFragment s).remPayloadLen = s.remPayloadLen := by
  unfold advance
  split <;> rfl

theorem fill_filling (hbalance : fmt.balance = true) (startOnNewFragment beginning : Bool) :
    ∀ (fuel : Nat) {s : FillState}, Filling fmt total s →
      Filling fmt total (fmt.fill startOnNewFragment beginning fuel s) ∧
        s.packetBytes ≤ (fmt.fill startOnNewFragment beginning fuel s).packetBytes
  | 0, _, h => ⟨h, Nat.le_refl _⟩
  | fuel + 1, s, h => by
    have hle := calcNextSize_le s.remPayloadLen s.remainingInPartition s.splitPayload
    rw [fill, hbalance]
    generalize calcNextSize true s.remPayloadLen s.remainingInPartition s.splitPayload = nextSize
      at hle
    have htake := h.take hle.1 hle.2
    dsimp only
    split
    · exact ⟨h, Nat.le_refl _⟩
    · split
      · rename_i hzero
        have ih := fill_filling hbalance startOnNewFragment beginning fuel
          (htake.advance hzero.1 startOnNewFragment)
        rw [advance_packetBytes] at ih
        exact ⟨ih.1, (Nat.le_add_right _ _).trans ih.2⟩
      · split
        · exact ⟨htake, Nat.le_add_right _ _⟩
        · have ih := fill_filling hbalance startOnNewFragment beginning fuel htake
          exact ⟨ih.1, (Nat.le_add_right _ _).trans ih.2⟩

/-- A packet takes a byte at least. -/
theorem fill_pos (hbalance : fmt.balance = true) (startOnNewFragment beginning : Bool) {fuel : Nat}
    (h : Filling fmt total s) (hfuel : 0 < fuel) (hroom : 0 < s.remPayloadLen)
    (hremaining : 0 < s.remainingInPartition) (hsplit : s.splitPayload = true) :
    s.packetBytes < (fmt.fill startOnNewFragment beginning fuel s).packetBytes := by
  obtain ⟨fuel, rfl⟩ := Nat.exists_eq_succ_of_ne_zero (Nat.pos_iff_ne_zero.mp hfuel)
  have hle := calcNextSize_le s.remPayloadLen s.remainingInPartition s.splitPayload
  have hpos : 0 < calcNextSize true s.remPayloadLen s.remainingInPartition s.splitPayload := by
    rw [hsplit]
    exact calcNextSize_pos hroom hremaining
  rw [fill, hbalance]
  generalize calcNextSize true s.remPayloadLen s.remainingInPartition s.splitPayload = nextSize
    at hle hpos
  have htake := h.take hle.1 hle.2
  dsimp only
  rw [if_neg (Nat.pos_iff_ne_zero.mp hpos)]
  have hlt : s.packetBytes < s.packetBytes + nextSize := Nat.lt_add_of_pos_right hpos
  split
  · rename_i hzero
    have hmono := (fill_filling hbalance startOnNewFragment beginning fuel
      (htake.advance hzero.1 startOnNewFragment)).2
    rw [advance_packetBytes] at hmono
    exact hlt.trans_le hmono
  · split
    · exact hlt
    · exact hlt.trans_le (fill_filling hbalance startOnNewFragment beginning fuel htake).2

/-- The outer loop stands in a partition as long as there are bytes. -/
structure Standing (fmt : RtpFormatVp8) (total partIx : Nat) : Prop where
  total_le : total ≤ fmt.payloadSize
  start_le : partitionStart fmt.partInfo partIx ≤ total
  inside : total < fmt.payloadSize →
    partIx < fmt.partInfo.length ∧ total < partitionStart fmt.partInfo (partIx + 1)

theorem Standing.startPacket (htiles : Tiles fmt.partInfo fmt.payloadSize) {s : GenerateState}
    (h : Standing fmt s.totalBytesProcessed s.partIx)
    (hmore : s.totalBytesProcessed < fmt.payloadSize) :
    Filling fmt s.totalBytesProcessed (fmt.startPacket s) ∧
      (fmt.startPacket s).remainingInPartition =
        partitionStart fmt.partInfo (s.partIx + 1) - s.totalBytesProcessed := by
  obtain ⟨hlt, hend⟩ := h.inside hmore
  have hoffset : (fmt.fragment s.partIx).fragmentationOffset =
      partitionStart fmt.partInfo s.partIx := by
    rw [fragment, getD_of_lt hlt]
    exact htiles.offset s.partIx hlt
  have hsucc : partitionStart fmt.partInfo (s.partIx + 1) =
      (fmt.fragment s.partIx).fragmentationOffset + (fmt.fragment s.partIx).fragmentationLength := by
    rw [hoffset]
    exact partitionStart_succ hlt
  have hremaining : (fmt.startPacket s).remainingInPartition =
      partitionStart fmt.partInfo (s.partIx + 1) - s.totalBytesProcessed := by
    rw [hsucc]
    rfl
  have hstart := h.start_le
  refine ⟨⟨hlt, ?_, ?_, Nat.zero_add _⟩, hremaining⟩
  · rw [hremaining]
    show s.totalBytesProcessed + 0 + _ = partitionStart fmt.partInfo (s.partIx + 1)
    omega
  · rw [hremaining]
    show _ ≤ (fmt.fragment s.partIx).fragmentationLength
    omega

theorem Standing.fillPacket (hbalance : fmt.balance = true)
    (htiles : Tiles fmt.partInfo fmt.payloadSize) (hroom : 0 < fmt.maxPayload) {s : GenerateState}
    (h : Standing fmt s.totalBytesProcessed s.partIx)
    (hmore : s.totalBytesProcessed < fmt.payloadSize) :
    Filling fmt s.totalBytesProcessed (fmt.fillPacket s) ∧ 0 < (fmt.fillPacket s).packetBytes := by
  obtain ⟨hfilling, hremaining⟩ := h.startPacket htiles hmore
  refine ⟨(fill_filling hbalance _ _ _ hfilling).1, ?_⟩
  refine fill_pos hbalance _ _ hfilling hroom hroom ?_ rfl
  have hend := (h.inside hmore).2
  omega

/-- The position of the outer loop behind a packet. -/
theorem Filling.standing (htiles : Tiles fmt.partInfo fmt.payloadSize) (h : Filling fmt total s) :
    Standing fmt (total + s.packetBytes)
      (if s.remainingInPartition = 0 then s.partIx + 1 else s.partIx) := by
  have hreach := h.reach
  have hle : partitionStart fmt.partInfo (s.partIx + 1) ≤ fmt.payloadSize :=
    htiles.le_size h.partIx_lt
  split
  · refine ⟨by omega, by omega, fun hmore => ?_⟩
    have hlt : s.partIx + 1 < fmt.partInfo.length := by
      by_contra hge
      obtain hlast : s.partIx + 1 = fmt.partInfo.length := by
        have := h.partIx_lt
        omega
      have hsize := htiles.size
      rw [← hlast] at hsize
      omega
    have hpos := htiles.getD_pos hlt
    have hsucc := partitionStart_succ hlt
    exact ⟨hlt, by omega⟩
  · have hsucc := partitionStart_succ h.partIx_lt
    have hremaining : s.remainingInPartition ≤ (fmt.partInfo.getD s.partIx {}).fragmentationLength :=
      h.remaining_le
    exact ⟨by omega, by omega, fun _ => ⟨h.partIx_lt, by omega⟩⟩

theorem generateLoop_placed (hbalance : fmt.balance = true)
    (htiles : Tiles fmt.partInfo fmt.payloadSize) (hroom : 0 < fmt.maxPayload) :
    ∀ (fuel : Nat) {s : GenerateState}, Standing fmt s.totalBytesProcessed s.partIx →
      fmt.payloadSize - s.totalBytesProcessed ≤ fuel →
      ∃ infos, fmt.generateLoop fuel s = some infos ∧
        Consecutive (Placed fmt.partInfo fmt.maxPayload) s.totalBytesProcessed infos fmt.payloadSize
  | 0, s, h, hfuel => by
    have hle := h.total_le
    refine ⟨[], ?_, show s.totalBytesProcessed = fmt.payloadSize by omega⟩
    rw [generateLoop, if_neg (by omega)]
  | fuel + 1, s, h, hfuel => by
    rw [generateLoop]
    split
    · rename_i hmore
      obtain ⟨hfilling, hpos⟩ := h.fillPacket hbalance htiles hroom hmore
      have hsum := hfilling.room
      obtain ⟨infos, hinfos, hplaced⟩ := generateLoop_placed hbalance htiles hroom fuel
        (s := { totalBytesProcessed := s.totalBytesProcessed + (fmt.fillPacket s).packetBytes
                startOnNewFragment := (fmt.fillPacket s).remainingInPartition = 0
                beginning := false
                partIx := if (fmt.fillPacket s).remainingInPartition = 0
                  then (fmt.fillPacket s).partIx + 1 else (fmt.fillPacket s).partIx })
        (hfilling.standing htiles) (by dsimp only; omega)
      obtain ⟨hlt, hend⟩ := h.inside hmore
      refine ⟨_ :: infos, by dsimp only; rw [hinfos]; rfl, rfl, ?_, hplaced⟩
      exact ⟨hpos, show (fmt.fillPacket s).packetBytes ≤ _ by omega, hlt, h.start_le, hend⟩
    · have hle := h.total_le
      exact ⟨[], rfl, show s.totalBytesProcessed = fmt.payloadSize by omega⟩

theorem standing_zero (htiles : Tiles fmt.partInfo fmt.payloadSize) : Standing fmt 0 0 := by
  refine ⟨Nat.zero_le _, Nat.le_refl _, fun _ => ?_⟩
  have hlt : 0 < fmt.partInfo.length := List.length_pos_iff.mpr htiles.nonempty
  rw [partitionStart_succ hlt]
  exact ⟨hlt, Nat.add_pos_right _ (htiles.getD_pos hlt)⟩

theorem generatePackets_placed (hbalance : fmt.balance = true)
    (htiles : Tiles fmt.partInfo fmt.payloadSize) (hroom : 0 < fmt.maxPayload) :
    ∃ infos, fmt.generatePackets = some infos ∧
      Consecutive (Placed fmt.partInfo fmt.maxPayload) 0 infos fmt.payloadSize :=
  generateLoop_placed hbalance htiles hroom fmt.payloadSize (standing_zero htiles) (Nat.sub_le _ _)

end Generate

/-! ## Aggregating partitions -/

section Aggregates

variable {maxPayloadLen overhead payloadSize : Nat} {fragmentation : List Fragment}

/-- The smallest packet so far, if there is one. -/
def SmallestPacket (maxPayloadLen payloadSize : Nat) (minSize : Int) : Prop :=
  minSize < 0 ∨ 0 < minSize ∧ minSize ≤ maxPayloadLen ∧ minSize ≤ payloadSize

theorem packetSum_le_sum (index : Int) : ∀ l : List (Int × Nat),
    packetSum index l ≤ (l.map Prod.snd).sum
  | [] => Nat.le_refl _
  | p :: l => by
    rw [packetSum_cons, List.map_cons, List.sum_cons]
    refine Nat.add_le_add ?_ (packetSum_le_sum index l)
    split
    · exact Nat.le_refl _
    · exact Nat.zero_le _

theorem packetSum_eq_sum {index : Int} {l : List (Int × Nat)} (h : ∀ p ∈ l, p.1 = index) :
    packetSum index l = (l.map Prod.snd).sum := by
  unfold packetSum
  rw [List.filter_eq_self.mpr fun p hp => by simpa using h p hp]

theorem packetSum_add (first index : Int) : ∀ (config : List Int) (sizes : List Nat),
    packetSum index ((config.map (first + ·)).zip sizes) =
      packetSum (index - first) (config.zip sizes)
  | [], _ => rfl
  | _ :: _, [] => rfl
  | c :: config, size :: sizes => by
    rw [List.map_cons, List.zip_cons_cons, List.zip_cons_cons, packetSum_cons, packetSum_cons,
      packetSum_add first index config sizes]
    congr 1
    exact if_congr (by omega) rfl rfl

theorem packetSizes_le : ∀ {l : List (Int × Nat)}, (∀ p ∈ l, 0 < p.2) →
    ∀ p ∈ packetSizes l, 0 < p.2 ∧ p.2 ≤ packetSum p.1 l
  | [], _ => nofun
  | (index, size) :: rest, hpos => by
    have hsize : 0 < size := hpos _ List.mem_cons_self
    have ih := packetSizes_le fun p hp => hpos p (List.mem_cons_of_mem _ hp)
    have hrest : ∀ p ∈ packetSizes rest, 0 < p.2 ∧ p.2 ≤ packetSum p.1 ((index, size) :: rest) := by
      intro p hp
      rw [packetSum_cons]
      exact ⟨(ih p hp).1, (ih p hp).2.trans (Nat.le_add_left _ _)⟩
    rw [packetSizes]
    cases hsizes : packetSizes rest with
    | nil =>
      intro p hp
      obtain rfl := List.mem_singleton.mp hp
      rw [packetSum_cons, if_pos rfl]
      exact ⟨hsize, Nat.le_add_right _ _⟩
    | cons head sizes =>
      obtain ⟨index', size'⟩ := head
      rw [hsizes] at hrest ih
      dsimp only
      split
      · rename_i heq
        intro p hp
        rcases List.mem_cons.mp hp with rfl | hp
        · rw [packetSum_cons, if_pos rfl]
          have hhead := (ih _ List.mem_cons_self).2
          rw [← heq] at hhead
          exact ⟨Nat.add_pos_left hsize _, Nat.add_le_add_left hhead _⟩
        · exact hrest p (List.mem_cons_of_mem _ hp)
      · intro p hp
        rcases List.mem_cons.mp hp with rfl | hp
        · rw [packetSum_cons, if_pos rfl]
          exact ⟨hsize, Nat.le_add_right _ _⟩
        · exact hrest p hp

theorem packetSizes_ne_nil : ∀ {l : List (Int × Nat)}, l ≠ [] → packetSizes l ≠ []
  | (index, size) :: rest, _ => by
    rw [packetSizes]
    cases packetSizes rest with
    | nil => exact List.cons_ne_nil _ _
    | cons head sizes =>
      dsimp only
      split <;> exact List.cons_ne_nil _ _

/-- The fold of `CalcMinMax`. -/
theorem minMax_fold (Q : Int → Prop) : ∀ (packets : List (Int × Nat)) (s : Int × Int),
    (∀ p ∈ packets, Q p.2) →
    (Q s.1 ∨ ∃ p ∈ packets, (p.2 : Int) < s.1) →
    Q (packets.foldl (fun s p => (if (p.2 : Int) < s.1 then (p.2 : Int) else s.1,
      if s.2 < (p.2 : Int) then (p.2 : Int) else s.2)) s).1
  | [], _, _, h => h.resolve_right nofun
  | p :: packets, s, hQ, h => by
    rw [List.foldl_cons]
    refine minMax_fold Q packets _ (fun q hq => hQ q (List.mem_cons_of_mem _ hq)) ?_
    dsimp only
    split
    · exact .inl (hQ p List.mem_cons_self)
    · rename_i hge
      rcases h with h | ⟨q, hq, hlt⟩
      · exact .inl h
      · rcases List.mem_cons.mp hq with rfl | hq
        · exact absurd hlt hge
        · exact .inr ⟨q, hq, hlt⟩

theorem calcMinMax_smallest {config : List Int} {sizes : List Nat} {minSize : Int}
    (hpacks : Packs maxPayloadLen config sizes) (hsizes : sizes ≠ []) (hpos : ∀ s ∈ sizes, 0 < s)
    (hsum : sizes.sum ≤ payloadSize) (hrange : payloadSize < INT_MAX)
    (hmin : SmallestPacket maxPayloadLen payloadSize minSize) (maxSize : Int) :
    SmallestPacket maxPayloadLen payloadSize (calcMinMax config sizes minSize maxSize).1 := by
  have hzip : (config.zip sizes).map Prod.snd = sizes :=
    List.map_snd_zip (Nat.le_of_eq hpacks.length.symm)
  have hpackets : ∀ p ∈ packetSizes (config.zip sizes),
      0 < p.2 ∧ p.2 ≤ maxPayloadLen ∧ p.2 ≤ payloadSize := by
    intro p hp
    have hle := packetSizes_le (fun q hq => hpos q.2 (List.of_mem_zip hq).2) p hp
    have htotal := packetSum_le_sum p.1 (config.zip sizes)
    rw [hzip] at htotal
    exact ⟨hle.1, hle.2.trans (hpacks.packetSum_le p.1), hle.2.trans (htotal.trans hsum)⟩
  obtain ⟨p, hp⟩ := List.exists_mem_of_ne_nil _ (packetSizes_ne_nil (l := config.zip sizes) fun h => by
    rw [h] at hzip
    exact hsizes hzip.symm)
  refine .inr (minMax_fold (fun c => 0 < c ∧ c ≤ maxPayloadLen ∧ c ≤ payloadSize) _ _
    (fun q hq => ?_) ?_)
  · have := hpackets q hq
    omega
  · dsimp only
    split
    · have := hpackets p hp
      exact .inr ⟨p, hp, by omega⟩
    · exact .inl (hmin.resolve_left ‹_›)

/-- The decisions for partitions of these sizes: no packet that is aggregated
exceeds the maximum size. -/
structure Decided (maxPayloadLen : Nat) (first : Int) (decisions : List Int) (sizes : List Nat) :
    Prop where
  length : decisions.length = sizes.length
  bounds : ∀ d ∈ decisions, d = -1 ∨ first ≤ d
  packetSum_le : ∀ d, d ≠ -1 → packetSum d (decisions.zip sizes) ≤ maxPayloadLen

theorem aggregateSmallPartitions_decided (overhead : Nat) (hrange : payloadSize < INT_MAX) :
    ∀ (k : Nat) {sizes : List Nat}, sizes.length ≤ k → ∀ (first minSize maxSize : Int),
      0 ≤ first → (∀ s ∈ sizes, 0 < s) → sizes.sum ≤ payloadSize →
      SmallestPacket maxPayloadLen payloadSize minSize →
      Decided maxPayloadLen first
        (aggregateSmallPartitions maxPayloadLen overhead sizes first minSize maxSize).1 sizes ∧
      SmallestPacket maxPayloadLen payloadSize
        (aggregateSmallPartitions maxPayloadLen overhead sizes first minSize maxSize).2.1
  | _, [], _, _, _, _, _, _, _, hmin => by
    rw [aggregateSmallPartitions]
    exact ⟨⟨rfl, List.forall_mem_nil _, fun _ _ => Nat.zero_le _⟩, hmin⟩
  | k + 1, size :: sizes, hk, first, minSize, maxSize, hfirst, hpos, hsum, hmin => by
    rw [List.length_cons] at hk
    rw [List.sum_cons] at hsum
    rw [aggregateSmallPartitions]
    split
    · rename_i hsmall
      dsimp only
      have happend := List.takeWhile_append_dropWhile (p := (· < maxPayloadLen)) (l := sizes)
      have hset : ∀ s ∈ size :: sizes.takeWhile (· < maxPayloadLen), 0 < s ∧ s ≤ maxPayloadLen := by
        intro s hs
        rcases List.mem_cons.mp hs with rfl | hs
        · exact ⟨hpos _ List.mem_cons_self, Nat.le_of_lt hsmall⟩
        · refine ⟨hpos s (List.mem_cons_of_mem _ ?_), ?_⟩
          · exact (List.takeWhile_prefix _).subset hs
          · have hlt := List.mem_takeWhile_imp hs
            exact Nat.le_of_lt (of_decide_eq_true hlt)
      have htotal := congrArg List.sum happend
      rw [List.sum_append] at htotal
      have hpacks := findOptimalConfiguration_packs hset (by rw [List.sum_cons]; omega) minSize
        maxSize overhead
      generalize findOptimalConfiguration _ minSize maxSize maxPayloadLen overhead = config at hpacks ⊢
      generalize sizes.takeWhile (· < maxPayloadLen) = set at happend hset htotal hpacks ⊢
      generalize sizes.dropWhile (· < maxPayloadLen) = rest at happend htotal ⊢
      subst happend
      rw [List.length_append] at hk
      have hlast : 0 ≤ config.getLastD 0 := by
        rcases List.mem_cons.mp (List.getLastD_mem_cons (l := config) (a := 0)) with hzero | hmem
        · exact hzero.ge
        · exact (hpacks.bounds _ hmem).1
      obtain ⟨hdecided, hsmallest⟩ := aggregateSmallPartitions_decided overhead hrange k
        (show rest.length ≤ k by omega) (first + config.getLastD 0 + 1)
        (calcMinMax config (size :: set) minSize maxSize).1
        (calcMinMax config (size :: set) minSize maxSize).2 (by omega)
        (fun s hs => hpos s (List.mem_cons_of_mem _ (List.mem_append_right _ hs))) (by omega)
        (calcMinMax_smallest hpacks (List.cons_ne_nil _ _) (fun s hs => (hset s hs).1)
          (by rw [List.sum_cons]; omega) hrange hmin maxSize)
      refine ⟨⟨?_, ?_, ?_⟩, hsmallest⟩
      · rw [List.length_append, List.length_map, hpacks.length, hdecided.length, ← List.length_append]
        rfl
      · intro d hd
        rcases List.mem_append.mp hd with hd | hd
        · obtain ⟨c, hc, rfl⟩ := List.mem_map.mp hd
          have := hpacks.bounds c hc
          omega
        · have := hdecided.bounds d hd
          omega
      · intro d hd
        rw [← List.cons_append, List.zip_append (by rw [List.length_map, hpacks.length]),
          packetSum_append, packetSum_add]
        by_cases hle : d ≤ first + config.getLastD 0
        · rw [packetSum_eq_zero (l := List.zip _ rest), Nat.add_zero]
          · exact hpacks.packetSum_le _
          · intro p hp
            have := hdecided.bounds p.1 (List.of_mem_zip hp).1
            omega
        · rw [packetSum_eq_zero (l := config.zip _), Nat.zero_add]
          · exact hdecided.packetSum_le d hd
          · intro p hp
            have := hpacks.bounds p.1 (List.of_mem_zip hp).1
            omega
    · obtain ⟨hdecided, hsmallest⟩ := aggregateSmallPartitions_decided overhead hrange k
        (show sizes.length ≤ k by omega) first minSize maxSize hfirst
        (fun s hs => hpos s (List.mem_cons_of_mem _ hs)) (by omega) hmin
      refine ⟨⟨?_, ?_, ?_⟩, hsmallest⟩
      · rw [List.length_cons, List.length_cons, hdecided.length]
      · intro d hd
        rcases List.mem_cons.mp hd with rfl | hd
        · exact .inl rfl
        · exact hdecided.bounds d hd
      · intro d hd
        rw [List.zip_cons_cons, packetSum_cons, if_neg (Ne.symm hd), Nat.zero_add]
        exact hdecided.packetSum_le d hd

theorem splitPartition_placed {packetBytes partIx : Nat} (hpos : 0 < packetBytes)
    (hle : packetBytes ≤ maxPayloadLen) (hpart : partIx < fragmentation.length) :
    ∀ (count total remaining : Nat) (first : Bool) (minSize maxSize : Int),
      partitionStart fragmentation partIx ≤ total →
      total + remaining = partitionStart fragmentation (partIx + 1) → total + remaining ≤ payloadSize →
      (first = true ↔ total = partitionStart fragmentation partIx) →
      remaining ≤ count * packetBytes → (count ≠ 0 → (count - 1) * packetBytes < remaining) →
      SmallestPacket maxPayloadLen payloadSize minSize →
      Consecutive (fun info => Placed fragmentation maxPayloadLen info ∧ Marked fragmentation info)
        total (splitPartition packetBytes partIx count total remaining first minSize maxSize).1
        (total + remaining) ∧
      SmallestPacket maxPayloadLen payloadSize
        (splitPartition packetBytes partIx count total remaining first minSize maxSize).2.1
  | 0, total, remaining, _, _, _, _, _, _, _, hcount, _, hmin => by
    rw [Nat.zero_mul] at hcount
    exact ⟨show total = total + remaining by omega, hmin⟩
  | count + 1, total, remaining, first, minSize, maxSize, hstart, hend, hsize, hfirst, hcount,
    hlast, hmin => by
    have hrest := hlast (Nat.succ_ne_zero count)
    rw [Nat.add_sub_cancel] at hrest
    rw [Nat.succ_mul] at hcount
    obtain ⟨bytes, hbytes⟩ : ∃ bytes,
        (if packetBytes < remaining then packetBytes else remaining) = bytes := ⟨_, rfl⟩
    have hbytes' : 0 < bytes ∧ bytes ≤ packetBytes ∧ bytes ≤ remaining := by
      split at hbytes <;> omega
    have hmore : remaining - bytes ≤ count * packetBytes ∧
        (count ≠ 0 → (count - 1) * packetBytes < remaining - bytes) := by
      cases count with
      | zero =>
        rw [Nat.zero_mul] at hcount ⊢
        refine ⟨?_, fun h => absurd rfl h⟩
        split at hbytes <;> omega
      | succ count =>
        rw [Nat.succ_mul] at hcount hrest ⊢
        rw [Nat.add_sub_cancel]
        split at hbytes <;> omega
    rw [splitPartition]
    dsimp only
    rw [hbytes]
    obtain ⟨hplaced, hsmallest⟩ := splitPartition_placed hpos hle hpart count (total + bytes)
      (remaining - bytes) false (if (bytes : Int) < minSize then bytes else minSize)
      (if maxSize < (bytes : Int) then bytes else maxSize) (by omega) (by omega) (by omega)
      ⟨nofun, by omega⟩ hmore.1 hmore.2 (by
        split
        · exact .inr ⟨by omega, by omega, by omega⟩
        · exact hmin)
    rw [show total + bytes + (remaining - bytes) = total + remaining by omega] at hplaced
    refine ⟨⟨rfl, ⟨⟨hbytes'.1, hbytes'.2.1.trans hle, hpart, hstart, ?_⟩, hfirst⟩, hplaced⟩, hsmallest⟩
    show total < partitionStart fragmentation (partIx + 1)
    omega

/-- Where the loop stands: the partitions from one on, with the packets that they are to go into. -/
structure Remaining (fragmentation : List Fragment) (maxPayloadLen : Nat)
    (parts : List (Int × Nat)) (total partIx : Nat) : Prop where
  sizes : parts.map Prod.snd = (fragmentation.map Fragment.fragmentationLength).drop partIx
  le : partIx ≤ fragmentation.length
  start : total = partitionStart fragmentation partIx
  pos : ∀ p ∈ parts, 0 < p.2
  packetSum_le : ∀ d, d ≠ -1 → packetSum d parts ≤ maxPayloadLen

namespace Remaining

variable {parts : List (Int × Nat)} {total partIx size : Nat} {decision : Int}
  {minSize maxSize : Int}

theorem length (h : Remaining fragmentation maxPayloadLen parts total partIx) :
    parts.length + partIx = fragmentation.length := by
  have hlength := congrArg List.length h.sizes
  rw [List.length_map, List.length_drop, List.length_map] at hlength
  have hle := h.le
  omega

theorem start_succ
    (h : Remaining fragmentation maxPayloadLen ((decision, size) :: parts) total partIx) :
    partitionStart fragmentation (partIx + 1) = total + size := by
  have hlength := h.length
  rw [List.length_cons] at hlength
  have hsize := congrArg List.head? h.sizes
  rw [List.map_cons, List.head?_cons, List.head?_drop] at hsize
  rw [h.start, partitionStart, List.map_take, List.take_add_one, ← hsize, List.sum_append,
    Option.toList_some, List.sum_singleton, partitionStart, List.map_take]

theorem tail (h : Remaining fragmentation maxPayloadLen ((decision, size) :: parts) total partIx) :
    Remaining fragmentation maxPayloadLen parts (total + size) (partIx + 1) where
  sizes := by
    rw [← List.tail_drop, ← h.sizes]
    rfl
  le := by
    have hlength := h.length
    rw [List.length_cons] at hlength
    omega
  start := h.start_succ.symm
  pos p hp := h.pos p (List.mem_cons_of_mem _ hp)
  packetSum_le d hd := by
    have hsum := h.packetSum_le d hd
    rw [packetSum_cons] at hsum
    omega

theorem drop : ∀ {skipped : List (Int × Nat)} {total partIx : Nat},
    Remaining fragmentation maxPayloadLen (skipped ++ parts) total partIx →
    Remaining fragmentation maxPayloadLen parts (total + (skipped.map Prod.snd).sum)
      (partIx + skipped.length)
  | [], _, _, h => h
  | (decision, size) :: skipped, total, partIx, h => by
    have hdrop := h.tail.drop
    rwa [Nat.add_assoc, Nat.add_right_comm partIx] at hdrop

/-- A partition that is split fills packets of its own. -/
theorem split (h : Remaining fragmentation maxPayloadLen ((-1, size) :: parts) total partIx)
    (hoverhead : 0 < overhead) (hroom : 0 < maxPayloadLen)
    (hrange : payloadSize * overhead + 2 * payloadSize < INT_MAX)
    (hend : partitionStart fragmentation fragmentation.length = payloadSize)
    (hmin : SmallestPacket maxPayloadLen payloadSize minSize) {n : Nat}
    (hn : n = (calcNumberOfFragments size maxPayloadLen overhead minSize maxSize).toNat) :
    Consecutive (fun info => Placed fragmentation maxPayloadLen info ∧ Marked fragmentation info)
      total (splitPartition ((size + n - 1) / n) partIx n total size true minSize maxSize).1
      (total + size) ∧
    SmallestPacket maxPayloadLen payloadSize
      (splitPartition ((size + n - 1) / n) partIx n total size true minSize maxSize).2.1 := by
  have hlength := h.length
  rw [List.length_cons] at hlength
  have hpart : partIx < fragmentation.length := by omega
  have hsucc := h.start_succ
  have hrest : partitionStart fragmentation (partIx + 1) ≤ payloadSize :=
    hend ▸ partitionStart_mono hpart
  have hmul : size * overhead ≤ payloadSize * overhead := Nat.mul_le_mul_right _ (by omega)
  have hsize : 0 < size := h.pos _ List.mem_cons_self
  obtain ⟨n', hn', hsplits⟩ := calcNumberOfFragments_splits minSize maxSize
    hsize hroom hoverhead (by unfold SmallestPacket at hmin; omega) (by
      unfold SmallestPacket at hmin
      omega)
  rw [hn', Int.toNat_natCast] at hn
  subst hn
  have hself := fragmentSize_le_iff size (c := (size + n - 1) / n) hsplits.pos
  have hsome := fragmentSize_le_iff size (c := 0) hsplits.pos
  have hbytes : 0 < (size + n - 1) / n := by
    refine Nat.pos_of_ne_zero fun hzero => ?_
    rw [hzero, Nat.mul_zero] at hsome
    exact absurd (hsome.mp (Nat.le_refl 0)) (by omega)
  exact splitPartition_placed hbytes hsplits.size_le hpart n total size true minSize maxSize
    h.start.ge (by omega) (by omega) ⟨fun _ => h.start, fun _ => rfl⟩ (hself.mp (Nat.le_refl _))
    (fun _ => hsplits.nonempty) hmin

/-- The partitions of a packet fit into it. -/
theorem aggregate {aggregated : List (Int × Nat)} (hdecision : decision ≠ -1)
    (h : Remaining fragmentation maxPayloadLen ((decision, size) :: (aggregated ++ parts)) total
      partIx) (hsame : ∀ p ∈ aggregated, p.1 = decision) :
    Placed fragmentation maxPayloadLen
      ⟨total, size + (aggregated.map Prod.snd).sum, true, partIx⟩ ∧
    Marked fragmentation ⟨total, size + (aggregated.map Prod.snd).sum, true, partIx⟩ := by
  have hlength := h.length
  rw [List.length_cons] at hlength
  have hsize : 0 < size := h.pos _ List.mem_cons_self
  have hsum := h.packetSum_le decision hdecision
  rw [packetSum_cons, if_pos rfl, packetSum_append, packetSum_eq_sum hsame] at hsum
  have hsucc := h.start_succ
  refine ⟨⟨Nat.add_pos_left hsize _, show size + _ ≤ maxPayloadLen by omega,
    show partIx < fragmentation.length by omega, h.start.ge, ?_⟩, fun _ => h.start, fun _ => rfl⟩
  show total < partitionStart fragmentation (partIx + 1)
  omega

end Remaining

theorem balancedLoop_placed (hoverhead : 0 < overhead) (hroom : 0 < maxPayloadLen)
    (hrange : payloadSize * overhead + 2 * payloadSize < INT_MAX)
    (hend : partitionStart fragmentation fragmentation.length = payloadSize) :
    ∀ (k : Nat) {parts : List (Int × Nat)}, parts.length ≤ k →
      ∀ (total partIx : Nat) (minSize maxSize : Int),
      Remaining fragmentation maxPayloadLen parts total partIx →
      SmallestPacket maxPayloadLen payloadSize minSize →
      Consecutive (fun info => Placed fragmentation maxPayloadLen info ∧ Marked fragmentation info)
        total (balancedLoop maxPayloadLen overhead parts total partIx minSize maxSize) payloadSize
  | _, [], _, total, partIx, minSize, maxSize, h, _ => by
    have hlength := h.length
    rw [List.length_nil, Nat.zero_add] at hlength
    rw [balancedLoop]
    exact h.start.trans (hlength ▸ hend)
  | k + 1, (decision, size) :: parts, hk, total, partIx, minSize, maxSize, h, hmin => by
    rw [List.length_cons] at hk
    rw [balancedLoop]
    split
    · rename_i hdecision
      subst hdecision
      obtain ⟨hplaced, hsmallest⟩ := h.split hoverhead hroom hrange hend hmin rfl
      refine hplaced.append ?_
      rw [hplaced.sum_size]
      exact balancedLoop_placed hoverhead hroom hrange hend k (by omega) _ _ _ _ h.tail hsmallest
    · rename_i hdecision
      have happend := List.takeWhile_append_dropWhile (p := (·.1 = decision)) (l := parts)
      have hsame : ∀ p ∈ parts.takeWhile (·.1 = decision), p.1 = decision := by
        intro p hp
        have heq := List.mem_takeWhile_imp hp
        exact of_decide_eq_true heq
      dsimp only
      generalize parts.takeWhile (·.1 = decision) = aggregated at happend hsame ⊢
      generalize parts.dropWhile (·.1 = decision) = rest at happend ⊢
      subst happend
      rw [List.length_append] at hk
      refine ⟨rfl, h.aggregate hdecision hsame, ?_⟩
      have hrest := h.tail.drop
      rw [Nat.add_assoc] at hrest
      exact balancedLoop_placed hoverhead hroom hrange hend k (by omega) _ _ _ _ hrest hmin

end Aggregates

/-! ## The queue of packets -/

section Queue

variable {fmt : RtpFormatVp8} {infos : List InfoStruct}

theorem generatePacketsBalancedAggregates_placed (htiles : Tiles fmt.partInfo fmt.payloadSize)
    (hroom : 0 < fmt.maxPayload)
    (hrange : (fmt.hdrInfo.overhead + 2) * fmt.payloadSize < INT_MAX) :
    Consecutive (fun info => Placed fmt.partInfo fmt.maxPayload info ∧ Marked fmt.partInfo info) 0
      fmt.generatePacketsBalancedAggregates fmt.payloadSize := by
  have hpos : ∀ s ∈ fmt.partInfo.map Fragment.fragmentationLength, 0 < s := by
    intro s hs
    obtain ⟨f, hf, rfl⟩ := List.mem_map.mp hs
    exact htiles.positive f hf
  have hsum : (fmt.partInfo.map Fragment.fragmentationLength).sum = fmt.payloadSize := by
    rw [← htiles.size, partitionStart, List.take_length]
  rw [Nat.add_mul, Nat.mul_comm fmt.hdrInfo.overhead] at hrange
  obtain ⟨hdecided, hsmallest⟩ := @aggregateSmallPartitions_decided fmt.maxPayload
    fmt.payloadSize fmt.hdrInfo.overhead (by omega) _ _ (Nat.le_refl _)
    0 (-1) (-1) (Int.le_refl _) hpos hsum.le (.inl (by decide))
  unfold generatePacketsBalancedAggregates
  dsimp only
  refine balancedLoop_placed (Nat.add_pos_left Nat.one_pos _) hroom hrange htiles.size _
    (Nat.le_refl _) 0 0 _ _ ⟨?_, Nat.zero_le _, rfl, ?_, hdecided.packetSum_le⟩ hsmallest
  · exact List.map_snd_zip hdecided.length.symm.le
  · exact fun p hp => hpos p.2 (List.of_mem_zip hp).2

theorem payloadSize_pos (htiles : Tiles fmt.partInfo fmt.payloadSize) : 0 < fmt.payloadSize := by
  have hlt : 0 < fmt.partInfo.length := List.length_pos_iff.mpr htiles.nonempty
  have hle : partitionStart fmt.partInfo 1 ≤ fmt.payloadSize := htiles.le_size hlt
  rw [partitionStart_succ hlt] at hle
  have hpos := htiles.getD_pos hlt
  omega

/-- The packets that are still to be sent. -/
def queue (fmt : RtpFormatVp8) : Option (Int × List InfoStruct) :=
  if fmt.packetsCalculated then some (0, fmt.packets) else fmt.calculatePackets

/-- One packet is written for each entry of the queue. -/
theorem packetize_eq : ∀ (calls : Nat) {fmt : RtpFormatVp8} {infos : List InfoStruct}, infos ≠ [] →
    fmt.queue = some (0, infos) →
    packetize calls fmt =
      if infos.length ≤ calls then some (infos.map fmt.writeHeaderAndPayload) else none
  | 0, _, _ :: _, _, _ => rfl
  | calls + 1, fmt, info :: infos, _, hqueue => by
    have hnext : fmt.nextPacket = some ((info.firstPartitionIx : Int),
        fmt.writeHeaderAndPayload info, infos.isEmpty,
          { fmt with packets := infos, packetsCalculated := true }) := by
      unfold nextPacket
      dsimp only
      rw [show (if fmt.packetsCalculated then some (0, fmt.packets) else fmt.calculatePackets) =
        some (0, info :: infos) from hqueue]
      rfl
    rw [packetize, hnext]
    dsimp only
    rw [if_neg (by omega)]
    cases infos with
    | nil => rfl
    | cons info' infos =>
      rw [if_neg (show ¬ (info' :: infos).isEmpty = true from Bool.false_ne_true),
        packetize_eq calls (List.cons_ne_nil info' infos) rfl]
      simp only [List.length_cons, Nat.add_le_add_iff_right]
      split <;> rfl

end Queue

end RtpFormatVp8

/-! ## The payload descriptor -/

namespace RTPVideoHeaderVP8

variable {hdr : RTPVideoHeaderVP8}

theorem writePictureID_length : hdr.writePictureID.length = hdr.pictureIdLength := by
  have hle : hdr.pictureIdLength = 0 ∨ hdr.pictureIdLength = 1 ∨ hdr.pictureIdLength = 2 := by
    unfold pictureIdLength
    split_ifs <;> simp
  unfold writePictureID
  rcases hle with h | h | h <;> rw [h] <;> rfl

/-- The descriptor has the length that was reserved for it. -/
theorem writeExtensionFields_length {bufferLength : Nat} (hroom : hdr.overhead < bufferLength) :
    ∃ extension, hdr.writeExtensionFields bufferLength = some extension ∧
      1 + extension.length = hdr.overhead := by
  have hfields : (hdr.writePictureID ++
      (if hdr.tl0PicIdxFieldPresent then [hdr.tl0PicIdx.setWidth 8] else []) ++
      (if hdr.tidFieldPresent || hdr.keyIdxFieldPresent then [hdr.tidAndKeyIdx] else [])).length =
      hdr.pictureIdLength + (if hdr.tl0PicIdxFieldPresent then 1 else 0) +
        if hdr.tidFieldPresent || hdr.keyIdxFieldPresent then 1 else 0 := by
    rw [List.length_append, List.length_append, writePictureID_length]
    congr 1
    · congr 1
      split <;> rfl
    · split <;> rfl
  have hpresent : hdr.xFieldPresent = true ↔ 0 < hdr.pictureIdLength +
      (if hdr.tl0PicIdxFieldPresent then 1 else 0) +
        if hdr.tidFieldPresent || hdr.keyIdxFieldPresent then 1 else 0 := by
    unfold xFieldPresent pictureIdPresent
    cases hdr.tidFieldPresent <;> cases hdr.tl0PicIdxFieldPresent <;>
      cases hdr.keyIdxFieldPresent <;> simp
  unfold overhead payloadDescriptorExtraLength at hroom ⊢
  unfold writeExtensionFields
  dsimp only at hroom ⊢
  rw [hfields]
  by_cases hx : hdr.xFieldPresent = true
  · rw [if_pos (hpresent.mp hx)] at hroom ⊢
    rw [if_pos hx, if_neg (by omega)]
    refine ⟨_, rfl, ?_⟩
    rw [List.length_cons, hfields, Nat.add_comm]
  · rw [if_neg (mt hpresent.mpr hx)]
    rw [if_neg hx]
    have hzero := mt hpresent.mpr hx
    refine ⟨[], rfl, ?_⟩
    rw [List.length_nil]
    omega

end RTPVideoHeaderVP8

namespace RtpFormatVp8

variable {fmt : RtpFormatVp8}

/-- A packet is the descriptor and its part of the frame. -/
theorem writeHeaderAndPayload_eq (hroom : fmt.hdrInfo.overhead < fmt.maxPayloadLen)
    (info : InfoStruct) : ∃ first extension, fmt.writeHeaderAndPayload info =
      first :: extension ++ (fmt.payloadData.drop info.payloadStartPos).take info.size ∧
      (first :: extension).length = fmt.hdrInfo.overhead ∧
      first = ((if fmt.hdrInfo.xFieldPresent then kXBit else 0) |||
        (if fmt.hdrInfo.nonReference then kNBit else 0) |||
        (if info.firstFragment then kSBit else 0) |||
        (BitVec.ofNat 8 info.firstPartitionIx &&& kPartIdField)) := by
  obtain ⟨extension, hextension, hlength⟩ :=
    RTPVideoHeaderVP8.writeExtensionFields_length hroom
  refine ⟨_, extension, ?_, ?_, rfl⟩
  · unfold writeHeaderAndPayload
    rw [hextension]
  · rw [List.length_cons, Nat.add_comm]
    exact hlength

end RtpFormatVp8

/-! ## The packets of a frame -/

section Packets

variable {payload : List Byte} {fragmentation : List Fragment} {mode : VP8PacketizerMode}
  {hdr : RTPVideoHeaderVP8} {maxPayloadLen : Nat}

open RtpFormatVp8

theorem calculatePackets_placed (htiles : Tiles fragmentation payload.length)
    (hroom : hdr.overhead < maxPayloadLen)
    (hrange : mode = .kAggregate → (hdr.overhead + 2) * payload.length < INT_MAX) :
    ∃ infos, (create payload hdr maxPayloadLen fragmentation mode).calculatePackets = some (0, infos) ∧
      Consecutive (Placed fragmentation (maxPayloadLen - hdr.overhead)) 0 infos payload.length := by
  have hmax : 0 < (create payload hdr maxPayloadLen fragmentation mode).maxPayload :=
    Nat.sub_pos_of_lt hroom
  unfold calculatePackets
  have hcheck : ¬ (create payload hdr maxPayloadLen fragmentation mode).maxPayloadLen <
      (create payload hdr maxPayloadLen fragmentation mode).hdrInfo.overhead + 1 :=
    Nat.not_lt.mpr hroom
  rw [if_neg hcheck]
  have hgenerated := @generatePackets_placed (create payload hdr maxPayloadLen fragmentation mode)
    rfl htiles hmax
  cases mode with
  | kAggregate =>
    exact ⟨_, if_pos ⟨rfl, rfl⟩, (generatePacketsBalancedAggregates_placed htiles hmax
      (hrange rfl)).imp fun _ h => h.1⟩
  | kStrict =>
    obtain ⟨infos, hinfos, hplaced⟩ := hgenerated
    refine ⟨infos, ?_, hplaced⟩
    rw [hinfos]
    rfl
  | kEqualSize =>
    obtain ⟨infos, hinfos, hplaced⟩ := hgenerated
    refine ⟨infos, ?_, hplaced⟩
    rw [hinfos]
    rfl

theorem packetize_eq_map (htiles : Tiles fragmentation payload.length)
    (hroom : hdr.overhead < maxPayloadLen)
    (hrange : mode = .kAggregate → (hdr.overhead + 2) * payload.length < INT_MAX) :
    ∃ infos, (create payload hdr maxPayloadLen fragmentation mode).calculatePackets = some (0, infos) ∧
      Consecutive (Placed fragmentation (maxPayloadLen - hdr.overhead)) 0 infos payload.length ∧
      ∀ calls, packetize calls (create payload hdr maxPayloadLen fragmentation mode) =
        if infos.length ≤ calls then
          some (infos.map (create payload hdr maxPayloadLen fragmentation mode).writeHeaderAndPayload)
        else none := by
  obtain ⟨infos, hinfos, hplaced⟩ := calculatePackets_placed htiles hroom hrange
  refine ⟨infos, hinfos, hplaced, fun calls => packetize_eq calls ?_ hinfos⟩
  rintro rfl
  have hpos := @payloadSize_pos (create payload hdr maxPayloadLen fragmentation mode) htiles
  exact absurd (show 0 = payload.length from hplaced) hpos.ne

/-- The packets of a frame are not too large, none of them is empty, and their
payloads make up the frame. In the mode `kAggregate` a cost must not exceed the
range of an `int`. -/
theorem packetize_tiles (htiles : Tiles fragmentation payload.length)
    (hroom : hdr.overhead < maxPayloadLen)
    (hrange : mode = .kAggregate → (hdr.overhead + 2) * payload.length < INT_MAX) :
    ∃ calls pkts,
      packetize calls (create payload hdr maxPayloadLen fragmentation mode) = some pkts ∧
      (∀ pkt ∈ pkts, hdr.overhead < pkt.length ∧ pkt.length ≤ maxPayloadLen) ∧
      pkts.flatMap (List.drop hdr.overhead) = payload := by
  obtain ⟨infos, -, hplaced, hpackets⟩ := packetize_eq_map htiles hroom hrange
  have hwrite := fun info => @writeHeaderAndPayload_eq
    (create payload hdr maxPayloadLen fragmentation mode) hroom info
  refine ⟨infos.length, _, (hpackets _).trans (if_pos (Nat.le_refl _)), ?_, ?_⟩
  · intro pkt hpkt
    obtain ⟨info, hinfo, rfl⟩ := List.mem_map.mp hpkt
    obtain ⟨first, extension, heq, hlength, -⟩ := hwrite info
    obtain ⟨hinfo, hend⟩ := hplaced.of_mem info hinfo
    have hpos := hinfo.pos
    have hle := hinfo.le
    have hslice : ((payload.drop info.payloadStartPos).take info.size).length = info.size := by
      rw [List.length_take, List.length_drop]
      omega
    rw [heq, List.length_append, hlength]
    change hdr.overhead < hdr.overhead + ((payload.drop info.payloadStartPos).take info.size).length ∧
      hdr.overhead + ((payload.drop info.payloadStartPos).take info.size).length ≤ maxPayloadLen
    omega
  · rw [List.flatMap_map, List.flatMap_congr (g := fun info =>
      (payload.drop info.payloadStartPos).take info.size) ?_, hplaced.flatMap_slices payload,
      List.drop_zero, Nat.sub_zero, List.take_length]
    intro info _
    obtain ⟨first, extension, heq, hlength, -⟩ := hwrite info
    rw [heq]
    exact List.drop_left' hlength

/-- Three partitions, of which the last is too large for a packet. -/
theorem packetize_tiles_three : ∃ calls pkts,
    packetize calls (create [1, 2, 3, 4, 5, 6, 7, 8, 9] {} 5 [⟨0, 3⟩, ⟨3, 1⟩, ⟨4, 5⟩] .kAggregate) =
      some pkts ∧
    (∀ pkt ∈ pkts, RTPVideoHeaderVP8.overhead {} < pkt.length ∧ pkt.length ≤ 5) ∧
    pkts.flatMap (List.drop (RTPVideoHeaderVP8.overhead {})) = [1, 2, 3, 4, 5, 6, 7, 8, 9] :=
  packetize_tiles ⟨by decide, by decide, by decide, by decide⟩ (by decide) (fun _ => by decide)

end Packets

end PerchWebrtc.Vp8
