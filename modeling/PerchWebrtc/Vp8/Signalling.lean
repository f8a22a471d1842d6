import PerchWebrtc.Vp8.Packetization

/-!
# Start-of-partition signalling

Whether the S bit of a packet says that it begins with the first byte of a
partition, and the PartID is the number of its partition.

* `signals_iff_marked`: this is a matter of the entries of the queue;
* `generateLoop_marked`, `generateLoop_marked_iff`: the entries in the modes
  `kStrict` and `kEqualSize`;
* `packetize_signals_iff`: in the mode `kEqualSize` a packet that is filled up
  with the last byte of a partition leaves the next one without its S bit.
-/

namespace PerchWebrtc.Vp8

/-- What the first byte of a packet says about a position of the frame. -/
def SignalsAt (fragmentation : List Fragment) (pos : Nat) (pkt : List Byte) : Prop :=
  (pkt.headD 0 &&& kSBit ≠ 0 ↔ ∃ i < fragmentation.length, partitionStart fragmentation i = pos) ∧
  ∃ i < fragmentation.length, partitionStart fragmentation i ≤ pos ∧
    pos < partitionStart fragmentation (i + 1) ∧ (pkt.headD 0 &&& kPartIdField).toNat = i % 16

instance (fragmentation : List Fragment) (pos : Nat) (pkt : List Byte) :
    Decidable (SignalsAt fragmentation pos pkt) := inferInstanceAs (Decidable (_ ∧ _))

/-- The packets signal the partitions, from a position of the frame on. -/
def Signals (fragmentation : List Fragment) (overhead : Nat) : Nat → List (List Byte) → Prop
  | _, [] => True
  | pos, pkt :: pkts => SignalsAt fragmentation pos pkt ∧
    Signals fragmentation overhead (pos + (pkt.length - overhead)) pkts

instance decidableSignals (fragmentation : List Fragment) (overhead : Nat) :
    ∀ pos pkts, Decidable (Signals fragmentation overhead pos pkts)
  | _, [] => isTrue trivial
  | pos, pkt :: pkts =>
    have := decidableSignals fragmentation overhead (pos + (pkt.length - overhead)) pkts
    inferInstanceAs (Decidable (_ ∧ _))

/-! ## Packets and entries of the queue -/

section Entries

variable {fragmentation : List Fragment} {payloadSize : Nat}

theorem partitionStart_lt (htiles : Tiles fragmentation payloadSize) {i j : Nat} (hij : i < j)
    (hj : j ≤ fragmentation.length) :
    partitionStart fragmentation i < partitionStart fragmentation j := by
  have hi : i < fragmentation.length := by omega
  have hsucc := partitionStart_succ hi
  have hpos := htiles.getD_pos hi
  have hmono : partitionStart fragmentation (i + 1) ≤ partitionStart fragmentation j :=
    partitionStart_mono hij
  omega

theorem partition_unique {i j pos : Nat}
    (hi : partitionStart fragmentation i ≤ pos ∧ pos < partitionStart fragmentation (i + 1))
    (hj : partitionStart fragmentation j ≤ pos ∧ pos < partitionStart fragmentation (j + 1)) :
    i = j := by
  rcases Nat.lt_trichotomy i j with hlt | heq | hlt
  · have hmono : partitionStart fragmentation (i + 1) ≤ partitionStart fragmentation j :=
      partitionStart_mono hlt
    omega
  · exact heq
  · have hmono : partitionStart fragmentation (j + 1) ≤ partitionStart fragmentation i :=
      partitionStart_mono hlt
    omega

/-- The bits of the first byte of a packet. -/
theorem firstByte_bits : ∀ (x n s : Bool) (partId : BitVec 8),
    ((((if x then kXBit else 0) ||| (if n then kNBit else 0) ||| (if s then kSBit else 0) |||
      (partId &&& kPartIdField)) &&& kSBit ≠ 0) ↔ s = true) ∧
    (((if x then kXBit else 0) ||| (if n then kNBit else 0) ||| (if s then kSBit else 0) |||
      (partId &&& kPartIdField)) &&& kPartIdField).toNat = partId.toNat % 16 := by
  decide +kernel

theorem signalsAt_iff_marked {fmt : RtpFormatVp8}
    (htiles : Tiles fmt.partInfo payloadSize) {info : InfoStruct}
    (hinfo : Placed fmt.partInfo fmt.maxPayload info)
    (hroom : fmt.hdrInfo.overhead < fmt.maxPayloadLen) :
    SignalsAt fmt.partInfo info.payloadStartPos (fmt.writeHeaderAndPayload info) ↔
      Marked fmt.partInfo info := by
  obtain ⟨first, extension, heq, -, hfirst⟩ := RtpFormatVp8.writeHeaderAndPayload_eq hroom info
  obtain ⟨hs, hpart⟩ := firstByte_bits fmt.hdrInfo.xFieldPresent fmt.hdrInfo.nonReference
    info.firstFragment (BitVec.ofNat 8 info.firstPartitionIx)
  rw [← hfirst] at hs hpart
  rw [BitVec.toNat_ofNat, Nat.mod_mod_of_dvd _ (by decide)] at hpart
  have hstarts : (∃ i < fmt.partInfo.length, partitionStart fmt.partInfo i = info.payloadStartPos) ↔
      info.payloadStartPos = partitionStart fmt.partInfo info.firstPartitionIx := by
    constructor
    · rintro ⟨i, hi, hpos⟩
      have hlt := partitionStart_lt htiles (Nat.lt_succ_self i) hi
      obtain rfl := partition_unique ⟨hpos.le, hpos ▸ hlt⟩
        ⟨hinfo.start_le, hinfo.lt_end⟩
      exact hpos.symm
    · intro hpos
      exact ⟨_, hinfo.partIx_lt, hpos.symm⟩
  unfold SignalsAt Marked
  rw [heq, List.cons_append, List.headD_cons, hs, hstarts]
  exact and_iff_left ⟨_, hinfo.partIx_lt, hinfo.start_le, hinfo.lt_end, hpart⟩

theorem signals_iff_marked {fmt : RtpFormatVp8} (htiles : Tiles fmt.partInfo payloadSize)
    (hroom : fmt.hdrInfo.overhead < fmt.maxPayloadLen) : ∀ {a b : Nat} {infos : List InfoStruct},
    b ≤ fmt.payloadSize → Consecutive (Placed fmt.partInfo fmt.maxPayload) a infos b →
      (Signals fmt.partInfo fmt.hdrInfo.overhead a (infos.map fmt.writeHeaderAndPayload) ↔
        ∀ info ∈ infos, Marked fmt.partInfo info)
  | _, _, [], _, _ => by simp [Signals]
  | a, b, info :: infos, hb, h => by
    obtain ⟨hpos, hinfo, hrest⟩ := h
    have hle := hrest.le
    obtain ⟨first, extension, heq, hlength, -⟩ := RtpFormatVp8.writeHeaderAndPayload_eq hroom info
    have hslice : ((fmt.payloadData.drop info.payloadStartPos).take info.size).length = info.size := by
      rw [List.length_take, List.length_drop]
      have hsize : fmt.payloadSize = fmt.payloadData.length := rfl
      omega
    have hsize : (fmt.writeHeaderAndPayload info).length - fmt.hdrInfo.overhead = info.size := by
      rw [heq, List.length_append, hlength, hslice, Nat.add_sub_cancel_left]
    rw [List.map_cons, Signals, hsize, signals_iff_marked htiles hroom hb hrest, List.forall_mem_cons,
      ← hpos, signalsAt_iff_marked htiles hinfo hroom]

end Entries

/-! ## The modes -/

namespace RtpFormatVp8

section Strict

variable {fmt : RtpFormatVp8} {total : Nat}

theorem fill_partIx (haggr : fmt.aggrMode = .kAggrNone) (startOnNewFragment beginning : Bool) :
    ∀ (fuel : Nat) (s : FillState),
      (fmt.fill startOnNewFragment beginning fuel s).partIx = s.partIx
  | 0, _ => rfl
  | fuel + 1, s => by
    have hadvance : ∀ s, fmt.advance startOnNewFragment s = s := by
      intro s
      unfold advance
      rw [haggr]
      exact if_neg (by simp)
    rw [fill]
    dsimp only
    split
    · rfl
    · split
      · rw [hadvance, fill_partIx haggr startOnNewFragment beginning fuel]
        rfl
      · split
        · rfl
        · rw [fill_partIx haggr startOnNewFragment beginning fuel]
          rfl

/-- In the mode `kStrict` a packet stays in its partition. -/
theorem generateLoop_marked (hbalance : fmt.balance = true) (haggr : fmt.aggrMode = .kAggrNone)
    (htiles : Tiles fmt.partInfo fmt.payloadSize) (hroom : 0 < fmt.maxPayload) :
    ∀ (fuel : Nat) {s : GenerateState} {infos : List InfoStruct},
      Standing fmt s.totalBytesProcessed s.partIx →
      (s.startOnNewFragment = true ↔
        s.totalBytesProcessed = partitionStart fmt.partInfo s.partIx) →
      fmt.generateLoop fuel s = some infos → ∀ info ∈ infos, Marked fmt.partInfo info
  | 0, s, infos, _, _, hinfos => by
    rw [generateLoop] at hinfos
    split at hinfos
    · cases hinfos
    · obtain rfl := Option.some.inj hinfos
      exact List.forall_mem_nil _
  | fuel + 1, s, infos, h, hstart, hinfos => by
    rw [generateLoop] at hinfos
    split at hinfos
    · rename_i hmore
      obtain ⟨hfilling, hpos⟩ := h.fillPacket hbalance htiles hroom hmore
      have hpart : (fmt.fillPacket s).partIx = s.partIx := fill_partIx haggr _ _ _ _
      obtain ⟨rest, hrest, rfl⟩ := Option.map_eq_some_iff.mp hinfos
      refine List.forall_mem_cons.mpr ⟨hstart, ?_⟩
      refine generateLoop_marked hbalance haggr htiles hroom fuel (hfilling.standing htiles) ?_ hrest
      have hreach := hfilling.reach
      have hle := h.start_le
      rw [hpart] at hreach ⊢
      dsimp only
      rw [decide_eq_true_iff]
      split
      · exact ⟨fun _ => by omega, fun _ => ‹_›⟩
      · exact ⟨fun h => absurd h ‹_›, fun _ => by omega⟩
    · obtain rfl := Option.some.inj hinfos
      exact List.forall_mem_nil _

end Strict

/-! ### The mode that ignores partitions -/

/-- Some packet of at most `maxPayloadLen` bytes is filled up with the last
byte of a partition: of the packet `rem` bytes are free, of the partition `r`
bytes remain, and partitions of the sizes `rest` follow. -/
inductive FillsUp (maxPayloadLen : Nat) : (rem r : Nat) → (rest : List Nat) → Prop where
  | full {rest : List Nat} : rest ≠ [] → FillsUp maxPayloadLen 1 1 rest
  | next {rem r size : Nat} {rest : List Nat} : r < rem →
      FillsUp maxPayloadLen (rem - r) size rest → FillsUp maxPayloadLen rem r (size :: rest)
  | split {rem r : Nat} {rest : List Nat} : rem ≤ r → 1 < r →
      FillsUp maxPayloadLen maxPayloadLen (r - calcNextSize true rem r true) rest →
      FillsUp maxPayloadLen rem r rest

section FillsUp

variable {maxPayloadLen rem r : Nat} {rest : List Nat}

theorem calcNextSize_of_lt (hr : 0 < r) (h : r < rem) : calcNextSize true rem r true = r := by
  unfold calcNextSize
  rw [if_neg (by omega), if_neg (by decide), if_pos rfl, Nat.div_eq_of_lt h]
  dsimp only
  omega

theorem calcNextSize_lt (hrem : 0 < rem) (h : rem ≤ r) (hr : 1 < r) :
    calcNextSize true rem r true < r := by
  unfold calcNextSize
  rw [if_neg (by omega), if_neg (by decide), if_pos rfl]
  have hdiv : 1 ≤ r / rem := (Nat.one_le_div_iff hrem).mpr h
  dsimp only
  generalize r / rem = k at hdiv
  rw [Nat.div_lt_iff_lt_mul (by omega)]
  have hmul : r * (2 * (k + 1)) = 2 * r + 2 * (r * k) := by ring
  have hk : 2 * k ≤ r * k := Nat.mul_le_mul_right k hr
  omega

theorem fillsUp_cons {size : Nat} (h : r < rem) :
    FillsUp maxPayloadLen rem r (size :: rest) ↔ FillsUp maxPayloadLen (rem - r) size rest := by
  constructor
  · intro hfills
    cases hfills with
    | full => omega
    | next _ hfills => exact hfills
    | split hle => omega
  · exact .next h

theorem not_fillsUp_nil (h : r < rem) : ¬ FillsUp maxPayloadLen rem r [] := by
  intro hfills
  cases hfills with
  | full hrest => exact hrest rfl
  | split hle => omega

theorem fillsUp_of_le (h : rem ≤ r) (hr : 1 < r) : FillsUp maxPayloadLen rem r rest ↔
    FillsUp maxPayloadLen maxPayloadLen (r - calcNextSize true rem r true) rest := by
  constructor
  · intro hfills
    cases hfills with
    | full => omega
    | next hlt => omega
    | split _ _ hfills => exact hfills
  · exact .split h hr

theorem fillsUp_one : FillsUp maxPayloadLen 1 1 rest ↔ rest ≠ [] := by
  constructor
  · intro hfills
    cases hfills with
    | full hrest => exact hrest
    | next hlt => omega
    | split _ hlt => omega
  · exact .full

end FillsUp

section EqualSize

variable {fmt : RtpFormatVp8} {total : Nat} {s : FillState}

/-- The sizes of the partitions behind one. -/
def following (fmt : RtpFormatVp8) (partIx : Nat) : List Nat :=
  (fmt.partInfo.map Fragment.fragmentationLength).drop (partIx + 1)

theorem following_cons {partIx : Nat} (h : partIx + 1 < fmt.numPartitions) :
    fmt.following partIx =
      (fmt.fragment (partIx + 1)).fragmentationLength :: fmt.following (partIx + 1) := by
  unfold following fragment
  rw [getD_of_lt h, List.drop_eq_getElem_cons (by rw [List.length_map]; exact h), List.getElem_map]
  rfl

theorem following_nil {partIx : Nat} (h : ¬ partIx + 1 < fmt.numPartitions) :
    fmt.following partIx = [] :=
  List.drop_eq_nil_of_le (by rw [List.length_map]; exact Nat.le_of_not_lt h)

theorem Filling.at_end (htiles : Tiles fmt.partInfo fmt.payloadSize) (h : Filling fmt total s)
    (hzero : s.remainingInPartition = 0) (hlast : ¬ s.partIx + 1 < fmt.numPartitions) :
    total + s.packetBytes = fmt.payloadSize := by
  have hreach := h.reach
  have hpart := h.partIx_lt
  have hlength : s.partIx + 1 = fmt.partInfo.length := by
    unfold numPartitions at hlast
    omega
  rw [hzero, hlength, htiles.size] at hreach
  exact hreach

theorem fill_stop (hbalance : fmt.balance = true) (startOnNewFragment beginning : Bool)
    (h : s.remPayloadLen = 0 ∨ s.remainingInPartition = 0) :
    ∀ fuel, fmt.fill startOnNewFragment beginning fuel s = s
  | 0 => rfl
  | fuel + 1 => by
    rw [fill, hbalance, show calcNextSize true s.remPayloadLen s.remainingInPartition
      s.splitPayload = 0 from if_pos h]
    rfl

theorem advance_some (haggr : fmt.aggrMode = .kAggrFragments) (startOnNewFragment : Bool)
    (h : s.partIx + 1 < fmt.numPartitions) :
    fmt.advance startOnNewFragment s =
      { s with
        remainingInPartition := (fmt.fragment (s.partIx + 1)).fragmentationLength
        partIx := s.partIx + 1
        splitPayload := true } := by
  unfold advance
  rw [if_pos ⟨h, .inl haggr⟩, haggr]
  rfl

theorem advance_none (startOnNewFragment : Bool) (h : ¬ s.partIx + 1 < fmt.numPartitions) :
    fmt.advance startOnNewFragment s = s :=
  if_neg fun hmore => h hmore.1

/-- A packet ends with the frame, or at the beginning of a partition, or
within one. -/
theorem fill_fillsUp (hbalance : fmt.balance = true) (haggr : fmt.aggrMode = .kAggrFragments)
    (hseparate : fmt.separateFirst = false) (htiles : Tiles fmt.partInfo fmt.payloadSize)
    (startOnNewFragment beginning : Bool) : ∀ (fuel : Nat) {s s' : FillState},
      Filling fmt total s → 0 < s.remPayloadLen → 0 < s.remainingInPartition →
      s.splitPayload = true → s.remPayloadLen ≤ fuel →
      fmt.fill startOnNewFragment beginning fuel s = s' →
      (s'.remainingInPartition = 0 ∧ total + s'.packetBytes = fmt.payloadSize ∧
        ¬ FillsUp fmt.maxPayload s.remPayloadLen s.remainingInPartition (fmt.following s.partIx)) ∨
      (0 < s'.remainingInPartition ∧
        (FillsUp fmt.maxPayload s.remPayloadLen s.remainingInPartition (fmt.following s.partIx) ↔
          total + s'.packetBytes = partitionStart fmt.partInfo s'.partIx ∨
          FillsUp fmt.maxPayload fmt.maxPayload s'.remainingInPartition (fmt.following s'.partIx)))
  | 0, s, _, _, hroom, _, _, hfuel, _ => absurd hfuel (by omega)
  | fuel + 1, s, s', h, hroom, hr, hsplit, hfuel, hs' => by
    subst hs'
    have hle := calcNextSize_le s.remPayloadLen s.remainingInPartition s.splitPayload
    have htake := h.take hle.1 hle.2
    rw [fill, hbalance]
    rw [hsplit] at hle htake ⊢
    have hpos := calcNextSize_pos hroom hr
    dsimp only
    rw [if_neg (Nat.pos_iff_ne_zero.mp hpos)]
    have hseparate' : ¬ (beginning = true ∧ fmt.separateFirst = true) := by
      rw [hseparate]
      exact fun h => Bool.false_ne_true h.2
    by_cases hlt : s.remainingInPartition < s.remPayloadLen
    · rw [calcNextSize_of_lt hr hlt] at htake ⊢
      have hzero : (s.take s.remainingInPartition).remainingInPartition = 0 := Nat.sub_self _
      rw [if_pos ⟨hzero, hseparate'⟩]
      by_cases hmore : s.partIx + 1 < fmt.numPartitions
      · have hfilling := htake.advance hzero startOnNewFragment
        rw [advance_some haggr startOnNewFragment (s := s.take s.remainingInPartition) hmore]
          at hfilling ⊢
        rw [following_cons hmore, fillsUp_cons hlt]
        exact fill_fillsUp hbalance haggr hseparate htiles startOnNewFragment beginning fuel
          hfilling (Nat.sub_pos_of_lt hlt) (htiles.getD_pos hmore) rfl
          (show s.remPayloadLen - s.remainingInPartition ≤ fuel by omega) rfl
      · rw [advance_none startOnNewFragment (s := s.take s.remainingInPartition) hmore,
          fill_stop hbalance startOnNewFragment beginning (.inr hzero), following_nil hmore]
        exact .inl ⟨hzero, htake.at_end htiles hzero hmore, not_fillsUp_nil hlt⟩
    · by_cases hone : s.remainingInPartition = 1
      · have hrem : s.remPayloadLen = 1 := by omega
        rw [hone, hrem] at htake ⊢
        rw [show calcNextSize true 1 1 true = 1 by decide] at htake ⊢
        have hzero : (s.take 1).remainingInPartition = 0 := by
          show s.remainingInPartition - 1 = 0
          omega
        have hfull : (s.take 1).remPayloadLen = 0 := by
          show s.remPayloadLen - 1 = 0
          omega
        rw [if_pos ⟨hzero, hseparate'⟩, fillsUp_one]
        by_cases hmore : s.partIx + 1 < fmt.numPartitions
        · have hreach := htake.reach
          rw [hzero] at hreach
          rw [fill_stop hbalance startOnNewFragment beginning
            (.inl ((advance_remPayloadLen _ _).trans hfull)),
            advance_some haggr startOnNewFragment (s := s.take 1) hmore, following_cons hmore]
          exact .inr ⟨htiles.getD_pos hmore, fun _ => .inl hreach, fun _ => List.cons_ne_nil _ _⟩
        · rw [advance_none startOnNewFragment (s := s.take 1) hmore,
            fill_stop hbalance startOnNewFragment beginning (.inr hzero), following_nil hmore]
          exact .inl ⟨hzero, htake.at_end htiles hzero hmore, fun h => h rfl⟩
      · have hcut := calcNextSize_lt hroom (by omega) (show 1 < s.remainingInPartition by omega)
        have hreach := htake.reach
        have hsucc : partitionStart fmt.partInfo (s.partIx + 1) = partitionStart fmt.partInfo s.partIx +
          (fmt.partInfo.getD s.partIx {}).fragmentationLength := partitionStart_succ h.partIx_lt
        have hremaining : s.remainingInPartition ≤
            (fmt.partInfo.getD s.partIx {}).fragmentationLength := h.remaining_le
        rw [fillsUp_of_le (by omega) (by omega)]
        generalize calcNextSize true s.remPayloadLen s.remainingInPartition true = nextSize
          at hle htake hpos hcut hreach ⊢
        have hleft : 0 < (s.take nextSize).remainingInPartition := Nat.sub_pos_of_lt hcut
        rw [if_neg fun hzero => hleft.ne' hzero.1, if_pos ⟨rfl, hleft⟩]
        have hwithin : total + (s.take nextSize).packetBytes ≠ partitionStart fmt.partInfo s.partIx := by
          change total + (s.packetBytes + nextSize) + (s.remainingInPartition - nextSize) =
            partitionStart fmt.partInfo (s.partIx + 1) at hreach
          change total + (s.packetBytes + nextSize) ≠ _
          omega
        exact .inr ⟨hleft, (or_iff_right hwithin).symm⟩

theorem generateLoop_done {s : GenerateState} (h : fmt.payloadSize ≤ s.totalBytesProcessed) :
    ∀ fuel, fmt.generateLoop fuel s = some []
  | 0 => by rw [generateLoop, if_neg (Nat.not_lt.mpr h)]
  | _ + 1 => by rw [generateLoop, if_neg (Nat.not_lt.mpr h)]

theorem generateLoop_head {s : GenerateState} (h : s.totalBytesProcessed < fmt.payloadSize)
    {fuel : Nat} {infos : List InfoStruct} (hinfos : fmt.generateLoop fuel s = some infos) :
    ∃ info rest, infos = info :: rest ∧ info.payloadStartPos = s.totalBytesProcessed ∧
      info.firstPartitionIx = s.partIx ∧ info.firstFragment = s.startOnNewFragment := by
  cases fuel with
  | zero =>
    rw [generateLoop, if_pos h] at hinfos
    cases hinfos
  | succ fuel =>
    rw [generateLoop, if_pos h] at hinfos
    obtain ⟨rest, -, rfl⟩ := Option.map_eq_some_iff.mp hinfos
    exact ⟨_, rest, rfl, rfl, rfl, rfl⟩

/-- The entries from one on that is marked. -/
theorem generateLoop_marked_iff (hbalance : fmt.balance = true)
    (haggr : fmt.aggrMode = .kAggrFragments) (hseparate : fmt.separateFirst = false)
    (htiles : Tiles fmt.partInfo fmt.payloadSize) (hroom : 0 < fmt.maxPayload) :
    ∀ (fuel : Nat) {s : GenerateState} {infos : List InfoStruct},
      Standing fmt s.totalBytesProcessed s.partIx → s.totalBytesProcessed < fmt.payloadSize →
      (s.startOnNewFragment = true ↔
        s.totalBytesProcessed = partitionStart fmt.partInfo s.partIx) →
      fmt.generateLoop fuel s = some infos →
      ((∀ info ∈ infos, Marked fmt.partInfo info) ↔
        ¬ FillsUp fmt.maxPayload fmt.maxPayload
          (partitionStart fmt.partInfo (s.partIx + 1) - s.totalBytesProcessed)
          (fmt.following s.partIx))
  | 0, s, infos, _, hmore, _, hinfos => by
    rw [generateLoop, if_pos hmore] at hinfos
    cases hinfos
  | fuel + 1, s, infos, h, hmore, hstart, hinfos => by
    rw [generateLoop, if_pos hmore] at hinfos
    obtain ⟨hfilling, hpos⟩ := h.fillPacket hbalance htiles hroom hmore
    obtain ⟨rest, hrest, rfl⟩ := Option.map_eq_some_iff.mp hinfos
    have hmarked : Marked fmt.partInfo
        { payloadStartPos := s.totalBytesProcessed
          size := (fmt.fillPacket s).packetBytes
          firstFragment := s.startOnNewFragment
          firstPartitionIx := s.partIx } := hstart
    rw [List.forall_mem_cons, and_iff_right hmarked]
    obtain ⟨hstarting, hremaining⟩ := h.startPacket htiles hmore
    have hend := (h.inside hmore).2
    have hfills := fill_fillsUp hbalance haggr hseparate htiles s.startOnNewFragment s.beginning
      fmt.maxPayload hstarting hroom (by omega) rfl (Nat.le_refl _) rfl
    rw [← hremaining]
    have hstanding := hfilling.standing htiles
    unfold fillPacket at hrest hpos hfilling hstanding
    generalize fmt.fill _ _ _ _ = filled at *
    rcases hfills with ⟨hzero, hlast, hnot⟩ | ⟨hleft, hiff⟩
    · refine iff_of_true (fun info hinfo => ?_) hnot
      rw [generateLoop_done (by dsimp only; omega)] at hrest
      obtain rfl := Option.some.inj hrest
      cases hinfo
    · refine Iff.trans ?_ (not_congr hiff).symm
      have hreach := hfilling.reach
      have hle : partitionStart fmt.partInfo (filled.partIx + 1) ≤ fmt.payloadSize :=
        htiles.le_size hfilling.partIx_lt
      rw [if_neg hleft.ne'] at hrest hstanding
      rw [decide_eq_false hleft.ne'] at hrest
      by_cases hboundary :
          s.totalBytesProcessed + filled.packetBytes = partitionStart fmt.partInfo filled.partIx
      · refine iff_of_false (fun hmarked => ?_) (not_not.mpr (.inl hboundary))
        obtain ⟨info, infos, rfl, hpos, hpart, hfirst⟩ := generateLoop_head (by dsimp only; omega) hrest
        have hinfo : Marked fmt.partInfo info := hmarked info List.mem_cons_self
        unfold Marked at hinfo
        rw [hpos, hpart, hfirst] at hinfo
        exact Bool.false_ne_true (hinfo.mpr hboundary)
      · have ih := generateLoop_marked_iff hbalance haggr hseparate htiles hroom fuel hstanding
          (by dsimp only; omega) (iff_of_false Bool.false_ne_true hboundary) hrest
        rw [ih]
        dsimp only
        rw [or_iff_right hboundary, ← hreach, Nat.add_sub_cancel_left]

theorem generatePackets_marked_iff (hbalance : fmt.balance = true)
    (haggr : fmt.aggrMode = .kAggrFragments) (hseparate : fmt.separateFirst = false)
    (htiles : Tiles fmt.partInfo fmt.payloadSize) (hroom : 0 < fmt.maxPayload)
    {infos : List InfoStruct} (hinfos : fmt.generatePackets = some infos) :
    (∀ info ∈ infos, Marked fmt.partInfo info) ↔
      ¬ FillsUp fmt.maxPayload fmt.maxPayload
        ((fmt.partInfo.map Fragment.fragmentationLength).headD 0)
        (fmt.partInfo.map Fragment.fragmentationLength).tail := by
  have hhead : partitionStart fmt.partInfo 1 - 0 =
      (fmt.partInfo.map Fragment.fragmentationLength).headD 0 := by
    unfold partitionStart
    cases fmt.partInfo <;> simp
  rw [← List.drop_one, ← hhead]
  exact generateLoop_marked_iff hbalance haggr hseparate htiles hroom _
    (standing_zero htiles) (payloadSize_pos htiles) (iff_of_true rfl rfl) hinfos

end EqualSize

end RtpFormatVp8

/-! ## The packets of a frame -/

section Packets

variable {payload : List Byte} {fragmentation : List Fragment} {mode : VP8PacketizerMode}
  {hdr : RTPVideoHeaderVP8} {maxPayloadLen : Nat}

open RtpFormatVp8

theorem calculatePackets_marked_iff (htiles : Tiles fragmentation payload.length)
    (hroom : hdr.overhead < maxPayloadLen)
    (hrange : mode = .kAggregate → (hdr.overhead + 2) * payload.length < INT_MAX)
    {infos : List InfoStruct}
    (hinfos : (create payload hdr maxPayloadLen fragmentation mode).calculatePackets =
      some (0, infos)) :
    (∀ info ∈ infos, Marked fragmentation info) ↔
      (mode = .kEqualSize → ¬ FillsUp (maxPayloadLen - hdr.overhead) (maxPayloadLen - hdr.overhead)
        ((fragmentation.map Fragment.fragmentationLength).headD 0)
        (fragmentation.map Fragment.fragmentationLength).tail) := by
  have hmax : 0 < (create payload hdr maxPayloadLen fragmentation mode).maxPayload :=
    Nat.sub_pos_of_lt hroom
  unfold calculatePackets at hinfos
  have hcheck : ¬ (create payload hdr maxPayloadLen fragmentation mode).maxPayloadLen <
      (create payload hdr maxPayloadLen fragmentation mode).hdrInfo.overhead + 1 :=
    Nat.not_lt.mpr hroom
  rw [if_neg hcheck] at hinfos
  cases mode with
  | kAggregate =>
    refine iff_of_true ?_ nofun
    rw [if_pos ⟨rfl, rfl⟩] at hinfos
    obtain ⟨-, rfl⟩ := Prod.mk.inj (Option.some.inj hinfos)
    exact fun info hinfo => ((generatePacketsBalancedAggregates_placed htiles hmax
      (hrange rfl)).of_mem info hinfo).1.2
  | kStrict =>
    refine iff_of_true ?_ nofun
    rw [if_neg (fun h => nomatch h.1)] at hinfos
    obtain ⟨infos', hinfos', heq⟩ := Option.map_eq_some_iff.mp hinfos
    obtain ⟨-, rfl⟩ := Prod.mk.inj heq
    exact @generateLoop_marked (create payload hdr maxPayloadLen fragmentation .kStrict) rfl rfl
      htiles hmax _ _ _ (standing_zero htiles) (iff_of_true rfl rfl) hinfos'
  | kEqualSize =>
    rw [if_neg (fun h => nomatch h.1)] at hinfos
    obtain ⟨infos', hinfos', heq⟩ := Option.map_eq_some_iff.mp hinfos
    obtain ⟨-, rfl⟩ := Prod.mk.inj heq
    rw [forall_prop_of_true rfl]
    exact @generatePackets_marked_iff
      (create payload hdr maxPayloadLen fragmentation .kEqualSize) rfl rfl rfl htiles hmax _ hinfos'

theorem packetize_too_short (hroom : ¬ hdr.overhead < maxPayloadLen) (calls : Nat) :
    packetize calls (create payload hdr maxPayloadLen fragmentation mode) = none := by
  cases calls with
  | zero => rfl
  | succ calls =>
    have hcalculated : (create payload hdr maxPayloadLen fragmentation mode).calculatePackets =
        some (-1, []) := if_pos (Nat.lt_succ_of_le (Nat.le_of_not_lt hroom))
    have hnext : (create payload hdr maxPayloadLen fragmentation mode).nextPacket =
        some (-1, [], false, create payload hdr maxPayloadLen fragmentation mode) := by
      unfold nextPacket
      dsimp only
      rw [if_neg (show ¬ (create payload hdr maxPayloadLen fragmentation mode).packetsCalculated = true
        from Bool.false_ne_true), hcalculated]
      rfl
    rw [packetize, hnext]
    rfl

/-- The packets of a frame signal where its partitions begin, unless the mode
`kEqualSize` fills one up with the last byte of a partition. In the mode
`kAggregate` a cost must not exceed the range of an `int`. -/
theorem packetize_signals_iff (htiles : Tiles fragmentation payload.length)
    (hrange : mode = .kAggregate → (hdr.overhead + 2) * payload.length < INT_MAX) {calls : Nat}
    {pkts : List (List Byte)}
    (hpkts : packetize calls (create payload hdr maxPayloadLen fragmentation mode) = some pkts) :
    Signals fragmentation hdr.overhead 0 pkts ↔
      (mode = .kEqualSize → ¬ FillsUp (maxPayloadLen - hdr.overhead) (maxPayloadLen - hdr.overhead)
        ((fragmentation.map Fragment.fragmentationLength).headD 0)
        (fragmentation.map Fragment.fragmentationLength).tail) := by
  by_cases hroom : hdr.overhead < maxPayloadLen
  · obtain ⟨infos, hinfos, hplaced, hpackets⟩ :=
      packetize_eq_map htiles hroom hrange
    rw [hpackets] at hpkts
    split at hpkts
    · obtain rfl := Option.some.inj hpkts
      rw [← calculatePackets_marked_iff htiles hroom hrange hinfos]
      exact @signals_iff_marked _ (create payload hdr maxPayloadLen fragmentation mode) htiles
        hroom _ _ _ (Nat.le_refl _) hplaced
    · cases hpkts
  · rw [packetize_too_short hroom] at hpkts
    cases hpkts

/-- The first packet ends within the second partition. -/
theorem packetize_signals_iff_within :
    Signals [⟨0, 3⟩, ⟨3, 2⟩, ⟨5, 4⟩] (RTPVideoHeaderVP8.overhead {}) 0
      [[0x10, 1, 2, 3, 4], [0x01, 5, 6, 7], [0x02, 8, 9]] ↔
    (VP8PacketizerMode.kEqualSize = .kEqualSize → ¬ FillsUp 4 4 3 [2, 4]) :=
  packetize_signals_iff
    (show Tiles [⟨0, 3⟩, ⟨3, 2⟩, ⟨5, 4⟩] [1, 2, 3, 4, 5, 6, 7, 8, 9].length from
      ⟨by decide, by decide, by decide, by decide⟩)
    (fun h => VP8PacketizerMode.noConfusion h)
    (show packetize 3 (create [1, 2, 3, 4, 5, 6, 7, 8, 9] {} 5 [⟨0, 3⟩, ⟨3, 2⟩, ⟨5, 4⟩] .kEqualSize) =
      some [[0x10, 1, 2, 3, 4], [0x01, 5, 6, 7], [0x02, 8, 9]] by decide +kernel)

/-- The first packet ends with the second partition. -/
theorem packetize_not_signals : ¬ ∀ calls pkts,
    packetize calls (create [1, 2, 3, 4, 5, 6, 7, 8, 9] {} 5 [⟨0, 3⟩, ⟨3, 1⟩, ⟨4, 5⟩] .kEqualSize) =
      some pkts →
    Signals [⟨0, 3⟩, ⟨3, 1⟩, ⟨4, 5⟩] (RTPVideoHeaderVP8.overhead {}) 0 pkts := by
  intro h
  have hsignals := h 3 [[0x10, 1, 2, 3, 4], [0x02, 5, 6, 7], [0x02, 8, 9]] (by decide +kernel)
  revert hsignals
  decide +kernel

end Packets

end PerchWebrtc.Vp8
