import PerchWebrtc.Fec.Encoding

/-!
# Gaps of any size

Behind column 48, `InsertZerosInBitMasks` stops, but only if a media packet comes exactly there: a
gap that jumps over the place leaves the rows of the masks. Where it stops, the walks of
`GenerateFecBitStrings` go on behind the masks.

* `insertZerosInBitMasks_isSome_iff`: when the columns are in their rows;
* `generateFEC_staysInBounds_iff`: when `GenerateFEC` stays inside of the masks, and writes what
  they say.
-/

namespace PerchWebrtc.Fec

open Packet

/-- The media packets have ascending offsets from the first one, of any size. -/
structure Increasing (media : List Packet) (base : BitVec 16) : Prop where
  first : ∀ p ∈ media.head?, parseSequenceNumber p.data = base
  increasing : (media.map (offset base)).Pairwise (· < ·)

/-! ## The columns -/

section Columns

variable {base : BitVec 16} {numFecPackets newStride oldStride : Nat}

/-- The columns are in their rows, unless the loop comes to one behind them before it stops. -/
theorem insertZerosFrom_isSome_iff (hstride : newStride ≤ kMaskSizeLBitSet) :
    ∀ {media : List Packet} {prev : BitVec 16} {c p : Nat} {masks : Mem × Mem},
      ((prev - base).toNat :: media.map (offset base)).Pairwise (· < ·) →
      (prev - base).toNat < 8 * newStride → p + media.length ≤ 8 * oldStride →
      c = (prev - base).toNat + 1 →
      ((insertZerosFrom numFecPackets newStride oldStride media prev c p masks).isSome ↔
        (∀ m ∈ media, offset base m < 8 * newStride) ∨
          newStride = kMaskSizeLBitSet ∧
            8 * kMaskSizeLBitSet - 1 ∈ (prev - base).toNat :: media.map (offset base))
  | [], prev, c, p, masks, _, _, _, _ => iff_of_true rfl (.inl (List.forall_mem_nil _))
  | m :: media, prev, c, p, masks, hinc, hprev, hlen, hc => by
    have hm : (prev - base).toNat < offset base m :=
      List.rel_of_pairwise_cons hinc List.mem_cons_self
    have hlater : ∀ o ∈ media.map (offset base), offset base m < o :=
      fun o ho => List.rel_of_pairwise_cons hinc.of_cons ho
    have hkMask : kMaskSizeLBitSet = 6 := rfl
    rw [List.length_cons] at hlen
    have hz : (parseSequenceNumber m.data - prev - 1).toNat = offset base m - c := by
      rw [zeros_toNat hm, hc]
      exact Nat.sub_sub _ _ _
    have hcol : c + (offset base m - c) = offset base m := by omega
    simp only [insertZerosFrom, hz, hcol]
    by_cases hfull : c = 8 * kMaskSizeLBitSet
    · rw [if_pos hfull]
      refine iff_of_true rfl (.inr ⟨by omega, List.mem_cons.mpr (.inl (by omega))⟩)
    rw [if_neg hfull]
    by_cases hrow : offset base m < 8 * newStride
    · have hinRow : InRow newStride (offset base m) ∧ InRow oldStride p := by
        unfold InRow
        omega
      have ih := fun masks => @insertZerosFrom_isSome_iff hstride media (parseSequenceNumber m.data)
        (offset base m + 1) (p + 1) masks hinc.of_cons hrow (by omega) rfl
      rw [if_pos hinRow]
      refine (ih _).trans (or_congr ?_ (and_congr_right fun _ => ?_))
      · rw [List.forall_mem_cons]
        exact (and_iff_right hrow).symm
      · have hnot : 8 * kMaskSizeLBitSet - 1 ≠ (prev - base).toNat := by omega
        exact (List.mem_cons.trans (or_iff_right hnot)).symm
    · have hnotInRow : ¬ (InRow newStride (offset base m) ∧ InRow oldStride p) := by
        unfold InRow
        omega
      rw [if_neg hnotInRow]
      refine iff_of_false Bool.false_ne_true (not_or.mpr ⟨fun h => ?_, fun h => ?_⟩)
      · exact hrow (h m List.mem_cons_self)
      · obtain ⟨hsix, hmem⟩ := h
        rw [List.map_cons, List.mem_cons, List.mem_cons] at hmem
        rcases hmem with hmem | hmem | hmem
        · omega
        · omega
        · have := hlater _ hmem
          omega

/-- Behind the loop there are as many columns as the packets need, or as many as the mask has. -/
theorem insertZerosFrom_count :
    ∀ {media : List Packet} {prev : BitVec 16} {c p : Nat} {masks : Mem × Mem}
      {result : Nat × (Mem × Mem)},
      ((prev - base).toNat :: media.map (offset base)).Pairwise (· < ·) →
      c = (prev - base).toNat + 1 →
      insertZerosFrom numFecPackets newStride oldStride media prev c p masks = some result →
      result.1 = 8 * kMaskSizeLBitSet ∨
        result.1 = (media.map (offset base)).getLastD (prev - base).toNat + 1
  | [], prev, c, p, masks, _, _, hc, h => by
    obtain rfl := Option.some.inj h
    exact .inr hc
  | m :: media, prev, c, p, masks, _, hinc, hc, h => by
    have hm : (prev - base).toNat < offset base m :=
      List.rel_of_pairwise_cons hinc List.mem_cons_self
    have hz : (parseSequenceNumber m.data - prev - 1).toNat = offset base m - c := by
      rw [zeros_toNat hm, hc]
      exact Nat.sub_sub _ _ _
    have hcol : c + (offset base m - c) = offset base m := by omega
    simp only [insertZerosFrom, hz, hcol] at h
    split at h
    · rename_i hfull
      obtain rfl := Option.some.inj h
      exact .inl hfull
    · split at h
      · rw [List.map_cons, List.getLastD_cons]
        exact insertZerosFrom_count hinc.of_cons rfl h
      · cases h

end Columns

section Increasing

variable {media : List Packet} {base : BitVec 16} {numFecPackets stride : Nat}
  {mask : Mem}

theorem Increasing.ascending (h : Increasing media base)
    (hspan : ∀ p ∈ media, offset base p < kMaxMediaPackets) :
    Ascending media base :=
  ⟨h.first, h.increasing, hspan⟩

/-- The first packet has column 0. -/
theorem Increasing.offsets_cons {first : Packet} (h : Increasing (first :: media) base) :
    (first :: media).map (offset base) = (base - base).toNat :: media.map (offset base) := by
  rw [List.map_cons, offset, h.first first rfl]

theorem Increasing.numColumns_cons {first : Packet} (h : Increasing (first :: media) base) :
    numColumns ((first :: media).map (offset base)) =
      (media.map (offset base)).getLastD (base - base).toNat + 1 := by
  rw [numColumns, h.offsets_cons, List.getLastD_cons]

theorem sub_self_toNat (base : BitVec 16) : (base - base).toNat = 0 := by
  rw [BitVec.sub_self]
  rfl

theorem insertZerosInBitMasks_count (h : Increasing media base) (hne : media ≠ []) {columns : Nat × Mem}
    (hcolumns : insertZerosInBitMasks numFecPackets media mask stride = some columns) :
    columns.1 = 8 * kMaskSizeLBitSet ∨ columns.1 = numColumns (media.map (offset base)) := by
  match media, hne with
  | [first], _ =>
    obtain rfl := Option.some.inj hcolumns
    right
    rw [h.numColumns_cons, sub_self_toNat]
    rfl
  | first :: second :: rest, _ =>
    rw [insertZerosInBitMasks_eq (h.first first rfl).symm] at hcolumns
    split at hcolumns
    · rename_i hsame
      obtain rfl := Option.some.inj hcolumns
      exact .inr hsame.symm
    · obtain ⟨result, hresult, rfl⟩ := Option.map_eq_some_iff.mp hcolumns
      rw [h.numColumns_cons]
      exact insertZerosFrom_count (h.offsets_cons ▸ h.increasing) (by rw [sub_self_toNat]) hresult

/-- `InsertZerosInBitMasks` stays inside of the rows if all packets are less than 48 behind the first
one, or one is 47 behind it. -/
theorem insertZerosInBitMasks_isSome_iff (h : Increasing media base)
    (hlen : media.length ≤ kMaxMediaPackets) :
    (insertZerosInBitMasks numFecPackets media mask (maskBytes media.length)).isSome ↔
      (∀ p ∈ media, offset base p < kMaxMediaPackets) ∨
        kMaxMediaPackets - 1 ∈ media.map (offset base) := by
  have hbelow : ∀ p ∈ media, offset base p < numColumns (media.map (offset base)) := fun p hp =>
    Nat.lt_succ_of_le (le_getLastD h.increasing (List.mem_map_of_mem hp))
  have hfits := maskBytes_mul_le hlen
  match media with
  | [] => exact iff_of_true rfl (.inl (List.forall_mem_nil _))
  | [first] =>
    refine iff_of_true rfl (.inl fun p hp => ?_)
    have hone := hbelow p hp
    rw [h.numColumns_cons, sub_self_toNat] at hone
    exact hone.trans (show 1 < 48 by decide)
  | first :: second :: rest =>
    rw [insertZerosInBitMasks_eq (h.first first rfl).symm]
    generalize hcols : numColumns ((first :: second :: rest).map (offset base)) = cols at *
    by_cases hsame : cols = (first :: second :: rest).length
    · rw [if_pos hsame]
      exact iff_of_true rfl (.inl fun p hp => (hbelow p hp).trans_le (hsame ▸ hlen))
    · have hpos : (base - base).toNat < 8 * maskBytes cols := by
        rw [sub_self_toNat]
        unfold maskBytes
        split <;> decide
      have hloop := @insertZerosFrom_isSome_iff base numFecPackets (maskBytes cols)
        (maskBytes (first :: second :: rest).length) (maskBytes_le cols) (second :: rest) base 1 1
        (copyColumn numFecPackets (maskBytes cols) (maskBytes (first :: second :: rest).length) 0 0
          (fun _ => 0, mask)) (h.offsets_cons ▸ h.increasing) hpos
        (by rw [Nat.add_comm]; exact hfits) (by rw [sub_self_toNat])
      have hfirst : offset base first = (base - base).toNat := by
        rw [offset, h.first first rfl]
      have hspan : (∀ p ∈ first :: second :: rest, offset base p < kMaxMediaPackets) ↔
          ∀ p ∈ second :: rest, offset base p < kMaxMediaPackets := by
        refine List.forall_mem_cons.trans (and_iff_right ?_)
        rw [hfirst, sub_self_toNat]
        decide
      rw [if_neg hsame, Option.isSome_map, hloop, h.offsets_cons, hspan]
      by_cases hlarge : maskBytes cols = kMaskSizeLBitSet
      · rw [hlarge, sub_self_toNat]
        exact or_congr Iff.rfl (and_iff_right rfl)
      · have hsmall : cols ≤ 8 * kMaskSizeLBitClear := by
          by_contra hmany
          exact hlarge (if_pos (Nat.lt_of_not_le hmany))
        have hbytes : maskBytes cols = kMaskSizeLBitClear := if_neg (Nat.not_lt.mpr hsmall)
        have hall := fun p hp => (hbelow p (List.mem_cons_of_mem _ hp)).trans_le hsmall
        rw [hbytes, sub_self_toNat]
        exact iff_of_true (.inl hall)
          (.inl fun p hp => (hall p hp).trans (by decide))

end Increasing

/-! ## GenerateFEC -/

/-- The number of FEC packets that `GenerateFEC` writes for media packets that it accepts. -/
def numFecPacketsFor (media : List Packet) (params : FecParams) : Nat :=
  getNumberOfFecPackets (BitVec.ofNat 16 media.length).toNat params.protectionFactor.toNat

/-- Whatever the masks are, `InsertZerosInBitMasks` stays inside of their rows. What is written is
the XOR of the media packets that its mask selects, and it selects no others. -/
structure StaysInBounds (tables : MaskTables) (media : List Packet) (params : FecParams) : Prop where
  columns : numFecPacketsFor media params ≠ 0 → ∀ mask : Mem,
    (insertZerosInBitMasks (numFecPacketsFor media params) media mask
      (maskBytes (BitVec.ofNat 16 media.length).toNat)).isSome
  written : ∃ result, generateFEC tables media params [] = some result ∧
    (result.1 = 0 → ∀ pkt ∈ result.2, Encodes media pkt ∧ Designates media pkt)

/-- With packets behind column 48, the walk for the last FEC packet leaves the masks. -/
theorem offset_lt_of_inside {media : List Packet} {base : BitVec 16} (h : Increasing media base)
    {num columns : Nat}
    (hcolumns : columns = 8 * kMaskSizeLBitSet ∨ columns = numColumns (media.map (offset base)))
    (hinside : Inside (packetMaskSize (num + 1)) (num * maskBytes columns) base media) :
    ∀ p ∈ media, offset base p < kMaxMediaPackets := by
  intro p hp
  have hle := le_getLastD h.increasing (List.mem_map_of_mem hp)
  have hwalk := hinside p hp
  have hkMask : kMaskSizeLBitSet = 6 := rfl
  have hkMax : kMaxMediaPackets = 48 := rfl
  have hkClear : kMaskSizeLBitClear = 2 := rfl
  unfold packetMaskSize at hwalk
  unfold numColumns at hcolumns
  rw [Nat.succ_mul] at hwalk
  unfold maskBytes at hwalk
  split at hwalk
  · omega
  · omega

/-- With media packets whose numbers go on by any gaps, `GenerateFEC` stays in its bounds exactly if
it writes nothing, or all packets are less than 48 behind the first one and no gap jumps over the
start of a mask byte. -/
theorem generateFEC_staysInBounds_iff {tables : MaskTables} (htables : tables.WellFormed)
    {media : List Packet} (hadvances : Advances media) {params : FecParams}
    (haccepts : accepts media params [] = true) :
    StaysInBounds tables media params ↔
      numFecPacketsFor media params = 0 ∨
        ∃ base, Ascending media base ∧ NoJump (media.map (offset base)) := by
  have hok := accepted haccepts
  constructor
  · intro hbounds
    by_contra hnot
    obtain ⟨hnum, hnot⟩ := not_or.mp hnot
    obtain ⟨result, hresult, -⟩ := hbounds.written
    obtain ⟨num, hnum⟩ := Nat.exists_eq_succ_of_ne_zero hnum
    cases media with
    | nil => exact hok.ne_nil rfl
    | cons first rest =>
      obtain ⟨mask, columns, hcolumns, hinc, hnear, hinside⟩ :=
        generateFEC_some hadvances haccepts hnum hresult
      have hincreasing : Increasing (first :: rest) (parseSequenceNumber first.data) :=
        ⟨fun p hp => by rw [← Option.some.inj hp], hinc⟩
      have hcount := insertZerosInBitMasks_count hincreasing hok.ne_nil hcolumns
      have hspan := offset_lt_of_inside hincreasing hcount hinside
      exact hnot ⟨_, hincreasing.ascending hspan, hnear⟩
  · rintro (hzero | ⟨base, hascending, hnear⟩)
    · exact ⟨fun hnum => absurd hzero hnum,
        _, generateFEC_none haccepts hzero, fun _ => List.forall_mem_nil _⟩
    · obtain ⟨fec, hfec, hall⟩ := generateFEC_near htables hascending haccepts hnear
      refine ⟨fun _ mask => ?_, _, hfec, fun _ => hall⟩
      rw [hascending.count]
      exact (insertZerosInBitMasks_isSome_iff ⟨hascending.first, hascending.increasing⟩
        (hascending.length_le.trans hascending.numColumns_le)).mpr (.inl hascending.span)

/-- With a gap that is small enough. -/
theorem generateFEC_staysInBounds_gap :
    StaysInBounds onesTables [emptyPacket 0xffff, emptyPacket 2] ⟨128, 0, false, .kFecMaskRandom⟩ :=
  (generateFEC_staysInBounds_iff onesTables_wellFormed (by decide) (by decide)).mpr
    (.inr ⟨0xffff, ⟨by decide, by decide, by decide⟩, by decide⟩)

/-- The column of the second packet is behind the only row. -/
theorem generateFEC_not_staysInBounds :
    ¬ ∀ (tables : MaskTables), tables.WellFormed → ∀ (media : List Packet) (base : BitVec 16),
      Increasing media base → ∀ params : FecParams, accepts media params [] = true →
      StaysInBounds tables media params := by
  intro h
  have hbounds := h onesTables onesTables_wellFormed [emptyPacket 0, emptyPacket 100] 0
    ⟨by decide, by decide⟩ ⟨128, 0, false, .kFecMaskRandom⟩ (by decide)
  have hcolumns := hbounds.columns (by decide) fun _ => 0
  revert hcolumns
  decide +kernel

end PerchWebrtc.Fec
