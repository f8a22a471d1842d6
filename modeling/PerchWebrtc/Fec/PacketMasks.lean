import PerchWebrtc.Fec.Encoder
import PerchWebrtc.Framework.Rows

/-!
# The packet masks

Whatever mask is taken from the tables, or put together from two of them for
unequal protection, each of its rows selects some of the media packets, and no
others (`generatePacketMasks_selects`).
-/

namespace PerchWebrtc.Fec

/-- The row of mask bytes at `p` selects some of the `k` media packets, and no
bits after them. -/
structure Selects (k : Nat) (m : Mem) (p : Nat) : Prop where
  some : ∃ i < k, maskBitAt m p i = true
  within : ∀ i, k ≤ i → i < 8 * maskBytes k → maskBitAt m p i = false

theorem maskBitAt_congr {m m' : Mem} {p p' i : Nat} (h : m (p + i / 8) = m' (p' + i / 8)) :
    maskBitAt m p i = maskBitAt m' p' i := by
  rw [maskBitAt, maskBitAt, h]

theorem IsMask.selects_row {k n : Nat} {mask : List Byte} (h : IsMask k n mask) {r : Nat}
    (hr : r < n) : Selects k (Mem.ofList mask) (r * maskBytes k) :=
  ⟨h.selects r hr, h.within r hr⟩

theorem Selects.congr {k : Nat} {m m' : Mem} {p p' : Nat} (h : Selects k m p)
    (hk : k ≤ kMaxMediaPackets) (heq : ∀ j < maskBytes k, m' (p' + j) = m (p + j)) :
    Selects k m' p' := by
  obtain ⟨⟨i, hi, hbit⟩, hwithin⟩ := h
  have hfits := maskBytes_mul_le hk
  refine ⟨⟨i, hi, ?_⟩, fun i hi hi' => ?_⟩
  · rw [← hbit]
    exact maskBitAt_congr (heq _ (by omega))
  · rw [← hwithin i hi hi']
    exact maskBitAt_congr (heq _ (by omega))

/-- The rows that `fitSubMask` writes. -/
theorem fitSubMask_inside {numMaskBytes numSubMaskBytes numRows : Nat}
    (hsub : numSubMaskBytes ≤ numMaskBytes) (subMask : List Byte) (p : Nat) (m : Mem) {r j : Nat}
    (hr : r < numRows) (hj : j < numMaskBytes) :
    fitSubMask numMaskBytes numSubMaskBytes numRows subMask p m (p + r * numMaskBytes + j) =
      if j < numSubMaskBytes then Mem.ofList subMask (r * numSubMaskBytes + j)
      else m (p + r * numMaskBytes + j) := by
  unfold fitSubMask
  split
  · rename_i heq
    have hle : (r + 1) * numMaskBytes ≤ numRows * numMaskBytes := Nat.mul_le_mul_right _ hr
    rw [Nat.succ_mul] at hle
    rw [← heq, Mem.copy_inside _ _ (by omega) (by omega), if_pos hj]
    congr 1
    omega
  · refine (foldl_rows (fun (m : Mem) r => m (p + r * numMaskBytes + j))
      (fun m i => m.copy (p + i * numMaskBytes) (Mem.ofList subMask) (i * numSubMaskBytes)
        numSubMaskBytes)
      (fun r b => if j < numSubMaskBytes then Mem.ofList subMask (r * numSubMaskBytes + j) else b)
      (fun m r => ?_) (fun m r r' hne => ?_) numRows m r).trans (if_pos hr)
    · split
      · rw [Mem.copy_inside _ _ (by omega) (by omega)]
        congr 1
        omega
      · exact Mem.copy_outside _ _ (by omega)
    · refine Mem.copy_outside _ _ ?_
      rcases Nat.lt_or_gt_of_ne hne with h | h
      · have hle : (r + 1) * numMaskBytes ≤ r' * numMaskBytes := Nat.mul_le_mul_right _ h
        rw [Nat.succ_mul] at hle
        omega
      · have hle : (r' + 1) * numMaskBytes ≤ r * numMaskBytes := Nat.mul_le_mul_right _ h
        rw [Nat.succ_mul] at hle
        omega

/-- What `fitSubMask` leaves. -/
theorem fitSubMask_before {numMaskBytes numSubMaskBytes numRows : Nat} (subMask : List Byte)
    {p a : Nat} (m : Mem) (ha : a < p) :
    fitSubMask numMaskBytes numSubMaskBytes numRows subMask p m a = m a := by
  unfold fitSubMask
  split
  · exact Mem.copy_outside _ _ (.inl ha)
  · induction numRows with
    | zero => rfl
    | succ n ih =>
      rw [List.range_succ, List.foldl_append, List.foldl_cons, List.foldl_nil,
        Mem.copy_outside _ _ (by omega), ih]

variable {numMediaPackets : Nat}

theorem MaskTables.WellFormed.isMask {t : MaskTables} (h : t.WellFormed) (type : FecMaskType)
    {k n : Nat} (hk : k ≤ numMediaPackets) (hmax : numMediaPackets ≤ kMaxMediaPackets) (hn : 0 < n)
    (hnk : n ≤ k) :
    IsMask k n (t.initMaskTable (initMaskType type numMediaPackets) (k - 1) (n - 1)) := by
  obtain ⟨k, rfl⟩ : ∃ k', k = k' + 1 := ⟨k - 1, by omega⟩
  obtain ⟨n, rfl⟩ : ∃ n', n = n' + 1 := ⟨n - 1, by omega⟩
  have hrandom := h.random k (by omega) n (by omega)
  cases type with
  | kFecMaskRandom => exact hrandom
  | kFecMaskBursty =>
    unfold initMaskType
    simp only
    split
    · exact hrandom
    · exact h.bursty k (by omega) n (by omega)

/-- A row for the first packets only, in a row of zeros for all of them. -/
theorem Selects.widen {k k' : Nat} {m m' : Mem} {p p' : Nat} (h : Selects k m p) (hk : k ≤ k')
    (hmax : k' ≤ kMaxMediaPackets)
    (heq : ∀ j < maskBytes k', m' (p' + j) = if j < maskBytes k then m (p + j) else 0) :
    Selects k' m' p' := by
  obtain ⟨⟨i, hi, hbit⟩, hwithin⟩ := h
  have hfits := maskBytes_mul_le (hk.trans hmax)
  have hmono := maskBytes_mono hk
  refine ⟨⟨i, by omega, ?_⟩, fun i hi hi' => ?_⟩
  · rw [← hbit]
    exact maskBitAt_congr ((heq _ (by omega)).trans (if_pos (by omega)))
  · by_cases hrow : i < 8 * maskBytes k
    · rw [← hwithin i (by omega) hrow]
      exact maskBitAt_congr ((heq _ (by omega)).trans (if_pos (by omega)))
    · rw [maskBitAt, heq _ (by omega), if_neg (by omega)]
      exact BitVec.getLsbD_zero

theorem setProtectionAllocation_le (numMediaPackets numFecPackets numImpPackets : Nat) :
    setProtectionAllocation numMediaPackets numFecPackets numImpPackets ≤ numImpPackets ∧
      setProtectionAllocation numMediaPackets numFecPackets numImpPackets ≤ numFecPackets := by
  unfold setProtectionAllocation
  split <;> omega

/-- The rows for the important packets come first, then those for all of
them. -/
theorem unequalProtectionMask_selects {t : MaskTables} (ht : t.WellFormed) (type : FecMaskType)
    {numFecPackets numImpPackets : Nat} (hmax : numMediaPackets ≤ kMaxMediaPackets)
    (hfec : numFecPackets ≤ numMediaPackets) (himp : numImpPackets ≤ numMediaPackets) {r : Nat}
    (hr : r < numFecPackets) :
    Selects numMediaPackets
      (unequalProtectionMask numMediaPackets numFecPackets numImpPackets (maskBytes numMediaPackets)
        (t.initMaskTable (initMaskType type numMediaPackets)) fun _ => 0)
      (r * maskBytes numMediaPackets) := by
  obtain ⟨hallocImp, hallocFec⟩ :=
    setProtectionAllocation_le numMediaPackets numFecPackets numImpPackets
  unfold unequalProtectionMask
  simp only
  generalize setProtectionAllocation numMediaPackets numFecPackets numImpPackets = alloc at *
  have hmono := maskBytes_mono himp
  by_cases hrow : r < alloc
  · -- A row for the important packets, which the other rows do not change.
    have hmask := ht.isMask type himp hmax (by omega : 0 < alloc) hallocImp
    refine (hmask.selects_row hrow).widen himp hmax fun j hj => ?_
    have hle : (r + 1) * maskBytes numMediaPackets ≤ alloc * maskBytes numMediaPackets :=
      Nat.mul_le_mul_right _ hrow
    rw [Nat.succ_mul] at hle
    have himportant := fitSubMask_inside hmono
      (t.initMaskTable (initMaskType type numMediaPackets) (numImpPackets - 1) (alloc - 1)) 0
      (fun _ => 0) hrow hj
    rw [Nat.zero_add] at himportant
    split
    · rw [remainingPacketProtection, fitSubMask_before _ _ (by omega), if_pos (by omega)]
      exact himportant
    · rw [if_pos (by omega)]
      exact himportant
  · have hrem : numFecPackets - alloc > 0 := by omega
    have hmask := ht.isMask type (Nat.le_refl _) hmax hrem (by omega)
    refine (hmask.selects_row (show r - alloc < numFecPackets - alloc by omega)).congr hmax
      fun j hj => ?_
    have haddr : r * maskBytes numMediaPackets + j =
        alloc * maskBytes numMediaPackets + (r - alloc) * maskBytes numMediaPackets + j := by
      rw [← Nat.add_mul, Nat.add_sub_cancel' (Nat.le_of_not_lt hrow)]
    rw [if_pos hrem, remainingPacketProtection, haddr,
      fitSubMask_inside (Nat.le_refl _) _ _ _ (by omega) hj, if_pos hj]

/-- Every row selects some of the media packets, and no others. -/
theorem generatePacketMasks_selects {t : MaskTables} (ht : t.WellFormed) (type : FecMaskType)
    {numFecPackets numImpPackets : Nat} (hmax : numMediaPackets ≤ kMaxMediaPackets)
    (hfec : numFecPackets ≤ numMediaPackets) (himp : numImpPackets ≤ numMediaPackets)
    (useUnequalProtection : Bool) {r : Nat} (hr : r < numFecPackets) :
    Selects numMediaPackets
      (generatePacketMasks numMediaPackets numFecPackets numImpPackets useUnequalProtection
        (t.initMaskTable (initMaskType type numMediaPackets)) fun _ => 0)
      (r * maskBytes numMediaPackets) := by
  unfold generatePacketMasks
  simp only
  split
  · have hmask := ht.isMask type (Nat.le_refl _) hmax (by omega) hfec
    refine (hmask.selects_row hr).congr hmax fun j hj => ?_
    have hle : (r + 1) * maskBytes numMediaPackets ≤ numFecPackets * maskBytes numMediaPackets :=
      Nat.mul_le_mul_right _ hr
    rw [Nat.succ_mul] at hle
    rw [Mem.copy_inside _ _ (Nat.zero_le _) (by omega), Nat.sub_zero, Nat.zero_add]
  · refine unequalProtectionMask_selects ht type hmax hfec himp hr

end PerchWebrtc.Fec
