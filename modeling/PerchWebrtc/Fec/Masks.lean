import PerchWebrtc.Fec.Encoder
import PerchWebrtc.Framework.Rows

/-!
# Columns of a mask

A row of a mask that is being filled has `c` columns; the last of them are in
the byte `c / 8`, from bit 1 on (`Cols`). Each of the functions that fill a
mask keeps that, row by row.

* `Cols.zeros`, `Cols.copy`, `Cols.finish`: zero columns, a column from the old
  mask, the last shift;
* `insertZerosFrom_filled`: the loop over the media packets.
-/

namespace PerchWebrtc.Fec

/-- The first `c` columns of a row that is being filled are those of `f`. -/
def Cols (row : Mem) (c : Nat) (f : Nat → Bool) : Prop :=
  ∀ b, ∀ pos < 8, (row b).getLsbD pos =
    if 8 * b + 8 ≤ c then f (8 * b + (7 - pos))
    else decide (1 ≤ pos ∧ 8 * b + pos ≤ c) && f (c - pos)

/-- The columns from `p` on are in the row that is shifted out, those of the
byte `p / 8` at its left. -/
def OldCols (row : Mem) (p : Nat) (g : Nat → Bool) : Prop :=
  ∀ q, p ≤ q → (row (q / 8)).getLsbD (7 - if q / 8 = p / 8 then q - p else q % 8) = g q

theorem Cols.zeros {row : Mem} {c : Nat} {f : Nat → Bool} (h : Cols row c f) {z : Nat}
    (hz : ∀ i, c ≤ i → i < c + z → f i = false) :
    Cols (row.set (c / 8) (row (c / 8) <<< min z (7 - c % 8))) (c + z) f := by
  intro b pos hpos
  by_cases hb : b = c / 8
  · subst hb
    rw [Mem.set_self, BitVec.getLsbD_shiftLeft, decide_eq_true hpos, Bool.true_and]
    by_cases hk : pos < min z (7 - c % 8)
    · rw [decide_eq_true hk, Bool.not_true, Bool.false_and]
      split
      · exact (hz _ (by omega) (by omega)).symm
      · by_cases hpos1 : 1 ≤ pos
        · rw [hz (c + z - pos) (by omega) (by omega), Bool.and_false]
        · rw [decide_eq_false (by omega), Bool.false_and]
    · rw [decide_eq_false hk, Bool.not_false, Bool.true_and, h _ _ (by omega), if_neg (by omega)]
      by_cases hcol : 1 ≤ pos - min z (7 - c % 8) ∧ 8 * (c / 8) + (pos - min z (7 - c % 8)) ≤ c
      · rw [decide_eq_true hcol, Bool.true_and]
        split
        · congr 1
          omega
        · rw [decide_eq_true (by omega), Bool.true_and]
          congr 1
          omega
      · rw [decide_eq_false hcol, Bool.false_and]
        split
        · exact (hz _ (by omega) (by omega)).symm
        · by_cases hpos' : 1 ≤ pos ∧ 8 * (c / 8) + pos ≤ c + z
          · rw [hz (c + z - pos) (by omega) (by omega), Bool.and_false]
          · rw [decide_eq_false hpos', Bool.false_and]
  · rw [Mem.set_of_ne _ _ hb, h b pos hpos]
    by_cases hfull : 8 * b + 8 ≤ c
    · rw [if_pos hfull, if_pos (by omega)]
    · rw [if_neg hfull, decide_eq_false (by omega), Bool.false_and]
      split
      · exact (hz _ (by omega) (by omega)).symm
      · by_cases hcol : 1 ≤ pos ∧ 8 * b + pos ≤ c + z
        · rw [hz (c + z - pos) (by omega) (by omega), Bool.and_false]
        · rw [decide_eq_false hcol, Bool.false_and]

theorem Cols.copy {row : Mem} {c : Nat} {f : Nat → Bool} (h : Cols row c f) {v : Byte}
    (hv : ∀ pos, v.getLsbD pos = (decide (pos = 0) && f c)) :
    Cols (row.set (c / 8) (if c % 8 ≠ 7 then (row (c / 8) ||| v) <<< 1 else row (c / 8) ||| v))
      (c + 1) f := by
  intro b pos hpos
  by_cases hb : b = c / 8
  · subst hb
    rw [Mem.set_self]
    split
    · rw [BitVec.getLsbD_shiftLeft, decide_eq_true hpos, Bool.true_and, BitVec.getLsbD_or, hv,
        if_neg (by omega)]
      by_cases hzero : pos < 1
      · have hcol : ¬ (1 ≤ pos ∧ 8 * (c / 8) + pos ≤ c + 1) := by omega
        rw [decide_eq_true hzero, decide_eq_false hcol, Bool.not_true, Bool.false_and, Bool.false_and]
      · rw [decide_eq_false hzero, h _ _ (by omega), if_neg (by omega), Bool.not_false, Bool.true_and]
        by_cases hnew : pos = 1
        · rw [decide_eq_false (by omega), decide_eq_true (by omega), decide_eq_true (by omega)]
          simp [hnew]
        · rw [decide_eq_false (p := pos - 1 = 0) (by omega), Bool.false_and, Bool.or_false]
          congr 2
          · exact propext (by omega)
          · omega
    · rw [BitVec.getLsbD_or, hv, h _ _ hpos, if_neg (by omega), if_pos (by omega)]
      by_cases hnew : pos = 0
      · rw [decide_eq_false (by omega), decide_eq_true hnew, Bool.false_and, Bool.false_or,
          Bool.true_and]
        congr 1
        omega
      · rw [decide_eq_true (by omega), decide_eq_false hnew, Bool.false_and, Bool.or_false,
          Bool.true_and]
        congr 1
        omega
  · rw [Mem.set_of_ne _ _ hb, h b pos hpos]
    by_cases hfull : 8 * b + 8 ≤ c
    · rw [if_pos hfull, if_pos (by omega)]
    · rw [if_neg hfull, if_neg (by omega), decide_eq_false (by omega), decide_eq_false (by omega),
        Bool.false_and, Bool.false_and]

/-- Filled up with zero columns, a row is read bit by bit. -/
theorem Cols.maskBit {row : Mem} {c : Nat} {f : Nat → Bool} (h : Cols row c f)
    (hfull : c % 8 = 0) (hf : ∀ i, c ≤ i → f i = false) (i : Nat) : maskBitAt row 0 i = f i := by
  rw [maskBitAt, Nat.zero_add, h _ _ (by omega)]
  by_cases hi : i < c
  · rw [if_pos (by omega)]
    congr 1
    omega
  · rw [if_neg (by omega), decide_eq_false (by omega), Bool.false_and, hf i (by omega)]

/-- The last shift is one by the zero columns that fill the byte. -/
theorem Cols.finish {row : Mem} {c : Nat} {f : Nat → Bool} (h : Cols row c f)
    (hf : ∀ i, c ≤ i → f i = false) (i : Nat) :
    maskBitAt (row.set (c / 8) (row (c / 8) <<< (7 - c % 8))) 0 i = f i := by
  have hzeros := h.zeros (z := 8 - c % 8) fun i hi _ => hf i hi
  rw [Nat.min_eq_right (by omega)] at hzeros
  exact hzeros.maskBit (by omega) (fun i hi => hf i (by omega)) i

theorem OldCols.start (row : Mem) : OldCols row 0 (maskBitAt row 0) := by
  intro q _
  rw [maskBitAt, Nat.zero_add]
  congr 2
  split
  · omega
  · rfl

theorem OldCols.shift {row : Mem} {p : Nat} {g : Nat → Bool} (h : OldCols row p g) :
    OldCols (row.set (p / 8) (row (p / 8) <<< 1)) (p + 1) g := by
  intro q hq
  rw [← h q (by omega)]
  by_cases hb : q / 8 = p / 8
  · rw [hb, Mem.set_self, BitVec.getLsbD_shiftLeft, if_pos (by omega), if_pos rfl,
      decide_eq_true (by omega), decide_eq_false (by omega), Bool.not_false, Bool.true_and,
      Bool.true_and]
    congr 1
    omega
  · rw [Mem.set_of_ne _ _ hb, if_neg hb]
    congr 2
    split
    · omega
    · rfl

/-! ## Loops over the rows -/

variable {stride : Nat}

theorem row_insertZeroColumns {numFecPackets z c : Nat} (hc : c / 8 < stride) (m : Mem) {r : Nat}
    (hr : r < numFecPackets) :
    (insertZeroColumns numFecPackets z stride c m).row stride r =
      (m.row stride r).set (c / 8) (m.row stride r (c / 8) <<< min z (7 - c % 8)) := by
  refine (foldl_rows (fun m r => Mem.row m stride r) _
    (fun _ row => row.set (c / 8) (row (c / 8) <<< min z (7 - c % 8))) (fun m r => ?_)
    (fun m r r' hne => Mem.row_set_other m _ hne hc) _ m r).trans (if_pos hr)
  rw [Mem.row_set_self _ _ hc, Mem.row_apply _ hc]

theorem row_shiftLastByte {numFecPackets c : Nat} (hc : c % 8 ≠ 0) (hc' : c / 8 < stride) (m : Mem)
    {r : Nat} (hr : r < numFecPackets) :
    (shiftLastByte numFecPackets stride c m).row stride r =
      (m.row stride r).set (c / 8) (m.row stride r (c / 8) <<< (7 - c % 8)) := by
  rw [shiftLastByte, if_pos hc]
  refine (foldl_rows (fun m r => Mem.row m stride r) _
    (fun _ row => row.set (c / 8) (row (c / 8) <<< (7 - c % 8))) (fun m r => ?_)
    (fun m r r' hne => Mem.row_set_other m _ hne hc') _ m r).trans (if_pos hr)
  rw [Mem.row_set_self _ _ hc', Mem.row_apply _ hc']

theorem getLsbD_leftBit (b : Byte) (pos : Nat) :
    (leftBit b).getLsbD pos = (decide (pos = 0) && b.getLsbD 7) := by
  rw [leftBit, BitVec.getLsbD_ushiftRight, BitVec.getLsbD_and]
  by_cases hpos : pos = 0
  · subst hpos
    show (b.getLsbD 7 && true) = (true && b.getLsbD 7)
    rw [Bool.and_comm]
  · rw [BitVec.getLsbD_of_ge b (7 + pos) (by omega), decide_eq_false hpos, Bool.false_and,
      Bool.false_and]

/-- What a row of `CopyColumn` does to its two rows. -/
def copyRow (c p : Nat) (rows : Mem × Mem) : Mem × Mem :=
  let newByte := rows.1 (c / 8) ||| leftBit (rows.2 (p / 8))
  (rows.1.set (c / 8) (if c % 8 ≠ 7 then newByte <<< 1 else newByte),
    rows.2.set (p / 8) (rows.2 (p / 8) <<< 1))

theorem rows_copyColumn {numFecPackets newStride oldStride c p : Nat} (hc : c / 8 < newStride)
    (hp : p / 8 < oldStride) (masks : Mem × Mem) {r : Nat} (hr : r < numFecPackets) :
    ((copyColumn numFecPackets newStride oldStride c p masks).1.row newStride r,
      (copyColumn numFecPackets newStride oldStride c p masks).2.row oldStride r) =
      copyRow c p (masks.1.row newStride r, masks.2.row oldStride r) := by
  refine (foldl_rows (fun (masks : Mem × Mem) r =>
    (masks.1.row newStride r, masks.2.row oldStride r)) _ (fun _ => copyRow c p) (fun masks r => ?_)
    (fun masks r r' hne => ?_) _ masks r).trans (if_pos hr)
  · show (Mem.row (Mem.set _ _ _) _ _, Mem.row (Mem.set _ _ _) _ _) = _
    rw [Mem.row_set_self _ _ hc, Mem.row_set_self _ _ hp, ← Mem.row_apply masks.1 hc,
      ← Mem.row_apply masks.2 hp]
    rfl
  · show (Mem.row (Mem.set _ _ _) _ _, Mem.row (Mem.set _ _ _) _ _) = _
    rw [Mem.row_set_other _ _ hne hc, Mem.row_set_other _ _ hne hp]

/-! ## The loop over the media packets -/

/-- The rows `r` of the masks: `c` columns of `f` are filled, and the columns
of `g` from `p` on are left. -/
structure Filled (newStride oldStride r : Nat) (f g : Nat → Bool) (c p : Nat) (masks : Mem × Mem) :
    Prop where
  cols : Cols (masks.1.row newStride r) c f
  old : OldCols (masks.2.row oldStride r) p g

section Filled

variable {numFecPackets newStride oldStride r c p : Nat} {f g : Nat → Bool} {masks : Mem × Mem}

theorem Filled.zeros (h : Filled newStride oldStride r f g c p masks) (hr : r < numFecPackets)
    (hc : c / 8 < newStride) {z : Nat} (hz : ∀ i, c ≤ i → i < c + z → f i = false) :
    Filled newStride oldStride r f g (c + z) p
      (if z > 0 then insertZeroColumns numFecPackets z newStride c masks.1 else masks.1, masks.2) := by
  refine ⟨?_, h.old⟩
  split
  · rw [row_insertZeroColumns hc _ hr]
    exact h.cols.zeros hz
  · rename_i hz0
    obtain rfl : z = 0 := by omega
    exact h.cols

theorem Filled.copy (h : Filled newStride oldStride r f g c p masks) (hr : r < numFecPackets)
    (hc : c / 8 < newStride) (hp : p / 8 < oldStride) (hf : f c = g p) :
    Filled newStride oldStride r f g (c + 1) (p + 1)
      (copyColumn numFecPackets newStride oldStride c p masks) := by
  have hrows := rows_copyColumn hc hp masks hr
  refine ⟨?_, ?_⟩
  · rw [show (copyColumn numFecPackets newStride oldStride c p masks).1.row newStride r = _ from
      congrArg Prod.fst hrows]
    refine h.cols.copy fun pos => ?_
    have hold := h.old p (Nat.le_refl p)
    rw [if_pos rfl, Nat.sub_self] at hold
    rw [getLsbD_leftBit, hf, ← hold]
  · rw [show (copyColumn numFecPackets newStride oldStride c p masks).2.row oldStride r = _ from
      congrArg Prod.snd hrows]
    exact h.old.shift

end Filled

/-- How far a media packet is behind the first one. -/
def offset (base : BitVec 16) (p : Packet) : Nat := (parseSequenceNumber p.data - base).toNat

variable {base : BitVec 16} {media : List Packet} {offsets : List Nat}

/-- The zero columns between two packets. -/
theorem zeros_toNat {prev seq : BitVec 16} (h : (prev - base).toNat < (seq - base).toNat) :
    (seq - prev - 1).toNat = (seq - base).toNat - (prev - base).toNat - 1 := by
  have hsub := Circular.sub_toNat (Nat.le_of_lt h)
  have hone : (1 : BitVec 16) ≤ seq - prev := by
    rw [BitVec.le_def, hsub]
    show 1 ≤ _
    omega
  rw [BitVec.toNat_sub_of_le hone, hsub]
  rfl

/-- The columns of the media packets are copied to their offsets. -/
theorem insertZerosFrom_filled {base : BitVec 16} {numFecPackets newStride oldStride r : Nat}
    {f g : Nat → Bool} (hr : r < numFecPackets) (hstride : newStride ≤ kMaskSizeLBitSet) :
    ∀ {media : List Packet} {prev : BitVec 16} {c p : Nat} {masks : Mem × Mem},
      ((prev - base).toNat :: media.map (offset base)).Pairwise (· < ·) →
      (∀ m ∈ media, offset base m < 8 * newStride) → p + media.length ≤ 8 * oldStride →
      (∀ q i, (media.map (offset base))[q]? = some i → f i = g (p + q)) →
      (∀ i, (prev - base).toNat < i → i ∉ media.map (offset base) → f i = false) →
      c = (prev - base).toNat + 1 → Filled newStride oldStride r f g c p masks →
      ∃ result, insertZerosFrom numFecPackets newStride oldStride media prev c p masks = some result ∧
        result.1 = (media.map (offset base)).getLastD (prev - base).toNat + 1 ∧
        Filled newStride oldStride r f g result.1 (p + media.length) result.2
  | [], prev, c, p, masks, _, _, _, _, _, hc, hfilled => ⟨_, rfl, hc, hfilled⟩
  | m :: media, prev, c, p, masks, hinc, hlt, hlen, hcopy, hzero, hc, hfilled => by
    have hm : (prev - base).toNat < offset base m :=
      List.rel_of_pairwise_cons hinc List.mem_cons_self
    have hm8 := hlt m List.mem_cons_self
    have hkMask : kMaskSizeLBitSet = 6 := rfl
    rw [List.length_cons] at hlen
    have hz := zeros_toNat hm
    replace hz : (parseSequenceNumber m.data - prev - 1).toNat = offset base m - c := by
      rw [hz, hc]
      exact Nat.sub_sub _ _ _
    have hgap : ∀ i, c ≤ i → i < offset base m → f i = false := by
      intro i hi hi'
      refine hzero i (by omega) fun hmem => ?_
      rcases List.mem_cons.mp hmem with rfl | hmem
      · exact Nat.lt_irrefl _ hi'
      · have := List.rel_of_pairwise_cons hinc.of_cons hmem
        omega
    have hzeros := @Filled.zeros _ _ _ _ _ _ _ _ _ hfilled hr (by omega) (offset base m - c)
      fun i hi hi' => hgap i hi (by omega)
    have hcol : c + (offset base m - c) = offset base m := by omega
    have hcopied := hzeros.copy hr (by omega) (by omega)
      (by rw [hcol]; exact hcopy 0 (offset base m) rfl)
    have ih := @insertZerosFrom_filled base numFecPackets newStride oldStride r f g hr hstride media
      (parseSequenceNumber m.data) _ (p + 1) _ hinc.of_cons
      (fun m' hm' => hlt m' (List.mem_cons_of_mem _ hm')) (by omega)
      (fun q i hq => by
        rw [hcopy (q + 1) i hq]
        congr 1
        omega)
      (fun i hi hnot => hzero i (hm.trans hi) fun hmem => by
        rcases List.mem_cons.mp hmem with rfl | hmem
        · exact Nat.lt_irrefl _ hi
        · exact hnot hmem)
      (by rw [hcol]; rfl) hcopied
    have hnotfull : c ≠ 8 * kMaskSizeLBitSet := by omega
    have hcount : p + (m :: media).length = p + 1 + media.length := by
      rw [List.length_cons]
      omega
    have hinRow : InRow newStride (c + (offset base m - c)) ∧ InRow oldStride p := by
      unfold InRow
      omega
    simp only [insertZerosFrom, if_neg hnotfull, hz, if_pos hinRow]
    rw [hcount, List.map_cons, List.getLastD_cons]
    exact ih

/-! ## InsertZerosInBitMasks -/

theorem maskBitAt_row (m : Mem) {r i : Nat} (hi : i < 8 * stride) :
    maskBitAt m (r * stride) i = maskBitAt (m.row stride r) 0 i := by
  rw [maskBitAt, maskBitAt, Nat.zero_add, Mem.row_apply _ (by omega)]

/-- A strictly increasing list grows by one at least with each place. -/
theorem getElem_add_le {l : List Nat} (h : l.Pairwise (· < ·)) {i n : Nat} (hn : i + n < l.length) :
    l[i] + n ≤ l[i + n] := by
  induction n with
  | zero => exact Nat.le_refl _
  | succ n ih =>
    have hstep : l[i + n] < l[i + (n + 1)] := List.pairwise_iff_getElem.mp h _ _ _ _ (by omega)
    have := ih (by omega)
    omega

/-- The media packets have ascending offsets from the first one, below 48. -/
structure Ascending (media : List Packet) (base : BitVec 16) : Prop where
  first : ∀ p ∈ media.head?, parseSequenceNumber p.data = base
  increasing : (media.map (offset base)).Pairwise (· < ·)
  span : ∀ p ∈ media, offset base p < kMaxMediaPackets

/-- The columns of the mask after the zero columns are inserted: those of the
media packets at their offsets. -/
def column (offsets : List Nat) (g : Nat → Bool) (i : Nat) : Bool :=
  decide (i ∈ offsets) && g (offsets.idxOf i)

theorem column_getElem (h : offsets.Pairwise (· < ·)) (g : Nat → Bool) {q i : Nat}
    (hq : offsets[q]? = some i) : column offsets g i = g q := by
  obtain ⟨hlt, rfl⟩ := List.getElem?_eq_some_iff.mp hq
  have hnodup : offsets.Nodup := h.imp Nat.ne_of_lt
  rw [column, decide_eq_true (List.getElem_mem hlt), Bool.true_and, hnodup.idxOf_getElem]

theorem column_of_notMem (g : Nat → Bool) {i : Nat} (h : i ∉ offsets) :
    column offsets g i = false := by
  rw [column, decide_eq_false h, Bool.false_and]

/-- Without gaps, the mask stays as it is. -/
theorem column_of_consecutive (h : offsets.Pairwise (· < ·))
    (hlast : ∀ i ∈ offsets.getLast?, i + 1 = offsets.length) {g : Nat → Bool}
    (hg : ∀ i, offsets.length ≤ i → g i = false) (i : Nat) : column offsets g i = g i := by
  have hget : ∀ q (hq : q < offsets.length), offsets[q] = q := by
    intro q hq
    have hlo := @getElem_add_le _ h 0 q (by omega)
    have hhi := @getElem_add_le _ h q (offsets.length - 1 - q) (by omega)
    have hlast' := hlast offsets[offsets.length - 1] (by
      rw [List.getLast?_eq_getElem?, List.getElem?_eq_getElem (by omega)]
      rfl)
    have hidx : q + (offsets.length - 1 - q) = offsets.length - 1 := by omega
    simp only [hidx, Nat.zero_add] at hlo hhi
    omega
  by_cases hi : i < offsets.length
  · exact column_getElem h g (by rw [List.getElem?_eq_getElem hi, hget i hi])
  · rw [hg i (by omega)]
    refine column_of_notMem g fun hmem => ?_
    obtain ⟨q, hq, heq⟩ := List.mem_iff_getElem.mp hmem
    have := hget q hq
    omega

/-- The number of columns that the offsets need. -/
def numColumns (offsets : List Nat) : Nat := offsets.getLastD 0 + 1

/-- `bits` are the columns of the row `r` of the mask, which has `n` bytes a
row. -/
def RowIs (m : Mem) (n r : Nat) (bits : Nat → Bool) : Prop :=
  ∀ i < 8 * n, maskBitAt m (r * n) i = bits i

theorem Cols.start (f : Nat → Bool) (stride r : Nat) :
    Cols (Mem.row (fun _ => 0) stride r) 0 f := by
  intro b pos hpos
  rw [if_neg (by omega), decide_eq_false (by omega), Bool.false_and]
  unfold Mem.row
  split <;> exact BitVec.getLsbD_zero

theorem rowIs_shiftLastByte {numFecPackets r c : Nat} {f : Nat → Bool} {m : Mem}
    (hr : r < numFecPackets) (h : Cols (m.row stride r) c f) (hc : c ≤ 8 * stride)
    (hf : ∀ i, c ≤ i → f i = false) :
    RowIs (shiftLastByte numFecPackets stride c m) stride r f := by
  intro i hi
  rw [maskBitAt_row _ hi]
  by_cases hfull : c % 8 = 0
  · rw [shiftLastByte, if_neg (by omega)]
    exact h.maskBit hfull hf i
  · rw [row_shiftLastByte hfull (by omega) _ hr]
    exact h.finish hf i

theorem maskBitAt_row_eq_false {m : Mem} {n r k : Nat}
    (h : ∀ i, k ≤ i → i < 8 * n → maskBitAt m (r * n) i = false) (i : Nat) (hi : k ≤ i) :
    maskBitAt (m.row n r) 0 i = false := by
  by_cases hin : i < 8 * n
  · rw [← maskBitAt_row m hin]
    exact h i hi hin
  · rw [maskBitAt, Mem.row, if_neg (by omega)]
    exact BitVec.getLsbD_zero

theorem getLastD_offsets (base : BitVec 16) (first : Packet) (media : List Packet) :
    ((first :: media).map (offset base)).getLastD 0 =
      (parseSequenceNumber (media.getLast?.getD first).data - base).toNat := by
  rw [List.getLastD_eq_getLast?, List.getLast?_map, List.getLast?_cons]
  rfl

theorem le_getLastD {l : List Nat} (h : l.Pairwise (· < ·)) {i : Nat} (hi : i ∈ l) :
    i ≤ l.getLastD 0 := by
  obtain ⟨q, hq, rfl⟩ := List.mem_iff_getElem.mp hi
  have hle := @getElem_add_le _ h q (l.length - 1 - q) (by omega)
  have hidx : q + (l.length - 1 - q) = l.length - 1 := by omega
  rw [List.getLastD_eq_getLast?, List.getLast?_eq_getElem?, List.getElem?_eq_getElem (by omega),
    Option.getD_some]
  simp only [hidx] at hle
  omega

theorem Ascending.numColumns_le (h : Ascending media base) :
    numColumns (media.map (offset base)) ≤ kMaxMediaPackets := by
  unfold numColumns
  cases hlast : media.getLast? with
  | none =>
    rw [List.getLast?_eq_none_iff.mp hlast]
    show 0 + 1 ≤ 48
    omega
  | some p =>
    rw [List.getLastD_eq_getLast?, List.getLast?_map, hlast]
    exact h.span p (List.mem_of_getLast? hlast)

theorem Ascending.length_le (h : Ascending media base) :
    media.length ≤ numColumns (media.map (offset base)) := by
  by_cases hne : media = []
  · rw [hne]
    exact Nat.zero_le _
  · have hpos := List.length_pos_iff.mpr hne
    have hlt : media.length - 1 < (media.map (offset base)).length := by
      rw [List.length_map]
      omega
    have hgrow := @getElem_add_le _ h.increasing 0 (media.length - 1) (by omega)
    have hle := le_getLastD h.increasing (List.getElem_mem hlt)
    simp only [Nat.zero_add] at hgrow
    unfold numColumns
    omega

/-- The new mask, before the last shift. -/
theorem insertZeros_filled {first : Packet} (h : Ascending (first :: media) base)
    {numFecPackets r : Nat} (hr : r < numFecPackets) (mask : Mem) :
    let offsets := (first :: media).map (offset base)
    let g := fun q => maskBitAt (mask.row (maskBytes (first :: media).length) r) 0 q
    ∃ columns, insertZerosFrom numFecPackets (maskBytes (numColumns offsets))
        (maskBytes (first :: media).length) media base 1 1
        (copyColumn numFecPackets (maskBytes (numColumns offsets)) (maskBytes (first :: media).length)
          0 0 (fun _ => 0, mask)) = some columns ∧
      columns.1 = numColumns offsets ∧
      Filled (maskBytes (numColumns offsets)) (maskBytes (first :: media).length) r
        (column offsets g) g (numColumns offsets) (1 + media.length) columns.2 := by
  intro offsets g
  have hlen : (first :: media).length ≤ numColumns offsets := h.length_le
  have hcols48 : numColumns offsets ≤ kMaxMediaPackets := h.numColumns_le
  have hinc : offsets.Pairwise (· < ·) := h.increasing
  have hfits := maskBytes_mul_le hcols48
  have hfits' := maskBytes_mul_le (hlen.trans hcols48)
  have hpos : 1 + media.length = (first :: media).length := Nat.add_comm _ _
  have hzero : (base - base).toNat = 0 := by rw [BitVec.sub_self]; rfl
  have hoffsets : offsets = (base - base).toNat :: media.map (offset base) := by
    show offset base first :: _ = _
    rw [offset, h.first first rfl]
  have hstart : Filled (maskBytes (numColumns offsets)) (maskBytes (first :: media).length) r
      (column offsets g) g 0 0 (fun _ => 0, mask) := ⟨Cols.start _ _ _, OldCols.start _⟩
  have hfirst : column offsets g 0 = g 0 :=
    column_getElem hinc g (by rw [hoffsets, hzero]; rfl)
  have hloop := @insertZerosFrom_filled base _ _ _ _ _ _ hr (maskBytes_le _) media _ _ _ _ (hoffsets ▸ hinc)
    (fun m hm => by
      have hmem : offset base m ∈ offsets :=
        hoffsets ▸ List.mem_cons_of_mem _ (List.mem_map_of_mem hm)
      have hle := le_getLastD hinc hmem
      have hlast : numColumns offsets = offsets.getLastD 0 + 1 := rfl
      omega)
    (by omega)
    (fun q i hq => by
      rw [Nat.add_comm]
      exact column_getElem hinc g (by rw [hoffsets]; exact hq))
    (fun i hi hnot => column_of_notMem g (by
      rw [hoffsets, List.mem_cons, not_or]
      exact ⟨by omega, hnot⟩))
    (by rw [hzero]) (hstart.copy hr (by omega) (by omega) hfirst)
  have hcount : (media.map (offset base)).getLastD (base - base).toNat + 1 = numColumns offsets := by
    rw [numColumns, hoffsets, List.getLastD_cons]
  rw [hcount] at hloop
  obtain ⟨columns, hcolumns, hcols, hfilled⟩ := hloop
  rw [hcols] at hfilled
  exact ⟨columns, hcolumns, hcols, hfilled⟩

/-- With as many columns as packets, nothing is inserted. -/
theorem insertZerosInBitMasks_eq {first second : Packet} {rest : List Packet}
    (hbase : base = parseSequenceNumber first.data) {numFecPackets : Nat} {mask : Mem} :
    insertZerosInBitMasks numFecPackets (first :: second :: rest) mask stride =
      if numColumns ((first :: second :: rest).map (offset base)) = (first :: second :: rest).length then
        some ((first :: second :: rest).length, mask)
      else
        (insertZerosFrom numFecPackets
          (maskBytes (numColumns ((first :: second :: rest).map (offset base)))) stride
          (second :: rest) base 1 1
          (copyColumn numFecPackets
            (maskBytes (numColumns ((first :: second :: rest).map (offset base)))) stride 0 0
            (fun _ => 0, mask))).map
          fun columns => (columns.1, mask.copy 0
            (shiftLastByte numFecPackets
              (maskBytes (numColumns ((first :: second :: rest).map (offset base)))) columns.1
              columns.2.1) 0 (kMaskSizeLBitSet * numFecPackets)) := by
  have hlast : (parseSequenceNumber ((second :: rest).getLast?.getD first).data - base).toNat + 1 =
      numColumns ((first :: second :: rest).map (offset base)) := by
    rw [numColumns, getLastD_offsets]
  generalize numColumns ((first :: second :: rest).map (offset base)) = cols at *
  simp only [insertZerosInBitMasks, ← hbase]
  have hbytes : (if ((first :: second :: rest).length : Int) +
      ((parseSequenceNumber ((second :: rest).getLast?.getD first).data - base).toNat -
        ((first :: second :: rest).length : Int) + 1) > (8 * kMaskSizeLBitClear : Nat) then
      kMaskSizeLBitSet else kMaskSizeLBitClear) = maskBytes cols := by
    unfold maskBytes
    exact if_congr (by omega) rfl rfl
  rw [hbytes]
  exact if_congr (by omega) rfl rfl

/-- The mask has the columns of the media packets at their offsets, and no
others. -/
theorem insertZerosInBitMasks_spec (hne : media ≠ []) (h : Ascending media base)
    {numFecPackets r : Nat} (hr : r < numFecPackets) {mask : Mem}
    (hmask : ∀ i, media.length ≤ i → i < 8 * maskBytes media.length →
      maskBitAt mask (r * maskBytes media.length) i = false) :
    ∃ result, insertZerosInBitMasks numFecPackets media mask (maskBytes media.length) = some result ∧
      result.1 = numColumns (media.map (offset base)) ∧
      RowIs result.2 (maskBytes result.1) r
        (column (media.map (offset base)) fun q =>
          maskBitAt (mask.row (maskBytes media.length) r) 0 q) := by
  have hg := maskBitAt_row_eq_false hmask
  have hsame : numColumns (media.map (offset base)) = media.length →
      RowIs mask (maskBytes media.length) r (column (media.map (offset base)) fun q =>
        maskBitAt (mask.row (maskBytes media.length) r) 0 q) := by
    intro hcols i hi
    have hlast : ∀ i ∈ (media.map (offset base)).getLast?, i + 1 = (media.map (offset base)).length := by
      intro i hi
      rw [List.length_map, ← hcols, numColumns, List.getLastD_eq_getLast?, Option.mem_def.mp hi]
      rfl
    rw [column_of_consecutive h.increasing hlast (by rw [List.length_map]; exact hg) i,
      ← maskBitAt_row mask hi]
  match media, hne with
  | [first], _ =>
    have hfirst : offset base first = 0 := by
      rw [offset, h.first first rfl, BitVec.sub_self]
      rfl
    have hcols : numColumns ([first].map (offset base)) = 1 := by
      rw [List.map_singleton, hfirst]
      rfl
    exact ⟨_, rfl, hcols.symm, hsame hcols⟩
  | first :: second :: rest, _ =>
    have hfirst : base = parseSequenceNumber first.data := (h.first first rfl).symm
    rw [insertZerosInBitMasks_eq hfirst]
    generalize hcols : numColumns ((first :: second :: rest).map (offset base)) = cols at *
    by_cases htotal : cols = (first :: second :: rest).length
    · rw [if_pos htotal, ← htotal]
      exact ⟨_, rfl, rfl, htotal ▸ hsame htotal⟩
    · rw [if_neg htotal]
      obtain ⟨columns, hcolumns, hcount, hfilled⟩ := insertZeros_filled h hr mask
      rw [hcols] at hcolumns hcount hfilled
      rw [hcolumns]
      refine ⟨_, rfl, hcount, ?_⟩
      dsimp only
      rw [hcount]
      have hcols48 := h.numColumns_le
      rw [hcols] at hcols48
      have hrow := rowIs_shiftLastByte hr hfilled.cols (maskBytes_mul_le hcols48) fun i hi =>
        column_of_notMem _ fun hmem => by
          have hle := le_getLastD h.increasing hmem
          unfold numColumns at hcols
          omega
      intro i hi
      refine Eq.trans ?_ (hrow i hi)
      have hbyte : r * maskBytes cols + i / 8 < kMaskSizeLBitSet * numFecPackets := by
        have hle : (r + 1) * maskBytes cols ≤ numFecPackets * kMaskSizeLBitSet :=
          Nat.mul_le_mul hr (maskBytes_le cols)
        rw [Nat.succ_mul, Nat.mul_comm numFecPackets] at hle
        omega
      show maskBitAt (Mem.copy _ 0 _ 0 _) (r * maskBytes cols) i = _
      rw [maskBitAt, maskBitAt, Mem.copy_inside _ _ (Nat.zero_le _) (by omega), Nat.zero_add,
        Nat.sub_zero]

end PerchWebrtc.Fec
