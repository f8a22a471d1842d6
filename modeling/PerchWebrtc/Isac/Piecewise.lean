import Mathlib

/-!
# The logistic cdf of the iSAC spectrum coder

`WebRtcIsacfix_Piecewise`: a piecewise linear function from Q15 to Q0.

* `piecewise_mono`: it does not decrease, although its pieces are rounded;
* `piecewise_center`: it is steep around 0;
* `piecewise_steep`, `piecewise_flat`: multiples of 128 are apart in the middle, and saturated at
  the ends.
-/

namespace PerchWebrtc.Isac

def kHistEdges : List Int :=
  [-327680, -314573, -301466, -288359, -275252, -262144, -249037, -235930, -222823, -209716,
   -196608, -183501, -170394, -157287, -144180, -131072, -117965, -104858, -91751, -78644,
   -65536, -52429, -39322, -26215, -13108, 0, 13107, 26214, 39321, 52428,
   65536, 78643, 91750, 104857, 117964, 131072, 144179, 157286, 170393, 183500,
   196608, 209715, 222822, 235929, 249036, 262144, 275251, 288358, 301465, 314572,
   327680]

def kCdfSlope : List (BitVec 16) :=
  [5, 5, 5, 5, 5, 5, 5, 5, 5, 5,
   5, 5, 13, 23, 47, 87, 154, 315, 700, 1088,
   2471, 6064, 14221, 21463, 36634, 36924, 19750, 13270, 5806, 2312,
   1095, 660, 316, 145, 86, 41, 32, 5, 5, 5,
   5, 5, 5, 5, 5, 5, 5, 5, 5, 2,
   0]

def kCdfLogistic : List (BitVec 16) :=
  [0, 2, 4, 6, 8, 10, 12, 14, 16, 18,
   20, 22, 24, 29, 38, 57, 92, 153, 279, 559,
   994, 1983, 4408, 10097, 18682, 33336, 48105, 56005, 61313, 63636,
   64560, 64998, 65262, 65389, 65447, 65481, 65497, 65510, 65512, 65514,
   65516, 65518, 65520, 65522, 65524, 65526, 65528, 65530, 65532, 65534,
   65535]

/-- The value is saturated, and its piece found by a multiplication. -/
def piecewise (xinQ15 : Int) : BitVec 16 :=
  let x := max (kHistEdges.getD 0 0) (min (kHistEdges.getD 50 0) xinQ15)
  let ind := (5 * (x - kHistEdges.getD 0 0)).toNat / 2 ^ 16
  let offset := BitVec.ofInt 32 (x - kHistEdges.getD ind 0)
  kCdfLogistic.getD ind 0 +
    ((offset * (kCdfSlope.getD ind 0).setWidth 32) >>> 15).setWidth 16

/-- An input above the first edge, saturated. -/
def above (x : Int) : Nat := (max (-327680) (min 327680 x) + 327680).toNat

/-- The distance of an edge from the first one. -/
def edge (ind : Nat) : Nat := (kHistEdges.getD ind 0 + 327680).toNat

/-- The values of a piece, without the wrap-around. -/
def pieceAt (ind u : Nat) : Nat :=
  (kCdfLogistic.getD ind 0).toNat + (u - edge ind) * (kCdfSlope.getD ind 0).toNat / 2 ^ 15

/-- The last input of a piece. -/
def lastOf (ind : Nat) : Nat := ((ind + 1) * 2 ^ 16 - 1) / 5

/-- No piece starts after its inputs, and none overflows. -/
theorem pieces : ∀ ind ≤ 50, edge ind * 5 ≤ ind * 2 ^ 16 ∧
    (edge ind : Int) = kHistEdges.getD ind 0 + 327680 ∧ lastOf ind - edge ind < 2 ^ 14 ∧
    pieceAt ind (lastOf ind) < 2 ^ 16 := by
  decide

/-- A piece ends before the next one starts. -/
theorem pieces_ascend : ∀ ind < 50,
    pieceAt ind (lastOf ind) ≤ (kCdfLogistic.getD (ind + 1) 0).toNat := by
  decide

theorem above_le (x : Int) : above x ≤ 655360 := by
  unfold above
  omega

theorem above_mono {x y : Int} (h : x ≤ y) : above x ≤ above y := by
  unfold above
  omega

theorem piece_le (u : Nat) : u ≤ lastOf (5 * u / 2 ^ 16) := by
  unfold lastOf
  omega

theorem pieceAt_mono (ind : Nat) {u v : Nat} (h : u ≤ v) : pieceAt ind u ≤ pieceAt ind v :=
  Nat.add_le_add_left
    (Nat.div_le_div_right (Nat.mul_le_mul_right _ (Nat.sub_le_sub_right h _))) _

/-- The function is that of the pieces. -/
theorem piecewise_toNat (x : Int) :
    (piecewise x).toNat = pieceAt (5 * above x / 2 ^ 16) (above x) := by
  have hu := above_le x
  have hsaturated : max (kHistEdges.getD 0 0) (min (kHistEdges.getD 50 0) x) =
      (above x : Int) - 327680 := by
    show max (-327680) (min 327680 x) = _
    unfold above
    omega
  have hfirst : kHistEdges.getD 0 0 = -327680 := rfl
  unfold piecewise
  dsimp only
  rw [hsaturated, hfirst]
  have hind : (5 * ((above x : Int) - 327680 - -327680)).toNat / 2 ^ 16 = 5 * above x / 2 ^ 16 := by
    omega
  rw [hind]
  generalize above x = u at hu ⊢
  have hpiece : 5 * u / 2 ^ 16 ≤ 50 := by omega
  have hlast := piece_le u
  have hstart : 5 * u / 2 ^ 16 * 2 ^ 16 ≤ 5 * u := Nat.div_mul_le_self _ _
  generalize 5 * u / 2 ^ 16 = ind at hpiece hlast hstart ⊢
  obtain ⟨hedge, hcast, hwide, hfits⟩ := pieces ind hpiece
  have hvalue := (pieceAt_mono ind hlast).trans_lt hfits
  have hslope := (kCdfSlope.getD ind 0).isLt
  have hoffset : (BitVec.ofInt 32 ((u : Int) - 327680 - kHistEdges.getD ind 0)).toNat =
      u - edge ind := by
    rw [show (u : Int) - 327680 - kHistEdges.getD ind 0 = ((u - edge ind : Nat) : Int) by omega,
      BitVec.ofInt_natCast, BitVec.toNat_ofNat, Nat.mod_eq_of_lt (by omega)]
  have hproduct : (u - edge ind) * (kCdfSlope.getD ind 0).toNat < 2 ^ 32 :=
    Nat.lt_of_le_of_lt (Nat.mul_le_mul (show u - edge ind ≤ 2 ^ 14 by omega) hslope.le) (by decide)
  unfold pieceAt at hvalue ⊢
  rw [BitVec.toNat_add, BitVec.toNat_setWidth, BitVec.toNat_ushiftRight, BitVec.toNat_mul, hoffset,
    BitVec.toNat_setWidth, Nat.mod_eq_of_lt (a := (kCdfSlope.getD ind 0).toNat) (by omega),
    Nat.mod_eq_of_lt hproduct, Nat.shiftRight_eq_div_pow]
  omega

theorem start_mono {i j : Nat} (hij : i ≤ j) (hj : j ≤ 50) :
    (kCdfLogistic.getD i 0).toNat ≤ (kCdfLogistic.getD j 0).toNat := by
  induction j, hij using Nat.le_induction with
  | base => exact le_rfl
  | succ j hij ih =>
    exact (ih (by omega)).trans ((Nat.le_add_right _ _).trans (pieces_ascend j (by omega)))

theorem piecewise_mono {x y : Int} (h : x ≤ y) : piecewise x ≤ piecewise y := by
  rw [BitVec.le_def, piecewise_toNat, piecewise_toNat]
  have huv := above_mono h
  have hv := above_le y
  have hlast := piece_le (above x)
  generalize above x = u at huv hlast ⊢
  generalize above y = v at huv hv ⊢
  have hpieces : 5 * u / 2 ^ 16 ≤ 5 * v / 2 ^ 16 := by omega
  rcases Nat.lt_or_eq_of_le hpieces with hless | hsame
  · calc pieceAt (5 * u / 2 ^ 16) u
        ≤ pieceAt (5 * u / 2 ^ 16) (lastOf (5 * u / 2 ^ 16)) := pieceAt_mono _ hlast
      _ ≤ (kCdfLogistic.getD (5 * u / 2 ^ 16 + 1) 0).toNat := pieces_ascend _ (by omega)
      _ ≤ (kCdfLogistic.getD (5 * v / 2 ^ 16) 0).toNat := start_mono hless (by omega)
      _ ≤ pieceAt (5 * v / 2 ^ 16) v := Nat.le_add_right _ _
  · rw [hsame]
    exact pieceAt_mono _ huv

/-- The function is steep on both sides of 0. -/
theorem piecewise_center {x y : Int} (hx : x ≤ 0) (hy : 0 ≤ y) (h : x ≤ -64 ∨ 64 ≤ y) :
    (piecewise x).toNat + 2 ≤ (piecewise y).toNat := by
  have hzero : (piecewise 0).toNat = 33336 := by decide
  rcases h with hlow | hhigh
  · have hx' := piecewise_mono hlow
    have hy' := piecewise_mono hy
    have hleft : (piecewise (-64)).toNat = 33264 := by decide
    rw [BitVec.le_def] at hx' hy'
    omega
  · have hx' := piecewise_mono hx
    have hy' := piecewise_mono hhigh
    have hright : (piecewise 64).toNat = 33408 := by decide
    rw [BitVec.le_def] at hx' hy'
    omega

/-- On the pieces of the multiples of up to 4, a step of 128 makes a difference. -/
theorem pieces_steep : ∀ n < 5, ∀ ind < 35, 5 * (327680 - 32768 * n) / 2 ^ 16 ≤ ind →
    ind ≤ 5 * (327679 + 32768 * n) / 2 ^ 16 →
    2 ^ 15 ≤ 128 * n * (kCdfSlope.getD ind 0).toNat := by
  decide +kernel

/-- Half of a step does where one piece ends with the value that the next one starts with. -/
theorem pieces_joined : ∀ n < 5, ∀ ind < 35, 5 * (327680 - 32768 * n) / 2 ^ 16 ≤ ind →
    ind < 5 * (327679 + 32768 * n) / 2 ^ 16 →
    pieceAt ind (lastOf ind) < (kCdfLogistic.getD (ind + 1) 0).toNat ∨
      2 ^ 15 ≤ 64 * n * (kCdfSlope.getD ind 0).toNat ∧
        2 ^ 15 ≤ 64 * n * (kCdfSlope.getD (ind + 1) 0).toNat := by
  decide +kernel

theorem pieceAt_step {ind u n : Nat} (hu : edge ind ≤ u)
    (hslope : 2 ^ 15 ≤ n * (kCdfSlope.getD ind 0).toNat) :
    pieceAt ind u < pieceAt ind (u + n) := by
  unfold pieceAt
  rw [Nat.sub_add_comm hu, Nat.add_mul]
  omega

theorem pieceAt_steep {n u : Nat} (hn : n < 5) (hlow : 327680 - 32768 * n ≤ u)
    (hhigh : u + 128 * n < 327680 + 32768 * n) :
    pieceAt (5 * u / 2 ^ 16) u < pieceAt (5 * (u + 128 * n) / 2 ^ 16) (u + 128 * n) := by
  have hlast := piece_le u
  obtain hsame | hnext : 5 * (u + 128 * n) / 2 ^ 16 = 5 * u / 2 ^ 16 ∨
      5 * (u + 128 * n) / 2 ^ 16 = 5 * u / 2 ^ 16 + 1 := by omega
  · have hedge := (pieces (5 * u / 2 ^ 16) (by omega)).1
    rw [hsame]
    exact pieceAt_step (by omega)
      (pieces_steep n hn (5 * u / 2 ^ 16) (by omega) (by omega) (by omega))
  · have hedge := (pieces (5 * u / 2 ^ 16) (by omega)).1
    have hedge' := (pieces (5 * u / 2 ^ 16 + 1) (by omega)).1
    have hascend := pieces_ascend (5 * u / 2 ^ 16) (by omega)
    have hgap := pieces_joined n hn (5 * u / 2 ^ 16) (by omega) (by omega) (by omega)
    rw [hnext]
    generalize hind : 5 * u / 2 ^ 16 = ind at *
    have hend := pieceAt_mono ind hlast
    have hstart : (kCdfLogistic.getD (ind + 1) 0).toNat ≤ pieceAt (ind + 1) (u + 128 * n) :=
      Nat.le_add_right _ _
    rcases hgap with hgap | ⟨hleft, hright⟩
    · omega
    · -- The longer part of the step is at least half of it.
      by_cases hhalf : u + 64 * n ≤ lastOf ind
      · have hstep := pieceAt_step (by omega) hleft (u := u)
        have := pieceAt_mono ind hhalf
        omega
      · have hbehind : edge (ind + 1) ≤ u + 64 * n := by
          unfold lastOf at hhalf
          omega
        have hstep := pieceAt_step hbehind hright
        rw [show u + 64 * n + 64 * n = u + 128 * n by omega] at hstep
        have hfirst : (kCdfLogistic.getD (ind + 1) 0).toNat ≤ pieceAt (ind + 1) (u + 64 * n) :=
          Nat.le_add_right _ _
        omega

theorem piecewise_steep {n : Nat} (hn : 1 ≤ n) (hn' : n ≤ 4) {x : Int} (hlow : -2 ^ 15 ≤ x)
    (hhigh : x + 128 < 2 ^ 15) : piecewise (x * n) < piecewise ((x + 128) * n) := by
  rw [BitVec.lt_def, piecewise_toNat, piecewise_toNat]
  have hstep : above ((x + 128) * n) = above (x * n) + 128 * n := by
    unfold above
    obtain rfl | rfl | rfl | rfl : n = 1 ∨ n = 2 ∨ n = 3 ∨ n = 4 := by omega
    all_goals omega
  rw [hstep]
  refine pieceAt_steep (by omega) ?_ ?_ <;> unfold above
  all_goals
    obtain rfl | rfl | rfl | rfl : n = 1 ∨ n = 2 ∨ n = 3 ∨ n = 4 := by omega
    all_goals omega

/-- The last candidates of a larger multiple, or of none. -/
theorem piecewise_flat {n : Nat} (hn : n = 0 ∨ 5 ≤ n) {r : Nat} (hr : r < 128) :
    piecewise ((r + 32384 : Int) * n) = piecewise ((r + 32512 : Int) * n) := by
  by_cases hzero : n = 0
  · rw [hzero, Nat.cast_zero, Int.mul_zero, Int.mul_zero]
  by_cases hmany : 11 ≤ n
  · have hsaturated : ∀ x : Int, 327680 ≤ x → piecewise x = piecewise 327680 := fun x hx => by
      unfold piecewise
      rw [show kHistEdges.getD 50 0 = 327680 from rfl, min_eq_left hx, min_self]
    have hproduct : ∀ c : Int, 32384 ≤ c → 327680 ≤ c * n := fun c hc => by
      have := mul_le_mul hc (Int.ofNat_le.mpr hmany) (by omega) (by omega)
      omega
    rw [hsaturated _ (hproduct _ (by omega)), hsaturated _ (hproduct _ (by omega))]
  · have hall : ∀ n : Nat, n < 11 → 5 ≤ n → ∀ r : Nat, r < 128 →
        piecewise ((r + 32384 : Nat) * n) = piecewise ((r + 32512 : Nat) * n) := by
      decide +kernel
    exact_mod_cast hall n (by omega) (by omega) r hr

end PerchWebrtc.Isac
