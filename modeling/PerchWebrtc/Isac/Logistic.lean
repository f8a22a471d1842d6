import PerchWebrtc.Isac.HistDecoders
import PerchWebrtc.Isac.Piecewise
import PerchWebrtc.Isac.SquareRoots

/-!
# The logistic coder of iSAC

`arith_routines_logist.c`: the coder of the spectrum. The encoder moves a sample towards 0
until its probability is large enough; the decoder searches outwards from the sample that the
dither selects, in steps of 128.

* `clip_ok`: the sample that is coded;
* `search_found`, `search_aborts`: the search, for a sample that was coded.
-/

namespace PerchWebrtc.Isac

/-- The logistic cdf at a sample, for an entry of the envelope. -/
def cdfAt (envQ8 : BitVec 16) (x : Int) : BitVec 16 := piecewise (int16 x * envQ8.toNat)

/-- The loop that clips a sample whose probability is too small; `none` without fuel. -/
def clip (envQ8 : BitVec 16) : Nat → Int → BitVec 16 → BitVec 16 →
    Option (Int × BitVec 16 × BitVec 16)
  | 0, _, _, _ => none
  | fuel + 1, x, cdfLo, cdfHi =>
    if cdfLo.toNat + 1 ≥ cdfHi.toNat then
      if x > 0 then
        let x := int16 (x - 128)
        clip envQ8 fuel x (cdfAt envQ8 (x - 64)) cdfLo
      else
        let x := int16 (x + 128)
        clip envQ8 fuel x cdfHi (cdfAt envQ8 (x + 64))
    else some (x, cdfLo, cdfHi)

/-- The loop of the encoder from sample `k` on, with the samples as they are left. An entry of
the envelope is for four of them. -/
def encLogisticLoop (fuel : Nat) : BitstrEnc → Nat → List (BitVec 16) → List Int →
    Option (Int × List Int × BitstrEnc)
  | s, _, _, [] => some (0, [], s)
  | s, k, env, x :: data => do
    let envQ8 ← env.head?
    let (x, cdfLo, cdfHi) ← clip envQ8 fuel x (cdfAt envQ8 (x - 64)) (cdfAt envQ8 (x + 64))
    let (code, s) ← s.encodeInterval fuel cdfLo cdfHi
    if code = 0 then do
      let (code, left, s) ←
        encLogisticLoop fuel s (k + 1) (env.drop ((k &&& 1) &&& (k >>> 1))) data
      some (code, x :: left, s)
    else some (code, x :: data, s)

def encLogisticMulti2 (fuel : Nat) (s : BitstrEnc) (env : List (BitVec 16)) (data : List Int) :
    Option (Int × List Int × BitstrEnc) := do
  let (code, left, last) ← encLogisticLoop fuel s 0 env data
  if code = 0 then some (0, left, last)
  else some (code, left, { last with streamIndex := s.streamIndex, wUpper := s.wUpper })

namespace BitstrDec

/-- The bound at a candidate. -/
def boundAt (s : BitstrDec) (envQ8 : BitVec 16) (candQ7 : Int) : BitVec 32 :=
  scale s.wUpper (cdfAt envQ8 candQ7)

/-- The loop upwards, at a candidate above the window's lower bound. -/
def searchUp (s : BitstrDec) (envQ8 : BitVec 16) : Nat → Int → BitVec 32 → Option Search
  | 0, _, _ => none
  | fuel + 1, candQ7, wLower =>
    let wTmp := s.boundAt envQ8 candQ7
    if s.streamval > wTmp then
      let candQ7 := int16 (candQ7 + 128)
      if wTmp = s.boundAt envQ8 candQ7 then some (.error (-1))
      else searchUp s envQ8 fuel candQ7 wTmp
    else some (.found (int16 (candQ7 - 64)) wLower wTmp)

/-- The loop downwards. -/
def searchDown (s : BitstrDec) (envQ8 : BitVec 16) : Nat → Int → BitVec 32 → Option Search
  | 0, _, _ => none
  | fuel + 1, candQ7, wUpper =>
    let wTmp := s.boundAt envQ8 candQ7
    if s.streamval > wTmp then some (.found (int16 (candQ7 + 64)) wTmp wUpper)
    else
      let candQ7 := int16 (candQ7 - 128)
      if wTmp = s.boundAt envQ8 candQ7 then some (.error (-1))
      else searchDown s envQ8 fuel candQ7 wTmp

/-- The search for a sample; the first candidate's neighbour is not compared with it. -/
def search (fuel : Nat) (s : BitstrDec) (envQ8 : BitVec 16) (dither : Int) : Option Search :=
  let candQ7 := int16 (-dither + 64)
  let wTmp := s.boundAt envQ8 candQ7
  if s.streamval > wTmp then s.searchUp envQ8 fuel (int16 (candQ7 + 128)) wTmp
  else s.searchDown envQ8 fuel (int16 (candQ7 - 128)) wTmp

/-- Samples with the same entry of the envelope. -/
def sampleLoop (fuel : Nat) (envQ8 : BitVec 16) : BitstrDec → List Int →
    Option (Int × List Int × BitstrDec)
  | s, [] => some (0, [], s)
  | s, dither :: dithers => do
    match ← s.search fuel envQ8 dither with
    | .error code => some (code, [], s)
    | .found x wLower wUpper => do
      let s ← s.narrow fuel wLower wUpper
      let (code, data, s) ← sampleLoop fuel envQ8 s dithers
      some (code, x :: data, s)

/-- Four samples at a time; `none` for an access outside of the envelope or the data. -/
def decLogisticLoop (fuel : Nat) : BitstrDec → Int → List Int → List Int →
    Option (Int × List Int × BitstrDec)
  | s, _, _, [] => some (0, [], s)
  | s, res, inSqrt :: env, d₀ :: d₁ :: d₂ :: d₃ :: dithers => do
    let (res, newRes) ← squareRoot inSqrt res
    let (code, data, s) ← sampleLoop fuel (BitVec.ofInt 16 newRes) s [d₀, d₁, d₂, d₃]
    if code < 0 then some (code, data, s)
    else do
      let (code, rest, s) ← decLogisticLoop fuel s res env dithers
      some (code, data ++ rest, s)
  | _, _, _, _ => none

/-- The data are the dither before. -/
def decLogisticMulti2 (fuel : Nat) (s : BitstrDec) (envQ8 : List Int) (dithers : List Int) :
    Option (Int × List Int × BitstrDec) := do
  let first ← envQ8.head?
  let (code, data, last) ← decLogisticLoop fuel s.start (firstRes first) envQ8 dithers
  if code < 0 then some (code, data, { s with full := last.full })
  else some (last.finish.byteCount, data, last.finish)

end BitstrDec

/-! ## The sample that is coded -/

/-- The probability of a sample is large enough. -/
def Wide (envQ8 : BitVec 16) (x : Int) : Prop :=
  (cdfAt envQ8 (x - 64)).toNat + 1 < (cdfAt envQ8 (x + 64)).toNat

/-- The sample after `n` steps towards 0. -/
def toward (x : Int) (n : Nat) : Int := if 0 < x then x - 128 * n else x + 128 * n

/-- The first sample towards 0 that is coded is that after `n` steps. -/
def ClippedBy (envQ8 : BitVec 16) (x : Int) (n : Nat) : Prop :=
  Wide envQ8 (toward x n) ∧ ∀ m < n, ¬ Wide envQ8 (toward x m)

variable {envQ8 : BitVec 16} {x y : Int}

theorem cdfAt_mono (hx : -2 ^ 15 ≤ x) (hle : x ≤ y) (hy : y < 2 ^ 15) :
    cdfAt envQ8 x ≤ cdfAt envQ8 y := by
  unfold cdfAt
  rw [int16_of_fits hx (by omega), int16_of_fits (by omega) hy]
  exact piecewise_mono (Int.mul_le_mul_of_nonneg_right hle (Int.natCast_nonneg _))

/-- Near 0 every sample is coded. -/
theorem wide_center (henv : 1 ≤ envQ8.toNat) (hlow : -64 ≤ x) (hhigh : x ≤ 64) : Wide envQ8 x := by
  have hpos : (1 : Int) ≤ envQ8.toNat := Int.ofNat_le.mpr henv
  have hbelow : (x - 64) * envQ8.toNat ≤ (x - 64) * 1 :=
    Int.mul_le_mul_of_nonpos_left (by omega) hpos
  have habove : (x + 64) * 1 ≤ (x + 64) * envQ8.toNat :=
    Int.mul_le_mul_of_nonneg_left hpos (by omega)
  unfold Wide cdfAt
  rw [int16_of_fits (by omega) (by omega), int16_of_fits (by omega) (by omega)]
  exact piecewise_center (by omega) (by omega) (by omega)

/-- Some sample on the way to 0 is coded. -/
theorem exists_clippedBy (henv : 1 ≤ envQ8.toNat) (hlow : -32640 ≤ x) (hhigh : x ≤ 32640) :
    ∃ n ≤ 255, ClippedBy envQ8 x n := by
  classical
  have hcenter : Wide envQ8 (toward x ((x.natAbs + 63) / 128)) := by
    refine wide_center henv ?_ ?_
    · unfold toward
      split <;> omega
    · unfold toward
      split <;> omega
  have hfound : ∃ n, Wide envQ8 (toward x n) := ⟨_, hcenter⟩
  refine ⟨Nat.find hfound, ?_, Nat.find_spec hfound, fun m hm => Nat.find_min hfound hm⟩
  exact (Nat.find_min' hfound hcenter).trans (by omega)

theorem ClippedBy.unique {n n' : Nat} (h : ClippedBy envQ8 x n) (h' : ClippedBy envQ8 x n') :
    n = n' := by
  rcases Nat.lt_trichotomy n n' with hlt | heq | hlt
  · exact absurd h.1 (h'.2 n hlt)
  · exact heq
  · exact absurd h'.1 (h.2 n' hlt)

/-- The samples before are further from 0, and on the same side. -/
theorem ClippedBy.far (henv : 1 ≤ envQ8.toNat) {m n : Nat} (h : ClippedBy envQ8 x n) (hm : m < n) :
    if 0 < x then 64 < toward x m else toward x m < -64 := by
  induction m with
  | zero =>
    have hnarrow := h.2 0 hm
    have hzero : toward x 0 = x := by
      unfold toward
      split <;> omega
    rw [hzero] at hnarrow ⊢
    have hout : ¬ (-64 ≤ x ∧ x ≤ 64) := fun hin => hnarrow (wide_center henv hin.1 hin.2)
    split <;> omega
  | succ m ih =>
    have hnarrow := h.2 (m + 1) hm
    have hbefore := ih (by omega)
    have hout : ¬ (-64 ≤ toward x (m + 1) ∧ toward x (m + 1) ≤ 64) := fun hin =>
      hnarrow (wide_center henv hin.1 hin.2)
    have hstep : toward x (m + 1) = if 0 < x then toward x m - 128 else toward x m + 128 := by
      unfold toward
      split <;> omega
    rw [hstep] at hout ⊢
    split at hbefore <;> rename_i hsign
    · rw [if_pos hsign] at hout
      rw [if_pos hsign, if_pos hsign]
      omega
    · rw [if_neg hsign] at hout
      rw [if_neg hsign, if_neg hsign]
      omega

/-- The loop ends with the sample that is coded. -/
theorem clip_ok (henv : 1 ≤ envQ8.toNat) (hlow : -32640 ≤ x) (hhigh : x ≤ 32640) {m n fuel : Nat}
    (h : ClippedBy envQ8 x n) (hm : m ≤ n) (hfuel : n - m < fuel) :
    clip envQ8 fuel (toward x m) (cdfAt envQ8 (toward x m - 64)) (cdfAt envQ8 (toward x m + 64)) =
      some (toward x n, cdfAt envQ8 (toward x n - 64), cdfAt envQ8 (toward x n + 64)) := by
  induction fuel generalizing m with
  | zero => exact absurd hfuel (Nat.not_lt_zero _)
  | succ fuel ih =>
    rw [clip]
    rcases Nat.lt_or_eq_of_le hm with hless | rfl
    · have hnarrow := h.2 m hless
      have hfar := h.far henv hless
      unfold Wide at hnarrow
      rw [if_pos (by omega)]
      by_cases hsign : 0 < x
      · have hstep : toward x (m + 1) = toward x m - 128 := by
          unfold toward
          rw [if_pos hsign, if_pos hsign]
          omega
        have hrange : toward x m ≤ x := by
          unfold toward
          rw [if_pos hsign]
          omega
        rw [if_pos hsign] at hfar
        rw [if_pos (by omega), int16_of_fits (by omega) (by omega), ← hstep]
        have hnext := ih (m := m + 1) hless (by omega)
        rwa [show toward x (m + 1) + 64 = toward x m - 64 by omega] at hnext
      · have hstep : toward x (m + 1) = toward x m + 128 := by
          unfold toward
          rw [if_neg hsign, if_neg hsign]
          omega
        have hrange : x ≤ toward x m := by
          unfold toward
          rw [if_neg hsign]
          omega
        rw [if_neg hsign] at hfar
        rw [if_neg (by omega), int16_of_fits (by omega) (by omega), ← hstep]
        have hnext := ih (m := m + 1) hless (by omega)
        rwa [show toward x (m + 1) - 64 = toward x m + 64 by omega] at hnext
    · have hwide := h.1
      unfold Wide at hwide
      rw [if_neg (by omega)]

/-! ## The search -/

/-- Two candidates with the same bound. -/
def Flat (envQ8 : BitVec 16) (c c' : Int) : Prop := cdfAt envQ8 c = cdfAt envQ8 c'

/-- The first candidate. -/
def startOf (dither : Int) : Int := int16 (-dither + 64)

/-- The search from the dither does not abort before it is at the sample: no two neighbouring
candidates that it compares on the way have the same bound. -/
def Reached (envQ8 : BitVec 16) (dither y : Int) : Prop :=
  (∀ j : Nat, 1 ≤ j → startOf dither + 128 * (j + 1) ≤ y - 64 →
    ¬ Flat envQ8 (startOf dither + 128 * j) (startOf dither + 128 * (j + 1))) ∧
  (∀ j : Nat, 1 ≤ j → y + 64 ≤ startOf dither - 128 * (j + 1) →
    ¬ Flat envQ8 (startOf dither - 128 * j) (startOf dither - 128 * (j + 1)))

namespace BitstrDec

variable {s : BitstrDec} {fuel : Nat} {c : Int} {dither : Int}

theorem boundAt_mono (hx : -2 ^ 15 ≤ x) (hle : x ≤ y) (hy : y < 2 ^ 15) :
    s.boundAt envQ8 x ≤ s.boundAt envQ8 y := scale_mono _ (cdfAt_mono hx hle hy)

/-- Bounds are the same if the values of the cdf are. -/
theorem boundAt_eq_iff (hwide : 2 ^ 24 ≤ s.wUpper.toNat) (c c' : Int) :
    s.boundAt envQ8 c = s.boundAt envQ8 c' ↔ Flat envQ8 c c' := by
  unfold boundAt Flat
  refine ⟨fun heq => ?_, fun heq => by rw [heq]⟩
  rcases Nat.lt_trichotomy (cdfAt envQ8 c).toNat (cdfAt envQ8 c').toNat with hlt | hsame | hlt
  · have hgap := BitstrEnc.scale_lt hwide (show cdfAt envQ8 c < cdfAt envQ8 c' from hlt)
    rw [heq] at hgap
    omega
  · exact BitVec.eq_of_toNat_eq hsame
  · have hgap := BitstrEnc.scale_lt hwide (show cdfAt envQ8 c' < cdfAt envQ8 c from hlt)
    rw [heq] at hgap
    omega

/-- The window is in the part of the sample. -/
structure Meets (s : BitstrDec) (envQ8 : BitVec 16) (y : Int) : Prop where
  low : -2 ^ 15 ≤ y - 64
  high : y + 64 < 2 ^ 15
  wide : 2 ^ 24 ≤ s.wUpper.toNat
  above : s.boundAt envQ8 (y - 64) < s.streamval
  within : s.streamval ≤ s.boundAt envQ8 (y + 64)

theorem Meets.not_flat (h : s.Meets envQ8 y) : ¬ Flat envQ8 (y - 64) (y + 64) := fun hflat => by
  have habove := h.above
  have hwithin := h.within
  rw [(boundAt_eq_iff h.wide _ _).mpr hflat, BitVec.lt_def] at habove
  rw [BitVec.le_def] at hwithin
  omega

/-- A candidate that is not above the sample is below the window. -/
theorem Meets.below (h : s.Meets envQ8 y) (hc : -2 ^ 15 ≤ c) (hle : c ≤ y - 64) :
    s.boundAt envQ8 c < s.streamval := by
  have habove := h.above
  have hhigh := h.high
  have hmono : s.boundAt envQ8 c ≤ s.boundAt envQ8 (y - 64) := boundAt_mono hc hle (by omega)
  rw [BitVec.le_def] at hmono
  rw [BitVec.lt_def] at habove ⊢
  omega

theorem Meets.not_below (h : s.Meets envQ8 y) (hc : c < 2 ^ 15) (hle : y + 64 ≤ c) :
    ¬ s.boundAt envQ8 c < s.streamval := by
  have hwithin := h.within
  have hlow := h.low
  have hmono : s.boundAt envQ8 (y + 64) ≤ s.boundAt envQ8 c := boundAt_mono (by omega) hle hc
  rw [BitVec.le_def] at hmono hwithin
  rw [BitVec.lt_def]
  omega

theorem searchUp_found (h : s.Meets envQ8 y) {k : Nat} (hc : -2 ^ 15 ≤ c)
    (hend : c + 128 * k = y + 64) (hfuel : k < fuel)
    (hflat : ∀ j : Nat, j + 1 < k → ¬ Flat envQ8 (c + 128 * j) (c + 128 * (j + 1))) :
    s.searchUp envQ8 fuel c (s.boundAt envQ8 (c - 128)) =
      some (.found y (s.boundAt envQ8 (y - 64)) (s.boundAt envQ8 (y + 64))) := by
  have hlow := h.low
  have hhigh := h.high
  induction k generalizing c fuel with
  | zero =>
    obtain ⟨fuel, rfl⟩ := Nat.exists_eq_add_one.mpr hfuel
    obtain rfl : c = y + 64 := by omega
    rw [searchUp, if_neg (h.not_below hhigh le_rfl), int16_of_fits (by omega) (by omega),
      show y + 64 - 64 = y by omega, show y + 64 - 128 = y - 64 by omega]
  | succ k ih =>
    obtain ⟨fuel, rfl⟩ := Nat.exists_eq_add_one.mpr (Nat.zero_lt_of_lt hfuel)
    have hsteep : ¬ Flat envQ8 c (c + 128) := by
      cases k with
      | zero =>
        have hlast := h.not_flat
        rwa [show y - 64 = c by omega, show y + 64 = c + 128 by omega] at hlast
      | succ k => simpa using hflat 0 (by omega)
    rw [searchUp, if_pos (h.below hc (by omega)), int16_of_fits (by omega) (by omega)]
    dsimp only
    rw [if_neg (fun heq => hsteep ((boundAt_eq_iff h.wide _ _).mp heq))]
    have hnext := ih (c := c + 128) (by omega) (by omega) (show k < fuel by omega) fun j hj => by
      have hlater := hflat (j + 1) (by omega)
      rwa [show c + 128 * ((j + 1 : Nat) : Int) = c + 128 + 128 * (j : Int) by omega,
        show c + 128 * (((j + 1 : Nat) : Int) + 1) = c + 128 + 128 * ((j : Int) + 1) by omega]
        at hlater
    rwa [show c + 128 - 128 = c by omega] at hnext

theorem searchUp_aborts (h : s.Meets envQ8 y) {k : Nat} (hc : -2 ^ 15 ≤ c)
    (hend : c + 128 * k = y + 64) (hfuel : k < fuel) (wLower : BitVec 32) {j : Nat} (hj : j + 1 < k)
    (hflat : Flat envQ8 (c + 128 * j) (c + 128 * (j + 1))) :
    s.searchUp envQ8 fuel c wLower = some (.error (-1)) := by
  have hlow := h.low
  have hhigh := h.high
  induction k generalizing c fuel wLower j with
  | zero => omega
  | succ k ih =>
    obtain ⟨fuel, rfl⟩ := Nat.exists_eq_add_one.mpr (Nat.zero_lt_of_lt hfuel)
    rw [searchUp, if_pos (h.below hc (by omega)), int16_of_fits (by omega) (by omega)]
    dsimp only
    by_cases hnow : s.boundAt envQ8 c = s.boundAt envQ8 (c + 128)
    · rw [if_pos hnow]
    · rw [if_neg hnow]
      cases j with
      | zero => exact absurd ((boundAt_eq_iff h.wide _ _).mpr (by simpa using hflat)) hnow
      | succ j =>
        refine ih (j := j) (by omega) (by omega) (by omega) _ (by omega) ?_
        rwa [show c + 128 * ((j + 1 : Nat) : Int) = c + 128 + 128 * (j : Int) by omega,
          show c + 128 * (((j + 1 : Nat) : Int) + 1) = c + 128 + 128 * ((j : Int) + 1) by omega]
          at hflat

theorem searchDown_found (h : s.Meets envQ8 y) {k : Nat} (hc : c < 2 ^ 15)
    (hend : c - 128 * k = y - 64) (hfuel : k < fuel)
    (hflat : ∀ j : Nat, j + 1 < k → ¬ Flat envQ8 (c - 128 * j) (c - 128 * (j + 1))) :
    s.searchDown envQ8 fuel c (s.boundAt envQ8 (c + 128)) =
      some (.found y (s.boundAt envQ8 (y - 64)) (s.boundAt envQ8 (y + 64))) := by
  have hlow := h.low
  have hhigh := h.high
  induction k generalizing c fuel with
  | zero =>
    obtain ⟨fuel, rfl⟩ := Nat.exists_eq_add_one.mpr hfuel
    obtain rfl : c = y - 64 := by omega
    rw [searchDown, if_pos h.above, int16_of_fits (by omega) (by omega),
      show y - 64 + 64 = y by omega, show y - 64 + 128 = y + 64 by omega]
  | succ k ih =>
    obtain ⟨fuel, rfl⟩ := Nat.exists_eq_add_one.mpr (Nat.zero_lt_of_lt hfuel)
    have hsteep : ¬ Flat envQ8 c (c - 128) := by
      cases k with
      | zero =>
        have hlast := h.not_flat
        rw [show y - 64 = c - 128 by omega, show y + 64 = c by omega] at hlast
        exact fun heq => hlast heq.symm
      | succ k => simpa using hflat 0 (by omega)
    rw [searchDown, if_neg (h.not_below hc (by omega)), int16_of_fits (by omega) (by omega)]
    dsimp only
    rw [if_neg (fun heq => hsteep ((boundAt_eq_iff h.wide _ _).mp heq))]
    have hnext := ih (c := c - 128) (by omega) (by omega) (show k < fuel by omega) fun j hj => by
      have hlater := hflat (j + 1) (by omega)
      rwa [show c - 128 * ((j + 1 : Nat) : Int) = c - 128 - 128 * (j : Int) by omega,
        show c - 128 * (((j + 1 : Nat) : Int) + 1) = c - 128 - 128 * ((j : Int) + 1) by omega]
        at hlater
    rwa [show c - 128 + 128 = c by omega] at hnext

theorem searchDown_aborts (h : s.Meets envQ8 y) {k : Nat} (hc : c < 2 ^ 15)
    (hend : c - 128 * k = y - 64) (hfuel : k < fuel) (wUpper : BitVec 32) {j : Nat} (hj : j + 1 < k)
    (hflat : Flat envQ8 (c - 128 * j) (c - 128 * (j + 1))) :
    s.searchDown envQ8 fuel c wUpper = some (.error (-1)) := by
  have hlow := h.low
  have hhigh := h.high
  induction k generalizing c fuel wUpper j with
  | zero => omega
  | succ k ih =>
    obtain ⟨fuel, rfl⟩ := Nat.exists_eq_add_one.mpr (Nat.zero_lt_of_lt hfuel)
    rw [searchDown, if_neg (h.not_below hc (by omega)), int16_of_fits (by omega) (by omega)]
    dsimp only
    by_cases hnow : s.boundAt envQ8 c = s.boundAt envQ8 (c - 128)
    · rw [if_pos hnow]
    · rw [if_neg hnow]
      cases j with
      | zero => exact absurd ((boundAt_eq_iff h.wide _ _).mpr (by simpa using hflat)) hnow
      | succ j =>
        refine ih (j := j) (by omega) (by omega) (by omega) _ (by omega) ?_
        rwa [show c - 128 * ((j + 1 : Nat) : Int) = c - 128 - 128 * (j : Int) by omega,
          show c - 128 * (((j + 1 : Nat) : Int) + 1) = c - 128 - 128 * ((j : Int) + 1) by omega]
          at hflat

theorem searchUp_error {code : Int} {wLower : BitVec 32}
    (h : s.searchUp envQ8 fuel c wLower = some (.error code)) : code = -1 := by
  induction fuel generalizing c wLower with
  | zero => simp [searchUp] at h
  | succ fuel ih =>
    simp only [searchUp] at h
    split at h
    · split at h
      · simpa using h.symm
      · exact ih h
    · simp at h

theorem searchDown_error {code : Int} {wUpper : BitVec 32}
    (h : s.searchDown envQ8 fuel c wUpper = some (.error code)) : code = -1 := by
  induction fuel generalizing c wUpper with
  | zero => simp [searchDown] at h
  | succ fuel ih =>
    simp only [searchDown] at h
    split at h
    · simp at h
    · split at h
      · simpa using h.symm
      · exact ih h

theorem search_error {code : Int} (h : s.search fuel envQ8 dither = some (.error code)) :
    code = -1 := by
  unfold search at h
  dsimp only at h
  split at h
  · exact searchUp_error h
  · exact searchDown_error h

/-- Where the search starts, on the grid of the sample. -/
theorem startOf_grid (hgrid : 128 ∣ y + dither) :
    -2 ^ 15 ≤ startOf dither ∧ startOf dither < 2 ^ 15 ∧ ∃ k : Int, startOf dither + 128 * k = y + 64 := by
  have hlow : -2 ^ 15 ≤ int16 (-dither + 64) := by
    unfold int16
    have := Int.le_bmod (x := -dither + 64) (m := 2 ^ 16) (by decide)
    omega
  have hhigh : int16 (-dither + 64) < 2 ^ 15 := by
    unfold int16
    have := Int.bmod_lt (x := -dither + 64) (m := 2 ^ 16) (by decide)
    omega
  obtain ⟨m, hm⟩ := hgrid
  have hwrap : ∃ q : Int, int16 (-dither + 64) = -dither + 64 - 2 ^ 16 * q := by
    have hdiv := Int.bmod_add_bdiv (-dither + 64) (2 ^ 16)
    refine ⟨(-dither + 64).bdiv (2 ^ 16), ?_⟩
    unfold int16
    omega
  obtain ⟨q, hq⟩ := hwrap
  refine ⟨hlow, hhigh, m + 2 ^ 9 * q, ?_⟩
  unfold startOf
  omega

/-- The search finds the sample. -/
theorem search_found (h : s.Meets envQ8 y) (hgrid : 128 ∣ y + dither) (hfuel : 512 ≤ fuel)
    (hreached : Reached envQ8 dither y) :
    s.search fuel envQ8 dither =
      some (.found y (s.boundAt envQ8 (y - 64)) (s.boundAt envQ8 (y + 64))) := by
  obtain ⟨hmin, hmax, k, hk⟩ := startOf_grid hgrid
  obtain ⟨hup, hdown⟩ := hreached
  have hlow := h.low
  have hhigh := h.high
  unfold search
  rw [show int16 (-dither + 64) = startOf dither from rfl]
  generalize startOf dither = c at hmin hmax hk hup hdown ⊢
  dsimp only
  by_cases hbelow : c ≤ y - 64
  · rw [if_pos (h.below hmin hbelow), int16_of_fits (by omega) (by omega)]
    have hfound := searchUp_found h (k := (k - 1).toNat) (c := c + 128) (by omega)
      (by omega) (show (k - 1).toNat < fuel by omega) fun j hj => by
        have hsteep := hup (j + 1) (by omega) (by omega)
        rwa [show c + 128 * ((j + 1 : Nat) : Int) = c + 128 + 128 * (j : Int) by omega,
          show c + 128 * (((j + 1 : Nat) : Int) + 1) = c + 128 + 128 * ((j : Int) + 1) by omega]
          at hsteep
    rwa [show c + 128 - 128 = c by omega] at hfound
  · rw [if_neg (h.not_below hmax (by omega)), int16_of_fits (by omega) (by omega)]
    have hfound := searchDown_found h (k := (-k).toNat) (c := c - 128) (by omega)
      (by omega) (show (-k).toNat < fuel by omega) fun j hj => by
        have hsteep := hdown (j + 1) (by omega) (by omega)
        rwa [show c - 128 * ((j + 1 : Nat) : Int) = c - 128 - 128 * (j : Int) by omega,
          show c - 128 * (((j + 1 : Nat) : Int) + 1) = c - 128 - 128 * ((j : Int) + 1) by omega]
          at hsteep
    rwa [show c - 128 + 128 = c by omega] at hfound

/-- Or it aborts. -/
theorem search_aborts (h : s.Meets envQ8 y) (hgrid : 128 ∣ y + dither) (hfuel : 512 ≤ fuel)
    (hmissed : ¬ Reached envQ8 dither y) : s.search fuel envQ8 dither = some (.error (-1)) := by
  obtain ⟨hmin, hmax, k, hk⟩ := startOf_grid hgrid
  have hlow := h.low
  have hhigh := h.high
  unfold Reached at hmissed
  unfold search
  rw [show int16 (-dither + 64) = startOf dither from rfl]
  generalize startOf dither = c at hmin hmax hk hmissed ⊢
  dsimp only
  rw [not_and_or] at hmissed
  push Not at hmissed
  rcases hmissed with ⟨j, hj, hend, hflat⟩ | ⟨j, hj, hend, hflat⟩
  · obtain ⟨j, rfl⟩ := Nat.exists_eq_add_one.mpr hj
    rw [if_pos (h.below hmin (by omega)), int16_of_fits (by omega) (by omega)]
    refine searchUp_aborts h (k := (k - 1).toNat) (j := j) (by omega) (by omega) (by omega) _
      (by omega) ?_
    rwa [show c + 128 * ((j + 1 : Nat) : Int) = c + 128 + 128 * (j : Int) by omega,
      show c + 128 * (((j + 1 : Nat) : Int) + 1) = c + 128 + 128 * ((j : Int) + 1) by omega]
      at hflat
  · obtain ⟨j, rfl⟩ := Nat.exists_eq_add_one.mpr hj
    rw [if_neg (h.not_below hmax (by omega)), int16_of_fits (by omega) (by omega)]
    refine searchDown_aborts h (k := (-k).toNat) (j := j) (by omega) (by omega) (by omega) _
      (by omega) ?_
    rwa [show c - 128 * ((j + 1 : Nat) : Int) = c - 128 - 128 * (j : Int) by omega,
      show c - 128 * (((j + 1 : Nat) : Int) + 1) = c - 128 - 128 * ((j : Int) + 1) by omega]
      at hflat

end BitstrDec

end PerchWebrtc.Isac
