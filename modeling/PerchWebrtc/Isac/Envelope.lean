import PerchWebrtc.Isac.SquareRoots

/-!
# The envelope of the iSAC spectrum

`entropy_coding.c`: the inverse power spectrum of the AR filter, for the decoder, and its
square roots, for the encoder. The encoder's function computes the spectrum again.

* `calcRootInvArSpec_eq`: both have the same roots;
* `roots_iff`: when they are accurate.
-/

namespace PerchWebrtc.Isac

def AR_ORDER : Nat := 6
def FRAMESAMPLES : Nat := 480

def kCos : List (List Int) :=
  [[512, 512, 511, 510, 508, 507, 505, 502, 499, 496, 493, 489, 485, 480, 476,
    470, 465, 459, 453, 447, 440, 433, 426, 418, 410, 402, 394, 385, 376, 367,
    357, 348, 338, 327, 317, 306, 295, 284, 273, 262, 250, 238, 226, 214, 202,
    190, 177, 165, 152, 139, 126, 113, 100, 87, 73, 60, 47, 33, 20, 7],
   [512, 510, 508, 503, 498, 491, 483, 473, 462, 450, 437, 422, 406, 389, 371,
    352, 333, 312, 290, 268, 244, 220, 196, 171, 145, 120, 93, 67, 40, 13,
    -13, -40, -67, -93, -120, -145, -171, -196, -220, -244, -268, -290, -312, -333, -352,
    -371, -389, -406, -422, -437, -450, -462, -473, -483, -491, -498, -503, -508, -510, -512],
   [512, 508, 502, 493, 480, 465, 447, 426, 402, 376, 348, 317, 284, 250, 214,
    177, 139, 100, 60, 20, -20, -60, -100, -139, -177, -214, -250, -284, -317, -348,
    -376, -402, -426, -447, -465, -480, -493, -502, -508, -512, -512, -508, -502, -493, -480,
    -465, -447, -426, -402, -376, -348, -317, -284, -250, -214, -177, -139, -100, -60, -20],
   [511, 506, 495, 478, 456, 429, 398, 362, 322, 279, 232, 183, 133, 80, 27,
    -27, -80, -133, -183, -232, -279, -322, -362, -398, -429, -456, -478, -495, -506, -511,
    -511, -506, -495, -478, -456, -429, -398, -362, -322, -279, -232, -183, -133, -80, -27,
    27, 80, 133, 183, 232, 279, 322, 362, 398, 429, 456, 478, 495, 506, 511],
   [511, 502, 485, 459, 426, 385, 338, 284, 226, 165, 100, 33, -33, -100, -165,
    -226, -284, -338, -385, -426, -459, -485, -502, -511, -511, -502, -485, -459, -426, -385,
    -338, -284, -226, -165, -100, -33, 33, 100, 165, 226, 284, 338, 385, 426, 459,
    485, 502, 511, 511, 502, 485, 459, 426, 385, 338, 284, 226, 165, 100, 33],
   [510, 498, 473, 437, 389, 333, 268, 196, 120, 40, -40, -120, -196, -268, -333,
    -389, -437, -473, -498, -510, -510, -498, -473, -437, -389, -333, -268, -196, -120, -40,
    40, 120, 196, 268, 333, 389, 437, 473, 498, 510, 510, 498, 473, 437, 389,
    333, 268, 196, 120, 40, -40, -120, -196, -268, -333, -389, -437, -473, -498, -510]]

/-- `WEBRTC_SPL_MUL`, which wraps around. -/
def splMul (a b : Int) : Int := int32 (a * b)

/-- `WebRtcSpl_NormW32`. -/
def normW32 (x : Int) : Nat :=
  if x = 0 then 0
  else
    let a := BitVec.ofInt 32 (if x < 0 then -x - 1 else x)
    let zeros : Nat := if 0xFFFF8000 &&& a = 0 then 16 else 0
    let zeros : Nat := if 0xFF800000 &&& (a <<< zeros) = 0 then zeros + 8 else zeros
    let zeros : Nat := if 0xF8000000 &&& (a <<< zeros) = 0 then zeros + 4 else zeros
    let zeros : Nat := if 0xE0000000 &&& (a <<< zeros) = 0 then zeros + 2 else zeros
    if 0xC0000000 &&& (a <<< zeros) = 0 then zeros + 1 else zeros

def kCosAt (k n : Nat) : Int := (kCos.getD k []).getD n 0

/-- The sum of the products of coefficients that are `k` apart, in Q24. -/
def coefSum (arCoefQ12 : Nat → Int) (k : Nat) (sum : Int) : Int :=
  (List.range (AR_ORDER + 1 - k)).foldl
    (fun sum i => int32 (sum + splMul (arCoefQ12 i) (arCoefQ12 (i + k)))) sum

/-- The correlations; a large gain is shifted down. -/
def corrQ11 (arCoefQ12 : Nat → Int) (gainQ10 : Int) (k : Nat) : Int :=
  if k = 0 then
    let sum := int32 (splMul (coefSum arCoefQ12 0 0 >>> (6 : Nat)) 65 + 32768) >>> (16 : Nat)
    int32 (splMul sum gainQ10 + 256) >>> (9 : Nat)
  else
    let sum := coefSum arCoefQ12 k 16384 >>> (15 : Nat)
    if gainQ10 > 400000 then int32 (splMul sum (gainQ10 >>> (3 : Nat)) + 32) >>> (6 : Nat)
    else int32 (splMul sum gainQ10 + 256) >>> (9 : Nat)

/-- The shift against an overflow of the differences. -/
def diffShift (corr : Nat → Int) : Nat :=
  let sh := if corr 1 = 0 then normW32 (corr 2) else normW32 (corr 1)
  if sh < 9 then 9 - sh else 0

/-- The odd correlations, shifted back. -/
def diffQ16 (corr : Nat → Int) (n : Nat) : Int :=
  let shftVal := diffShift corr
  let term (k : Nat) : Int := int32 (splMul (kCosAt k n) (corr (k + 1) >>> shftVal) + 2) >>> (2 : Nat)
  let diff := [2, 4].foldl (fun diff k => int32 (diff + term k)) (term 0)
  int32 (diff <<< shftVal)

/-- The even correlations. -/
def curveQ16 (corr : Nat → Int) (n : Nat) : Int :=
  [1, 3, 5].foldl
    (fun sum k => int32 (sum + int32 (splMul (kCosAt k n) (corr (k + 1)) + 2) >>> (2 : Nat)))
    (int32 (corr 0 <<< (7 : Nat)))

/-- The second half of the spectrum comes from the first, backwards. -/
def calcInvArSpec (arCoefQ12 : Nat → Int) (gainQ10 : Int) : List Int :=
  let corr := corrQ11 arCoefQ12 gainQ10
  (List.range (FRAMESAMPLES / 4)).map fun k =>
    if k < FRAMESAMPLES / 8 then int32 (curveQ16 corr k + diffQ16 corr k)
    else int32 (curveQ16 corr (FRAMESAMPLES / 4 - 1 - k) - diffQ16 corr (FRAMESAMPLES / 4 - 1 - k))

/-- The even correlations of the encoder's function. -/
def summQ16 (corr : Nat → Int) (n : Nat) : Int :=
  [1, 3, 5].foldl
    (fun sum k => int32 (sum + int32 (int32 (corr (k + 1) * kCosAt k n) + 2) >>> (2 : Nat)))
    (int32 (corr 0 <<< (7 : Nat)))

/-- One of its loops; `res` is kept for the next. -/
def rootLoop : Int → List Int → Option (Int × List (BitVec 16))
  | res, [] => some (res, [])
  | res, inSqrt :: rest => do
    let (res, newRes) ← squareRoot inSqrt res
    let (res, roots) ← rootLoop res rest
    some (res, BitVec.ofInt 16 newRes :: roots)

def calcRootInvArSpec (arCoefQ12 : Nat → Int) (gainQ10 : Int) : Option (List (BitVec 16)) := do
  let corr := corrQ11 arCoefQ12 gainQ10
  let res := firstRes (int32 (summQ16 corr 0 + diffQ16 corr 0))
  let (res, low) ← rootLoop res ((List.range (FRAMESAMPLES / 8)).map fun k =>
    int32 (summQ16 corr k + diffQ16 corr k))
  let (_, high) ← rootLoop res ((List.range' (FRAMESAMPLES / 8) (FRAMESAMPLES / 8)).map fun k =>
    int32 (summQ16 corr (FRAMESAMPLES / 4 - 1 - k) - diffQ16 corr (FRAMESAMPLES / 4 - 1 - k)))
  some (low ++ high)

variable {arCoefQ12 : Nat → Int} {gainQ10 : Int}

/-- The factors are the other way round. -/
theorem summQ16_eq (corr : Nat → Int) (n : Nat) : summQ16 corr n = curveQ16 corr n := by
  simp only [summQ16, curveQ16, splMul, Int.mul_comm]

theorem rootLoop_append (res : Int) (xs ys : List Int) :
    rootsFrom res (xs ++ ys) = (rootLoop res xs).bind fun r =>
      (rootLoop r.1 ys).map fun q => r.2 ++ q.2 := by
  induction xs generalizing res with
  | nil =>
    simp only [List.nil_append, rootLoop, Option.bind_some]
    induction ys generalizing res with
    | nil => rfl
    | cons y ys ih =>
      simp only [rootsFrom, rootLoop, Option.bind_eq_bind, Option.map_eq_bind, Option.bind_assoc,
        ih]
      rfl
  | cons x xs ih =>
    simp only [List.cons_append, rootsFrom, rootLoop, Option.bind_eq_bind, Option.map_eq_bind,
      Option.bind_assoc, ih]
    rfl

/-- The two halves of the spectrum. -/
theorem calcInvArSpec_halves (arCoefQ12 : Nat → Int) (gainQ10 : Int) :
    calcInvArSpec arCoefQ12 gainQ10 =
      ((List.range (FRAMESAMPLES / 8)).map fun k =>
        int32 (summQ16 (corrQ11 arCoefQ12 gainQ10) k + diffQ16 (corrQ11 arCoefQ12 gainQ10) k)) ++
      (List.range' (FRAMESAMPLES / 8) (FRAMESAMPLES / 8)).map fun k =>
        int32 (summQ16 (corrQ11 arCoefQ12 gainQ10) (FRAMESAMPLES / 4 - 1 - k) -
          diffQ16 (corrQ11 arCoefQ12 gainQ10) (FRAMESAMPLES / 4 - 1 - k)) := by
  have hsplit : List.range (FRAMESAMPLES / 4) =
      List.range (FRAMESAMPLES / 8) ++ List.range' (FRAMESAMPLES / 8) (FRAMESAMPLES / 8) := by
    decide
  unfold calcInvArSpec
  dsimp only
  rw [hsplit, List.map_append]
  refine congrArg₂ _ (List.map_congr_left fun k hk => ?_) (List.map_congr_left fun k hk => ?_)
  · rw [if_pos (List.mem_range.mp hk), summQ16_eq]
  · rw [if_neg (not_lt.mpr (List.mem_range'_1.mp hk).1), summQ16_eq]

theorem calcInvArSpec_head (arCoefQ12 : Nat → Int) (gainQ10 : Int) :
    (calcInvArSpec arCoefQ12 gainQ10).head? = some (int32
      (summQ16 (corrQ11 arCoefQ12 gainQ10) 0 + diffQ16 (corrQ11 arCoefQ12 gainQ10) 0)) := by
  rw [calcInvArSpec_halves]
  rfl

/-- The encoder's roots are the decoder's. -/
theorem calcRootInvArSpec_eq (arCoefQ12 : Nat → Int) (gainQ10 : Int) :
    calcRootInvArSpec arCoefQ12 gainQ10 = squareRoots (calcInvArSpec arCoefQ12 gainQ10) := by
  simp only [squareRoots, calcInvArSpec_head, Option.bind_eq_bind, Option.bind_some]
  rw [calcInvArSpec_halves, rootLoop_append]
  simp only [calcRootInvArSpec, Option.bind_eq_bind, Option.map_eq_bind]
  rfl

/-- The iterations of an envelope. -/
def envIterations (envQ8 : List Int) : Option (List Iteration) := do
  let first ← envQ8.head?
  iterations (firstRes first) envQ8

theorem squareRoots_eq (envQ8 : List Int) :
    squareRoots envQ8 = (envIterations envQ8).map (List.map Iteration.root) := by
  cases envQ8 with
  | nil => rfl
  | cons inSqrt envQ8 => exact rootsFrom_eq _ _

theorem int32_range (x : Int) : -2 ^ 31 ≤ int32 x ∧ int32 x < 2 ^ 31 := by
  unfold int32
  have hlow := Int.le_bmod (x := x) (m := 2 ^ 32) (by decide)
  have hhigh := Int.bmod_lt (x := x) (m := 2 ^ 32) (by decide)
  omega

theorem calcInvArSpec_range : ∀ x ∈ calcInvArSpec arCoefQ12 gainQ10, -2 ^ 31 ≤ x ∧ x < 2 ^ 31 := by
  intro x hx
  simp only [calcInvArSpec, List.mem_map] at hx
  obtain ⟨k, -, rfl⟩ := hx
  split
  · exact int32_range _
  · exact int32_range _

/-- The encoder and the decoder have the same roots, from the same iterations, none of which
divides by 0. They are accurate if and only if no step overflows, or no iteration after that
stops but near 2³⁰, where the negative root is the right one modulo 2¹⁶. -/
theorem roots_iff (arCoefQ12 : Nat → Int) (gainQ10 : Int)
    (hentries : ∀ x ∈ calcInvArSpec arCoefQ12 gainQ10, x ≠ 0 ∧ x ≠ -2 ^ 31) :
    ∃ its, envIterations (calcInvArSpec arCoefQ12 gainQ10) = some its ∧
      its.map Iteration.inSqrt = calcInvArSpec arCoefQ12 gainQ10 ∧
      calcRootInvArSpec arCoefQ12 gainQ10 = some (its.map Iteration.root) ∧
      squareRoots (calcInvArSpec arCoefQ12 gainQ10) = some (its.map Iteration.root) ∧
      ((∀ it ∈ its, it.Accurate) ↔
        its.Pairwise fun a b => Overflows a.inSqrt a.start → b.Stopped → b.Symmetric) := by
  have hregular : Regular (calcInvArSpec arCoefQ12 gainQ10) := fun x hx => by
    obtain ⟨hlow, hhigh⟩ := calcInvArSpec_range x hx
    obtain ⟨hzero, hmin⟩ := hentries x hx
    exact ⟨hzero, by omega, hhigh⟩
  have hfirst := firstRes_range (int32
    (summQ16 (corrQ11 arCoefQ12 gainQ10) 0 + diffQ16 (corrQ11 arCoefQ12 gainQ10) 0))
  obtain ⟨its, hits, hmap, haccurate⟩ := iterations_positive hregular hfirst.1 hfirst.2
  have henv : envIterations (calcInvArSpec arCoefQ12 gainQ10) = some its := by
    simp only [envIterations, calcInvArSpec_head, Option.bind_eq_bind, Option.bind_some, hits]
  have hroots : squareRoots (calcInvArSpec arCoefQ12 gainQ10) = some (its.map Iteration.root) := by
    rw [squareRoots_eq, henv, Option.map_some]
  exact ⟨its, henv, hmap, (calcRootInvArSpec_eq _ _).trans hroots, hroots, haccurate⟩

/-- A filter of order 0. -/
def flatCoefs (n : Nat) : Int := if n = 0 then 4096 else 0

theorem roots_flat :
    ∃ its, envIterations (calcInvArSpec flatCoefs 1000) = some its ∧
      its.map Iteration.inSqrt = calcInvArSpec flatCoefs 1000 ∧
      calcRootInvArSpec flatCoefs 1000 = some (its.map Iteration.root) ∧
      squareRoots (calcInvArSpec flatCoefs 1000) = some (its.map Iteration.root) ∧
      ((∀ it ∈ its, it.Accurate) ↔
        its.Pairwise fun a b => Overflows a.inSqrt a.start → b.Stopped → b.Symmetric) :=
  roots_iff flatCoefs 1000 (by decide +kernel)

/-- A filter whose envelope starts with 1 and −2147483647. -/
def overflowingCoefs (n : Nat) : Int := [-32768, 19, -38, -256, 62, -230, 238].getD n 0

/-- The iteration for the third entry, -2141087474, stops at -46272, and its root is 19264. -/
theorem not_roots_accurate :
    (∀ x ∈ calcInvArSpec overflowingCoefs 1127664317, x ≠ 0 ∧ x ≠ -2 ^ 31) ∧
      ∃ its, envIterations (calcInvArSpec overflowingCoefs 1127664317) = some its ∧
        ∃ it ∈ its, it.Stopped ∧ it.inSqrt.natAbs = 2141087474 ∧ it.root = 19264 ∧
          ¬ it.Accurate := by
  refine ⟨by decide +kernel, ?_⟩
  have hthird : (envIterations (calcInvArSpec overflowingCoefs 1127664317)).map (fun its => its[2]?) =
      some (some ⟨-2141087474, -1049258, -46272, -46272⟩) := by decide +kernel
  obtain ⟨its, hits, hit⟩ := Option.map_eq_some_iff.mp hthird
  refine ⟨its, hits, _, List.mem_of_getElem? hit, rfl, rfl, rfl, fun haccurate => ?_⟩
  have hnear := haccurate rfl
  have hroot : (BitVec.ofInt 16 (-46272)).toNat = 19263 + 1 := rfl
  simp only [Iteration.root, hroot] at hnear
  rw [near_iff] at hnear
  exact absurd hnear.2 (by decide)

end PerchWebrtc.Isac
