import Mathlib
import PerchWebrtc.Framework.Int32

/-!
# The square roots of an envelope

The magnitude spectrum from the power spectrum, which the encoder and the decoder of iSAC
compute each for itself: Newton's iteration, from the root of the entry before.

* `newton_positive`, `newton_negative`: one step, which keeps the sign of the root;
* `squareRoot_keeps`: the root of an entry;
* `iterations_positive`, `accurate_negative_iff`: the roots of all entries.
-/

namespace PerchWebrtc.Isac

/-- `WebRtcSpl_GetSizeInBits`. -/
def getSizeInBits (n : BitVec 32) : Nat :=
  let bits : Nat := if 0xFFFF0000 &&& n ≠ 0 then 16 else 0
  let bits : Nat := if 0x0000FF00 &&& (n >>> bits) ≠ 0 then bits + 8 else bits
  let bits : Nat := if 0x000000F0 &&& (n >>> bits) ≠ 0 then bits + 4 else bits
  let bits : Nat := if 0x0000000C &&& (n >>> bits) ≠ 0 then bits + 2 else bits
  let bits : Nat := if 0x00000002 &&& (n >>> bits) ≠ 0 then bits + 1 else bits
  if 0x00000001 &&& (n >>> bits) ≠ 0 then bits + 1 else bits

/-- `none` where the quotient is not defined. -/
def splDiv (a b : Int) : Option Int :=
  if b = 0 ∨ (a = -2 ^ 31 ∧ b = -1) then none else some (a.tdiv b)

/-- One step of the iteration. -/
def newton (inSqrt res : Int) : Option Int := do
  let quotient ← splDiv inSqrt res
  some (int32 (quotient + res) >>> (1 : Nat))

/-- The loop, from `newRes` on; `res` and `newRes` at its end. -/
def newtonLoop : Nat → Int → Int → Option (Int × Int)
  | 0, inSqrt, res => do
    let newRes ← newton inSqrt res
    some (res, newRes)
  | i + 1, inSqrt, res => do
    let newRes ← newton inSqrt res
    if newRes ≠ res then newtonLoop i inSqrt newRes else some (res, newRes)

/-- The root of one entry, which is made positive first. -/
def squareRoot (inSqrt res : Int) : Option (Int × Int) := do
  let inSqrt := if inSqrt < 0 then int32 (-inSqrt) else inSqrt
  let newRes ← newton inSqrt res
  newtonLoop 10 inSqrt newRes

/-- The first value of `res`. -/
def firstRes (inSqrt : Int) : Int := (1 : Int) <<< (getSizeInBits (BitVec.ofInt 32 inSqrt) >>> 1)

/-- The roots of all entries are those of 16 bits. -/
def rootsFrom : Int → List Int → Option (List (BitVec 16))
  | _, [] => some []
  | res, inSqrt :: env => do
    let (res, newRes) ← squareRoot inSqrt res
    let roots ← rootsFrom res env
    some (BitVec.ofInt 16 newRes :: roots)

/-- What `WebRtcIsacfix_DecLogisticMulti2` computes from an envelope. -/
def squareRoots (envQ8 : List Int) : Option (List (BitVec 16)) := do
  let first ← envQ8.head?
  rootsFrom (firstRes first) envQ8

/-! ## One step -/

/-- What a quotient and the value before it stay in, for the root to keep its sign. -/
structure Positive (s x : Int) : Prop where
  low : 1 ≤ x
  high : x ≤ 2 ^ 30
  fits : ¬ (x = 1 ∧ s = 2 ^ 31 - 1)

structure Negative (x : Int) : Prop where
  low : -2 ^ 30 ≤ x
  high : x ≤ -1

variable {s x : Int} {start : Int}

theorem newton_of_fits (hs : 0 ≤ s) (hx : x ≠ 0) (hlow : -2 ^ 31 ≤ s.tdiv x + x)
    (hhigh : s.tdiv x + x < 2 ^ 31) : newton s x = some ((s.tdiv x + x) / 2) := by
  have hdefined : ¬ (x = 0 ∨ (s = -2 ^ 31 ∧ x = -1)) := by omega
  simp only [newton, splDiv, if_neg hdefined, Option.bind_eq_bind, Option.bind_some,
    int32_of_fits hlow hhigh, Int.shiftRight_eq_div_pow]
  rfl

theorem newton_positive (hs : 0 < s) (hword : s < 2 ^ 31) (h : Positive s x) :
    newton s x = some ((s / x + x) / 2) ∧ Positive s ((s / x + x) / 2) := by
  obtain ⟨hlow, hhigh, hfits⟩ := h
  have hdiv : s.tdiv x = s / x := Int.tdiv_eq_ediv_of_nonneg hs.le
  have hnonneg : 0 ≤ s / x := Int.ediv_nonneg hs.le (by omega)
  have hbound : s / x + x ≤ 2 ^ 31 - 1 := by
    rcases Int.lt_or_eq_of_le hlow with htwo | rfl
    · have hhalf : s / x < 2 ^ 30 := Int.ediv_lt_of_lt_mul (by omega) (by omega)
      omega
    · rw [Int.ediv_one]
      omega
  have hleast : 2 ≤ s / x + x := by
    rcases Int.lt_or_eq_of_le hlow with htwo | rfl
    · omega
    · rw [Int.ediv_one]
      omega
  have hnext := newton_of_fits hs.le (x := x) (by omega) (by omega) (by omega)
  rw [hdiv] at hnext
  refine ⟨hnext, by omega, by omega, fun ⟨hone, hlast⟩ => ?_⟩
  have hsmall : x ≤ 3 := by omega
  subst hlast
  interval_cases x <;> omega

theorem newton_negative (hs : 0 < s) (hword : s < 2 ^ 31) (h : Negative x) :
    newton s x = some ((-(s / -x) + x) / 2) ∧ Negative ((-(s / -x) + x) / 2) := by
  obtain ⟨hlow, hhigh⟩ := h
  have hdiv : s.tdiv x = -(s / -x) := by
    rw [← Int.tdiv_eq_ediv_of_nonneg hs.le, Int.tdiv_neg, Int.neg_neg]
  have hnonneg : 0 ≤ s / -x := Int.ediv_nonneg hs.le (by omega)
  have hbound : s / -x - x ≤ 2 ^ 31 := by
    rcases Int.lt_or_eq_of_le hhigh with htwo | rfl
    · have hhalf : s / -x < 2 ^ 30 := Int.ediv_lt_of_lt_mul (by omega) (by omega)
      omega
    · rw [Int.neg_neg, Int.ediv_one]
      omega
  have hleast : 2 ≤ s / -x - x := by
    rcases Int.lt_or_eq_of_le hhigh with htwo | rfl
    · omega
    · rw [Int.neg_neg, Int.ediv_one]
      omega
  have hnext := newton_of_fits hs.le (x := x) (by omega) (by omega) (by omega)
  rw [hdiv] at hnext
  exact ⟨hnext, by omega, by omega⟩

/-- What one step keeps, the loop keeps. -/
theorem newtonLoop_ok {P : Int → Prop} (hstep : ∀ x, P x → ∃ y, newton s x = some y ∧ P y)
    (i : Nat) (hx : P x) :
    ∃ res newRes, newtonLoop i s x = some (res, newRes) ∧ P res ∧ newton s res = some newRes := by
  induction i generalizing x with
  | zero =>
    obtain ⟨y, hy, -⟩ := hstep x hx
    exact ⟨x, y, by simp [newtonLoop, hy], hx, hy⟩
  | succ i ih =>
    obtain ⟨y, hy, hnext⟩ := hstep x hx
    by_cases hstop : y = x
    · exact ⟨x, y, by simp [newtonLoop, hy, hstop], hx, hy⟩
    · obtain ⟨res, newRes, hloop, hkept, hlast⟩ := ih hnext
      exact ⟨res, newRes, by simp [newtonLoop, hy, hstop, hloop], hkept, hlast⟩

/-! ## The root of an entry -/

/-- The step from 1 that overflows. -/
def Overflows (inSqrt start : Int) : Prop := start = 1 ∧ inSqrt.natAbs = 2 ^ 31 - 1

/-- The magnitude of an entry. -/
theorem magnitude_eq (hlow : -2 ^ 31 < x) (hhigh : x < 2 ^ 31) :
    (if x < 0 then int32 (-x) else x) = (x.natAbs : Int) := by
  split
  · rw [int32_of_fits (by omega) (by omega)]
    omega
  · omega

/-- A sign that Newton's iteration keeps is the root's. -/
theorem squareRoot_keeps {inSqrt : Int} (hlow : -2 ^ 31 < inSqrt) (hhigh : inSqrt < 2 ^ 31)
    {P : Int → Prop} (hstep : ∀ x, P x → ∃ y, newton (inSqrt.natAbs : Int) x = some y ∧ P y)
    (hstart : P start) :
    ∃ res newRes, squareRoot inSqrt start = some (res, newRes) ∧
      P res ∧ newton inSqrt.natAbs res = some newRes := by
  obtain ⟨first, hfirst, hkept⟩ := hstep start hstart
  obtain ⟨res, newRes, hloop, hres, hlast⟩ := newtonLoop_ok hstep 10 hkept
  refine ⟨res, newRes, ?_, hres, hlast⟩
  simp only [squareRoot, magnitude_eq hlow hhigh, hfirst, hloop, Option.bind_eq_bind,
    Option.bind_some]

/-- The step that overflows makes the root negative, and its iteration does not stop. -/
theorem squareRoot_overflows {inSqrt : Int} (h : Overflows inSqrt start) :
    squareRoot inSqrt start = some (-1049258, -525652) := by
  obtain ⟨rfl, hword⟩ := h
  rcases Int.natAbs_eq inSqrt with heq | heq
  · rw [heq, hword]
    decide
  · rw [heq, hword]
    decide

/-! ## Fixed points -/

theorem fixed_positive (hs : 0 < s) (hword : s < 2 ^ 31) (h : Positive s x)
    (hfixed : newton s x = some x) : x * x ≤ s ∧ s < x * (x + 2) := by
  have hpos : 0 < x := by have := h.low; omega
  have hnext := (newton_positive hs hword h).1.symm.trans hfixed
  have hhalf : (s / x + x) / 2 = x := Option.some.inj hnext
  have hleast : x ≤ s / x := by omega
  have hmost : s / x < x + 2 := by omega
  exact ⟨(Int.le_ediv_iff_mul_le hpos).mp hleast,
    (Int.ediv_lt_iff_lt_mul hpos).mp hmost |>.trans_eq (Int.mul_comm _ _)⟩

theorem fixed_negative (hs : 0 < s) (hword : s < 2 ^ 31) (h : Negative x)
    (hfixed : newton s x = some x) : -x * (-x - 1) ≤ s ∧ s < -x * (-x + 1) := by
  have hpos : 0 < -x := by have := h.high; omega
  have hnext := (newton_negative hs hword h).1.symm.trans hfixed
  have hhalf : (-(s / -x) + x) / 2 = x := Option.some.inj hnext
  have hleast : -x - 1 ≤ s / -x := by omega
  have hmost : s / -x < -x + 1 := by omega
  exact ⟨((Int.mul_comm _ _).trans_le ((Int.le_ediv_iff_mul_le hpos).mp hleast)),
    (Int.ediv_lt_iff_lt_mul hpos).mp hmost |>.trans_eq (Int.mul_comm _ _)⟩

/-- Within 1 of the square root, in integers. -/
theorem near_iff (n s : Nat) : |((n + 1 : Nat) : ℝ) - √(s : ℝ)| ≤ 1 ↔
    n * n ≤ s ∧ s ≤ (n + 2) * (n + 2) := by
  have hlow : (n : ℝ) ≤ √(s : ℝ) ↔ n * n ≤ s := by
    rw [Real.le_sqrt (by positivity) (by positivity), ← pow_two]
    exact_mod_cast Iff.rfl
  have hhigh : √(s : ℝ) ≤ n + 2 ↔ s ≤ (n + 2) * (n + 2) := by
    rw [Real.sqrt_le_left (by positivity), ← pow_two]
    exact_mod_cast Iff.rfl
  rw [abs_sub_le_iff, ← hlow, ← hhigh]
  push_cast
  constructor
  · rintro ⟨hleft, hright⟩
    constructor <;> linarith
  · rintro ⟨hleft, hright⟩
    constructor <;> linarith

/-! ## The roots of all entries -/

/-- An entry, and the values of `res` before and after its loop. -/
structure Iteration where
  inSqrt : Int
  start : Int
  res : Int
  newRes : Int
deriving DecidableEq

namespace Iteration

def root (it : Iteration) : BitVec 16 := BitVec.ofInt 16 it.newRes

/-- The loop ended before its limit. -/
def Stopped (it : Iteration) : Prop := it.newRes = it.res

/-- Where the loop stopped, the root is within 1 of the square root. -/
def Accurate (it : Iteration) : Prop :=
  it.Stopped → |(it.root.toNat : ℝ) - √(it.inSqrt.natAbs : ℝ)| ≤ 1

/-- The magnitudes whose negative root is the root, modulo 2¹⁶. -/
def Symmetric (it : Iteration) : Prop :=
  2 ^ 30 - 2 ^ 15 ≤ it.inSqrt.natAbs ∧ it.inSqrt.natAbs < 2 ^ 30 + 2 ^ 15

end Iteration

def iterations : Int → List Int → Option (List Iteration)
  | _, [] => some []
  | start, inSqrt :: env => do
    let (res, newRes) ← squareRoot inSqrt start
    let rest ← iterations res env
    some (⟨inSqrt, start, res, newRes⟩ :: rest)

theorem rootsFrom_eq (start : Int) (env : List Int) :
    rootsFrom start env = (iterations start env).map (List.map Iteration.root) := by
  induction env generalizing start with
  | nil => rfl
  | cons inSqrt env ih =>
    simp only [rootsFrom, iterations, Option.bind_eq_bind, Option.map_eq_bind, Option.bind_assoc,
      ih]
    rfl

variable {it : Iteration}

/-- A positive root is accurate. -/
theorem accurate_positive (hs : 0 < it.inSqrt.natAbs) (hword : it.inSqrt.natAbs < 2 ^ 31)
    (hres : Positive it.inSqrt.natAbs it.res)
    (hlast : newton it.inSqrt.natAbs it.res = some it.newRes) : it.Accurate := by
  intro hstopped
  rw [hstopped] at hlast
  obtain ⟨hlow, hhigh⟩ := fixed_positive (by omega) (by omega) hres hlast
  have hone := hres.low
  obtain ⟨n, hn⟩ : ∃ n : Nat, it.res = n + 1 := ⟨(it.res - 1).toNat, by omega⟩
  have hsmall : n < 2 ^ 16 - 1 := by
    by_contra hlarge
    have hge : ((2 : Int) ^ 16) * (2 ^ 16) ≤ it.res * it.res :=
      Int.mul_le_mul (by omega) (by omega) (by omega) (by omega)
    omega
  have hroot : it.root.toNat = n + 1 := by
    unfold Iteration.root
    rw [hstopped, hn, show ((n : Int) + 1) = ((n + 1 : Nat) : Int) by omega, BitVec.ofInt_natCast,
      BitVec.toNat_ofNat, Nat.mod_eq_of_lt (by omega)]
  rw [hroot, near_iff]
  rw [hn] at hlow hhigh
  generalize it.inSqrt.natAbs = s at hlow hhigh ⊢
  constructor
  · zify
    nlinarith
  · zify
    nlinarith

/-- A negative one only near 2³⁰. -/
theorem accurate_negative_iff (hs : 0 < it.inSqrt.natAbs) (hword : it.inSqrt.natAbs < 2 ^ 31)
    (hres : Negative it.res) (hlast : newton it.inSqrt.natAbs it.res = some it.newRes) :
    it.Accurate ↔ (it.Stopped → it.Symmetric) := by
  unfold Iteration.Accurate
  refine forall_congr' fun hstopped => ?_
  rw [hstopped] at hlast
  obtain ⟨hlow, hhigh⟩ := fixed_negative (by omega) (by omega) hres hlast
  have hone := hres.high
  obtain ⟨n, hn⟩ : ∃ n : Nat, it.res = -(n + 1) := ⟨(-it.res - 1).toNat, by omega⟩
  have hsmall : n < 46342 := by
    by_contra hlarge
    have hge : (46342 : Int) * 46341 ≤ -it.res * (-it.res - 1) :=
      Int.mul_le_mul (by omega) (by omega) (by omega) (by omega)
    omega
  have hroot : it.root.toNat = 2 ^ 16 - 2 - n + 1 := by
    unfold Iteration.root
    rw [hstopped, hn, BitVec.toNat_ofInt]
    omega
  rw [hroot, near_iff]
  unfold Iteration.Symmetric
  rw [hn, Int.neg_neg] at hlow hhigh
  rw [Int.add_sub_cancel] at hlow
  generalize it.inSqrt.natAbs = s at hs hword hlow hhigh ⊢
  have hlow' : (n + 1) * n ≤ s := by exact_mod_cast hlow
  have hhigh' : s < (n + 1) * (n + 2) := by exact_mod_cast hhigh
  rcases Nat.lt_trichotomy n (2 ^ 15 - 1) with hless | rfl | hmore
  · have hbelow : (n + 1) * (n + 2) ≤ (2 ^ 15 - 1) * 2 ^ 15 := Nat.mul_le_mul (by omega) (by omega)
    have habove : 2 ^ 15 * 2 ^ 15 ≤ (2 ^ 16 - 2 - n) * (2 ^ 16 - 2 - n) :=
      Nat.mul_le_mul (by omega) (by omega)
    omega
  · omega
  · have habove : (2 ^ 15 + 1) * 2 ^ 15 ≤ (n + 1) * n := Nat.mul_le_mul (by omega) (by omega)
    have hbelow : (2 ^ 16 - 2 - n + 2) * (2 ^ 16 - 2 - n + 2) ≤ 2 ^ 15 * 2 ^ 15 :=
      Nat.mul_le_mul (by omega) (by omega)
    omega

/-- The entries of an envelope whose roots are defined. -/
def Regular (env : List Int) : Prop := ∀ x ∈ env, x ≠ 0 ∧ -2 ^ 31 < x ∧ x < 2 ^ 31

/-- From a negative value all roots are negative. -/
theorem iterations_negative {env : List Int} (henv : Regular env) (hstart : Negative start) :
    ∃ its, iterations start env = some its ∧ its.map Iteration.inSqrt = env ∧
      (∀ it ∈ its, ¬ Overflows it.inSqrt it.start) ∧
      ∀ it ∈ its, it.Accurate ↔ (it.Stopped → it.Symmetric) := by
  induction env generalizing start with
  | nil => exact ⟨[], rfl, rfl, by simp, by simp⟩
  | cons inSqrt env ih =>
    obtain ⟨hzero, hlow, hhigh⟩ := henv inSqrt List.mem_cons_self
    obtain ⟨res, newRes, hroot, hres, hlast⟩ := squareRoot_keeps hlow hhigh
      (fun x hx => ⟨_, newton_negative (by omega) (by omega) hx⟩) hstart
    obtain ⟨its, hits, hmap, hnone, haccurate⟩ :=
      ih (fun x hx => henv x (List.mem_cons_of_mem _ hx)) hres
    refine ⟨⟨inSqrt, start, res, newRes⟩ :: its, by simp [iterations, hroot, hits],
      by simp [hmap], ?_, ?_⟩
    · intro it hit
      rcases List.mem_cons.mp hit with rfl | hit
      · have hsign := hstart.high
        exact fun h => absurd h.1 (by dsimp only; omega)
      · exact hnone it hit
    · intro it hit
      rcases List.mem_cons.mp hit with rfl | hit
      · exact accurate_negative_iff (by dsimp only; omega) (by dsimp only; omega) hres hlast
      · exact haccurate it hit

/-- From a positive value they are accurate until a step overflows. -/
theorem iterations_positive {env : List Int} (henv : Regular env) (hlow : 1 ≤ start)
    (hhigh : start ≤ 2 ^ 30) :
    ∃ its, iterations start env = some its ∧ its.map Iteration.inSqrt = env ∧
      ((∀ it ∈ its, it.Accurate) ↔
        its.Pairwise fun a b => Overflows a.inSqrt a.start → b.Stopped → b.Symmetric) := by
  induction env generalizing start with
  | nil => exact ⟨[], rfl, rfl, by simp⟩
  | cons inSqrt env ih =>
    obtain ⟨hzero, hmin, hmax⟩ := henv inSqrt List.mem_cons_self
    have hrest : Regular env := fun x hx => henv x (List.mem_cons_of_mem _ hx)
    by_cases hover : Overflows inSqrt start
    · have hroot := squareRoot_overflows hover
      obtain ⟨its, hits, hmap, hnone, haccurate⟩ :=
        iterations_negative hrest (show Negative (-1049258) from ⟨by decide, by decide⟩)
      refine ⟨⟨inSqrt, start, -1049258, -525652⟩ :: its, by simp [iterations, hroot, hits],
        by simp [hmap], ?_⟩
      have hfirst : (⟨inSqrt, start, -1049258, -525652⟩ : Iteration).Accurate := fun hstopped =>
        absurd hstopped (show (-525652 : Int) ≠ -1049258 by decide)
      have hlater : its.Pairwise fun a b =>
          Overflows a.inSqrt a.start → b.Stopped → b.Symmetric :=
        List.pairwise_of_forall_mem_list fun a ha b _ h => absurd h (hnone a ha)
      rw [List.forall_mem_cons, List.pairwise_cons]
      constructor
      · rintro ⟨-, hall⟩
        exact ⟨fun b hb _ => (haccurate b hb).mp (hall b hb), hlater⟩
      · rintro ⟨hall, -⟩
        exact ⟨hfirst, fun b hb => (haccurate b hb).mpr (hall b hb hover)⟩
    · have hstart : Positive inSqrt.natAbs start := ⟨hlow, hhigh, fun ⟨hone, hword⟩ =>
        hover ⟨hone, by omega⟩⟩
      obtain ⟨res, newRes, hroot, hres, hlast⟩ := squareRoot_keeps hmin hmax
        (fun x hx => ⟨_, newton_positive (by omega) (by omega) hx⟩) hstart
      obtain ⟨its, hits, hmap, hiff⟩ := ih hrest hres.low hres.high
      refine ⟨⟨inSqrt, start, res, newRes⟩ :: its, by simp [iterations, hroot, hits],
        by simp [hmap], ?_⟩
      have hfirst : (⟨inSqrt, start, res, newRes⟩ : Iteration).Accurate :=
        accurate_positive (by dsimp only; omega) (by dsimp only; omega) hres hlast
      rw [List.forall_mem_cons, List.pairwise_cons, hiff]
      exact ⟨fun h => ⟨fun _ _ hnow => absurd hnow hover, h.2⟩, fun h => ⟨hfirst, h.2⟩⟩

theorem getSizeInBits_le (n : BitVec 32) : getSizeInBits n ≤ 32 := by
  unfold getSizeInBits
  dsimp only
  split <;> split <;> split <;> split <;> split <;> split <;> decide

theorem firstRes_range (inSqrt : Int) : 1 ≤ firstRes inSqrt ∧ firstRes inSqrt ≤ 2 ^ 30 := by
  have hbits := getSizeInBits_le (BitVec.ofInt 32 inSqrt)
  unfold firstRes
  rw [Int.shiftLeft_eq, Int.one_mul, Nat.shiftRight_eq_div_pow]
  have hpow : 2 ^ (getSizeInBits (BitVec.ofInt 32 inSqrt) / 2 ^ 1) ≤ 2 ^ 16 :=
    Nat.pow_le_pow_right (by decide) (by omega)
  have hpos : 0 < 2 ^ (getSizeInBits (BitVec.ofInt 32 inSqrt) / 2 ^ 1) := Nat.pow_pos (by decide)
  have hcast : (2 : Int) ^ (getSizeInBits (BitVec.ofInt 32 inSqrt) / 2 ^ 1) =
      ((2 ^ (getSizeInBits (BitVec.ofInt 32 inSqrt) / 2 ^ 1) : Nat) : Int) := by push_cast; rfl
  rw [hcast]
  omega

end PerchWebrtc.Isac
