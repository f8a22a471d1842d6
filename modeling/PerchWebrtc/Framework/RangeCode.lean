import Mathlib

/-!
# Range codes

A code is a sequence of digits to a base, read as the digits of a number. A range coder keeps
an interval from `v` to `v + w` of numbers with one more digit after each shift; a code
belongs to it if its first digits lie in the interval.

* `value_add_div`, `value_pairs`: fewer digits, and digits to the square of the base;
* `Within.unshift`: what a code in a later interval says of the earlier one.
-/

namespace PerchWebrtc.RangeCode

variable {b : Nat} {d d' : Nat → Nat}

/-- The first `n` digits, as a number. -/
def value (b : Nat) (d : Nat → Nat) : Nat → Nat
  | 0 => 0
  | n + 1 => value b d n * b + d n

theorem value_congr {n : Nat} (h : ∀ i < n, d i = d' i) : value b d n = value b d' n := by
  induction n with
  | zero => rfl
  | succ n ih =>
    rw [value, value, ih fun i hi => h i (Nat.lt_succ_of_lt hi), h n (Nat.lt_succ_self n)]

/-- Without the last `k` digits. -/
theorem value_add_div (hd : ∀ i, d i < b) (n k : Nat) :
    value b d (n + k) / b ^ k = value b d n := by
  induction k with
  | zero => simp
  | succ k ih =>
    have hb : 0 < b := Nat.lt_of_le_of_lt (Nat.zero_le _) (hd 0)
    have hlast : (value b d (n + k) * b + d (n + k)) / b = value b d (n + k) := by
      rw [Nat.mul_comm, Nat.mul_add_div hb, Nat.div_eq_of_lt (hd _), Nat.add_zero]
    rw [Nat.pow_succ', ← Nat.div_div_eq_div_mul]
    show (value b d (n + k) * b + d (n + k)) / b / b ^ k = value b d n
    rw [hlast, ih]

/-- Two digits are one to the square of the base. -/
theorem value_pairs (n : Nat) :
    value b d (2 * n) = value (b * b) (fun i => d (2 * i) * b + d (2 * i + 1)) n := by
  induction n with
  | zero => rfl
  | succ n ih =>
    show (value b d (2 * n) * b + d (2 * n)) * b + d (2 * n + 1) = _
    rw [value, ih]
    ring

/-- A code whose first digits lie between `v` and `v + w`. -/
structure Within (x v w : Nat) : Prop where
  low : v ≤ x
  high : x ≤ v + w

variable {x v w : Nat}

/-- The digit that a shift adds. -/
theorem Within.unshift (hb : 0 < b) (h : Within x (v * b) (w * b)) : Within (x / b) v w where
  low := (Nat.le_div_iff_mul_le hb).mpr h.low
  high := by
    have hle : x / b * b ≤ (v + w) * b := by
      calc x / b * b ≤ x := Nat.div_mul_le_self x b
        _ ≤ v * b + w * b := h.high
        _ = (v + w) * b := (Nat.add_mul v w b).symm
    exact Nat.le_of_mul_le_mul_right hle hb

theorem Within.unshifts (hb : 0 < b) (j : Nat) (h : Within x (v * b ^ j) (w * b ^ j)) :
    Within (x / b ^ j) v w :=
  Within.unshift (b := b ^ j) (Nat.pow_pos hb) h

/-- The interval above `lo` and up to `hi`. -/
theorem Within.narrow {lo hi : Nat} (hlt : lo < hi) (h : Within x (v + lo + 1) (hi - lo - 1)) :
    v + lo < x ∧ x ≤ v + hi := by
  have hlow := h.low
  have hhigh := h.high
  omega

end PerchWebrtc.RangeCode
