import Mathlib

/-!
# Integers of 32 bits

The value of an `int` expression, as a machine computes it: the sum or the product wraps around.
-/

namespace PerchWebrtc

def int32 (x : Int) : Int := x.bmod (2 ^ 32)

theorem int32_of_fits {x : Int} (hlow : -2 ^ 31 ≤ x) (hhigh : x < 2 ^ 31) : int32 x = x :=
  Int.bmod_eq_of_le (by omega) (by omega)

theorem int32_le {x : Int} (h : 0 ≤ x) : int32 x ≤ x := by
  unfold int32
  rw [Int.bmod_eq_emod]
  omega

end PerchWebrtc
