import Mathlib

/-!
# The XOR of a list of words
-/

namespace PerchWebrtc

variable {w : Nat}

def xorAll (l : List (BitVec w)) : BitVec w := l.foldr (· ^^^ ·) 0#w

@[simp]
theorem xorAll_nil : xorAll ([] : List (BitVec w)) = 0#w := rfl

@[simp]
theorem xorAll_cons (x : BitVec w) (l : List (BitVec w)) : xorAll (x :: l) = x ^^^ xorAll l := rfl

theorem xorAll_concat (l : List (BitVec w)) (x : BitVec w) : xorAll (l ++ [x]) = xorAll l ^^^ x := by
  induction l with
  | nil => rw [List.nil_append, xorAll_cons, xorAll_nil, BitVec.xor_comm]
  | cons y l ih => rw [List.cons_append, xorAll_cons, xorAll_cons, ih, BitVec.xor_assoc]

theorem xorAll_eq_zero {l : List (BitVec w)} (h : ∀ x ∈ l, x = 0#w) : xorAll l = 0#w := by
  induction l with
  | nil => rfl
  | cons x l ih =>
    rw [xorAll_cons, h x List.mem_cons_self, ih fun y hy => h y (List.mem_cons_of_mem _ hy),
      BitVec.xor_self]

/-- A word is taken out of a XOR by another XOR with the rest. -/
theorem xor_xor_cancel (x y : BitVec w) : (x ^^^ y) ^^^ x = y := by
  rw [BitVec.xor_comm x y, BitVec.xor_assoc, BitVec.xor_self, BitVec.xor_zero]

end PerchWebrtc
