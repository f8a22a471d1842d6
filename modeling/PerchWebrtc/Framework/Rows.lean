import PerchWebrtc.Framework.Bytes

/-!
# Rows of bytes

Memory that holds a table, one row of `stride` bytes after the other, and
loops over its rows.

* `row_set_self`, `row_set_other`: what a write to one row does to every row;
* `foldl_rows`: a loop whose rounds each change their own row.
-/

namespace PerchWebrtc

namespace Mem

/-- The bytes of a row, with zeros after them. -/
def row (m : Mem) (stride r : Nat) : Mem := fun j => if j < stride then m (r * stride + j) else 0

variable {stride : Nat}

theorem row_index_ne {r r' i j : Nat} (hne : r ≠ r') (hi : i < stride) (hj : j < stride) :
    r * stride + i ≠ r' * stride + j := by
  rcases Nat.lt_or_gt_of_ne hne with h | h
  · have : (r + 1) * stride ≤ r' * stride := Nat.mul_le_mul_right _ h
    rw [Nat.succ_mul] at this
    omega
  · have : (r' + 1) * stride ≤ r * stride := Nat.mul_le_mul_right _ h
    rw [Nat.succ_mul] at this
    omega

theorem row_set_self (m : Mem) {r b : Nat} (v : Byte) (hb : b < stride) :
    (m.set (r * stride + b) v).row stride r = (m.row stride r).set b v := by
  funext j
  unfold row set
  by_cases hj : j = b
  · rw [hj, if_pos hb, if_pos rfl, if_pos rfl]
  · have hne : ¬ r * stride + j = r * stride + b := by omega
    simp only [if_neg hj, if_neg hne]

theorem row_set_other (m : Mem) {r r' b : Nat} (v : Byte) (hne : r ≠ r') (hb : b < stride) :
    (m.set (r * stride + b) v).row stride r' = m.row stride r' := by
  funext j
  unfold row
  split
  · rename_i hj
    exact set_of_ne _ _ (row_index_ne hne.symm hj hb)
  · rfl

theorem row_apply (m : Mem) {r j : Nat} (hj : j < stride) :
    m.row stride r j = m (r * stride + j) := if_pos hj

end Mem

/-- In a loop over the rows, each round changes only what is seen of its own
row. -/
theorem foldl_rows {σ ρ : Type*} (view : σ → Nat → ρ) (step : σ → Nat → σ) (f : Nat → ρ → ρ)
    (hself : ∀ s r, view (step s r) r = f r (view s r))
    (hother : ∀ s r r', r ≠ r' → view (step s r) r' = view s r') (n : Nat) (s : σ) (r : Nat) :
    view ((List.range n).foldl step s) r = if r < n then f r (view s r) else view s r := by
  induction n with
  | zero => rfl
  | succ n ih =>
    rw [List.range_succ, List.foldl_append, List.foldl_cons, List.foldl_nil]
    by_cases hr : r = n
    · subst hr
      rw [hself, ih, if_neg (Nat.lt_irrefl _), if_pos (Nat.lt_succ_self _)]
    · rw [hother _ _ _ (Ne.symm hr), ih]
      exact if_congr (by omega) rfl rfl

end PerchWebrtc
