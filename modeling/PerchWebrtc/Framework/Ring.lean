import PerchWebrtc.Framework.Bytes

/-!
# Memory as a ring

A block of memory from the first address on whose end is joined to its start: it is read and
written in at most two copies.

* `bytes_ring`: what two copies out of the ring give;
* `ring_copyRing`: what two copies into it change, seen from any place.
-/

namespace PerchWebrtc.Mem

/-- The byte at a distance from a place of the ring. -/
def ring (m : Mem) (length start i : ℕ) : Byte := m ((start + i) % length)

/-- `n` bytes copied to a place of the ring, those behind its end to its start. -/
def copyRing (m : Mem) (length start : ℕ) (data : Mem) (n : ℕ) : Mem :=
  (m.copy start data 0 (min n (length - start))).copy 0 data (min n (length - start))
    (n - min n (length - start))

variable {m data : Mem} {length start n i : ℕ}

theorem copyRing_of_le (h : n ≤ length - start) :
    m.copyRing length start data n = m.copy start data 0 n := by
  rw [copyRing, min_eq_left h, Nat.sub_self]
  funext i
  exact copy_outside _ _ (by omega)

theorem ring_mod_add (m : Mem) (length start offset i : ℕ) :
    m.ring length ((start + offset) % length) i = m.ring length start (offset + i) := by
  rw [ring, ring, Nat.mod_add_mod, Nat.add_assoc]

theorem ring_add_length (m : Mem) (length start i : ℕ) :
    m.ring length start (length + i) = m.ring length start i := by
  rw [ring, ring, Nat.add_left_comm, Nat.add_mod_left]

/-- Up to the end of the block, the ring is the memory. -/
theorem ring_of_lt (h : start + i < length) : m.ring length start i = m (start + i) := by
  rw [ring, Nat.mod_eq_of_lt h]

theorem ring_of_ge (h : length ≤ start + i) (hstart : start < length) (hi : i < length) :
    m.ring length start i = m (i - (length - start)) := by
  rw [ring, Nat.mod_eq_sub_mod h, Nat.mod_eq_of_lt (by omega)]
  congr 1
  omega

theorem bytes_ring (hstart : start < length) (hn : n ≤ length) :
    m.bytes start (min n (length - start)) ++ m.bytes 0 (n - min n (length - start)) =
      (List.range n).map (m.ring length start) := by
  have hsplit : n = min n (length - start) + (n - min n (length - start)) := by omega
  have htail : m.bytes start (min n (length - start)) =
      (List.range (min n (length - start))).map (m.ring length start) := by
    refine List.map_congr_left fun i hi => (ring_of_lt ?_).symm
    have hi := List.mem_range.mp hi
    omega
  have hhead : m.bytes 0 (n - min n (length - start)) =
      (List.range (n - min n (length - start))).map
        fun i => m.ring length start (min n (length - start) + i) := by
    refine List.map_congr_left fun i hi => ?_
    have hi := List.mem_range.mp hi
    rw [ring_of_ge (by omega) hstart (by omega)]
    congr 1
    omega
  conv_rhs => rw [hsplit, List.range_add, List.map_append, List.map_map]
  rw [htail, hhead]
  rfl

/-- From the place that is written to. -/
theorem ring_copyRing_self (hstart : start < length) (hn : n ≤ length) (hi : i < length) :
    (m.copyRing length start data n).ring length start i =
      if i < n then data i else m.ring length start i := by
  rw [copyRing]
  by_cases hwrap : start + i < length
  · rw [ring_of_lt hwrap, ring_of_lt hwrap, copy_outside _ _ (by omega)]
    by_cases hin : i < n
    · rw [if_pos hin, copy_inside _ _ (by omega) (by omega)]
      congr 1
      omega
    · rw [if_neg hin, copy_outside _ _ (by omega)]
  · have hge : length ≤ start + i := Nat.not_lt.mp hwrap
    rw [ring_of_ge hge hstart hi, ring_of_ge hge hstart hi]
    by_cases hin : i < n
    · rw [if_pos hin, copy_inside _ _ (by omega) (by omega)]
      congr 1
      omega
    · rw [if_neg hin, copy_outside _ _ (by omega), copy_outside _ _ (by omega)]

theorem ring_copyRing {offset : ℕ} (hfits : offset + n ≤ length) (hi : i < length) :
    (m.copyRing length ((start + offset) % length) data n).ring length start i =
      if offset ≤ i ∧ i < offset + n then data (i - offset) else m.ring length start i := by
  have hplace : (start + offset) % length < length := Nat.mod_lt _ (by omega)
  -- The distance from the place that is written to, where the ring may have been passed once.
  have hseen : ∀ m' : Mem, m'.ring length start i = m'.ring length ((start + offset) % length)
      (if offset ≤ i then i - offset else length + i - offset) := by
    intro m'
    rw [ring_mod_add]
    split
    case isTrue hle => rw [Nat.add_sub_cancel' hle]
    case isFalse => rw [show offset + (length + i - offset) = length + i by omega, ring_add_length]
  rw [hseen, hseen m, ring_copyRing_self hplace (by omega) (by split <;> omega)]
  by_cases hle : offset ≤ i
  · rw [if_pos hle]
    by_cases hlt : i < offset + n
    · rw [if_pos (by omega), if_pos ⟨hle, hlt⟩]
    · rw [if_neg (by omega), if_neg (by omega)]
  · rw [if_neg hle, if_neg (by omega), if_neg (by omega)]

end PerchWebrtc.Mem
