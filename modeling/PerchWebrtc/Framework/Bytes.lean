import Mathlib

/-!
# Byte memory and network byte order

Memory is a function from addresses to bytes; a buffer is memory together
with the number of its bytes that are valid, so that a read outside a buffer
still has a value and every claim about bounds is about the addresses read.

* `byte_ext`, `forall_bits`: a byte by its eight bits;
* `be16`, `be24`, `be32`: the big-endian words at an address;
* `set16`, `set24`, `set32`: writing them, and what each leaves unchanged;
* `Mem.bytes`: a block as a list; `bytes_eq_iff`, `bytes_add`;
* `addrs`: the addresses of a block, for read logs.
-/

namespace PerchWebrtc

abbrev Byte := BitVec 8
abbrev Mem := Nat → Byte

theorem byte_ext {x y : Byte} (h : ∀ i < 8, x.getLsbD i = y.getLsbD i) : x = y :=
  BitVec.eq_of_getLsbD_eq h

theorem forall_bits {p : ℕ → Prop} (h : p 0 ∧ p 1 ∧ p 2 ∧ p 3 ∧ p 4 ∧ p 5 ∧ p 6 ∧ p 7) :
    ∀ i < 8, p i := by
  obtain ⟨h0, h1, h2, h3, h4, h5, h6, h7⟩ := h
  intro i hi
  have hcases : i = 0 ∨ i = 1 ∨ i = 2 ∨ i = 3 ∨ i = 4 ∨ i = 5 ∨ i = 6 ∨ i = 7 := by omega
  rcases hcases with rfl | rfl | rfl | rfl | rfl | rfl | rfl | rfl <;> assumption

namespace Mem

/-- Memory with byte `v` written at `p`. -/
def set (m : Mem) (p : Nat) (v : Byte) : Mem := fun i => if i = p then v else m i

/-- Memory with `n` bytes of `src` from `s` copied to `d`. -/
def copy (m : Mem) (d : Nat) (src : Mem) (s n : Nat) : Mem :=
  fun i => if d ≤ i ∧ i < d + n then src (s + (i - d)) else m i

/-- Memory with `n` bytes of `src` from `s` XORed into the bytes from `d`. -/
def xor (m : Mem) (d : Nat) (src : Mem) (s n : Nat) : Mem :=
  fun i => if d ≤ i ∧ i < d + n then m i ^^^ src (s + (i - d)) else m i

/-- The memory that holds the bytes of a list, and zeros after them. -/
def ofList (bs : List Byte) : Mem := fun i => bs.getD i 0

/-- The `n` bytes from `p`. -/
def bytes (m : Mem) (p n : Nat) : List Byte := (List.range n).map fun i => m (p + i)

theorem set_self (m : Mem) (p : Nat) (v : Byte) : m.set p v p = v := if_pos rfl

theorem set_of_ne (m : Mem) {p i : Nat} (v : Byte) (h : i ≠ p) : m.set p v i = m i := if_neg h

theorem copy_inside (m src : Mem) {d s n i : Nat} (h : d ≤ i) (h' : i < d + n) :
    m.copy d src s n i = src (s + (i - d)) := if_pos ⟨h, h'⟩

theorem copy_outside (m src : Mem) {d s n i : Nat} (h : i < d ∨ d + n ≤ i) :
    m.copy d src s n i = m i := if_neg (by omega)

theorem bytes_length (m : Mem) (p n : Nat) : (m.bytes p n).length = n := by simp [bytes]

theorem bytes_eq_iff {m m' : Mem} {p p' n : Nat} :
    m.bytes p n = m'.bytes p' n ↔ ∀ i < n, m (p + i) = m' (p' + i) := by
  simp only [bytes, List.map_inj_left, List.mem_range]

theorem bytes_add (m : Mem) (p a b : Nat) : m.bytes p (a + b) = m.bytes p a ++ m.bytes (p + a) b := by
  simp only [bytes, List.range_add, List.map_append, List.map_map, Nat.add_assoc]
  rfl

theorem xor_inside (m src : Mem) {d s n i : Nat} (h : d ≤ i) (h' : i < d + n) :
    m.xor d src s n i = m i ^^^ src (s + (i - d)) := if_pos ⟨h, h'⟩

theorem xor_outside (m src : Mem) {d s n i : Nat} (h : i < d ∨ d + n ≤ i) :
    m.xor d src s n i = m i := if_neg (by omega)

end Mem

/-! ## Big-endian words -/

section Words

variable (m : Mem) (p : Nat) {i : Nat} {m' : Mem}

def be16 : BitVec 16 := m p ++ m (p + 1)
def be24 : BitVec 24 := m p ++ m (p + 1) ++ m (p + 2)
def be32 : BitVec 32 := m p ++ m (p + 1) ++ m (p + 2) ++ m (p + 3)

def set16 (v : BitVec 16) : Mem := (m.set p (v.extractLsb' 8 8)).set (p + 1) (v.extractLsb' 0 8)

def set24 (v : BitVec 24) : Mem :=
  ((m.set p (v.extractLsb' 16 8)).set (p + 1) (v.extractLsb' 8 8)).set (p + 2) (v.extractLsb' 0 8)

def set32 (v : BitVec 32) : Mem :=
  (((m.set p (v.extractLsb' 24 8)).set (p + 1) (v.extractLsb' 16 8)).set (p + 2)
    (v.extractLsb' 8 8)).set (p + 3) (v.extractLsb' 0 8)

theorem set16_outside (v : BitVec 16) (h : i < p ∨ p + 2 ≤ i) : set16 m p v i = m i := by
  rw [set16, Mem.set_of_ne _ _ (by omega), Mem.set_of_ne _ _ (by omega)]

theorem set24_outside (v : BitVec 24) (h : i < p ∨ p + 3 ≤ i) : set24 m p v i = m i := by
  rw [set24, Mem.set_of_ne _ _ (by omega), Mem.set_of_ne _ _ (by omega),
    Mem.set_of_ne _ _ (by omega)]

theorem set32_outside (v : BitVec 32) (h : i < p ∨ p + 4 ≤ i) : set32 m p v i = m i := by
  rw [set32, Mem.set_of_ne _ _ (by omega), Mem.set_of_ne _ _ (by omega),
    Mem.set_of_ne _ _ (by omega), Mem.set_of_ne _ _ (by omega)]

/-- The bytes of a word that is written do not depend on the memory. -/
theorem set32_inside (m' : Mem) (v : BitVec 32) (h : p ≤ i) (h' : i < p + 4) :
    set32 m p v i = set32 m' p v i := by
  simp only [set32, Mem.set]
  by_cases h3 : i = p + 3
  · rw [if_pos h3, if_pos h3]
  by_cases h2 : i = p + 2
  · rw [if_neg h3, if_neg h3, if_pos h2, if_pos h2]
  by_cases h1 : i = p + 1
  · rw [if_neg h3, if_neg h3, if_neg h2, if_neg h2, if_pos h1, if_pos h1]
  · have h0 : i = p := by omega
    rw [if_neg h3, if_neg h3, if_neg h2, if_neg h2, if_neg h1, if_neg h1, if_pos h0, if_pos h0]

theorem be16_set16 (v : BitVec 16) : be16 (set16 m p v) p = v := by
  have h : be16 (set16 m p v) p = v.extractLsb' 8 8 ++ v.extractLsb' 0 8 := by
    simp [be16, set16, Mem.set]
  rw [h, BitVec.extractLsb'_append_extractLsb'_eq_extractLsb' (show 8 = 0 + 8 from rfl),
    BitVec.extractLsb'_eq_self]

theorem be24_set24 (v : BitVec 24) : be24 (set24 m p v) p = v := by
  have h : be24 (set24 m p v) p = v.extractLsb' 16 8 ++ v.extractLsb' 8 8 ++ v.extractLsb' 0 8 := by
    simp [be24, set24, Mem.set]
  rw [h, BitVec.extractLsb'_append_extractLsb'_eq_extractLsb' (show 16 = 8 + 8 from rfl),
    BitVec.extractLsb'_append_extractLsb'_eq_extractLsb' (show 8 = 0 + 8 from rfl),
    BitVec.extractLsb'_eq_self]

theorem be32_set32 (v : BitVec 32) : be32 (set32 m p v) p = v := by
  have h : be32 (set32 m p v) p = v.extractLsb' 24 8 ++ v.extractLsb' 16 8 ++ v.extractLsb' 8 8 ++
      v.extractLsb' 0 8 := by
    simp [be32, set32, Mem.set]
  rw [h, BitVec.extractLsb'_append_extractLsb'_eq_extractLsb' (show 24 = 16 + 8 from rfl),
    BitVec.extractLsb'_append_extractLsb'_eq_extractLsb' (show 16 = 8 + 8 from rfl),
    BitVec.extractLsb'_append_extractLsb'_eq_extractLsb' (show 8 = 0 + 8 from rfl),
    BitVec.extractLsb'_eq_self]

/-- A word depends on its own bytes only. -/
theorem be16_congr {m : Mem} {p : Nat} (h : ∀ i < 2, m' (p + i) = m (p + i)) :
    be16 m' p = be16 m p := by
  simp only [be16, h 1 (by omega), show m' p = m p from h 0 (by omega)]

theorem be24_congr {m : Mem} {p : Nat} (h : ∀ i < 3, m' (p + i) = m (p + i)) :
    be24 m' p = be24 m p := by
  simp only [be24, h 1 (by omega), h 2 (by omega), show m' p = m p from h 0 (by omega)]

theorem be32_congr {m : Mem} {p : Nat} (h : ∀ i < 4, m' (p + i) = m (p + i)) :
    be32 m' p = be32 m p := by
  simp only [be32, h 1 (by omega), h 2 (by omega), h 3 (by omega), show m' p = m p from h 0 (by omega)]

theorem toNat_append_byte {w : Nat} (x : BitVec w) (b : Byte) :
    (x ++ b).toNat = x.toNat * 256 + b.toNat := by
  rw [BitVec.toNat_append, ← Nat.shiftLeft_add_eq_or_of_lt b.isLt, Nat.shiftLeft_eq]

theorem be16_toNat : (be16 m p).toNat = (m p).toNat * 256 + (m (p + 1)).toNat := by
  rw [be16, toNat_append_byte]

theorem be24_toNat :
    (be24 m p).toNat = ((m p).toNat * 256 + (m (p + 1)).toNat) * 256 + (m (p + 2)).toNat := by
  rw [be24, toNat_append_byte, toNat_append_byte]

theorem be32_toNat :
    (be32 m p).toNat = (((m p).toNat * 256 + (m (p + 1)).toNat) * 256 + (m (p + 2)).toNat) * 256 +
      (m (p + 3)).toNat := by
  rw [be32, toNat_append_byte, toNat_append_byte, toNat_append_byte]

/-- Equal words have equal bytes. -/
theorem be16_inj {m : Mem} {p : Nat} (h : be16 m p = be16 m' p) (hi : p ≤ i) (hi' : i < p + 2) :
    m i = m' i := by
  have hm := be16_toNat m p
  rw [h, be16_toNat] at hm
  apply BitVec.eq_of_toNat_eq
  obtain rfl | rfl : i = p ∨ i = p + 1 := by omega
  all_goals omega

theorem be32_inj {m : Mem} {p : Nat} (h : be32 m p = be32 m' p) (hi : p ≤ i) (hi' : i < p + 4) :
    m i = m' i := by
  have hm := be32_toNat m p
  rw [h, be32_toNat] at hm
  apply BitVec.eq_of_toNat_eq
  obtain rfl | rfl | rfl | rfl : i = p ∨ i = p + 1 ∨ i = p + 2 ∨ i = p + 3 := by omega
  all_goals omega

/-- Writing the word that is there changes nothing. -/
theorem set24_eq_self_iff (v : BitVec 24) : set24 m p v = m ↔ be24 m p = v := by
  constructor
  · intro h
    rw [← h, be24_set24]
  · intro h
    have hset := be24_toNat (set24 m p v) p
    have hm := be24_toNat m p
    rw [be24_set24, ← h, hm] at hset
    funext i
    by_cases hi : i < p ∨ p + 3 ≤ i
    · exact set24_outside m p v hi
    · apply BitVec.eq_of_toNat_eq
      rw [← h]
      obtain rfl | rfl | rfl : i = p ∨ i = p + 1 ∨ i = p + 2 := by omega
      all_goals omega

/-- Two writes of a word to disjoint places agree only if neither changes
anything. -/
theorem set24_eq_set24_iff {p q : Nat} (hpq : p + 3 ≤ q) (v : BitVec 24) :
    set24 m p v = set24 m q v ↔ be24 m p = v ∧ be24 m q = v := by
  constructor
  · intro h
    refine ⟨?_, ?_⟩
    · rw [← be24_set24 m p v, h]
      exact (be24_congr fun i hi => set24_outside m q v (by omega)).symm
    · rw [← be24_set24 m q v, ← h]
      exact (be24_congr fun i hi => set24_outside m p v (by omega)).symm
  · rintro ⟨hp, hq⟩
    rw [(set24_eq_self_iff m p v).mpr hp, (set24_eq_self_iff m q v).mpr hq]

end Words

/-- The addresses of the `n` bytes from `p`, for a log of reads. -/
def addrs (p n : Nat) : List Nat := (List.range n).map (p + ·)

theorem mem_addrs {a p n : Nat} : a ∈ addrs p n ↔ p ≤ a ∧ a < p + n := by
  simp only [addrs, List.mem_map, List.mem_range]
  constructor
  · rintro ⟨i, hi, rfl⟩
    omega
  · intro h
    exact ⟨a - p, by omega, by omega⟩

end PerchWebrtc
