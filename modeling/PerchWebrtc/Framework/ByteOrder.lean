import PerchWebrtc.Framework.Bytes

/-!
# Numbers as bytes in either order

* `natLE_bytesLE`, `natBE_bytesBE`: what the bytes of a number say of it;
* `bytesLE_natLE`, `bytesBE_natBE`: the bytes of the number that bytes say;
* `take_bytesLE`, `drop_bytesBE`: the low bytes of a number;
* `decode_encode`, `encode_decode`: either order.
-/

namespace PerchWebrtc

/-- The `n` low bytes of a number, the lowest one first. -/
def bytesLE : ℕ → ℕ → List Byte
  | 0, _ => []
  | n + 1, v => BitVec.ofNat 8 v :: bytesLE n (v / 256)

def natLE : List Byte → ℕ
  | [] => 0
  | b :: bs => b.toNat + 256 * natLE bs

/-- The lowest one last. -/
def bytesBE (n v : ℕ) : List Byte := (bytesLE n v).reverse

def natBE (bs : List Byte) : ℕ := natLE bs.reverse

@[simp] theorem length_bytesLE : ∀ n v : ℕ, (bytesLE n v).length = n
  | 0, _ => rfl
  | n + 1, v => congrArg (· + 1) (length_bytesLE n (v / 256))

@[simp] theorem length_bytesBE (n v : ℕ) : (bytesBE n v).length = n := by
  rw [bytesBE, List.length_reverse, length_bytesLE]

theorem natLE_bytesLE : ∀ n v : ℕ, natLE (bytesLE n v) = v % 256 ^ n
  | 0, v => (Nat.mod_one v).symm
  | n + 1, v => by
    have hlow : (BitVec.ofNat 8 v).toNat = v % 256 := BitVec.toNat_ofNat v 8
    have hpow : v % 256 ^ (n + 1) = v % 256 + 256 * (v / 256 % 256 ^ n) := by
      rw [Nat.pow_succ', Nat.mod_mul]
    rw [bytesLE, natLE, natLE_bytesLE n, hlow, hpow]

theorem natBE_bytesBE (n v : ℕ) : natBE (bytesBE n v) = v % 256 ^ n := by
  rw [natBE, bytesBE, List.reverse_reverse, natLE_bytesLE]

theorem bytesLE_natLE : ∀ bs : List Byte, bytesLE bs.length (natLE bs) = bs
  | [] => rfl
  | b :: bs => by
    have hb := b.isLt
    have hlow : BitVec.ofNat 8 (b.toNat + 256 * natLE bs) = b := by
      apply BitVec.eq_of_toNat_eq
      rw [BitVec.toNat_ofNat]
      omega
    have hhigh : (b.toNat + 256 * natLE bs) / 256 = natLE bs := by omega
    rw [List.length_cons, bytesLE, natLE, hlow, hhigh, bytesLE_natLE bs]

theorem bytesBE_natBE (bs : List Byte) : bytesBE bs.length (natBE bs) = bs := by
  rw [bytesBE, natBE, ← List.length_reverse, bytesLE_natLE, List.reverse_reverse]

theorem take_bytesLE : ∀ {m n : ℕ} (v : ℕ), m ≤ n → (bytesLE n v).take m = bytesLE m v
  | 0, _, _, _ => List.take_zero
  | m + 1, n + 1, v, h => by
    rw [bytesLE, bytesLE, List.take_succ_cons, take_bytesLE _ (Nat.le_of_succ_le_succ h)]

theorem drop_bytesBE {m n : ℕ} (v : ℕ) (h : m ≤ n) :
    (bytesBE n v).drop (n - m) = bytesBE m v := by
  rw [bytesBE, bytesBE, List.drop_reverse, length_bytesLE, Nat.sub_sub_self h, take_bytesLE v h]

/-- High bytes that are zero. -/
theorem natLE_append_zeros (bs : List Byte) (n : ℕ) :
    natLE (bs ++ List.replicate n 0) = natLE bs := by
  induction bs with
  | nil =>
    induction n with
    | zero => rfl
    | succ n ih =>
      show 0 + 256 * natLE (List.replicate n 0) = 0
      exact congrArg (0 + 256 * ·) ih
  | cons b bs ih => rw [List.cons_append, natLE, natLE, ih]

theorem natBE_zeros_append (bs : List Byte) (n : ℕ) :
    natBE (List.replicate n 0 ++ bs) = natBE bs := by
  rw [natBE, List.reverse_append, List.reverse_replicate, natLE_append_zeros, natBE]

/-! ## Either order -/

def encode (big : Bool) (n v : ℕ) : List Byte := if big then bytesBE n v else bytesLE n v

def decode (big : Bool) (bs : List Byte) : ℕ := if big then natBE bs else natLE bs

@[simp] theorem length_encode (big : Bool) (n v : ℕ) : (encode big n v).length = n := by
  rw [encode]
  split
  · exact length_bytesBE n v
  · exact length_bytesLE n v

theorem decode_encode (big : Bool) (n v : ℕ) : decode big (encode big n v) = v % 256 ^ n := by
  rw [decode, encode]
  split
  · exact natBE_bytesBE n v
  · exact natLE_bytesLE n v

theorem encode_decode (big : Bool) (bs : List Byte) :
    encode big bs.length (decode big bs) = bs := by
  rw [encode, decode]
  split
  · exact bytesBE_natBE bs
  · exact bytesLE_natLE bs

theorem decode_lt (big : Bool) (bs : List Byte) : decode big bs < 256 ^ bs.length := by
  have hmod := decode_encode big bs.length (decode big bs)
  rw [encode_decode] at hmod
  rw [hmod]
  exact Nat.mod_lt _ (Nat.pow_pos (by decide))

theorem encode_one (big : Bool) (v : ℕ) : encode big 1 v = [BitVec.ofNat 8 v] := by
  cases big <;> rfl

end PerchWebrtc
