import PerchWebrtc.Framework.Bytes

/-!
# Byte lists and the memory that holds them

A builder writes a list of bytes, a parser reads a memory.

* `bytes16`, `bytes24`, `bytes32`: words in network byte order;
* `Mem.Holds`: the bytes of a list stand at an address; `holds_append`,
  `holds_cons`, `holds_bytes16`, `holds_bytes32`, `holds_flatMap` take a list
  apart;
* `holds_ofList`: a part of a list in the memory of the list.
-/

namespace PerchWebrtc

def bytes16 (v : BitVec 16) : List Byte := [v.extractLsb' 8 8, v.extractLsb' 0 8]

def bytes24 (v : BitVec 24) : List Byte :=
  [v.extractLsb' 16 8, v.extractLsb' 8 8, v.extractLsb' 0 8]

def bytes32 (v : BitVec 32) : List Byte :=
  [v.extractLsb' 24 8, v.extractLsb' 16 8, v.extractLsb' 8 8, v.extractLsb' 0 8]

@[simp] theorem length_bytes16 (v : BitVec 16) : (bytes16 v).length = 2 := rfl
@[simp] theorem length_bytes24 (v : BitVec 24) : (bytes24 v).length = 3 := rfl
@[simp] theorem length_bytes32 (v : BitVec 32) : (bytes32 v).length = 4 := rfl

/-- A word whose first byte is zero. -/
theorem bytes16_ofNat {n : Nat} (h : n < 256) : bytes16 (BitVec.ofNat 16 n) = [0, BitVec.ofNat 8 n] := by
  have h0 : (BitVec.ofNat 16 n).extractLsb' 8 8 = 0 := by
    apply BitVec.eq_of_toNat_eq
    rw [BitVec.extractLsb'_toNat, BitVec.toNat_ofNat, Nat.shiftRight_eq_div_pow]
    change _ = 0
    omega
  have h1 : (BitVec.ofNat 16 n).extractLsb' 0 8 = BitVec.ofNat 8 n := by
    apply BitVec.eq_of_toNat_eq
    rw [BitVec.extractLsb'_toNat, BitVec.toNat_ofNat, BitVec.toNat_ofNat, Nat.shiftRight_zero]
    omega
  rw [bytes16, h0, h1]

/-- A mask of the low bits. -/
theorem toNat_and_mask {n : Nat} (x mask : BitVec n) {w : Nat} (h : mask.toNat = 2 ^ w - 1) :
    (x &&& mask).toNat = x.toNat % 2 ^ w := by
  rw [BitVec.toNat_and, h, Nat.and_two_pow_sub_one_eq_mod]

/-- Entries of one length. -/
theorem length_flatMap_const {α : Type*} {f : α → List Byte} {n : Nat} (h : ∀ a, (f a).length = n) :
    ∀ l : List α, (l.flatMap f).length = n * l.length
  | [] => rfl
  | a :: l => by
    rw [List.flatMap_cons, List.length_append, h, length_flatMap_const h l, List.length_cons,
      Nat.mul_succ, Nat.add_comm]

namespace Mem

/-- The bytes of the list stand at `p`. -/
def Holds (m : Mem) (p : Nat) (bs : List Byte) : Prop := m.bytes p bs.length = bs

section

variable {m : Mem} {p : Nat} {bs : List Byte}

theorem holds_nil : m.Holds p [] := rfl

theorem bytes_one (m : Mem) (p : Nat) : m.bytes p 1 = [m p] := rfl

theorem holds_append {as : List Byte} :
    m.Holds p (as ++ bs) ↔ m.Holds p as ∧ m.Holds (p + as.length) bs := by
  rw [Holds, Holds, Holds, List.length_append, bytes_add]
  exact ⟨fun h => List.append_inj h (bytes_length m p _), fun h => by rw [h.1, h.2]⟩

theorem holds_cons {b : Byte} : m.Holds p (b :: bs) ↔ m p = b ∧ m.Holds (p + 1) bs := by
  have hb : m.Holds p [b] ↔ m p = b := by simp [Holds, bytes_one]
  rw [← List.singleton_append, holds_append, hb, List.length_singleton]

theorem holds_bytes16 {v : BitVec 16} : m.Holds p (bytes16 v) ↔ be16 m p = v := by
  have hv : v.extractLsb' 8 8 ++ v.extractLsb' 0 8 = v := by
    rw [BitVec.extractLsb'_append_extractLsb'_eq_extractLsb' (show 8 = 0 + 8 from rfl),
      BitVec.extractLsb'_eq_self]
  simp only [bytes16, holds_cons, holds_nil, and_true]
  constructor
  · rintro ⟨h0, h1⟩
    rw [be16, h0, h1, hv]
  · intro h
    have hm := be16_toNat m p
    have h0 : (v.extractLsb' 8 8).toNat = v.toNat / 256 % 256 := by
      rw [BitVec.extractLsb'_toNat, Nat.shiftRight_eq_div_pow]
    have h1 : (v.extractLsb' 0 8).toNat = v.toNat % 256 := by
      rw [BitVec.extractLsb'_toNat, Nat.shiftRight_zero]
    rw [h] at hm
    refine ⟨BitVec.eq_of_toNat_eq ?_, BitVec.eq_of_toNat_eq ?_⟩
    all_goals omega

theorem holds_bytes32 {v : BitVec 32} : m.Holds p (bytes32 v) ↔ be32 m p = v := by
  have hv : v.extractLsb' 24 8 ++ v.extractLsb' 16 8 ++ v.extractLsb' 8 8 ++ v.extractLsb' 0 8 =
      v := by
    rw [BitVec.extractLsb'_append_extractLsb'_eq_extractLsb' (show 24 = 16 + 8 from rfl),
      BitVec.extractLsb'_append_extractLsb'_eq_extractLsb' (show 16 = 8 + 8 from rfl),
      BitVec.extractLsb'_append_extractLsb'_eq_extractLsb' (show 8 = 0 + 8 from rfl),
      BitVec.extractLsb'_eq_self]
  simp only [bytes32, holds_cons, holds_nil, and_true, Nat.add_assoc, Nat.reduceAdd]
  constructor
  · rintro ⟨h0, h1, h2, h3⟩
    rw [be32, h0, h1, h2, h3, hv]
  · intro h
    have hm := be32_toNat m p
    have hb : ∀ i, (v.extractLsb' i 8).toNat = v.toNat / 2 ^ i % 256 := fun i => by
      rw [BitVec.extractLsb'_toNat, Nat.shiftRight_eq_div_pow]
    rw [h] at hm
    have h0 : (v.extractLsb' 0 8).toNat = v.toNat / 1 % 256 := hb 0
    have h8 : (v.extractLsb' 8 8).toNat = v.toNat / 256 % 256 := hb 8
    have h16 : (v.extractLsb' 16 8).toNat = v.toNat / 65536 % 256 := hb 16
    have h24 : (v.extractLsb' 24 8).toNat = v.toNat / 16777216 % 256 := hb 24
    refine ⟨BitVec.eq_of_toNat_eq ?_, BitVec.eq_of_toNat_eq ?_, BitVec.eq_of_toNat_eq ?_,
      BitVec.eq_of_toNat_eq ?_⟩
    all_goals omega

/-- A byte of the list. -/
theorem byte_of_holds (h : m.Holds p bs) {i : Nat} (hi : i < bs.length) :
    m (p + i) = bs.getD i 0 := by
  have hget := congrArg (fun l => l.getD i 0) h
  rw [List.getD_eq_getElem _ _ (by rw [bytes_length]; exact hi)] at hget
  rw [← hget]
  simp only [bytes, List.getElem_map, List.getElem_range]

theorem bytes_of_holds (h : m.Holds p bs) {n : Nat} (hn : n = bs.length) : m.bytes p n = bs := by
  subst hn
  exact h

end

/-- An entry of a list of entries of one length. -/
theorem holds_flatMap {m : Mem} {α : Type*} {f : α → List Byte} {k : Nat}
    (hf : ∀ a, (f a).length = k) : ∀ {l : List α} {p : Nat}, m.Holds p (l.flatMap f) →
    ∀ {n : Nat} (hn : n < l.length), m.Holds (p + k * n) (f l[n])
  | [], _, _, _, hn => absurd hn (Nat.not_lt_zero _)
  | a :: l, p, h, 0, _ => by
    rw [List.flatMap_cons, holds_append] at h
    exact h.1
  | a :: l, p, h, n + 1, hn => by
    rw [List.flatMap_cons, holds_append, hf] at h
    rw [Nat.mul_succ, Nat.add_comm (k * n), ← Nat.add_assoc]
    exact holds_flatMap hf h.2 (Nat.lt_of_succ_lt_succ hn)

theorem map_be32_of_holds {m : Mem} {p : Nat} {l : List (BitVec 32)}
    (h : m.Holds p (l.flatMap bytes32)) :
    ((List.range l.length).map fun i => be32 m (p + 4 * i)) = l := by
  apply List.ext_getElem (by rw [List.length_map, List.length_range])
  intro i _ hi
  rw [List.getElem_map, List.getElem_range]
  exact holds_bytes32.mp (holds_flatMap length_bytes32 h hi)

/-- The middle part of a list. -/
theorem holds_ofList (as bs cs : List Byte) : (ofList (as ++ bs ++ cs)).Holds as.length bs := by
  rw [Holds]
  apply List.ext_getElem (bytes_length _ _ _)
  intro i _ hi
  simp only [bytes, List.getElem_map, List.getElem_range, ofList]
  rw [List.append_assoc, List.getD_append_right _ _ _ _ (by omega), Nat.add_sub_cancel_left,
    List.getD_append _ _ _ _ hi, List.getD_eq_getElem _ _ hi]

/-- What lies behind a part of a list. -/
theorem ofList_insert (as bs cs : List Byte) {i : Nat} (hi : as.length ≤ i) :
    ofList (as ++ bs ++ cs) (i + bs.length) = ofList (as ++ cs) i := by
  simp only [ofList]
  rw [List.getD_append_right _ _ _ _ (by rw [List.length_append]; omega),
    List.getD_append_right _ _ _ _ hi, List.length_append,
    show i + bs.length - (as.length + bs.length) = i - as.length by omega]

/-- The rest of a list. -/
theorem holds_of_eq {m : Mem} {as bs : List Byte} (h : m = ofList (as ++ bs)) :
    m.Holds as.length bs := by
  have hall := holds_ofList as bs []
  rwa [List.append_nil, ← h] at hall

end Mem

end PerchWebrtc
