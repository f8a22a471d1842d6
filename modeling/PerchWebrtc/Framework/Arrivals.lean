import PerchWebrtc.Framework.Circular

/-!
# Numbers without their wraps

Numbers of `w` bits that arrive one after the other are given positions on the
line of integers: each is taken for the position next to the newest one
(`position`). What is missing between the first and the newest arrival is then
a list of positions (`Arrivals.missing`).

* `precedes_ofInt`: in less than half a circle, the comparison of the numbers
  is that of the positions;
* `Arrivals.missing_newer`, `Arrivals.missing_older`: what an arrival changes.
-/

namespace PerchWebrtc

namespace Circular

variable {w : Nat}

theorem ofInt_sub_toNat (a b : ℤ) :
    (BitVec.ofInt w b - BitVec.ofInt w a).toNat = ((b - a) % 2 ^ w).toNat := by
  have hsub : BitVec.ofInt w b - BitVec.ofInt w a = BitVec.ofInt w (b - a) := by
    rw [sub_eq_iff_eq_add, ← BitVec.ofInt_add, sub_add_cancel]
  rw [hsub, BitVec.toNat_ofInt]
  norm_cast

theorem ofInt_sub_toNat_of_lt {a b : ℤ} (hle : a ≤ b) (hlt : b - a < 2 ^ w) :
    ((BitVec.ofInt w b - BitVec.ofInt w a).toNat : ℤ) = b - a := by
  rw [ofInt_sub_toNat, Int.emod_eq_of_lt (by omega) hlt]
  omega

/-- Half a circle apart, the later position has the later number. -/
theorem precedes_ofInt {a b : ℤ} (hlt : a < b) (hhalf : 2 * (b - a) < 2 ^ w) :
    Precedes (BitVec.ofInt w a) (BitVec.ofInt w b) := by
  have hdist := @ofInt_sub_toNat_of_lt w a b (le_of_lt hlt) (by omega)
  refine ⟨fun e => ?_, ?_⟩
  · rw [e, BitVec.sub_self, BitVec.toNat_zero] at hdist
    omega
  · zify
    rw [hdist]
    exact hhalf

theorem precedes_ofInt_iff {a b : ℤ} (hlt : 2 * (b - a) < 2 ^ w) (hlt' : 2 * (a - b) < 2 ^ w) :
    Precedes (BitVec.ofInt w a) (BitVec.ofInt w b) ↔ a < b := by
  refine ⟨fun h => ?_, fun h => precedes_ofInt h hlt⟩
  by_contra hnot
  rcases lt_or_eq_of_le (not_lt.mp hnot) with hless | rfl
  · exact h.asymm (precedes_ofInt hless hlt')
  · exact precedes_irrefl _ h

/-- The position next to `newest` that has the number. -/
def position (newest : ℤ) (n : BitVec w) : ℤ :=
  let distance := (n - BitVec.ofInt w newest).toNat
  if 2 * distance ≤ 2 ^ w then newest + distance else newest + distance - 2 ^ w

theorem ofInt_position (newest : ℤ) (n : BitVec w) : BitVec.ofInt w (position newest n) = n := by
  have hnum : BitVec.ofInt w (newest + (n - BitVec.ofInt w newest).toNat) = n := by
    rw [BitVec.ofInt_add, BitVec.ofInt_natCast, BitVec.ofNat_toNat, BitVec.setWidth_eq]
    exact add_sub_cancel _ _
  unfold position
  dsimp only
  split
  · exact hnum
  · rw [sub_eq_add_neg, BitVec.ofInt_add, hnum]
    have hwrap : BitVec.ofInt w (-2 ^ w) = 0 := by
      apply BitVec.eq_of_toNat_eq
      rw [BitVec.toNat_ofInt]
      simp
    rw [hwrap]
    exact add_zero n

theorem position_ofInt {newest p : ℤ} (hlt : 2 * (p - newest) < 2 ^ w)
    (hlt' : 2 * (newest - p) < 2 ^ w) : position newest (BitVec.ofInt w p) = p := by
  have hdistance := @ofInt_sub_toNat w newest p
  unfold position
  rcases le_or_gt newest p with hle | hless
  · rw [Int.emod_eq_of_lt (by omega) (by omega)] at hdistance
    rw [hdistance, if_pos (by zify; omega)]
    omega
  · have hmod : (p - newest) % 2 ^ w = p - newest + 2 ^ w := by
      rw [← Int.add_emod_right, Int.emod_eq_of_lt (by omega) (by omega)]
    rw [hmod] at hdistance
    rw [hdistance, if_neg (by zify; omega)]
    omega

end Circular

open Circular

/-- The positions of the numbers that arrived. -/
structure Arrivals where
  first : ℤ
  newest : ℤ
  received : List ℤ

namespace Arrivals

variable {w : Nat} {a : Arrivals}

def begin (n : BitVec w) : Arrivals where
  first := n.toNat
  newest := n.toNat
  received := [(n.toNat : ℤ)]

def receive (a : Arrivals) (n : BitVec w) : Arrivals :=
  let p := position a.newest n
  { a with newest := max a.newest p, received := p :: a.received }

/-- The first `k` positions from `p` on. -/
def span (p : ℤ) (k : Nat) : List ℤ := (List.range k).map fun i : Nat => p + i

/-- The positions strictly between the first and the newest that are not
received, in their order. -/
def missing (a : Arrivals) : List ℤ :=
  (span a.first (a.newest - a.first).toNat).filter fun p => a.first < p ∧ p ∉ a.received

def ofNumbers : List (BitVec w) → Option Arrivals
  | [] => none
  | n :: ns => some (ns.foldl receive (begin n))

/-! ## What an arrival changes -/

/-- The first and the newest are received, and nothing behind the newest. -/
structure Bounded (a : Arrivals) : Prop where
  first_le : a.first ≤ a.newest
  newest_mem : a.newest ∈ a.received
  le_newest : ∀ p ∈ a.received, p ≤ a.newest

theorem bounded_begin (n : BitVec w) : (begin n).Bounded :=
  ⟨le_refl _, List.mem_singleton_self _, fun _ hp => le_of_eq (List.mem_singleton.mp hp)⟩

theorem Bounded.receive (h : a.Bounded) (n : BitVec w) : (a.receive n).Bounded := by
  refine ⟨le_trans h.first_le (le_max_left _ _), ?_, ?_⟩
  · show max a.newest (position a.newest n) ∈ _ :: _
    rcases max_choice a.newest (position a.newest n) with hmax | hmax
    · rw [hmax]
      exact List.mem_cons_of_mem _ h.newest_mem
    · rw [hmax]
      exact List.mem_cons_self
  · intro p hp
    rcases List.mem_cons.mp hp with rfl | hp
    · exact le_max_right _ _
    · exact le_trans (h.le_newest p hp) (le_max_left _ _)

theorem mem_span {p q : ℤ} {k : Nat} : q ∈ span p k ↔ p ≤ q ∧ q < p + k := by
  unfold span
  rw [List.mem_map]
  constructor
  · rintro ⟨i, hi, rfl⟩
    have := List.mem_range.mp hi
    omega
  · rintro ⟨hle, hlt⟩
    exact ⟨(q - p).toNat, List.mem_range.mpr (by omega), by omega⟩

theorem span_add (p : ℤ) (k l : Nat) : span p (k + l) = span p k ++ span (p + k) l := by
  simp only [span, List.range_add, List.map_append, List.map_map]
  refine congrArg _ (List.map_congr_left fun i _ => ?_)
  simp only [Function.comp_apply, Nat.cast_add, add_assoc]

theorem span_succ (p : ℤ) (k : Nat) : span p (k + 1) = p :: span (p + 1) k := by
  rw [Nat.add_comm, span_add]
  simp [span]

theorem mem_missing {p : ℤ} : p ∈ a.missing ↔ a.first < p ∧ p < a.newest ∧ p ∉ a.received := by
  rw [missing, List.mem_filter, mem_span, decide_eq_true_iff]
  constructor
  · rintro ⟨⟨-, hlt⟩, hfirst, hnot⟩
    exact ⟨hfirst, by omega, hnot⟩
  · rintro ⟨hfirst, hlt, hnot⟩
    exact ⟨⟨by omega, by omega⟩, hfirst, hnot⟩

theorem missing_begin (n : BitVec w) : (begin n).missing = [] := by
  simp [missing, begin, span]

theorem missing_pairwise (a : Arrivals) : a.missing.Pairwise (· < ·) := by
  refine List.Pairwise.filter _ (List.pairwise_map.mpr ?_)
  exact List.pairwise_lt_range.imp fun hlt => by omega

theorem nodup_missing (a : Arrivals) : a.missing.Nodup := by
  refine List.Nodup.filter _ (List.Nodup.map (fun i j hij => ?_) List.nodup_range)
  simpa using hij

/-- An arrival behind the newest leaves the positions between them missing. -/
theorem missing_newer (h : a.Bounded) {p : ℤ} {received : List ℤ} {k : Nat}
    (hp : p = a.newest + 1 + k) (hreceived : received = p :: a.received) :
    missing ⟨a.first, p, received⟩ = a.missing ++ span (a.newest + 1) k := by
  have hfirst := h.first_le
  have hlen : (p - a.first).toNat = (a.newest - a.first).toNat + (1 + k) := by omega
  have hstart : a.first + ((a.newest - a.first).toNat : ℤ) = a.newest := by omega
  rw [missing, missing, hlen, span_add, List.filter_append, hstart, Nat.add_comm 1 k, span_succ]
  congr 1
  · refine List.filter_congr fun q hq => ?_
    have hq := mem_span.mp hq
    have hne : q ≠ p := by
      rw [hstart] at hq
      omega
    simp [hreceived, hne]
  · rw [List.filter_cons_of_neg (by simp [hreceived, h.newest_mem]), List.filter_eq_self]
    intro q hq
    have hq := mem_span.mp hq
    have hnot : q ∉ a.received := fun hmem => by
      have := h.le_newest q hmem
      omega
    rw [decide_eq_true_iff, hreceived, List.mem_cons, not_or]
    exact ⟨show a.first < q by omega, by omega, hnot⟩

/-- An arrival before the newest is no longer missing. -/
theorem missing_older {p : ℤ} {received : List ℤ} (hreceived : received = p :: a.received) :
    missing ⟨a.first, a.newest, received⟩ = a.missing.erase p := by
  rw [List.Nodup.erase_eq_filter a.nodup_missing, missing, missing, List.filter_filter]
  refine List.filter_congr fun q _ => ?_
  rw [hreceived, Bool.eq_iff_iff]
  simp only [List.mem_cons, not_or, decide_eq_true_eq, Bool.and_eq_true, bne_iff_ne]
  tauto

end Arrivals

end PerchWebrtc
