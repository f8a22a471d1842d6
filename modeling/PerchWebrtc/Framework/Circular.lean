import Mathlib

/-!
# Numbers on a circle

Sequence numbers of `w` bits wrap around, and are compared by the shorter way
between them (`Precedes`). That is an order only on numbers that lie in one
half of the circle (`HalfWindow`), where it is the order of their distances
from the start of the half (`precedes_iff`).

* `sort`: a stable sort by it; `sort_perm`, `sort_pairwise`;
* `setIntersection`: what two sorted lists have in common;
  `setIntersection_eq`;
* `map_sort`, `map_setIntersection`: neither depends on where the circle
  starts;
* `SameCarry`: when adding a number keeps the order of two numbers as they are.
-/

namespace PerchWebrtc

namespace Circular

variable {w : Nat} {b : BitVec w} {a : BitVec w}

/-- The way from `a` up to `b` is shorter than half of the circle. -/
def Precedes (a b : BitVec w) : Prop := b ≠ a ∧ 2 * (b - a).toNat < 2 ^ w

instance (a b : BitVec w) : Decidable (Precedes a b) :=
  inferInstanceAs (Decidable (_ ∧ _))

/-- The numbers of the half of the circle that starts at `base`. -/
def InHalf (base a : BitVec w) : Prop := 2 * (a - base).toNat < 2 ^ w

/-- All the numbers lie in one half of the circle. -/
def HalfWindow (s : List (BitVec w)) : Prop := ∃ base, ∀ a ∈ s, InHalf base a

theorem inHalf_self (a : BitVec w) : InHalf a a := by
  unfold InHalf
  rw [BitVec.sub_self, BitVec.toNat_zero]
  exact Nat.two_pow_pos w

theorem precedes_irrefl (a : BitVec w) : ¬ Precedes a a := fun h => h.1 rfl

theorem Precedes.ne (h : Precedes a b) : a ≠ b := fun e => h.1 e.symm

theorem Precedes.asymm (h : Precedes a b) : ¬ Precedes b a := by
  rintro ⟨-, hba⟩
  have hab : a - b = -(b - a) := by grind
  have hpos : (b - a).toNat ≠ 0 := fun e => h.1 (by
    have hzero : b - a = 0 := BitVec.eq_of_toNat_eq e
    grind)
  have hhalf := h.2
  rw [hab, BitVec.toNat_neg, Nat.mod_eq_of_lt (by omega)] at hba
  omega

theorem HalfWindow.mono {s t : List (BitVec w)} (h : HalfWindow t) (hst : ∀ a ∈ s, a ∈ t) :
    HalfWindow s := by
  obtain ⟨base, hbase⟩ := h
  exact ⟨base, fun a ha => hbase a (hst a ha)⟩

/-- The way between two numbers, from their distances to a third. -/
theorem sub_toNat {base : BitVec w} (h : (a - base).toNat ≤ (b - base).toNat) :
    (b - a).toNat = (b - base).toNat - (a - base).toNat := by
  have hsub : b - a = (b - base) - (a - base) := by grind
  rw [hsub, BitVec.toNat_sub_of_le h]

theorem eq_of_sub_eq {base a b : BitVec w} (h : (a - base).toNat = (b - base).toNat) : a = b := by
  have hsub : a - base = b - base := BitVec.eq_of_toNat_eq h
  rw [← BitVec.sub_add_cancel a base, hsub, BitVec.sub_add_cancel]

/-- In one half of the circle, the order is that of the distances from its
start. -/
theorem precedes_iff {base : BitVec w} (ha : InHalf base a) (hb : InHalf base b) :
    Precedes a b ↔ (a - base).toNat < (b - base).toNat := by
  unfold InHalf at ha hb
  constructor
  · rintro ⟨hne, hhalf⟩
    by_contra hle
    have hlt : (b - base).toNat < (a - base).toNat := by
      refine lt_of_le_of_ne (by omega) fun e => hne (eq_of_sub_eq e)
    have hba := sub_toNat (le_of_lt hlt)
    have hab : b - a = -(a - b) := by grind
    rw [hab, BitVec.toNat_neg, hba, Nat.mod_eq_of_lt (by omega)] at hhalf
    omega
  · intro hlt
    refine ⟨fun e => absurd hlt (by rw [e]; exact lt_irrefl _), ?_⟩
    rw [sub_toNat (le_of_lt hlt)]
    omega

/-- A half that starts at one of the numbers will do. -/
theorem halfWindow_iff {s : List (BitVec w)} :
    HalfWindow s ↔ s = [] ∨ ∃ base ∈ s, ∀ a ∈ s, InHalf base a := by
  constructor
  · rintro ⟨base, hbase⟩
    refine or_iff_not_imp_left.mpr fun hne => ?_
    obtain ⟨m, hm⟩ := Option.ne_none_iff_exists'.mp
      fun e => hne (@List.argmin_eq_none _ _ _ _ (fun a => (a - base).toNat) _ |>.mp e)
    refine ⟨m, List.argmin_mem hm, fun a ha => ?_⟩
    have hmin : (m - base).toNat ≤ (a - base).toNat :=
      @List.le_of_mem_argmin _ _ _ (fun a => (a - base).toNat) _ _ _ ha hm
    have hsub := sub_toNat hmin
    have hhalf := hbase a ha
    unfold InHalf at hhalf ⊢
    omega
  · rintro (rfl | ⟨base, -, hbase⟩)
    · exact ⟨0, nofun⟩
    · exact ⟨base, hbase⟩

instance (base a : BitVec w) : Decidable (InHalf base a) :=
  inferInstanceAs (Decidable (_ < _))

-- Over the elements of the list; the instances for `BitVec` would try all bases.
instance (s : List (BitVec w)) : Decidable (HalfWindow s) :=
  decidable_of_iff (s = [] ∨ s.any (fun base => s.all fun a => InHalf base a) = true)
    (by simp only [halfWindow_iff, List.any_eq_true, List.all_eq_true, decide_eq_true_eq])

/-! ## Sorting -/

section Sorting

variable {α : Type*} (key : α → BitVec w)

/-- The stable sort by the key: an element stays before those it does not
follow. -/
def sort (l : List α) : List α := l.insertionSort fun x y => ¬ Precedes (key y) (key x)

theorem sort_perm (l : List α) : (sort key l).Perm l := List.perm_insertionSort _ l

theorem orderedInsert_congr {r r' : α → α → Prop} [DecidableRel r] [DecidableRel r'] {x : α} :
    ∀ {l : List α}, (∀ y ∈ l, r x y ↔ r' x y) → l.orderedInsert r x = l.orderedInsert r' x
  | [], _ => rfl
  | y :: l, h => by
    have hy := h y List.mem_cons_self
    have ih := orderedInsert_congr fun z hz => h z (List.mem_cons_of_mem _ hz)
    simp only [List.orderedInsert, hy, ih]

theorem insertionSort_congr {r r' : α → α → Prop} [DecidableRel r] [DecidableRel r'] :
    ∀ {l : List α}, (∀ x ∈ l, ∀ y ∈ l, r x y ↔ r' x y) → l.insertionSort r = l.insertionSort r'
  | [], _ => rfl
  | x :: l, h => by
    have ih : l.insertionSort r = l.insertionSort r' :=
      insertionSort_congr fun y hy z hz =>
        h y (List.mem_cons_of_mem _ hy) z (List.mem_cons_of_mem _ hz)
    rw [List.insertionSort_cons, List.insertionSort_cons, ih]
    refine orderedInsert_congr fun y hy => h x List.mem_cons_self y ?_
    exact List.mem_cons_of_mem _ ((List.mem_insertionSort _).mp hy)

/-- Different numbers of one half of the circle are sorted into their
order. -/
theorem sort_pairwise {l : List α} (hwindow : HalfWindow (l.map key)) (hnodup : (l.map key).Nodup) :
    (sort key l).Pairwise fun x y => Precedes (key x) (key y) := by
  obtain ⟨base, hbase⟩ := hwindow
  have hin : ∀ x ∈ l, InHalf base (key x) := fun x hx => hbase _ (List.mem_map_of_mem hx)
  let r : α → α → Prop := fun x y => (key x - base).toNat ≤ (key y - base).toNat
  have : Std.Total r := ⟨fun x y => Nat.le_total _ _⟩
  have : IsTrans α r := ⟨fun x y z => Nat.le_trans⟩
  have hsort : sort key l = l.insertionSort r := by
    refine insertionSort_congr fun x hx y hy => ?_
    rw [precedes_iff (hin y hy) (hin x hx), Nat.not_lt]
  have hle : (sort key l).Pairwise r := by
    rw [hsort]
    exact List.pairwise_insertionSort r l
  have hne : (sort key l).Pairwise fun x y => key x ≠ key y := by
    refine List.pairwise_map.mp ?_
    exact ((sort_perm key l).map key).nodup_iff.mpr hnodup
  refine (hle.and hne).imp_of_mem fun {x y} hx hy hxy => ?_
  have hx' := (sort_perm key l).mem_iff.mp hx
  have hy' := (sort_perm key l).mem_iff.mp hy
  rw [precedes_iff (hin x hx') (hin y hy')]
  exact lt_of_le_of_ne hxy.1 fun e => hxy.2 (eq_of_sub_eq e)

end Sorting

/-! ## Intersection -/

section Intersection

variable {α β : Type*} (keyα : α → BitVec w) (keyβ : β → BitVec w)

/-- The second cursor of `setIntersection` runs; the first stands at `x`, and
`next` goes on behind it. -/
def intersectFrom (x : α) (next : List β → List α) : List β → List α
  | [] => []
  | y :: ys =>
    if Precedes (keyα x) (keyβ y) then next (y :: ys)
    else if Precedes (keyβ y) (keyα x) then intersectFrom x next ys
    else x :: next ys

/-- The elements of the first list that meet one of the second, with a cursor
in each that passes over the element that precedes the other. -/
def setIntersection : List α → List β → List α
  | [], _ => []
  | x :: xs, ys => intersectFrom keyα keyβ x (setIntersection xs) ys

/-- Of two sorted lists in one half of the circle, the elements with a number
of the second list are found. -/
theorem setIntersection_eq (base : BitVec w) :
    ∀ {xs : List α} {ys : List β},
      (∀ x ∈ xs, InHalf base (keyα x)) → (∀ y ∈ ys, InHalf base (keyβ y)) →
      xs.Pairwise (fun x x' => Precedes (keyα x) (keyα x')) →
      ys.Pairwise (fun y y' => Precedes (keyβ y) (keyβ y')) →
      setIntersection keyα keyβ xs ys = xs.filter fun x => keyα x ∈ ys.map keyβ
  | [], _, _, _, _, _ => rfl
  | x :: xs, ys, hx, hy, hxs, hys => by
    have hx0 := hx x List.mem_cons_self
    have hx' : ∀ x' ∈ xs, InHalf base (keyα x') := fun x' h => hx x' (List.mem_cons_of_mem _ h)
    have ih := fun {ys : List β} hy hys =>
      @setIntersection_eq base xs ys hx' hy hxs.of_cons hys
    rw [setIntersection]
    induction ys with
    | nil => simp [intersectFrom]
    | cons y ys ihy =>
      have hy0 := hy y List.mem_cons_self
      have hy' : ∀ y' ∈ ys, InHalf base (keyβ y') := fun y' h => hy y' (List.mem_cons_of_mem _ h)
      rw [intersectFrom]
      split
      · -- `x` precedes every element of the second list.
        rename_i hlt
        have hnot : keyα x ∉ (y :: ys).map keyβ := by
          intro hmem
          obtain ⟨y', hy'mem, hy'eq⟩ := List.mem_map.mp hmem
          rw [precedes_iff hx0 hy0, ← hy'eq] at hlt
          rcases List.mem_cons.mp hy'mem with rfl | hmem'
          · exact absurd hlt (lt_irrefl _)
          · have hyy := List.rel_of_pairwise_cons hys hmem'
            rw [precedes_iff hy0 (hy' y' hmem')] at hyy
            omega
        rw [ih hy hys, List.filter_cons_of_neg (by simpa using hnot)]
      · rename_i hnlt
        split
        · -- `y` precedes every element of the first list.
          rename_i hgt
          rw [ihy hy' hys.of_cons]
          refine List.filter_congr fun x' hx'mem => ?_
          have hne : keyα x' ≠ keyβ y := by
            intro e
            rw [precedes_iff hy0 hx0, ← e] at hgt
            rcases List.mem_cons.mp hx'mem with rfl | hmem'
            · exact absurd hgt (lt_irrefl _)
            · have hxx := List.rel_of_pairwise_cons hxs hmem'
              rw [precedes_iff hx0 (hx' x' hmem')] at hxx
              omega
          simp [hne]
        · rename_i hngt
          have heq : keyα x = keyβ y := by
            rw [precedes_iff hx0 hy0] at hnlt
            rw [precedes_iff hy0 hx0] at hngt
            exact @eq_of_sub_eq _ base _ _ (le_antisymm (by omega) (by omega))
          rw [ih hy' hys.of_cons, List.filter_cons_of_pos (by simp [heq])]
          congr 1
          refine List.filter_congr fun x' hx'mem => ?_
          have hne : keyα x' ≠ keyβ y := fun e =>
            (List.rel_of_pairwise_cons hxs hx'mem).ne (heq.trans e.symm)
          simp [hne]

end Intersection

/-! ## Translation

Only differences of numbers are compared, so nothing changes when the same
number is added to all of them. -/

theorem add_sub_add_right (a b k : BitVec w) : (b + k) - (a + k) = b - a := by grind

theorem precedes_add (a b k : BitVec w) : Precedes (a + k) (b + k) ↔ Precedes a b := by
  unfold Precedes
  rw [add_sub_add_right, ne_eq, ne_eq, BitVec.add_left_inj]

section Translation

variable {α β : Type*} {keyα : α → BitVec w} {keyβ : β → BitVec w} {f : α → α} {g : β → β}
  {k : BitVec w}

theorem map_sort (hf : ∀ x, keyα (f x) = keyα x + k) (l : List α) :
    (sort keyα l).map f = sort keyα (l.map f) := by
  refine List.map_insertionSort _ _ _ _ fun x _ y _ => ?_
  rw [hf, hf, precedes_add]

theorem map_intersectFrom (hf : ∀ x, keyα (f x) = keyα x + k) (hg : ∀ y, keyβ (g y) = keyβ y + k)
    (x : α) {next next' : List β → List α}
    (hnext : ∀ ys, (next ys).map f = next' (ys.map g)) : ∀ ys : List β,
    (intersectFrom keyα keyβ x next ys).map f = intersectFrom keyα keyβ (f x) next' (ys.map g)
  | [] => rfl
  | y :: ys => by
    have ih := map_intersectFrom hf hg x hnext ys
    simp only [intersectFrom, List.map_cons, hf, hg, precedes_add]
    split
    · exact hnext (y :: ys)
    · split
      · simpa only [hf, hg] using ih
      · rw [List.map_cons, hnext]

theorem map_setIntersection (hf : ∀ x, keyα (f x) = keyα x + k)
    (hg : ∀ y, keyβ (g y) = keyβ y + k) : ∀ (xs : List α) (ys : List β),
    (setIntersection keyα keyβ xs ys).map f = setIntersection keyα keyβ (xs.map f) (ys.map g)
  | [], _ => rfl
  | x :: xs, ys => map_intersectFrom hf hg x (map_setIntersection hf hg xs) ys

end Translation

/-- Adding `k` carries both numbers out of the range, or neither. -/
def SameCarry (k a b : BitVec w) : Prop :=
  2 ^ w ≤ a.toNat + k.toNat ↔ 2 ^ w ≤ b.toNat + k.toNat

instance (k a b : BitVec w) : Decidable (SameCarry k a b) :=
  inferInstanceAs (Decidable (_ ↔ _))

/-- As numbers, and not on the circle, two numbers keep their order when `k` is added if
it carries both or neither. -/
theorem SameCarry.add_le_add_iff {k : BitVec w} (h : SameCarry k a b) : a + k ≤ b + k ↔ a ≤ b := by
  have ha := a.isLt
  have hb := b.isLt
  have hk := k.isLt
  unfold SameCarry at h
  rw [BitVec.le_def, BitVec.le_def, BitVec.toNat_add, BitVec.toNat_add]
  by_cases hcarry : 2 ^ w ≤ a.toNat + k.toNat
  · have hcarry' := h.mp hcarry
    rw [Nat.mod_eq_sub_mod hcarry, Nat.mod_eq_sub_mod hcarry', Nat.mod_eq_of_lt (by omega),
      Nat.mod_eq_of_lt (by omega)]
    omega
  · have hcarry' := mt h.mpr hcarry
    rw [Nat.mod_eq_of_lt (by omega), Nat.mod_eq_of_lt (by omega)]
    omega

theorem SameCarry.add_lt_add_iff {k : BitVec w} (h : SameCarry k a b) : a + k < b + k ↔ a < b := by
  have hba : SameCarry k b a := Iff.symm h
  rw [← BitVec.not_le, ← BitVec.not_le, hba.add_le_add_iff]

end Circular

end PerchWebrtc
