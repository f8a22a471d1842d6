import Mathlib

/-!
# Search trees

A `std::map` as a tree that is searched by a comparison, which need not be an
order. An element is inserted just before the lower bound of its key. How a
library rebalances its trees is a parameter: a `Shape` makes a tree of the
elements in their sequence.

* `StrictWeakOn`: what a map asks of its comparison, on the keys that are used;
* `lowerBound_eq`, `insertBefore_eq`, `eraseBound_eq`: on sorted elements, a
  search of the tree is a search of its sequence;
* `Sorted.insertBefore`, `Sorted.eraseBound`, `find_eq_some_iff`: a map.
-/

namespace PerchWebrtc

inductive Tree (α : Type*) where
  | nil
  | node (left : Tree α) (a : α) (right : Tree α)

namespace Tree

variable {α κ : Type*}

def toList : Tree α → List α
  | nil => []
  | node left a right => left.toList ++ a :: right.toList

section

variable (lt : κ → κ → Prop) [DecidableRel lt] (key : α → κ)

/-- The last node on the way down at which the search goes left. -/
def lowerBound (k : κ) : Tree α → Option α
  | nil => none
  | node left a right =>
    if lt (key a) k then lowerBound k right
    else some ((lowerBound k left).getD a)

def find (k : κ) (t : Tree α) : Option α := (t.lowerBound lt key k).filter fun a => ¬ lt k (key a)

/-- The elements with one more just before the lower bound of its key. -/
def insertBefore (b : α) : Tree α → List α
  | nil => [b]
  | node left a right =>
    if lt (key a) (key b) then left.toList ++ a :: insertBefore b right
    else insertBefore b left ++ a :: right.toList

/-- The tree with another element in the place of the lower bound of a key. -/
def setBound (k : κ) (f : α → α) : Tree α → Tree α
  | nil => nil
  | node left a right =>
    if lt (key a) k then node left a (setBound k f right)
    else if (left.lowerBound lt key k).isSome then node (setBound k f left) a right
    else node left (f a) right

/-- The elements without the lower bound of a key. -/
def eraseBound (k : κ) : Tree α → List α
  | nil => []
  | node left a right =>
    if lt (key a) k then left.toList ++ a :: eraseBound k right
    else if (left.lowerBound lt key k).isSome then eraseBound k left ++ a :: right.toList
    else left.toList ++ right.toList

end

/-- How a library makes a tree of a sequence, from the tree before. -/
structure Shape (α : Type*) where
  tree : Tree α → List α → Tree α
  toList_tree : ∀ t l, (tree t l).toList = l

/-- A comparison that is a strict weak order on some keys. -/
structure StrictWeakOn (lt : κ → κ → Prop) (S : κ → Prop) : Prop where
  irrefl : ∀ a, S a → ¬ lt a a
  trans : ∀ a b c, S a → S b → S c → lt a b → lt b c → lt a c
  weak : ∀ a b c, S a → S b → S c → lt a c → lt a b ∨ lt b c

variable {lt : κ → κ → Prop} [DecidableRel lt] {key : α → κ}

def Sorted (lt : κ → κ → Prop) (key : α → κ) (l : List α) : Prop :=
  l.Pairwise fun a b => lt (key a) (key b)

section Search

variable {S : κ → Prop} {t : Tree α} {k : κ} {right : Tree α} {left : Tree α} {a : α}

theorem mem_toList_node {x : α} :
    x ∈ (node left a right).toList ↔ x ∈ left.toList ∨ x = a ∨ x ∈ right.toList := by
  rw [toList, List.mem_append, List.mem_cons]

omit [DecidableRel lt] in
/-- Where the search turns, all elements on one side compare alike. -/
theorem sorted_node (h : Sorted lt key (node left a right).toList) :
    Sorted lt key left.toList ∧ Sorted lt key right.toList ∧
      (∀ x ∈ left.toList, lt (key x) (key a)) ∧ ∀ x ∈ right.toList, lt (key a) (key x) := by
  obtain ⟨hleft, hright, hcross⟩ := List.pairwise_append.mp h
  obtain ⟨ha, hright⟩ := List.pairwise_cons.mp hright
  exact ⟨hleft, hright, fun x hx => hcross x hx a List.mem_cons_self, ha⟩

omit [DecidableRel lt] in
theorem lt_of_left (hS : StrictWeakOn lt S) (h : Sorted lt key (node left a right).toList)
    (hkeys : ∀ x ∈ (node left a right).toList, S (key x)) (hk : S k) (hlt : lt (key a) k) :
    ∀ x ∈ left.toList, lt (key x) k := by
  intro x hx
  refine hS.trans _ _ _ (hkeys x ?_) (hkeys a ?_) hk ((sorted_node h).2.2.1 x hx) hlt
  · exact mem_toList_node.mpr (Or.inl hx)
  · exact mem_toList_node.mpr (Or.inr (Or.inl rfl))

/-- The elements below a key come first. -/
theorem takeWhile_node (hS : StrictWeakOn lt S) (h : Sorted lt key (node left a right).toList)
    (hkeys : ∀ x ∈ (node left a right).toList, S (key x)) (hk : S k) :
    ((node left a right).toList.takeWhile (fun x => lt (key x) k) =
        if lt (key a) k then left.toList ++ a :: right.toList.takeWhile (fun x => lt (key x) k)
        else left.toList.takeWhile (fun x => lt (key x) k)) ∧
      (node left a right).toList.dropWhile (fun x => lt (key x) k) =
        if lt (key a) k then right.toList.dropWhile (fun x => lt (key x) k)
        else left.toList.dropWhile (fun x => lt (key x) k) ++ a :: right.toList := by
  rw [toList]
  by_cases hlt : lt (key a) k
  · have hleft : ∀ x ∈ left.toList, decide (lt (key x) k) = true :=
      fun x hx => decide_eq_true (lt_of_left hS h hkeys hk hlt x hx)
    rw [if_pos hlt, if_pos hlt, List.takeWhile_append_of_pos hleft,
      List.dropWhile_append_of_pos hleft, List.takeWhile_cons, List.dropWhile_cons,
      if_pos (decide_eq_true hlt), if_pos (decide_eq_true hlt)]
    exact ⟨rfl, rfl⟩
  · have ha : ¬ decide (lt (key a) k) = true := fun hd => hlt (of_decide_eq_true hd)
    rw [if_neg hlt, if_neg hlt, List.takeWhile_append, List.dropWhile_append, List.takeWhile_cons,
      List.dropWhile_cons, if_neg ha, if_neg ha]
    constructor
    · split
      · rename_i hlen
        rw [List.append_nil]
        exact ((List.takeWhile_prefix _).eq_of_length hlen).symm
      · rfl
    · split
      · rename_i hempty
        rw [List.isEmpty_iff.mp hempty]
        rfl
      · rfl

theorem lowerBound_eq (hS : StrictWeakOn lt S) (h : Sorted lt key t.toList)
    (hkeys : ∀ x ∈ t.toList, S (key x)) (hk : S k) :
    t.lowerBound lt key k = (t.toList.dropWhile (fun x => lt (key x) k)).head? := by
  induction t with
  | nil => rfl
  | node left a right ihl ihr =>
    obtain ⟨hleft, hright, -, -⟩ := sorted_node h
    have ihl := ihl hleft fun x hx => hkeys x (mem_toList_node.mpr (Or.inl hx))
    have ihr := ihr hright fun x hx => hkeys x (mem_toList_node.mpr (Or.inr (Or.inr hx)))
    rw [(takeWhile_node hS h hkeys hk).2, lowerBound]
    by_cases hlt : lt (key a) k
    · rw [if_pos hlt, if_pos hlt, ihr]
    · rw [if_neg hlt, if_neg hlt, ihl, List.head?_append]
      cases (left.toList.dropWhile (fun x => lt (key x) k)).head? <;> rfl

theorem insertBefore_eq (hS : StrictWeakOn lt S) {b : α} (h : Sorted lt key t.toList)
    (hkeys : ∀ x ∈ t.toList, S (key x)) (hb : S (key b)) :
    t.insertBefore lt key b = t.toList.takeWhile (fun x => lt (key x) (key b)) ++
      b :: t.toList.dropWhile (fun x => lt (key x) (key b)) := by
  induction t with
  | nil => rfl
  | node left a right ihl ihr =>
    obtain ⟨hleft, hright, -, -⟩ := sorted_node h
    have ihl := ihl hleft fun x hx => hkeys x (mem_toList_node.mpr (Or.inl hx))
    have ihr := ihr hright fun x hx => hkeys x (mem_toList_node.mpr (Or.inr (Or.inr hx)))
    obtain ⟨htake, hdrop⟩ := takeWhile_node hS h hkeys hb
    rw [htake, hdrop, insertBefore]
    by_cases hlt : lt (key a) (key b)
    · rw [if_pos hlt, if_pos hlt, if_pos hlt, ihr]
      simp only [List.append_assoc, List.cons_append]
    · rw [if_neg hlt, if_neg hlt, if_neg hlt, ihl]
      simp only [List.append_assoc, List.cons_append]

theorem eraseBound_eq (hS : StrictWeakOn lt S) (h : Sorted lt key t.toList)
    (hkeys : ∀ x ∈ t.toList, S (key x)) (hk : S k) :
    t.eraseBound lt key k = t.toList.takeWhile (fun x => lt (key x) k) ++
      (t.toList.dropWhile (fun x => lt (key x) k)).tail := by
  induction t with
  | nil => rfl
  | node left a right ihl ihr =>
    obtain ⟨hleft, hright, -, -⟩ := sorted_node h
    have hleftKeys : ∀ x ∈ left.toList, S (key x) :=
      fun x hx => hkeys x (mem_toList_node.mpr (Or.inl hx))
    have ihl := ihl hleft hleftKeys
    have ihr := ihr hright fun x hx => hkeys x (mem_toList_node.mpr (Or.inr (Or.inr hx)))
    obtain ⟨htake, hdrop⟩ := takeWhile_node hS h hkeys hk
    rw [htake, hdrop, eraseBound]
    by_cases hlt : lt (key a) k
    · rw [if_pos hlt, if_pos hlt, if_pos hlt, ihr]
      simp only [List.append_assoc, List.cons_append]
    · rw [if_neg hlt, if_neg hlt, if_neg hlt, ihl, lowerBound_eq hS hleft hleftKeys hk]
      cases hbound : left.toList.dropWhile (fun x => lt (key x) k) with
      | nil =>
        have hall : left.toList.takeWhile (fun x => lt (key x) k) = left.toList := by
          have happend := List.takeWhile_append_dropWhile (l := left.toList)
            (p := fun x => decide (lt (key x) k))
          rwa [hbound, List.append_nil] at happend
        rw [hall]
        rfl
      | cons x l =>
        simp only [List.head?_cons, Option.isSome_some, if_true, List.tail_cons, List.append_assoc,
          List.cons_append]

theorem Sorted.not_lt_of_mem_dropWhile (hS : StrictWeakOn lt S) {l : List α} (h : Sorted lt key l)
    (hkeys : ∀ x ∈ l, S (key x)) (hk : S k) {x : α}
    (hx : x ∈ l.dropWhile (fun x => lt (key x) k)) : ¬ lt (key x) k := by
  induction l with
  | nil => cases hx
  | cons a l ih =>
    obtain ⟨ha, hl⟩ := List.pairwise_cons.mp h
    rw [List.dropWhile_cons] at hx
    by_cases hlt : lt (key a) k
    · rw [if_pos (decide_eq_true hlt)] at hx
      exact ih hl (fun y hy => hkeys y (List.mem_cons_of_mem _ hy)) hx
    · rw [if_neg fun hd => hlt (of_decide_eq_true hd)] at hx
      rcases List.mem_cons.mp hx with rfl | hmem
      · exact hlt
      · intro hxk
        exact hlt (hS.trans _ _ _ (hkeys a List.mem_cons_self) (hkeys x hx) hk (ha x hmem) hxk)

theorem lt_of_mem_takeWhile {l : List α} {x : α} (hx : x ∈ l.takeWhile (fun x => lt (key x) k)) :
    lt (key x) k := by
  have hd := List.mem_takeWhile_imp hx
  exact of_decide_eq_true hd

/-- A search finds the element with an equivalent key, if there is one. -/
theorem find_eq_some_iff (hS : StrictWeakOn lt S) (h : Sorted lt key t.toList)
    (hkeys : ∀ x ∈ t.toList, S (key x)) (hk : S k) :
    t.find lt key k = some a ↔ a ∈ t.toList ∧ ¬ lt (key a) k ∧ ¬ lt k (key a) := by
  have hsplit := List.takeWhile_append_dropWhile (l := t.toList)
    (p := fun x => decide (lt (key x) k))
  have hdrop := fun x hx => h.not_lt_of_mem_dropWhile hS hkeys hk (x := x) hx
  rw [find, lowerBound_eq hS h hkeys hk, Option.filter_eq_some_iff, decide_eq_true_eq]
  constructor
  · rintro ⟨hhead, hnot⟩
    have hmem : a ∈ t.toList.dropWhile (fun x => lt (key x) k) := List.mem_of_mem_head? hhead
    exact ⟨(List.dropWhile_sublist _).subset hmem, hdrop a hmem, hnot⟩
  · rintro ⟨hmem, hbelow, habove⟩
    refine ⟨?_, habove⟩
    rw [← hsplit] at hmem
    rcases List.mem_append.mp hmem with htake | hrest
    · exact absurd (lt_of_mem_takeWhile htake) hbelow
    · cases hlist : t.toList.dropWhile (fun x => lt (key x) k) with
      | nil =>
        rw [hlist] at hrest
        cases hrest
      | cons x l =>
        rw [hlist] at hrest
        have hx : x ∈ t.toList.dropWhile (fun x => lt (key x) k) := hlist ▸ List.mem_cons_self
        rcases List.mem_cons.mp hrest with rfl | hlater
        · rfl
        · -- the first one would be below an equivalent of the key
          have hsorted : Sorted lt key (x :: l) := hlist ▸ h.sublist (List.dropWhile_sublist _)
          have hxa := (List.pairwise_cons.mp hsorted).1 a hlater
          have hxS := hkeys x ((List.dropWhile_sublist _).subset hx)
          have haS := hkeys a
            ((List.dropWhile_sublist _).subset (hlist ▸ List.mem_cons_of_mem x hlater))
          rcases hS.weak _ _ _ hxS hk haS hxa with hbefore | hafter
          · exact absurd hbefore (hdrop x hx)
          · exact absurd hafter habove

theorem Sorted.insertBefore (hS : StrictWeakOn lt S) {b : α} (h : Sorted lt key t.toList)
    (hkeys : ∀ x ∈ t.toList, S (key x)) (hb : S (key b))
    (hnew : ∀ x ∈ t.toList, lt (key x) (key b) ∨ lt (key b) (key x)) :
    Sorted lt key (t.insertBefore lt key b) ∧ (t.insertBefore lt key b).Perm (b :: t.toList) := by
  have hsplit := List.takeWhile_append_dropWhile (l := t.toList)
    (p := fun x => decide (lt (key x) (key b)))
  have hdrop := fun x hx => h.not_lt_of_mem_dropWhile hS hkeys hb (x := x) hx
  rw [insertBefore_eq hS h hkeys hb]
  constructor
  · have hpair := h
    rw [Sorted, ← hsplit] at hpair
    obtain ⟨htake, hrest, hcross⟩ := List.pairwise_append.mp hpair
    refine List.pairwise_append.mpr ⟨htake, List.pairwise_cons.mpr ⟨fun y hy => ?_, hrest⟩,
      fun x hx y hy => ?_⟩
    · exact (hnew y ((List.dropWhile_sublist _).subset hy)).resolve_left (hdrop y hy)
    · rcases List.mem_cons.mp hy with rfl | hy
      · exact lt_of_mem_takeWhile hx
      · exact hcross x hx y hy
  · refine List.perm_middle.trans ?_
    rw [hsplit]

theorem Sorted.eraseBound (hS : StrictWeakOn lt S) (h : Sorted lt key t.toList)
    (hkeys : ∀ x ∈ t.toList, S (key x)) (hk : S k) (hfind : t.find lt key k = some a) :
    Sorted lt key (t.eraseBound lt key k) ∧ (a :: t.eraseBound lt key k).Perm t.toList := by
  have hsplit := List.takeWhile_append_dropWhile (l := t.toList)
    (p := fun x => decide (lt (key x) k))
  rw [find, lowerBound_eq hS h hkeys hk, Option.filter_eq_some_iff] at hfind
  rw [eraseBound_eq hS h hkeys hk]
  have hcons := List.cons_head?_tail hfind.1
  constructor
  · refine h.sublist ?_
    conv_rhs => rw [← hsplit]
    exact List.Sublist.append_left (List.tail_sublist _) _
  · refine List.perm_middle.symm.trans ?_
    rw [hcons, hsplit]

end Search

end Tree

end PerchWebrtc
