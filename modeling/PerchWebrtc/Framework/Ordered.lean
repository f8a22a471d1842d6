import Mathlib

/-!
# Ordered containers

A `std::map` or a `std::set` with a comparison of its own, as the list of its
elements in their order. Keys are the same if neither is less than the other.

* `insert_last`, `insertAtEnd_last`: an element behind all others;
* `above_suffix`, `above_append`: the elements above a key;
* `erase_map`: an element whose key no other has;
* `above_map`: what is above a key, in a list in order;
* `erase_view`, `above_view`: a part of every element, with its key;
* `insertBack`: insertion into a list that is searched from the back;
  `pairwise_insertBack_iff`.
-/

namespace PerchWebrtc.Ordered

variable {α κ : Type*} (lt : κ → κ → Prop) [DecidableRel lt] (key : α → κ)

def Same (a b : κ) : Prop := ¬ lt a b ∧ ¬ lt b a

instance (a b : κ) : Decidable (Same lt a b) := inferInstanceAs (Decidable (_ ∧ _))

def find (k : κ) (l : List α) : Option α := l.find? fun x => Same lt (key x) k

def erase (k : κ) (l : List α) : List α := l.eraseP fun x => Same lt (key x) k

/-- Nothing is inserted if the key is there. -/
def insert (a : α) (l : List α) : List α :=
  if (find lt key (key a) l).isSome then l
  else l.takeWhile (fun x => lt (key x) (key a)) ++ a :: l.dropWhile fun x => lt (key x) (key a)

/-- With the end as the hint, the last element is looked at first. -/
def insertAtEnd (a : α) (l : List α) : List α :=
  if l.getLast?.any fun x => lt (key x) (key a) then l ++ [a] else insert lt key a l

/-- The elements from the `upper_bound` of a key on. -/
def above (k : κ) (l : List α) : List α := l.dropWhile fun x => ¬ lt k (key x)

section Lemmas

variable {lt key} {l : List α}

theorem insert_last {a : α} (h : ∀ x ∈ l, lt (key x) (key a)) : insert lt key a l = l ++ [a] := by
  have hnone : find lt key (key a) l = none :=
    List.find?_eq_none.mpr fun x hx hsame => (of_decide_eq_true hsame).1 (h x hx)
  have hall : ∀ x ∈ l, decide (lt (key x) (key a)) = true := fun x hx => decide_eq_true (h x hx)
  rw [insert, hnone, List.takeWhile_eq_self_iff.mpr hall, List.dropWhile_eq_nil_iff.mpr hall]
  rfl

theorem insertAtEnd_last {a : α} (h : ∀ x ∈ l, lt (key x) (key a)) :
    insertAtEnd lt key a l = l ++ [a] := by
  unfold insertAtEnd
  split
  · rfl
  · exact insert_last h

theorem above_suffix (k : κ) (l : List α) : above lt key k l <:+ l := List.dropWhile_suffix _

/-- The elements that the key is not less than are dropped, up to the first one that it is less
than. -/
theorem above_append {k : κ} {a : α} {front back : List α} (hfront : ∀ x ∈ front, ¬ lt k (key x))
    (ha : lt k (key a)) : above lt key k (front ++ a :: back) = a :: back := by
  unfold above
  rw [List.dropWhile_append_of_pos fun x hx => decide_eq_true (hfront x hx),
    List.dropWhile_cons_of_neg (by simp [ha])]

/-- Nothing but the new element is added. -/
theorem insert_subperm (a : α) (l : List α) : (insert lt key a l).Subperm (a :: l) := by
  unfold insert
  split
  · exact (List.sublist_cons_self a l).subperm
  · refine (List.perm_middle.trans (List.Perm.cons a ?_)).subperm
    rw [List.takeWhile_append_dropWhile]

theorem erase_map {β : Type*} [DecidableEq β] {f : β → α} {k : κ} {b : β} : ∀ {l : List β},
    (∀ x ∈ l, Same lt (key (f x)) k ↔ x = b) → erase lt key k (l.map f) = (l.erase b).map f
  | [], _ => rfl
  | x :: l, h => by
    have ih := erase_map fun y hy => h y (List.mem_cons_of_mem _ hy)
    unfold erase at ih ⊢
    rw [List.map_cons, List.eraseP_cons, List.erase_cons]
    by_cases hx : x = b
    · rw [decide_eq_true ((h x List.mem_cons_self).mpr hx), hx, beq_self_eq_true]
      rfl
    · rw [decide_eq_false (mt (h x List.mem_cons_self).mp hx), beq_eq_false_iff_ne.mpr hx]
      exact congrArg (f x :: ·) ih

theorem erase_of_notMem {k : κ} (h : ∀ x ∈ l, ¬ Same lt (key x) k) : erase lt key k l = l :=
  List.eraseP_of_forall_not fun x hx => decide_eq_true_iff.not.mpr (h x hx)

/-- In a list of which only an end is above the key, that end. -/
theorem above_map {β : Type*} {f : β → α} {k : κ} {p : β → Bool} : ∀ {l : List β},
    l.Pairwise (fun a b => p a = true → p b = true) → (∀ x ∈ l, lt k (key (f x)) ↔ p x = true) →
    above lt key k (l.map f) = (l.filter p).map f
  | [], _, _ => rfl
  | x :: l, hl, h => by
    have hx := h x List.mem_cons_self
    cases hp : p x with
    | true =>
      have hall : ∀ y ∈ x :: l, p y = true := by
        intro y hy
        rcases List.mem_cons.mp hy with rfl | hy
        · exact hp
        · exact List.rel_of_pairwise_cons hl hy hp
      rw [List.filter_eq_self.mpr hall, above, List.map_cons,
        List.dropWhile_cons_of_neg (by simp [hx, hp])]
    | false =>
      rw [List.filter_cons_of_neg (by simp [hp]), above, List.map_cons,
        List.dropWhile_cons_of_pos (by simp [hx, hp])]
      exact above_map hl.of_cons fun y hy => h y (List.mem_cons_of_mem _ hy)

section View

variable {β : Type*} {view : α → β} {key' : β → κ} (hview : ∀ x, key' (view x) = key x)

include hview

/-- What is seen of the elements, with their keys. -/
theorem erase_view (k : κ) (l : List α) :
    (erase lt key k l).map view = erase lt key' k (l.map view) := by
  unfold erase
  rw [List.eraseP_map]
  refine congrArg (List.map view) (congrArg (List.eraseP · l) (funext fun x => ?_))
  simp only [Function.comp_apply, hview]

theorem above_view (k : κ) (l : List α) :
    (above lt key k l).map view = above lt key' k (l.map view) := by
  unfold above
  rw [List.dropWhile_map]
  refine congrArg (List.map view) (congrArg (List.dropWhile · l) (funext fun x => ?_))
  simp only [Function.comp_apply, hview]

end View

end Lemmas

/-! ## Insertion from the back -/

section Back

variable {α β : Type*} [LinearOrder β] (before : α → α → Bool)

/-- Behind the last element that the new one does not come before. -/
def insertBack (a : α) (l : List α) : List α :=
  l.rdropWhile (before a) ++ a :: l.rtakeWhile (before a)

variable {before}

theorem rank_le_getLast (rank : α → β) {l : List α} (hl : l.Pairwise fun x y => rank x ≤ rank y)
    {x : α} (hx : x ∈ l) (hne : l ≠ []) : rank x ≤ rank (l.getLast hne) := by
  rw [← List.dropLast_append_getLast hne] at hl hx
  rcases List.mem_append.mp hx with hx | hx
  · exact (List.pairwise_append.mp hl).2.2 x hx _ (List.mem_singleton_self _)
  · rw [List.mem_singleton.mp hx]

theorem insertBack_perm (a : α) (l : List α) : (insertBack before a l).Perm (a :: l) := by
  have hsplit := @List.rdropWhile_append_rtakeWhile _ (before a) l
  refine List.perm_middle.trans ?_
  rw [hsplit]

/-- A list that is ordered by a rank stays so if and only if the comparison knows
every element of higher rank. -/
theorem pairwise_insertBack_iff (rank : α → β) {a : α} {l : List α}
    (hl : l.Pairwise fun x y => rank x ≤ rank y)
    (hsound : ∀ x ∈ l, before a x = true → rank a ≤ rank x) :
    ((insertBack before a l).Pairwise fun x y => rank x ≤ rank y) ↔
      ∀ x ∈ l, rank a < rank x → before a x = true := by
  have hsplit := @List.rdropWhile_append_rtakeWhile _ (before a) l
  have htake : ∀ x ∈ l.rtakeWhile (before a), before a x = true :=
    fun x hx => List.mem_rtakeWhile_imp hx
  constructor
  · intro h x hx hlt
    rw [← hsplit] at hx
    rcases List.mem_append.mp hx with hx | hx
    · have hle := (List.pairwise_append.mp h).2.2 x hx a List.mem_cons_self
      exact absurd hle (not_le.mpr hlt)
    · exact htake x hx
  · intro hcomplete
    rw [← hsplit] at hl
    obtain ⟨hdrop, hrest, hcross⟩ := List.pairwise_append.mp hl
    refine List.pairwise_append.mpr ⟨hdrop, List.pairwise_cons.mpr ⟨?_, hrest⟩, ?_⟩
    · intro x hx
      exact hsound x ((List.rtakeWhile_suffix (before a) l).subset hx) (htake x hx)
    · have hlow : ∀ x ∈ l.rdropWhile (before a), rank x ≤ rank a := by
        intro x hx
        have hne : l.rdropWhile (before a) ≠ [] := List.ne_nil_of_mem hx
        have hlast := List.rdropWhile_last_not (before a) l hne
        have hlastMem := List.getLast_mem hne
        have hle : rank ((l.rdropWhile (before a)).getLast hne) ≤ rank a := by
          have hmem := (List.rdropWhile_prefix (before a) l).subset hlastMem
          exact not_lt.mp fun hlt => hlast (hcomplete _ hmem hlt)
        exact (rank_le_getLast rank hdrop hx hne).trans hle
      intro x hx y hy
      rcases List.mem_cons.mp hy with rfl | hy
      · exact hlow x hx
      · exact hcross x hx y hy

end Back

end PerchWebrtc.Ordered
