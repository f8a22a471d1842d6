import Mathlib

/-!
# Branch and bound

A tree of partial solutions whose leaves are the solutions, and a search that looks at the
cheaper of two branches first, and at the other one only if it may be as good.

* `root_le_of_mem_leaves`: a cost that grows along the branches is a bound of every leaf;
* `search_mem`, `search_le`: for such a cost the search finds a leaf of minimal cost.
-/

namespace PerchWebrtc.Framework

/-- A tree whose nodes have one or two children. -/
inductive SearchTree (α : Type*) where
  | leaf (a : α)
  | only (a : α) (child : SearchTree α)
  | fork (a : α) (left right : SearchTree α)

namespace SearchTree

variable {α β : Type*} [LinearOrder β] (cost : α → β)

def root : SearchTree α → α
  | .leaf a | .only a _ | .fork a _ _ => a

def leaves : SearchTree α → List α
  | .leaf a => [a]
  | .only _ child => child.leaves
  | .fork _ left right => left.leaves ++ right.leaves

/-- The better one of two solutions; the second one counts only if its branch may be as good
as the first. -/
def better (first bound second : α) : α :=
  if cost bound ≤ cost first then
    if cost second < cost first then second else first
  else first

def search : SearchTree α → α
  | .leaf a => a
  | .only _ child => search child
  | .fork _ left right =>
    if cost left.root ≤ cost right.root then better cost (search left) right.root (search right)
    else better cost (search right) left.root (search left)

/-- No child costs less than its parent. -/
def Grows : SearchTree α → Prop
  | .leaf _ => True
  | .only a child => cost a ≤ cost child.root ∧ child.Grows
  | .fork a left right =>
    (cost a ≤ cost left.root ∧ left.Grows) ∧ cost a ≤ cost right.root ∧ right.Grows

variable {cost}

theorem root_le_of_mem_leaves : ∀ {t : SearchTree α}, t.Grows cost →
    ∀ x ∈ t.leaves, cost t.root ≤ cost x
  | .leaf a, _, x, hx => by rw [List.mem_singleton.mp hx]; exact le_rfl
  | .only a child, h, x, hx => h.1.trans (root_le_of_mem_leaves h.2 x hx)
  | .fork a left right, h, x, hx => by
    rcases List.mem_append.mp hx with hx | hx
    · exact h.1.1.trans (root_le_of_mem_leaves h.1.2 x hx)
    · exact h.2.1.trans (root_le_of_mem_leaves h.2.2 x hx)

theorem better_eq (cost : α → β) (first bound second : α) :
    better cost first bound second = first ∨ better cost first bound second = second := by
  unfold better
  split
  · split
    · exact .inr rfl
    · exact .inl rfl
  · exact .inl rfl

theorem better_le_first (first bound second : α) :
    cost (better cost first bound second) ≤ cost first := by
  unfold better
  split
  · split
    · exact le_of_lt ‹_›
    · exact le_rfl
  · exact le_rfl

/-- What is not looked at is not better. -/
theorem better_le_second {first bound second x : α} (hbound : cost bound ≤ cost x)
    (hsecond : cost second ≤ cost x) : cost (better cost first bound second) ≤ cost x := by
  unfold better
  split
  · split
    · exact hsecond
    · exact (not_lt.mp ‹_›).trans hsecond
  · exact (le_of_lt (not_le.mp ‹_›)).trans hbound

theorem search_mem (cost : α → β) : ∀ t : SearchTree α, t.search cost ∈ t.leaves
  | .leaf a => List.mem_singleton_self a
  | .only _ child => search_mem cost child
  | .fork _ left right => by
    have hleft := search_mem cost left
    have hright := search_mem cost right
    refine List.mem_append.mpr ?_
    unfold search
    split
    · rcases better_eq cost (search cost left) right.root (search cost right) with h | h
      · exact .inl (by rw [h]; exact hleft)
      · exact .inr (by rw [h]; exact hright)
    · rcases better_eq cost (search cost right) left.root (search cost left) with h | h
      · exact .inr (by rw [h]; exact hright)
      · exact .inl (by rw [h]; exact hleft)

/-- The search finds a leaf of minimal cost. -/
theorem search_le : ∀ {t : SearchTree α}, t.Grows cost →
    ∀ x ∈ t.leaves, cost (t.search cost) ≤ cost x
  | .leaf a, _, x, hx => by rw [List.mem_singleton.mp hx]; exact le_rfl
  | .only _ child, h, x, hx => search_le h.2 x hx
  | .fork _ left right, ⟨⟨_, hleft⟩, _, hright⟩, x, hx => by
    unfold search
    split
    · rcases List.mem_append.mp hx with hx | hx
      · exact (better_le_first _ _ _).trans (search_le hleft x hx)
      · exact better_le_second (root_le_of_mem_leaves hright x hx) (search_le hright x hx)
    · rcases List.mem_append.mp hx with hx | hx
      · exact better_le_second (root_le_of_mem_leaves hleft x hx) (search_le hleft x hx)
      · exact (better_le_first _ _ _).trans (search_le hright x hx)

end SearchTree

end PerchWebrtc.Framework
