import Mathlib

/-!
# Priority queues over the heap algorithms

A priority queue keeps its elements in a container that the heap algorithms of a standard
library order, so that a greatest one stands in front.

* `HeapAlgorithms`: what the algorithms promise, whatever the layout they choose;
* `push`, `pop`: the operations of the queue;
* `popWhile_spec`: what comes out of a heap one after the other comes out in order;
* `sorted`: the algorithms of a container that is kept sorted.
-/

namespace PerchWebrtc.Framework

/-- The heap algorithms for a comparison: `pushHeap` puts the last element in its place,
`popHeap` moves the first to the end, and `makeHeap` orders a container from scratch. -/
structure HeapAlgorithms {α : Type*} (lt : α → α → Prop) where
  IsHeap : List α → Prop
  pushHeap : List α → List α
  popHeap : List α → List α
  makeHeap : List α → List α
  isHeap_nil : IsHeap []
  front_max {a : α} {c : List α} : IsHeap (a :: c) → ∀ b ∈ c, ¬ lt a b
  pushHeap_perm (c : List α) : (pushHeap c).Perm c
  pushHeap_isHeap {c : List α} (a : α) : IsHeap c → IsHeap (pushHeap (c ++ [a]))
  popHeap_front {a : α} {c : List α} : IsHeap (a :: c) →
    ∃ c', popHeap (a :: c) = c' ++ [a] ∧ c'.Perm c ∧ IsHeap c'
  makeHeap_perm (c : List α) : (makeHeap c).Perm c
  makeHeap_isHeap (c : List α) : IsHeap (makeHeap c)

namespace HeapAlgorithms

variable {α : Type*} {lt : α → α → Prop} (H : HeapAlgorithms lt)

def push (c : List α) (a : α) : List α := H.pushHeap (c ++ [a])

def pop (c : List α) : List α := (H.popHeap c).dropLast

/-- The elements that leave while the front one is to leave, and those that stay. -/
def popWhile (leaves : α → Bool) : Nat → List α → List α × List α
  | 0, c => ([], c)
  | _ + 1, [] => ([], [])
  | n + 1, a :: c =>
    if leaves a then
      let r := popWhile leaves n (H.pop (a :: c))
      (a :: r.1, r.2)
    else ([], a :: c)

variable {H} {a : α} {c : List α}

theorem push_perm : (H.push c a).Perm (c ++ [a]) := H.pushHeap_perm _

theorem pop_perm (h : H.IsHeap (a :: c)) : (H.pop (a :: c)).Perm c := by
  obtain ⟨c', hc', hperm, -⟩ := H.popHeap_front h
  rw [pop, hc', List.dropLast_concat]
  exact hperm

theorem pop_isHeap (h : H.IsHeap (a :: c)) : H.IsHeap (H.pop (a :: c)) := by
  obtain ⟨c', hc', -, hheap⟩ := H.popHeap_front h
  rw [pop, hc', List.dropLast_concat]
  exact hheap

/-- What came out, in order: no element came out before a greater one. -/
structure PoppedWhile (H : HeapAlgorithms lt) (leaves : α → Bool) (c out rest : List α) : Prop where
  isHeap : H.IsHeap rest
  perm : (out ++ rest).Perm c
  left : ∀ a ∈ out, leaves a = true
  ordered : out.Pairwise fun a b => ¬ lt a b
  first : ∀ a ∈ out, ∀ b ∈ rest, ¬ lt a b
  stays : ∀ a ∈ rest.head?, leaves a = false

theorem popWhile_spec (leaves : α → Bool) : ∀ {n : Nat} {c : List α}, H.IsHeap c → c.length ≤ n →
    PoppedWhile H leaves c (H.popWhile leaves n c).1 (H.popWhile leaves n c).2
  | 0, c, h, hn => by
    obtain rfl := List.length_eq_zero_iff.mp (Nat.le_zero.mp hn)
    exact ⟨h, .refl [], by simp [popWhile], .nil, by simp [popWhile], by simp [popWhile]⟩
  | n + 1, [], h, _ => ⟨h, .refl [], by simp [popWhile], .nil, by simp [popWhile], by simp [popWhile]⟩
  | n + 1, a :: c, h, hn => by
    by_cases ha : leaves a = true
    · have hlen : (H.pop (a :: c)).length ≤ n := by
        rw [(pop_perm h).length_eq]
        exact Nat.le_of_succ_le_succ hn
      have ih := popWhile_spec leaves (pop_isHeap h) hlen
      simp only [popWhile, if_pos ha]
      generalize H.popWhile leaves n (H.pop (a :: c)) = r at ih
      have hmem : ∀ b ∈ r.1 ++ r.2, ¬ lt a b := fun b hb =>
        H.front_max h b ((pop_perm h).mem_iff.mp (ih.perm.mem_iff.mp hb))
      refine ⟨ih.isHeap, (ih.perm.trans (pop_perm h)).cons a, ?_, ?_, ?_, ih.stays⟩
      · rintro b (_ | ⟨_, hb⟩)
        · exact ha
        · exact ih.left b hb
      · exact .cons (fun b hb => hmem b (List.mem_append_left _ hb)) ih.ordered
      · rintro b (_ | ⟨_, hb⟩)
        · exact fun d hd => hmem d (List.mem_append_right _ hd)
        · exact ih.first b hb
    · simp only [popWhile, if_neg ha]
      refine ⟨h, .refl _, by simp, .nil, by simp, ?_⟩
      intro b hb
      obtain rfl := Option.some.inj hb
      exact Bool.not_eq_true _ |>.mp ha

/-- A container that is kept sorted, the greatest first. -/
def sorted [DecidableRel lt] (total : ∀ a b, ¬ lt a b ∨ ¬ lt b a)
    (trans : ∀ a b c, ¬ lt a b → ¬ lt b c → ¬ lt a c) : HeapAlgorithms lt :=
  have : Std.Total fun a b => ¬ lt a b := ⟨total⟩
  have : IsTrans α fun a b => ¬ lt a b := ⟨trans⟩
  { IsHeap := List.Pairwise fun a b => ¬ lt a b
    pushHeap := List.insertionSort fun a b => ¬ lt a b
    popHeap := fun c => c.drop 1 ++ c.take 1
    makeHeap := List.insertionSort fun a b => ¬ lt a b
    isHeap_nil := .nil
    front_max := fun h => (List.pairwise_cons.mp h).1
    pushHeap_perm := List.perm_insertionSort _
    pushHeap_isHeap := fun _ _ => List.pairwise_insertionSort _ _
    popHeap_front := fun {_ c} h => ⟨c, rfl, .refl c, (List.pairwise_cons.mp h).2⟩
    makeHeap_perm := List.perm_insertionSort _
    makeHeap_isHeap := List.pairwise_insertionSort _ }

end HeapAlgorithms

end PerchWebrtc.Framework
