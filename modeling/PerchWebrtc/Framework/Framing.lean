import Mathlib

/-!
# Streams of frames

A frame says its own size in its first elements, so a receiver can cut a stream into the
frames that were sent, wherever the stream was broken on the way.

* `Framer`: the number of elements that tell the size, and the size;
* `split`: the frames that a stream starts with, and the rest, which is not a whole frame;
* `flatten_split`, `split_flatten_append`: it loses nothing, and gives back frames as they were;
* `prefix_of_flatten`: what has been taken from a stream of frames is the first of them.
-/

namespace PerchWebrtc.Framework

/-- A way to tell where the first frame of a stream ends. -/
structure Framer (α : Type*) where
  header : Nat
  size : List α → Nat
  header_pos : 0 < header
  header_le : ∀ s, header ≤ size s
  size_append : ∀ {s} (t : List α), header ≤ s.length → size (s ++ t) = size s

namespace Framer

variable {α : Type*} (F : Framer α) {s t : List α}

/-- The stream starts with a whole frame. -/
def Complete (s : List α) : Prop := F.header ≤ s.length ∧ F.size s ≤ s.length

instance : DecidablePred F.Complete := fun _ => inferInstanceAs (Decidable (_ ∧ _))

/-- The list is one frame. -/
def IsFrame (s : List α) : Prop := F.header ≤ s.length ∧ F.size s = s.length

/-- The frames at the start of the stream, and what is left. -/
def split (s : List α) : List (List α) × List α :=
  if F.Complete s then
    let r := split (s.drop (F.size s))
    (s.take (F.size s) :: r.1, r.2)
  else ([], s)
termination_by s.length
decreasing_by
  have hpos := F.header_pos
  have hle := F.header_le s
  rw [List.length_drop]
  unfold Complete at *
  omega

theorem split_of_complete (h : F.Complete s) :
    F.split s = (s.take (F.size s) :: (F.split (s.drop (F.size s))).1,
      (F.split (s.drop (F.size s))).2) := by
  rw [split, if_pos h]

theorem split_of_not_complete (h : ¬ F.Complete s) : F.split s = ([], s) := by
  rw [split, if_neg h]

theorem not_complete_nil : ¬ F.Complete [] := fun h => absurd h.1 (Nat.not_le.mpr F.header_pos)

/-- An incomplete frame is shorter than any bound of the frames. -/
theorem length_lt_of_not_complete {bound : Nat} (hbound : ∀ s, F.size s < bound)
    (h : ¬ F.Complete s) : s.length < bound := by
  have hsize := hbound s
  have hle := F.header_le s
  by_contra hlen
  exact h ⟨by omega, by omega⟩

theorem IsFrame.complete_append (h : F.IsFrame s) (t : List α) : F.Complete (s ++ t) := by
  rw [Complete, F.size_append t h.1, h.2, List.length_append]
  exact ⟨h.1.trans (Nat.le_add_right _ _), Nat.le_add_right _ _⟩

theorem Complete.isFrame_take (h : F.Complete s) : F.IsFrame (s.take (F.size s)) := by
  have hle := F.header_le s
  have hlen : (s.take (F.size s)).length = F.size s := List.length_take_of_le h.2
  have hsize := F.size_append (s.drop (F.size s)) (hle.trans hlen.ge)
  rw [List.take_append_drop] at hsize
  exact ⟨hle.trans hlen.ge, hsize.symm.trans hlen.symm⟩

/-! ## Cutting a stream -/

theorem flatten_split (s : List α) : (F.split s).1.flatten ++ (F.split s).2 = s := by
  induction s using split.induct F with
  | case1 s h ih =>
    rw [F.split_of_complete h, List.flatten_cons, List.append_assoc, ih, List.take_append_drop]
  | case2 s h =>
    rw [F.split_of_not_complete h]
    rfl

theorem not_complete_rest (s : List α) : ¬ F.Complete (F.split s).2 := by
  induction s using split.induct F with
  | case1 s h ih =>
    rw [F.split_of_complete h]
    exact ih
  | case2 s h =>
    rw [F.split_of_not_complete h]
    exact h

theorem isFrame_of_mem_split : ∀ {s : List α}, ∀ f ∈ (F.split s).1, F.IsFrame f := by
  intro s
  induction s using split.induct F with
  | case1 s h ih =>
    rw [F.split_of_complete h]
    intro f hf
    obtain rfl | hf := List.mem_cons.mp hf
    · exact h.isFrame_take
    · exact ih f hf
  | case2 s h =>
    rw [F.split_of_not_complete h]
    simp

theorem split_frame_append (h : F.IsFrame s) (t : List α) :
    F.split (s ++ t) = (s :: (F.split t).1, (F.split t).2) := by
  have hsize : F.size (s ++ t) = s.length := (F.size_append t h.1).trans h.2
  rw [F.split_of_complete (h.complete_append F t), hsize, List.take_left, List.drop_left]

/-- Frames come out as they went in. -/
theorem split_flatten_append {frames : List (List α)} (h : ∀ f ∈ frames, F.IsFrame f) (t : List α) :
    F.split (frames.flatten ++ t) = (frames ++ (F.split t).1, (F.split t).2) := by
  induction frames with
  | nil => rfl
  | cons f frames ih =>
    rw [List.flatten_cons, List.append_assoc, F.split_frame_append (h f (by simp)),
      ih fun g hg => h g (List.mem_cons_of_mem f hg)]
    rfl

/-! ## A stream that is on its way -/

section Transit

variable {sent got : List (List α)} {transit : List α}

/-- Frames that were taken from a stream of frames are the first of them, and the others are
those on the way. -/
theorem sent_eq_of_flatten (hsent : ∀ f ∈ sent, F.IsFrame f) (hgot : ∀ f ∈ got, F.IsFrame f)
    (h : sent.flatten = got.flatten ++ transit) : sent = got ++ (F.split transit).1 := by
  have hsplit := F.split_flatten_append hsent []
  rw [List.append_nil, h, F.split_flatten_append hgot,
    F.split_of_not_complete F.not_complete_nil, List.append_nil] at hsplit
  exact (congrArg Prod.fst hsplit).symm

theorem prefix_of_flatten (hsent : ∀ f ∈ sent, F.IsFrame f) (hgot : ∀ f ∈ got, F.IsFrame f)
    (h : sent.flatten = got.flatten ++ transit) : got <+: sent :=
  ⟨_, (F.sent_eq_of_flatten hsent hgot h).symm⟩

/-- All of them, if what is left cannot be a frame. -/
theorem eq_of_flatten (hsent : ∀ f ∈ sent, F.IsFrame f) (hgot : ∀ f ∈ got, F.IsFrame f)
    (h : sent.flatten = got.flatten ++ transit) (hrest : ¬ F.Complete transit) : got = sent := by
  rw [F.sent_eq_of_flatten hsent hgot h, F.split_of_not_complete hrest, List.append_nil]

end Transit

end Framer

end PerchWebrtc.Framework
