import Mathlib.Init

/-!
# What a computation that may fail ensures of its value

A computation with a state that may fail, or not end, ensures a property if every value that it
returns, from any state, has it. `pure`, `bind` and `foldlM` are the rules for the
ways to put such computations together.
-/

namespace PerchWebrtc.Framework

variable {σ α β : Type}

/-- Every value that `m` returns has the property. -/
def Ensures (m : StateT σ Option α) (P : α → Prop) : Prop :=
  ∀ s a s', m s = some (a, s') → P a

namespace Ensures

variable {m : StateT σ Option α} {P Q : α → Prop}

theorem trivially : Ensures m fun _ => True := fun _ _ _ _ => trivial

protected theorem pure {a : α} (h : P a) : Ensures (pure a : StateT σ Option α) P := by
  intro s b s' hb
  cases hb
  exact h

protected theorem failure : Ensures (failure : StateT σ Option α) P := by
  intro s b s' hb
  cases hb

protected theorem bind {f : α → StateT σ Option β} {R : β → Prop} (hm : Ensures m P)
    (hf : ∀ a, P a → Ensures (f a) R) : Ensures (m >>= f) R := by
  intro s b s'' hb
  change (m s).bind (fun p => f p.1 p.2) = some (b, s'') at hb
  cases hrun : m s with
  | none => simp [hrun] at hb
  | some p =>
    rw [hrun, Option.bind_some] at hb
    exact hf p.1 (hm s p.1 p.2 hrun) p.2 b s'' hb

/-- A rule for a computation whose first part may return anything. -/
theorem bind_any {f : α → StateT σ Option β} {R : β → Prop} (hf : ∀ a, Ensures (f a) R) :
    Ensures (m >>= f) R :=
  Ensures.bind trivially fun a _ => hf a

/-- Each step of a loop keeps the property. -/
theorem foldlM {f : β → α → StateT σ Option β} {I : β → Prop} (items : List α)
    (hf : ∀ b a, I b → Ensures (f b a) I) {b : β} (hb : I b) :
    Ensures (items.foldlM f b) I := by
  induction items generalizing b with
  | nil => exact Ensures.pure hb
  | cons a items ih => exact Ensures.bind (hf b a hb) fun b' hb' => ih hb'

end Ensures

end PerchWebrtc.Framework
