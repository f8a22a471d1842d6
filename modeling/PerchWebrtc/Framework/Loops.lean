import Mathlib.Init

/-!
# Loops that come to an end

A loop whose rounds may themselves not come to an end, with fuel for its rounds: the result
is `none` where the fuel, or that of a loop inside it, is used up.

* `loop_spec`: a loop with an invariant and a measure that decreases ends;
* `loop_post`: what an invariant says of a loop that ends;
* `loop_eq`: what such a loop gives, by a function that counts the rounds;
* `Settles.map`, `Settles.bind`, `loop_settles`: computations whose result is the same with
  any fuel from a bound on.
-/

namespace PerchWebrtc.Framework

/-- The rounds of a loop: a round ends the loop with a result, or goes on with a state. -/
def loop {σ ρ : Type*} (round : σ → Option (ρ ⊕ σ)) : Nat → σ → Option ρ
  | 0, _ => none
  | fuel + 1, s =>
    match round s with
    | none => none
    | some (.inl r) => some r
    | some (.inr s') => loop round fuel s'

/-- A round ends the loop with a good result, or keeps the invariant and decreases the
measure. -/
def Advances {σ ρ : Type*} (inv : σ → Prop) (measure : σ → Nat) (post : ρ → Prop)
    (round : σ → Option (ρ ⊕ σ)) (s : σ) : Prop :=
  (∃ r, round s = some (.inl r) ∧ post r) ∨
    ∃ s', round s = some (.inr s') ∧ inv s' ∧ measure s' < measure s

theorem loop_spec {σ ρ : Type*} {round : σ → Option (ρ ⊕ σ)} {inv : σ → Prop} {measure : σ → Nat}
    {post : ρ → Prop} (h : ∀ s, inv s → Advances inv measure post round s) :
    ∀ {fuel : Nat} {s : σ}, inv s → measure s < fuel → ∃ r, loop round fuel s = some r ∧ post r
  | 0, _, _, hfuel => absurd hfuel (Nat.not_lt_zero _)
  | fuel + 1, s, hs, hfuel => by
    unfold loop
    rcases h s hs with ⟨r, hround, hpost⟩ | ⟨s', hround, hs', hless⟩
    · rw [hround]
      exact ⟨r, rfl, hpost⟩
    · rw [hround]
      exact loop_spec h hs' (Nat.lt_of_lt_of_le hless (Nat.le_of_lt_succ hfuel))

/-- What holds of the result if the loop ends. -/
theorem loop_post {σ ρ : Type*} {round : σ → Option (ρ ⊕ σ)} {inv : σ → Prop} {post : ρ → Prop}
    (h : ∀ s x, inv s → round s = some x → Sum.elim post inv x) :
    ∀ {fuel : Nat} {s : σ} {r : ρ}, inv s → loop round fuel s = some r → post r
  | 0, _, _, _, hr => nomatch hr
  | fuel + 1, s, r, hs, hr => by
    unfold loop at hr
    cases hround : round s with
    | none =>
      rw [hround] at hr
      cases hr
    | some x =>
      rw [hround] at hr
      have hx := h s x hs hround
      cases x with
      | inl r' =>
        obtain rfl : r' = r := Option.some.inj hr
        exact hx
      | inr s' => exact loop_post h hx hr

/-- The result is that of a function which takes the same rounds and has an answer for every
number of them, if the number is large enough. -/
theorem loop_eq {σ ρ : Type*} {round : σ → Option (ρ ⊕ σ)} {next : σ → ρ ⊕ σ} {f : Nat → σ → ρ}
    {inv : σ → Prop} {measure : σ → Nat}
    (hf : ∀ n s, f (n + 1) s = (next s).elim id (f n))
    (hround : ∀ s, inv s → round s = some (next s))
    (hnext : ∀ s s', inv s → next s = .inr s' → inv s' ∧ measure s' < measure s) :
    ∀ {fuel n : Nat} {s : σ}, inv s → measure s < fuel → measure s < n →
      loop round fuel s = some (f n s)
  | 0, _, _, _, hfuel, _ => absurd hfuel (Nat.not_lt_zero _)
  | _, 0, _, _, _, hn => absurd hn (Nat.not_lt_zero _)
  | fuel + 1, n + 1, s, hs, hfuel, hn => by
    rw [loop, hround s hs, hf]
    cases h : next s with
    | inl r => rfl
    | inr s' =>
      obtain ⟨hs', hless⟩ := hnext s s' hs h
      exact loop_eq hf hround hnext hs' (Nat.lt_of_lt_of_le hless (Nat.le_of_lt_succ hfuel))
        (Nat.lt_of_lt_of_le hless (Nat.le_of_lt_succ hn))

/-! ## Results that no fuel changes -/

/-- With fuel from the bound on there is a result, always the same one, and it is good. -/
def Settles {ρ : Type*} (bound : Nat) (f : Nat → Option ρ) (post : ρ → Prop) : Prop :=
  ∃ r, post r ∧ ∀ fuel ≥ bound, f fuel = some r

namespace Settles

variable {ρ τ : Type*} {bound : Nat} {f : Nat → Option ρ} {post post' : ρ → Prop}

theorem pure {r : ρ} (h : post r) : Settles bound (fun _ => some r) post :=
  ⟨r, h, fun _ _ => rfl⟩

theorem mono (h : Settles bound f post) (hpost : ∀ r, post r → post' r) :
    Settles bound f post' :=
  let ⟨r, hr, hf⟩ := h
  ⟨r, hpost r hr, hf⟩

theorem bind {g : Nat → ρ → Option τ} {goal : τ → Prop} (h : Settles bound f post)
    (hg : ∀ r, post r → Settles bound (fun fuel => g fuel r) goal) :
    Settles bound (fun fuel => (f fuel).bind (g fuel)) goal := by
  obtain ⟨r, hr, hf⟩ := h
  obtain ⟨t, ht, hgr⟩ := hg r hr
  refine ⟨t, ht, fun fuel hfuel => ?_⟩
  show (f fuel).bind (g fuel) = some t
  rw [hf fuel hfuel, Option.bind_some]
  exact hgr fuel hfuel

theorem map {g : ρ → τ} {goal : τ → Prop} (h : Settles bound f post)
    (hg : ∀ r, post r → goal (g r)) : Settles bound (fun fuel => (f fuel).map g) goal := by
  obtain ⟨r, hr, hf⟩ := h
  refine ⟨g r, hg r hr, fun fuel hfuel => ?_⟩
  show (f fuel).map g = some (g r)
  rw [hf fuel hfuel, Option.map_some]

end Settles

/-- A loop with an invariant and a measure below the bound, by induction on the measure. -/
theorem loop_settles {σ ρ : Type*} {bound : Nat} {rounds : Nat → σ → Option (ρ ⊕ σ)}
    {inv : σ → Prop} {measure : σ → Nat} {post : ρ → Prop}
    (h : ∀ s, inv s → Settles bound (fun fuel => rounds fuel s)
      (Sum.elim post fun s' => inv s' ∧ measure s' < measure s))
    {s : σ} (hs : inv s) (hbound : measure s < bound) :
    Settles bound (fun fuel => loop (rounds fuel) fuel s) post := by
  suffices hloop : ∀ n s, inv s → measure s < n →
      ∃ r, post r ∧ ∀ fuel ≥ bound, ∀ k ≥ n, loop (rounds fuel) k s = some r by
    obtain ⟨r, hr, hloop⟩ := hloop bound s hs hbound
    exact ⟨r, hr, fun fuel hfuel => hloop fuel hfuel fuel hfuel⟩
  intro n
  induction n with
  | zero => exact fun _ _ hn => absurd hn (Nat.not_lt_zero _)
  | succ n ih =>
    intro s hs hn
    obtain ⟨x, hx, hround⟩ := h s hs
    cases x with
    | inl r =>
      refine ⟨r, hx, fun fuel hfuel k hk => ?_⟩
      obtain ⟨k, rfl⟩ := Nat.exists_eq_add_of_le' (Nat.le_trans (Nat.le_add_left 1 n) hk)
      have hround : rounds fuel s = _ := hround fuel hfuel
      rw [loop, hround]
    | inr s' =>
      obtain ⟨r, hr, hloop⟩ := ih s' hx.1 (Nat.lt_of_lt_of_le hx.2 (Nat.le_of_lt_succ hn))
      refine ⟨r, hr, fun fuel hfuel k hk => ?_⟩
      obtain ⟨k, rfl⟩ := Nat.exists_eq_add_of_le' (Nat.le_trans (Nat.le_add_left 1 n) hk)
      have hround : rounds fuel s = _ := hround fuel hfuel
      rw [loop, hround]
      exact hloop fuel hfuel _ (by omega)

end PerchWebrtc.Framework
