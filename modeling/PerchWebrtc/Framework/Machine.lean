import Mathlib

/-!
# Runs of a deterministic machine

A machine is a step function; an input takes each state to the next one.

* `always_of_along`, `along_of_along`: an invariant that steps under a condition preserve,
  and what such steps do from its states;
* `always_iff_along`: a property that a step keeps exactly if the condition holds;
* `run_iff_along`, `run_invariant`: what holds at the end;
* `run_simulates`: a run as a run of another machine;
* `always_attempt`, `always_attempt_iff`: a machine that may fail does not, if no step fails
  from its invariant.
-/

namespace PerchWebrtc.Machine

variable {σ ι : Type*} (step : σ → ι → σ)

def run (s : σ) (inputs : List ι) : σ := inputs.foldl step s

/-- `P` holds at every step, of the state before it and the input. -/
def Along (P : σ → ι → Prop) : σ → List ι → Prop
  | _, [] => True
  | s, i :: inputs => P s i ∧ Along P (step s i) inputs

/-- `Q` holds in every state of the run, the first one included. -/
def Always (Q : σ → Prop) : σ → List ι → Prop
  | s, [] => Q s
  | s, i :: inputs => Q s ∧ Always Q (step s i) inputs

variable {step} {P : σ → ι → Prop} {Q I : σ → Prop} {inputs : List ι} {s : σ}

theorem Always.start {s : σ} : ∀ {inputs : List ι}, Always step Q s inputs → Q s
  | [], h => h
  | _ :: _, h => h.1

theorem Always.imp {Q' : σ → Prop} (himp : ∀ s, Q s → Q' s) (h : Always step Q s inputs) :
    Always step Q' s inputs := by
  induction inputs generalizing s with
  | nil => exact himp s h
  | cons i inputs ih => exact ⟨himp s h.1, ih h.2⟩

theorem always_of_forall (h : ∀ s, Q s) : ∀ (s : σ) (inputs : List ι), Always step Q s inputs
  | s, [] => h s
  | s, i :: inputs => ⟨h s, always_of_forall h (step s i) inputs⟩

/-- In every prefix of the run. -/
theorem Always.run_take (h : Always step Q s inputs) (n : Nat) :
    Q (run step s (inputs.take n)) := by
  induction inputs generalizing s n with
  | nil =>
    rw [List.take_nil]
    exact h
  | cons i inputs ih =>
    cases n with
    | zero => exact h.1
    | succ n => exact ih h.2 n

instance decidableAlong {P : σ → ι → Prop} [∀ s i, Decidable (P s i)] :
    ∀ (s : σ) (inputs : List ι), Decidable (Along step P s inputs)
  | _, [] => inferInstanceAs (Decidable True)
  | s, i :: inputs =>
    have := decidableAlong (P := P) (step s i) inputs
    inferInstanceAs (Decidable (P s i ∧ Along step P (step s i) inputs))

theorem along_congr {P' : σ → ι → Prop} (h : ∀ s i, P s i ↔ P' s i) :
    Along step P s inputs ↔ Along step P' s inputs := by
  induction inputs generalizing s with
  | nil => exact Iff.rfl
  | cons i inputs ih => exact and_congr (h s i) ih

theorem along_and {P' : σ → ι → Prop} :
    Along step (fun s i => P s i ∧ P' s i) s inputs ↔
      Along step P s inputs ∧ Along step P' s inputs := by
  induction inputs generalizing s with
  | nil => exact iff_of_true trivial ⟨trivial, trivial⟩
  | cons i inputs ih => exact (and_congr_right' ih).trans and_and_and_comm

theorem always_of_along (hstep : ∀ s i, I s → P s i → I (step s i)) (hs : I s)
    (h : Along step P s inputs) : Always step I s inputs := by
  induction inputs generalizing s with
  | nil => exact hs
  | cons i inputs ih => exact ⟨hs, ih (hstep s i hs h.1) h.2⟩

/-- What a step under a condition gives, besides the invariant. -/
theorem along_of_along {F : σ → ι → Prop} (hstep : ∀ s i, I s → P s i → I (step s i) ∧ F s i)
    (hs : I s) (h : Along step P s inputs) : Along step F s inputs := by
  induction inputs generalizing s with
  | nil => trivial
  | cons i inputs ih =>
    obtain ⟨hnext, hfact⟩ := hstep s i hs h.1
    exact ⟨hfact, ih hnext h.2⟩

/-- `I` is an invariant of every run, and from its states a step keeps `Q` if and
only if `P` holds of it. -/
theorem always_iff_along (hinv : ∀ s i, I s → I (step s i))
    (hstep : ∀ s i, I s → Q s → (Q (step s i) ↔ P s i)) (hs : I s) (hq : Q s) :
    Always step Q s inputs ↔ Along step P s inputs := by
  induction inputs generalizing s with
  | nil => exact iff_of_true hq trivial
  | cons i inputs ih =>
    constructor
    · intro h
      have hnext : Q (step s i) := h.2.start
      exact ⟨(hstep s i hs hq).mp hnext, (ih (hinv s i hs) hnext).mp h.2⟩
    · intro h
      have hnext : Q (step s i) := (hstep s i hs hq).mpr h.1
      exact ⟨hq, (ih (hinv s i hs) hnext).mpr h.2⟩

theorem run_append_cons (step : σ → ι → σ) (s : σ) (before : List ι) (i : ι) (after : List ι) :
    run step s (before ++ i :: after) = run step (step (run step s before) i) after := by
  rw [run, List.foldl_append, List.foldl_cons]
  rfl

/-- Every step of the run, with the inputs before it. -/
theorem along_iff_forall :
    Along step P s inputs ↔
      ∀ before i after, inputs = before ++ i :: after → P (run step s before) i := by
  induction inputs generalizing s with
  | nil =>
    refine iff_of_true trivial fun before i after h => ?_
    exact absurd h.symm (List.append_ne_nil_of_right_ne_nil _ (List.cons_ne_nil _ _))
  | cons j inputs ih =>
    constructor
    · rintro ⟨hj, h⟩ before i after heq
      cases before with
      | nil =>
        obtain ⟨rfl, -⟩ := List.cons.inj heq
        exact hj
      | cons k before =>
        obtain ⟨rfl, htail⟩ := List.cons.inj heq
        exact ih.mp h before i after htail
    · intro h
      refine ⟨h [] j inputs rfl, ih.mpr fun before i after heq => ?_⟩
      exact h (j :: before) i after (congrArg (j :: ·) heq)

/-- What holds at the end, if each step keeps it exactly under a condition; the invariant may
say what the inputs to come need. -/
theorem run_iff_along {I : σ → List ι → Prop}
    (hinv : ∀ s i inputs, I s (i :: inputs) → I (step s i) inputs)
    (hstep : ∀ s i inputs, I s (i :: inputs) → (Q (step s i) ↔ Q s ∧ P s i)) (hs : I s inputs) :
    Q (run step s inputs) ↔ Q s ∧ Along step P s inputs := by
  induction inputs generalizing s with
  | nil => exact (and_iff_left trivial).symm
  | cons i inputs ih =>
    calc Q (run step (step s i) inputs)
        ↔ Q (step s i) ∧ Along step P (step s i) inputs := ih (hinv s i inputs hs)
      _ ↔ (Q s ∧ P s i) ∧ Along step P (step s i) inputs :=
          and_congr_left' (hstep s i inputs hs)
      _ ↔ Q s ∧ P s i ∧ Along step P (step s i) inputs := and_assoc

theorem run_invariant {I : σ → List ι → Prop}
    (hinv : ∀ s i inputs, I s (i :: inputs) → I (step s i) inputs) {s : σ} {before after : List ι}
    (hs : I s (before ++ after)) : I (run step s before) after := by
  induction before generalizing s with
  | nil => exact hs
  | cons i before ih => exact ih (hinv s i _ hs)

/-! ## Simulation -/

/-- The inputs of another machine that the steps of a run stand for. -/
def trace {κ : Type*} (step : σ → ι → σ) (label : σ → ι → κ) : σ → List ι → List κ
  | _, [] => []
  | s, i :: inputs => label s i :: trace step label (step s i) inputs

theorem run_simulates {τ κ : Type*} {abstractStep : τ → κ → τ} {view : σ → τ} {label : σ → ι → κ}
    (hstep : ∀ s i, I s → P s i → I (step s i) ∧ view (step s i) = abstractStep (view s) (label s i))
    (hs : I s) (h : Along step P s inputs) :
    I (run step s inputs) ∧
      view (run step s inputs) = run abstractStep (view s) (trace step label s inputs) := by
  induction inputs generalizing s with
  | nil => exact ⟨hs, rfl⟩
  | cons i inputs ih =>
    obtain ⟨hnext, hview⟩ := hstep s i hs h.1
    obtain ⟨hrun, hsame⟩ := ih hnext h.2
    rw [hview] at hsame
    exact ⟨hrun, hsame⟩

/-! ## Machines that may fail -/

/-- A step of a machine that may fail; it stays where it failed. -/
def attempt (step : σ → ι → Option σ) (s : Option σ) (i : ι) : Option σ := s.bind (step · i)

/-- A property of the states that have not failed, and of the inputs. -/
def Running (P : σ → ι → Prop) (s : Option σ) (i : ι) : Prop := ∀ c, s = some c → P c i

/-- The machine has not failed, and its state has the property. -/
def Holding (Q : σ → Prop) (s : Option σ) : Prop := ∃ c, s = some c ∧ Q c

@[simp]
theorem holding_some : Holding Q (some s) ↔ Q s := by simp [Holding]

theorem always_attempt {step : σ → ι → Option σ}
    (hstep : ∀ s i, I s → P s i → ∃ s', step s i = some s' ∧ I s') (hs : I s)
    (h : Along (attempt step) (Running P) (some s) inputs) :
    Always (attempt step) (Holding I) (some s) inputs := by
  refine always_of_along ?_ ⟨s, rfl, hs⟩ h
  rintro _ i ⟨c, rfl, hc⟩ hP
  exact hstep c i hc (hP c rfl)

theorem always_attempt_iff {step : σ → ι → Option σ}
    (hstep : ∀ s i, Q s → (Holding Q (step s i) ↔ P s i)) (hq : Q s) :
    Always (attempt step) (Holding Q) (some s) inputs ↔
      Along (attempt step) (Running P) (some s) inputs := by
  refine always_iff_along (I := fun _ => True) (fun _ _ _ => trivial) ?_ trivial ⟨s, rfl, hq⟩
  rintro _ i - ⟨c, rfl, hc⟩
  refine (hstep c i hc).trans ⟨fun hP c' heq => ?_, fun h => h c rfl⟩
  exact Option.some.inj heq ▸ hP

/-- One step of a run that has not failed. -/
theorem along_attempt_cons {step : σ → ι → Option σ} {s' : σ} {i : ι} (hstep : step s i = some s')
    (hP : P s i) (h : Along (attempt step) (Running P) (some s') inputs) :
    Along (attempt step) (Running P) (some s) (i :: inputs) := by
  refine ⟨fun c hc => Option.some.inj hc ▸ hP, ?_⟩
  show Along (attempt step) (Running P) (step s i) inputs
  rwa [hstep]

theorem along_of_forall {step : σ → ι → σ} (h : ∀ s i, P s i) :
    ∀ (s : σ) (inputs : List ι), Along step P s inputs
  | _, [] => trivial
  | s, i :: inputs => ⟨h s i, along_of_forall h (step s i) inputs⟩

end PerchWebrtc.Machine
