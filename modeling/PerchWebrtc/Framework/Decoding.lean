import Mathlib

/-!
# Loops that decode

A loop over items with a state: each step ends with a symbol and the next state, ends with an
error, or does not end.

* `sound_iff`: when all symbols are those of their items;
* `sound_after_iff`: and for what a function returns after its loop.
-/

namespace PerchWebrtc.Decoding

variable {σ ι α τ : Type} (step : σ → ι → Option (Int ⊕ α × σ))

/-- The symbols up to an error. -/
def decodeAll : σ → List ι → Option (Int × List α × σ)
  | s, [] => some (0, [], s)
  | s, i :: items => do
    match ← step s i with
    | .inl code => some (code, [], s)
    | .inr (a, next) => do
      let (code, data, last) ← decodeAll next items
      some (code, a :: data, last)

/-- `P` holds at every step, of the state before it and the item. -/
def Along (P : σ → ι → Prop) : σ → List ι → Prop
  | _, [] => True
  | s, i :: items => P s i ∧ ∀ a next, step s i = some (.inr (a, next)) → Along P next items

/-- The loop ends with symbols of their items, and with a negative code where some are missing. -/
def Sound (R : ι → α → Prop) (items : List ι) (r : Option (Int × List α × τ)) : Prop :=
  ∃ code data last, r = some (code, data, last) ∧ List.Forall₂ R (items.take data.length) data ∧
    (data.length < items.length → code < 0)

variable {step} {R : ι → α → Prop} {P : σ → ι → Prop} {s : σ} {items : List ι}

attribute [local simp] decodeAll

theorem along_of_forall (h : ∀ s i, P s i) (s : σ) (items : List ι) : Along step P s items := by
  induction items generalizing s with
  | nil => trivial
  | cons i items ih => exact ⟨h s i, fun _ next _ => ih next⟩

theorem sound_nil : Sound R [] (decodeAll step s []) :=
  ⟨0, [], s, rfl, .nil, fun h => absurd h (Nat.lt_irrefl 0)⟩

theorem sound_error {i : ι} {code : Int} (h : step s i = some (.inl code)) (hcode : code < 0) :
    Sound R (i :: items) (decodeAll step s (i :: items)) :=
  ⟨code, [], s, by simp [decodeAll, h], .nil, fun _ => hcode⟩

theorem not_sound_none {i : ι} (h : step s i = none) :
    ¬ Sound R (i :: items) (decodeAll step s (i :: items)) := by
  rintro ⟨code, data, last, hdecode, -, -⟩
  simp [decodeAll, h] at hdecode

/-- A symbol, and the loop after it. -/
theorem sound_symbol_iff {i : ι} {a : α} {next : σ} (h : step s i = some (.inr (a, next))) :
    Sound R (i :: items) (decodeAll step s (i :: items)) ↔
      R i a ∧ Sound R items (decodeAll step next items) := by
  constructor
  · rintro ⟨code, data, last, hdecode, hsymbols, hcode⟩
    simp only [decodeAll, h, Option.bind_eq_bind, Option.bind_some, Option.bind_eq_some_iff,
      Option.some.injEq, Prod.mk.injEq] at hdecode
    obtain ⟨⟨code', data', last'⟩, hrest, rfl, rfl, rfl⟩ := hdecode
    rw [List.length_cons, List.take_succ_cons, List.forall₂_cons] at hsymbols
    refine ⟨hsymbols.1, code', data', last', hrest, hsymbols.2, fun hshort => hcode ?_⟩
    simpa using hshort
  · rintro ⟨hsymbol, code, data, last, hrest, hsymbols, hcode⟩
    refine ⟨code, a :: data, last, by simp [decodeAll, h, hrest], ?_, fun hshort => hcode ?_⟩
    · rw [List.length_cons, List.take_succ_cons]
      exact .cons hsymbol hsymbols
    · simpa using hshort

/-- Where a step under `P` ends with an error or with a symbol of its item, and any other does
not end or ends with another symbol. -/
theorem sound_iff {I : σ → Prop} {Q : ι → Prop}
    (hstep : ∀ s i, I s → Q i → P s i → (∃ code < 0, step s i = some (.inl code)) ∨
      ∃ a next, step s i = some (.inr (a, next)) ∧ R i a ∧ I next)
    (hfail : ∀ s i, I s → Q i → ¬ P s i → step s i = none ∨
      ∃ a next, step s i = some (.inr (a, next)) ∧ ¬ R i a)
    (hs : I s) (hitems : ∀ i ∈ items, Q i) :
    Sound R items (decodeAll step s items) ↔ Along step P s items := by
  induction items generalizing s with
  | nil => exact ⟨fun _ => trivial, fun _ => sound_nil⟩
  | cons i items ih =>
    have hi := hitems i List.mem_cons_self
    have hrest : ∀ j ∈ items, Q j := fun j hj => hitems j (List.mem_cons_of_mem _ hj)
    by_cases hP : P s i
    · rcases hstep s i hs hi hP with ⟨code, hcode, herror⟩ | ⟨a, next, hsymbol, hR, hnext⟩
      · refine ⟨fun _ => ⟨hP, fun a next hsymbol => ?_⟩, fun _ => sound_error herror hcode⟩
        simp [herror] at hsymbol
      · rw [sound_symbol_iff hsymbol, ih hnext hrest]
        refine ⟨fun h => ⟨hP, fun b other hother => ?_⟩, fun h => ⟨hR, h.2 a next hsymbol⟩⟩
        rw [hsymbol] at hother
        obtain ⟨rfl, rfl⟩ := Prod.mk.inj (Sum.inr.inj (Option.some.inj hother))
        exact h.2
    · refine ⟨fun h => ?_, fun h => absurd h.1 hP⟩
      rcases hfail s i hs hi hP with hnone | ⟨a, next, hsymbol, hR⟩
      · exact absurd h (not_sound_none hnone)
      · exact absurd ((sound_symbol_iff hsymbol).mp h).1 hR

/-- A loop without an error has all the symbols. -/
theorem decodeAll_complete (herror : ∀ s i code, step s i = some (.inl code) → code < 0)
    {code : Int} {data : List α} {last : σ} (h : decodeAll step s items = some (code, data, last))
    (hcode : ¬ code < 0) : data.length = items.length := by
  induction items generalizing s code data with
  | nil =>
    simp only [decodeAll, Option.some.injEq, Prod.mk.injEq] at h
    obtain ⟨-, rfl, -⟩ := h
    rfl
  | cons i items ih =>
    simp only [decodeAll, Option.bind_eq_bind, Option.bind_eq_some_iff] at h
    obtain ⟨end', hend, h⟩ := h
    cases end' with
    | inl code' =>
      simp only [Option.some.injEq, Prod.mk.injEq] at h
      exact absurd (h.1 ▸ herror s i code' hend) hcode
    | inr symbol =>
      simp only [Option.bind_eq_some_iff, Option.some.injEq, Prod.mk.injEq] at h
      obtain ⟨⟨code', data', last'⟩, hrest, rfl, rfl, rfl⟩ := h
      rw [List.length_cons, List.length_cons, ih hrest hcode]

theorem decodeAll_append (herror : ∀ s i code, step s i = some (.inl code) → code < 0) (s : σ)
    (items items' : List ι) :
    decodeAll step s (items ++ items') = (decodeAll step s items).bind fun r =>
      if r.1 < 0 then some r
      else (decodeAll step r.2.2 items').map fun q => (q.1, r.2.1 ++ q.2.1, q.2.2) := by
  induction items generalizing s with
  | nil =>
    simp only [List.nil_append, decodeAll, Option.bind_some, Int.lt_irrefl, if_false]
    exact (congrFun Option.map_id _).symm
  | cons i items ih =>
    simp only [List.cons_append, decodeAll, Option.bind_eq_bind]
    cases hstep : step s i with
    | none => rfl
    | some end' =>
      cases end' with
      | inl code => simp [herror s i code hstep]
      | inr symbol =>
        simp only [Option.bind_some, Option.bind_assoc, ih]
        refine congrArg _ (funext fun r => ?_)
        by_cases hneg : r.1 < 0
        · rw [if_pos hneg, if_pos hneg, Option.bind_some]
        · rw [if_neg hneg, if_neg hneg, Option.map_eq_bind, Option.map_eq_bind, Option.bind_assoc]
          rfl

/-- The code and the state that a function returns after its loop. -/
theorem sound_after_iff (herror : ∀ s i code, step s i = some (.inl code) → code < 0)
    (failed done : σ → τ) (result : σ → Int) :
    Sound R items ((decodeAll step s items).bind fun r =>
      if r.1 < 0 then some (r.1, r.2.1, failed r.2.2)
      else some (result r.2.2, r.2.1, done r.2.2)) ↔ Sound R items (decodeAll step s items) := by
  constructor
  · rintro ⟨code, data, last, hresult, hsymbols, hcode⟩
    obtain ⟨⟨code', data', last'⟩, hdecode, hresult⟩ := Option.bind_eq_some_iff.mp hresult
    dsimp only at hresult
    by_cases hneg : code' < 0
    · rw [if_pos hneg, Option.some.injEq, Prod.mk.injEq, Prod.mk.injEq] at hresult
      obtain ⟨rfl, rfl, -⟩ := hresult
      exact ⟨code', data', last', hdecode, hsymbols, hcode⟩
    · rw [if_neg hneg, Option.some.injEq, Prod.mk.injEq, Prod.mk.injEq] at hresult
      obtain ⟨-, rfl, -⟩ := hresult
      have hcomplete := decodeAll_complete herror hdecode hneg
      exact ⟨code', data', last', hdecode, hsymbols, fun hshort => by omega⟩
  · rintro ⟨code, data, last, hdecode, hsymbols, hcode⟩
    by_cases hneg : code < 0
    · exact ⟨code, data, failed last, by simp [hdecode, hneg], hsymbols, fun _ => hneg⟩
    · exact ⟨result last, data, done last, by simp [hdecode, hneg], hsymbols, fun hshort =>
        absurd (hcode hshort) hneg⟩

end PerchWebrtc.Decoding
