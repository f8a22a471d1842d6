import PerchWebrtc.Isac.BitstreamDecoder

/-!
# The histogram decoders of iSAC

`arith_routines_hist.c`: two searches for the symbol whose part of the interval has the
window in it, one entry of the table at a time and by bisection.

* `oneStep_ends`: the search in single steps;
* `bisect_brackets`: what the bisection brackets, in any table of 2ᵏ − 1 entries.
-/

namespace PerchWebrtc.Isac

/-- What a search ends with: a symbol and its part of the interval, or an error. -/
inductive Search where
  | found (symbol : Int) (wLower wUpper : BitVec 32)
  | error (code : Int)

namespace BitstrDec

/-- The loop upwards; the entries after that at `index` are `rest`. -/
def stepUp (s : BitstrDec) : BitVec 16 → List (BitVec 16) → Nat → Option Search
  | cdf, rest, index =>
    if cdf = 65535 then some (.error (-3))
    else match rest with
      | [] => none
      | next :: rest =>
        if s.streamval ≤ scale s.wUpper next then
          some (.found index (scale s.wUpper cdf) (scale s.wUpper next))
        else stepUp s next rest (index + 1)

/-- The loop downwards, from below `index`; `wUpper` is that of the entry at `index`. -/
def stepDown (s : BitstrDec) (cdf : List (BitVec 16)) : Nat → BitVec 32 → Option Search
  | 0, _ => some (.error (-3))
  | index + 1, wUpper => do
    let entry ← cdf[index]?
    let wTmp := scale s.wUpper entry
    if s.streamval > wTmp then some (.found index wTmp wUpper) else stepDown s cdf index wTmp

/-- `none` for an access outside of the table. -/
def oneStep (s : BitstrDec) (cdf : List (BitVec 16)) (initIndex : Nat) : Option Search := do
  let entry ← cdf[initIndex]?
  if s.streamval > scale s.wUpper entry then s.stepUp entry (cdf.drop (initIndex + 1)) initIndex
  else s.stepDown cdf initIndex (scale s.wUpper entry)

/-- The loop of the bisection, with `W_lower` and `W_upper` as they are so far. -/
def bisect (s : BitstrDec) (cdf : List (BitVec 16)) (size index : Nat)
    (wLower wUpper : BitVec 32) : Option Search := do
  let entry ← cdf[index]?
  let wTmp := scale s.wUpper entry
  if size / 2 = 0 then
    if s.streamval > wTmp then some (.found index wTmp wUpper)
    else some (.found (index - 1) wLower wTmp)
  else if s.streamval > wTmp then bisect s cdf (size / 2) (index + size / 2) wTmp wUpper
  else bisect s cdf (size / 2) (index - size / 2) wLower wTmp
termination_by size

def oneStepLoop (fuel : Nat) :
    BitstrDec → List (List (BitVec 16) × Nat) → Option (Int × List Int × BitstrDec)
  | s, [] => some (0, [], s)
  | s, (cdf, initIndex) :: items => do
    match ← s.oneStep cdf initIndex with
    | .error code => some (code, [], s)
    | .found symbol wLower wUpper => do
      let s ← s.narrow fuel wLower wUpper
      let (code, data, s) ← oneStepLoop fuel s items
      some (code, symbol :: data, s)

/-- The tables come with the entries to start from. -/
def decHistOneStepMulti (fuel : Nat) (s : BitstrDec) (items : List (List (BitVec 16) × Nat)) :
    Option (Int × List Int × BitstrDec) :=
  if s.wUpper = 0 then some (-2, [], s)
  else do
    let (code, data, last) ← oneStepLoop fuel s.start items
    if code < 0 then some (code, data, { s with full := last.full })
    else some (last.finish.byteCount, data, last.finish)

/-- `wLower` is not set again for a symbol. -/
def bisectLoop (fuel : Nat) : BitstrDec → BitVec 32 → List (List (BitVec 16) × Nat) →
    Option (Int × List Int × BitstrDec)
  | s, _, [] => some (0, [], s)
  | s, wLower, (cdf, cdfSize) :: items => do
    match ← s.bisect cdf (cdfSize / 2) (cdfSize / 2 - 1) wLower s.wUpper with
    | .error code => some (code, [], s)
    | .found symbol wLower wUpper => do
      let s ← s.narrow fuel wLower wUpper
      if s.wUpper = 0 then some (-2, [symbol], s)
      else do
        let (code, data, s) ← bisectLoop fuel s (wLower + 1) items
        some (code, symbol :: data, s)

/-- The tables come with their sizes plus 1. -/
def decHistBisectMulti (fuel : Nat) (s : BitstrDec) (items : List (List (BitVec 16) × Nat)) :
    Option (Int × List Int × BitstrDec) :=
  if s.wUpper = 0 then some (-2, [], s)
  else do
    let (code, data, last) ← bisectLoop fuel s.start 0 items
    if code < 0 then some (code, data, { s with full := last.full })
    else some (last.finish.byteCount, data, last.finish)

/-! ## The part of a symbol -/

/-- The window is above the entry `lo` at `k` and not above the next one. -/
structure Part (s : BitstrDec) (cdf : List (BitVec 16)) (k : Nat) (lo hi : BitVec 16) : Prop where
  lower : cdf[k]? = some lo
  upper : cdf[k + 1]? = some hi
  above : scale s.wUpper lo < s.streamval
  within : s.streamval ≤ scale s.wUpper hi

variable {s : BitstrDec} {cdf : List (BitVec 16)} {c : BitVec 16}

theorem scale_mono (wUpper : BitVec 32) {c' : BitVec 16} (h : c ≤ c') :
    scale wUpper c ≤ scale wUpper c' := by
  show (scale wUpper c).toNat ≤ (scale wUpper c').toNat
  rw [scale_toNat, scale_toNat]
  exact Nat.div_le_div_right (Nat.mul_le_mul_left _ h)

theorem entry_le (hsorted : cdf.Pairwise (· ≤ ·)) {i j : Nat} {c' : BitVec 16}
    (hi : cdf[i]? = some c) (hj : cdf[j]? = some c') (hle : i ≤ j) : c ≤ c' := by
  obtain ⟨hi', rfl⟩ := List.getElem?_eq_some_iff.mp hi
  obtain ⟨hj', rfl⟩ := List.getElem?_eq_some_iff.mp hj
  rcases Nat.lt_or_eq_of_le hle with hlt | rfl
  · exact List.pairwise_iff_getElem.mp hsorted i j hi' hj' hlt
  · exact BitVec.le_refl _

/-- In a table that does not decrease there is one part only. -/
theorem Part.unique (hsorted : cdf.Pairwise (· ≤ ·)) {k k' : Nat} {lo hi lo' hi' : BitVec 16}
    (h : s.Part cdf k lo hi) (h' : s.Part cdf k' lo' hi') : k = k' ∧ lo = lo' ∧ hi = hi' := by
  have hless : ∀ {a b : Nat} {la ha lb hb : BitVec 16}, s.Part cdf a la ha → s.Part cdf b lb hb →
      ¬ a < b := fun hp hq hlt => by
    have hle := scale_mono s.wUpper (entry_le hsorted hp.upper hq.lower hlt)
    have hwithin := hp.within
    have habove := hq.above
    rw [BitVec.le_def] at hle hwithin
    rw [BitVec.lt_def] at habove
    omega
  have hk : k = k' := by
    have := hless h h'
    have := hless h' h
    omega
  subst hk
  exact ⟨rfl, Option.some.inj (h.lower.symm.trans h'.lower),
    Option.some.inj (h.upper.symm.trans h'.upper)⟩

/-- What a search in single steps ends with. -/
def OneStepEnds (s : BitstrDec) (cdf : List (BitVec 16)) (r : Search) : Prop :=
  (r = .error (-3) ∧ (scale s.wUpper 65535 < s.streamval ∨
      ∃ c, cdf[0]? = some c ∧ s.streamval ≤ scale s.wUpper c)) ∨
    ∃ (k : Nat) (lo hi : BitVec 16),
      r = .found k (scale s.wUpper lo) (scale s.wUpper hi) ∧ s.Part cdf k lo hi

theorem stepUp_ends (hlast : cdf.getLast? = some 65535) {rest : List (BitVec 16)} {index : Nat}
    (hentry : cdf[index]? = some c) (hrest : cdf.drop (index + 1) = rest)
    (habove : scale s.wUpper c < s.streamval) :
    ∃ r, s.stepUp c rest index = some r ∧ s.OneStepEnds cdf r := by
  induction rest generalizing index c with
  | nil =>
    have hend : c = 65535 := by
      have hlength : cdf.length ≤ index + 1 := List.drop_eq_nil_iff.mp hrest
      have hindex : index < cdf.length := (List.getElem?_eq_some_iff.mp hentry).1
      rw [List.getLast?_eq_getElem?, show cdf.length - 1 = index by omega, hentry] at hlast
      exact Option.some.inj hlast
    rw [stepUp, if_pos hend]
    exact ⟨_, rfl, .inl ⟨rfl, .inl (hend ▸ habove)⟩⟩
  | cons next rest ih =>
    have hnext : cdf[index + 1]? = some next := by
      rw [← List.head?_drop, hrest, List.head?_cons]
    by_cases hend : c = 65535
    · rw [stepUp, if_pos hend]
      exact ⟨_, rfl, .inl ⟨rfl, .inl (hend ▸ habove)⟩⟩
    · rw [stepUp, if_neg hend]
      by_cases hfound : s.streamval ≤ scale s.wUpper next
      · rw [if_pos hfound]
        exact ⟨_, rfl, .inr ⟨index, c, next, rfl, hentry, hnext, habove, hfound⟩⟩
      · rw [if_neg hfound]
        refine ih hnext ?_ (BitVec.not_le.mp hfound)
        rw [← List.drop_drop, List.drop_one, hrest, List.tail_cons]

theorem stepDown_ends {index : Nat} (hentry : cdf[index]? = some c)
    (hwithin : s.streamval ≤ scale s.wUpper c) :
    ∃ r, s.stepDown cdf index (scale s.wUpper c) = some r ∧ s.OneStepEnds cdf r := by
  induction index generalizing c with
  | zero => exact ⟨_, rfl, .inl ⟨rfl, .inr ⟨c, hentry, hwithin⟩⟩⟩
  | succ index ih =>
    have hindex : index < cdf.length :=
      Nat.lt_of_succ_lt (List.getElem?_eq_some_iff.mp hentry).1
    have hprevious : cdf[index]? = some cdf[index] := List.getElem?_eq_getElem hindex
    simp only [stepDown, hprevious, Option.bind_eq_bind, Option.bind_some]
    by_cases hfound : s.streamval > scale s.wUpper cdf[index]
    · rw [if_pos hfound]
      exact ⟨_, rfl, .inr ⟨index, _, c, rfl, hprevious, hentry, hfound, hwithin⟩⟩
    · rw [if_neg hfound]
      exact ih hprevious (BitVec.not_lt.mp hfound)

/-- The search in single steps ends, from any entry of a table that ends with 65535. -/
theorem oneStep_ends (hlast : cdf.getLast? = some 65535) {initIndex : Nat}
    (hinit : initIndex < cdf.length) :
    ∃ r, s.oneStep cdf initIndex = some r ∧ s.OneStepEnds cdf r := by
  have hentry : cdf[initIndex]? = some cdf[initIndex] := List.getElem?_eq_getElem hinit
  simp only [oneStep, hentry, Option.bind_eq_bind, Option.bind_some]
  by_cases habove : s.streamval > scale s.wUpper cdf[initIndex]
  · rw [if_pos habove]
    exact stepUp_ends hlast hentry rfl habove
  · rw [if_neg habove]
    exact stepDown_ends hentry (BitVec.not_lt.mp habove)

/-- The last entry below the window, of which there are `l`. -/
def Low (s : BitstrDec) (cdf : List (BitVec 16)) (wLower₀ : BitVec 32) (l : Nat)
    (wLower : BitVec 32) : Prop :=
  (l = 0 ∧ wLower = wLower₀) ∨
    ∃ k c, l = k + 1 ∧ cdf[k]? = some c ∧ wLower = scale s.wUpper c ∧ wLower < s.streamval

/-- The first entry that is not. -/
def High (s : BitstrDec) (cdf : List (BitVec 16)) (u : Nat) (wUpper : BitVec 32) : Prop :=
  (u = cdf.length ∧ wUpper = s.wUpper) ∨
    ∃ c, cdf[u]? = some c ∧ wUpper = scale s.wUpper c ∧ s.streamval ≤ wUpper

theorem bisect_brackets {wLower₀ wLower wUpper : BitVec 32} {m l index : Nat}
    (hindex : index + 1 = l + 2 ^ m) (hroom : index + 2 ^ m ≤ cdf.length)
    (hlow : s.Low cdf wLower₀ l wLower) (hhigh : s.High cdf (index + 2 ^ m) wUpper) :
    ∃ (l' : Nat) (wLower' wUpper' : BitVec 32),
      s.bisect cdf (2 ^ m) index wLower wUpper = some (.found (l' - 1) wLower' wUpper') ∧
        l' ≤ cdf.length ∧ s.Low cdf wLower₀ l' wLower' ∧ s.High cdf l' wUpper' := by
  induction m generalizing l index wLower wUpper with
  | zero =>
    have hentry : cdf[index]? = some cdf[index] := List.getElem?_eq_getElem (by omega)
    rw [bisect]
    simp only [hentry, Option.bind_eq_bind, Option.bind_some]
    rw [if_pos (by decide)]
    by_cases habove : s.streamval > scale s.wUpper cdf[index]
    · rw [if_pos habove]
      refine ⟨index + 1, _, _, ?_, by omega, .inr ⟨index, _, rfl, hentry, rfl, habove⟩, hhigh⟩
      simp
    · rw [if_neg habove]
      have hl : l = index := by omega
      subst hl
      exact ⟨l, _, _, rfl, by omega, hlow, .inr ⟨_, hentry, rfl, BitVec.not_lt.mp habove⟩⟩
  | succ m ih =>
    have hpow : 2 ^ (m + 1) = 2 ^ m + 2 ^ m := by rw [Nat.pow_succ, Nat.mul_two]
    have hpos : 0 < 2 ^ m := Nat.pow_pos (by decide)
    have hentry : cdf[index]? = some cdf[index] := List.getElem?_eq_getElem (by omega)
    rw [bisect]
    simp only [hentry, Option.bind_eq_bind, Option.bind_some]
    rw [show 2 ^ (m + 1) / 2 = 2 ^ m by omega, if_neg (by omega)]
    by_cases habove : s.streamval > scale s.wUpper cdf[index]
    · rw [if_pos habove]
      refine ih (l := index + 1) (by omega) (by omega)
        (.inr ⟨index, _, rfl, hentry, rfl, habove⟩) ?_
      rwa [hpow, ← Nat.add_assoc] at hhigh
    · rw [if_neg habove]
      refine ih (l := l) (by omega) (by omega) hlow ?_
      rw [show index - 2 ^ m + 2 ^ m = index by omega]
      exact .inr ⟨_, hentry, rfl, BitVec.not_lt.mp habove⟩

end BitstrDec

end PerchWebrtc.Isac
