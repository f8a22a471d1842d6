import PerchWebrtc.Framework.Decoding
import PerchWebrtc.Isac.HistDecoders
import PerchWebrtc.Isac.Logistic

/-!
# The entropy decoders of iSAC on arbitrary streams

A stream that no encoder wrote, from any state of the decoder whose interval is wide: when the
three decoders end, and with which symbols.

* `narrow_ends`: the interval of a symbol is never empty;
* `oneStep_sound`: the search in single steps has a check for each end of the table;
* `bisect_sound_iff`: the bisection has none;
* `search_outcome`, `search_endless`: the logistic search may go round the 16 bits for ever;
* `searchEnds_iff`: for which roots and windows it does;
* `decoders_iff`: the three decoders.
-/

namespace PerchWebrtc.Isac

open Decoding BitstrDec

variable {fuel : Nat} {item : List (BitVec 16) × Nat} {code : Int}

namespace BitstrDec

variable {s : BitstrDec}

/-! ## The interval -/

theorem renormalize_ends {j : Nat} (hwide : 2 ^ 24 ≤ s.wUpper.toNat * 256 ^ j) (hfuel : j < fuel) :
    ∃ s', renormalize fuel s = some s' ∧ 2 ^ 24 ≤ s'.wUpper.toNat := by
  induction fuel generalizing s j with
  | zero => exact absurd hfuel (Nat.not_lt_zero j)
  | succ fuel ih =>
    rw [renormalize]
    by_cases hsmall : s.wUpper.toNat < 2 ^ 24
    · rw [if_pos hsmall]
      cases j with
      | zero => omega
      | succ j =>
        refine ih (j := j) ?_ (by omega)
        have hshift : (s.wUpper <<< 8).toNat = s.wUpper.toNat * 256 := by
          rw [BitVec.toNat_shiftLeft, Nat.shiftLeft_eq, Nat.mod_eq_of_lt (by omega)]
        have hpow : s.wUpper.toNat * 256 ^ (j + 1) = s.wUpper.toNat * 256 * 256 ^ j := by
          rw [Nat.pow_succ', Nat.mul_assoc]
        dsimp only
        rw [hshift, ← hpow]
        exact hwide
    · rw [if_neg hsmall]
      exact ⟨s, rfl, not_lt.mp hsmall⟩

/-- The part of the interval that the window is in is not empty. -/
theorem part_wide (hwide : 2 ^ 24 ≤ s.wUpper.toNat) {lo hi : BitVec 16}
    (habove : scale s.wUpper lo < s.streamval) (hwithin : s.streamval ≤ scale s.wUpper hi) :
    (scale s.wUpper lo).toNat + 256 ≤ (scale s.wUpper hi).toNat := by
  refine BitstrEnc.scale_lt hwide ?_
  by_contra hle
  have hmono := scale_mono s.wUpper (BitVec.not_lt.mp hle)
  rw [BitVec.le_def] at hmono hwithin
  rw [BitVec.lt_def] at habove
  omega

theorem narrow_ends (hfuel : 4 ≤ fuel) {lower upper : BitVec 32}
    (hgap : lower.toNat + 256 ≤ upper.toNat) :
    ∃ s', narrow fuel s lower upper = some s' ∧ 2 ^ 24 ≤ s'.wUpper.toNat := by
  have hword := upper.isLt
  have hnext : (lower + 1).toNat = lower.toNat + 1 := by
    rw [BitVec.toNat_add, show ((1 : BitVec 32)).toNat = 1 from rfl, Nat.mod_eq_of_lt (by omega)]
  have hwidth : (upper - (lower + 1)).toNat = upper.toNat - lower.toNat - 1 := by
    rw [BitVec.toNat_sub_of_le (by rw [BitVec.le_def, hnext]; omega), hnext]
    omega
  refine renormalize_ends (j := 3) ?_ (by omega)
  dsimp only
  rw [hwidth]
  omega

end BitstrDec

/-! ## The search in single steps -/

/-- The symbols of a table. -/
def InTable (item : List (BitVec 16) × Nat) (symbol : Int) : Prop :=
  0 ≤ symbol ∧ symbol + 2 ≤ item.1.length

def oneStepStep (fuel : Nat) (s : BitstrDec) (item : List (BitVec 16) × Nat) :
    Option (Int ⊕ Int × BitstrDec) := do
  match ← s.oneStep item.1 item.2 with
  | .error code => some (.inl code)
  | .found symbol lower upper => do
    let s ← s.narrow fuel lower upper
    some (.inr (symbol, s))

theorem oneStepLoop_eq (s : BitstrDec) (items : List (List (BitVec 16) × Nat)) :
    oneStepLoop fuel s items = decodeAll (oneStepStep fuel) s items := by
  induction items generalizing s with
  | nil => rfl
  | cons item items ih =>
    obtain ⟨cdf, initIndex⟩ := item
    simp only [oneStepLoop, decodeAll, oneStepStep, Option.bind_eq_bind, Option.bind_assoc]
    refine congrArg _ (funext fun r => ?_)
    cases r with
    | error code => rfl
    | found symbol lower upper =>
      simp only [Option.bind_assoc, ih]
      rfl

theorem oneStepStep_ends (hfuel : 4 ≤ fuel) {s : BitstrDec} (hwide : 2 ^ 24 ≤ s.wUpper.toNat)
    (hlast : item.1.getLast? = some 65535) (hinit : item.2 < item.1.length) :
    (∃ code < 0, oneStepStep fuel s item = some (.inl code)) ∨
      ∃ symbol next, oneStepStep fuel s item = some (.inr (symbol, next)) ∧
        InTable item symbol ∧ 2 ^ 24 ≤ next.wUpper.toNat := by
  obtain ⟨r, hsearch, hends⟩ := oneStep_ends (s := s) hlast hinit
  rcases hends with ⟨rfl, -⟩ | ⟨k, lo, hi, rfl, hpart⟩
  · refine .inl ⟨-3, by decide, ?_⟩
    simp only [oneStepStep, hsearch, Option.bind_eq_bind, Option.bind_some]
  · obtain ⟨next, hnarrow, hnext⟩ :=
      narrow_ends hfuel (s := s) (part_wide hwide hpart.above hpart.within)
    have hk := (List.getElem?_eq_some_iff.mp hpart.upper).1
    refine .inr ⟨k, next, ?_, ⟨by omega, by omega⟩, hnext⟩
    simp only [oneStepStep, hsearch, hnarrow, Option.bind_eq_bind, Option.bind_some]

theorem stepUp_error {s : BitstrDec} {c : BitVec 16} {rest : List (BitVec 16)} {index : Nat}
    (h : s.stepUp c rest index = some (.error code)) : code < 0 := by
  induction rest generalizing c index with
  | nil =>
    simp only [stepUp] at h
    split at h
    · obtain rfl := Search.error.inj (Option.some.inj h)
      decide
    · simp at h
  | cons next rest ih =>
    rw [stepUp] at h
    split at h
    · obtain rfl := Search.error.inj (Option.some.inj h)
      decide
    · split at h
      · simp at h
      · exact ih h

theorem stepDown_error {s : BitstrDec} {cdf : List (BitVec 16)} {index : Nat} {wUpper : BitVec 32}
    (h : s.stepDown cdf index wUpper = some (.error code)) : code < 0 := by
  induction index generalizing wUpper with
  | zero =>
    obtain rfl := Search.error.inj (Option.some.inj h)
    decide
  | succ index ih =>
    simp only [stepDown, Option.bind_eq_bind, Option.bind_eq_some_iff] at h
    obtain ⟨entry, -, h⟩ := h
    split at h
    · simp at h
    · exact ih h

theorem oneStepStep_error {s : BitstrDec} (h : oneStepStep fuel s item = some (.inl code)) :
    code < 0 := by
  simp only [oneStepStep, oneStep, Option.bind_eq_bind, Option.bind_eq_some_iff] at h
  obtain ⟨r, ⟨entry, -, hsearch⟩, h⟩ := h
  cases r with
  | error code' =>
    obtain rfl := Sum.inl.inj (Option.some.inj h)
    split at hsearch
    · exact stepUp_error hsearch
    · exact stepDown_error hsearch
  | found symbol lower upper =>
    simp only [Option.bind_eq_some_iff] at h
    obtain ⟨next, -, h⟩ := h
    simp at h

/-- A table that ends with 65535, and a start inside of it. -/
def OneStepTable (item : List (BitVec 16) × Nat) : Prop :=
  item.1.getLast? = some 65535 ∧ item.2 < item.1.length

theorem start_wUpper (s : BitstrDec) : s.start.wUpper = s.wUpper := by
  unfold start
  split <;> rfl

theorem oneStep_sound (hfuel : 4 ≤ fuel) {s : BitstrDec} (hwide : 2 ^ 24 ≤ s.wUpper.toNat)
    {items : List (List (BitVec 16) × Nat)} (hitems : ∀ item ∈ items, OneStepTable item) :
    Sound InTable items (s.decHistOneStepMulti fuel items) := by
  have hpositive : ¬ s.wUpper = 0 := fun hzero => by
    rw [hzero] at hwide
    exact absurd hwide (by decide)
  have hloop : Sound InTable items (decodeAll (oneStepStep fuel) s.start items) := by
    refine (sound_iff (P := fun _ _ => True) (I := fun t => 2 ^ 24 ≤ t.wUpper.toNat)
      (Q := OneStepTable) (fun t item ht hitem _ => ?_) (fun t item _ _ h => absurd trivial h) ?_
      hitems).mpr ?_
    · exact oneStepStep_ends hfuel ht hitem.1 hitem.2
    · exact (start_wUpper s).symm ▸ hwide
    · exact along_of_forall (fun _ _ => trivial) _ _
  rw [decHistOneStepMulti, if_neg hpositive, oneStepLoop_eq]
  exact (sound_after_iff (fun _ _ _ h => oneStepStep_error h) (fun last => { s with full := last.full })
    finish fun last => last.finish.byteCount).mpr hloop

/-! ## The bisection -/

def bisectStep (fuel : Nat) (s : BitstrDec × BitVec 32) (item : List (BitVec 16) × Nat) :
    Option (Int ⊕ Int × BitstrDec × BitVec 32) := do
  match ← s.1.bisect item.1 (item.2 / 2) (item.2 / 2 - 1) s.2 s.1.wUpper with
  | .error code => some (.inl code)
  | .found symbol lower upper => do
    let next ← s.1.narrow fuel lower upper
    some (.inr (symbol, next, lower + 1))

/-- The bisection has no error. -/
theorem bisect_not_error {s : BitstrDec} {cdf : List (BitVec 16)} {size index : Nat}
    {wLower wUpper : BitVec 32} : s.bisect cdf size index wLower wUpper ≠ some (.error code) := by
  induction size using Nat.strongRecOn generalizing index wLower wUpper with
  | _ size ih =>
    rw [bisect]
    cases hentry : cdf[index]? with
    | none => simp
    | some entry =>
      simp only [Option.bind_eq_bind, Option.bind_some]
      split
      · split <;> simp
      · split
        · exact ih (size / 2) (by omega)
        · exact ih (size / 2) (by omega)

theorem bisectStep_not_error {s : BitstrDec × BitVec 32} :
    bisectStep fuel s item ≠ some (.inl code) := by
  intro h
  simp only [bisectStep, Option.bind_eq_bind, Option.bind_eq_some_iff] at h
  obtain ⟨r, hsearch, h⟩ := h
  cases r with
  | error code' => exact bisect_not_error hsearch
  | found symbol lower upper =>
    simp only [Option.bind_eq_some_iff] at h
    obtain ⟨next, -, h⟩ := h
    simp at h

theorem renormalize_wide {s s' : BitstrDec} (h : renormalize fuel s = some s') :
    ¬ s'.wUpper = 0 := by
  induction fuel generalizing s with
  | zero => simp [renormalize] at h
  | succ fuel ih =>
    rw [renormalize] at h
    split at h
    · exact ih h
    · rename_i hwide
      obtain rfl := Option.some.inj h
      intro hzero
      rw [hzero] at hwide
      exact hwide (by decide)

theorem bisectLoop_eq (s : BitstrDec) (wLower : BitVec 32)
    (items : List (List (BitVec 16) × Nat)) :
    bisectLoop fuel s wLower items = (decodeAll (bisectStep fuel) (s, wLower) items).map
      fun r => (r.1, r.2.1, r.2.2.1) := by
  induction items generalizing s wLower with
  | nil => rfl
  | cons item items ih =>
    obtain ⟨cdf, cdfSize⟩ := item
    simp only [bisectLoop, decodeAll, bisectStep, Option.bind_eq_bind, Option.bind_assoc]
    cases hsearch : s.bisect cdf (cdfSize / 2) (cdfSize / 2 - 1) wLower s.wUpper with
    | none => rfl
    | some r =>
      cases r with
      | error code => rfl
      | found symbol lower upper =>
        simp only [Option.bind_some, Option.bind_assoc]
        cases hnarrow : s.narrow fuel lower upper with
        | none => rfl
        | some next =>
          simp only [Option.bind_some, if_neg (renormalize_wide hnarrow), ih]
          rw [Option.map_eq_bind, Option.map_eq_bind, Option.bind_assoc, Option.bind_assoc]
          rfl

/-- A table that does not decrease and ends with 65535, of 2ᵏ − 1 entries. -/
structure BisectTable (item : List (BitVec 16) × Nat) : Prop where
  sorted : item.1.Pairwise (· ≤ ·)
  last : item.1.getLast? = some 65535
  size : item.2 = item.1.length + 1
  pow : ∃ k, item.2 = 2 ^ k

/-- The window is between the first and the last entry of the table. -/
def Bracketed (s : BitstrDec × BitVec 32) (item : List (BitVec 16) × Nat) : Prop :=
  ∃ first, item.1[0]? = some first ∧ scale s.1.wUpper first < s.1.streamval ∧
    s.1.streamval ≤ scale s.1.wUpper 65535

/-- What the bisection brackets. -/
theorem bisect_ends (hitem : BisectTable item) (s : BitstrDec × BitVec 32) :
    ∃ (l : Nat) (wLower wUpper : BitVec 32),
      s.1.bisect item.1 (item.2 / 2) (item.2 / 2 - 1) s.2 s.1.wUpper =
        some (.found (l - 1) wLower wUpper) ∧
      l ≤ item.1.length ∧ s.1.Low item.1 s.2 l wLower ∧ s.1.High item.1 l wUpper := by
  obtain ⟨m, hpow⟩ := hitem.pow
  have hsize := hitem.size
  have hlast := hitem.last
  have hsome : 0 < item.1.length := by
    rw [List.getLast?_eq_getElem?] at hlast
    exact Nat.zero_lt_of_lt (List.getElem?_eq_some_iff.mp hlast).1
  obtain ⟨n, rfl⟩ : ∃ n, m = n + 1 := Nat.exists_eq_add_one.mpr <| by
    by_contra hzero
    rw [show m = 0 by omega] at hpow
    omega
  have hdouble : 2 ^ (n + 1) = 2 ^ n + 2 ^ n := by rw [Nat.pow_succ, Nat.mul_two]
  have hpos : 0 < 2 ^ n := Nat.pow_pos (by decide)
  rw [show item.2 / 2 = 2 ^ n by omega]
  have hnone : s.1.Low item.1 s.2 0 s.2 := .inl ⟨rfl, rfl⟩
  have hall : s.1.High item.1 (2 ^ n - 1 + 2 ^ n) s.1.wUpper := .inl ⟨by omega, rfl⟩
  exact bisect_brackets (show 2 ^ n - 1 + 1 = 0 + 2 ^ n by omega) (by omega) hnone hall

theorem bisectStep_ends (hfuel : 4 ≤ fuel) {s : BitstrDec × BitVec 32}
    (hwide : 2 ^ 24 ≤ s.1.wUpper.toNat) (hitem : BisectTable item) (h : Bracketed s item) :
    ∃ symbol next, bisectStep fuel s item = some (.inr (symbol, next)) ∧ InTable item symbol ∧
      2 ^ 24 ≤ next.1.wUpper.toNat := by
  obtain ⟨first, hfirst, habove, hwithin⟩ := h
  obtain ⟨l, wLower, wUpper, hsearch, hl, hlow, hhigh⟩ := bisect_ends hitem s
  have hsome : 0 < item.1.length := (List.getElem?_eq_some_iff.mp hfirst).1
  have hlast := hitem.last
  rw [List.getLast?_eq_getElem?] at hlast
  -- Neither end of the table is an end of what was bracketed.
  obtain ⟨i, c, rfl, hc, rfl, hlower⟩ := hlow.resolve_left fun hnone => by
    rcases hhigh with ⟨hend, -⟩ | ⟨c, hc, rfl, hbelow⟩
    · omega
    · rw [hnone.1, hfirst] at hc
      obtain rfl := Option.some.inj hc
      rw [BitVec.lt_def] at habove
      rw [BitVec.le_def] at hbelow
      omega
  obtain ⟨c', hc', rfl, hupper⟩ := hhigh.resolve_left fun hend => by
    rw [← hend.1, Nat.add_sub_cancel, hc] at hlast
    obtain rfl := Option.some.inj hlast
    rw [BitVec.lt_def] at hlower
    rw [BitVec.le_def] at hwithin
    omega
  obtain ⟨next, hnarrow, hnext⟩ := narrow_ends hfuel (s := s.1) (part_wide hwide hlower hupper)
  have hi := (List.getElem?_eq_some_iff.mp hc').1
  refine ⟨((i + 1 : Nat) : Int) - 1, (next, scale s.1.wUpper c + 1), ?_, ⟨?_, ?_⟩, hnext⟩
  · simp only [bisectStep, hsearch, hnarrow, Option.bind_eq_bind, Option.bind_some]
  · omega
  · omega

theorem bisectStep_fails {s : BitstrDec × BitVec 32} (hitem : BisectTable item)
    (h : ¬ Bracketed s item) :
    bisectStep fuel s item = none ∨
      ∃ symbol next, bisectStep fuel s item = some (.inr (symbol, next)) ∧ ¬ InTable item symbol := by
  obtain ⟨l, wLower, wUpper, hsearch, hl, hlow, hhigh⟩ := bisect_ends hitem s
  have hlast := hitem.last
  rw [List.getLast?_eq_getElem?] at hlast
  have hsome : 0 < item.1.length := Nat.zero_lt_of_lt (List.getElem?_eq_some_iff.mp hlast).1
  have hfirst : item.1[0]? = some item.1[0] := List.getElem?_eq_getElem hsome
  have houtside : l = 0 ∨ l = item.1.length := by
    rcases hlow with ⟨hzero, -⟩ | ⟨i, c, rfl, hc, rfl, hlower⟩
    · exact .inl hzero
    · rcases hhigh with ⟨hend, -⟩ | ⟨c', hc', rfl, hupper⟩
      · exact .inr hend
      · refine absurd ⟨_, hfirst, ?_, ?_⟩ h
        · have hmono := scale_mono s.1.wUpper (entry_le hitem.sorted hfirst hc (Nat.zero_le i))
          rw [BitVec.le_def] at hmono
          rw [BitVec.lt_def] at hlower ⊢
          omega
        · have hmono := scale_mono s.1.wUpper (entry_le hitem.sorted hc' hlast (by
            have := (List.getElem?_eq_some_iff.mp hc').1
            omega))
          rw [BitVec.le_def] at hmono hupper ⊢
          omega
  have hsymbol : ¬ InTable item (l - 1) := by
    unfold InTable
    omega
  cases hnarrow : s.1.narrow fuel wLower wUpper with
  | none =>
    refine .inl ?_
    simp only [bisectStep, hsearch, hnarrow, Option.bind_eq_bind, Option.bind_some,
      Option.bind_none]
  | some next =>
    refine .inr ⟨_, (next, wLower + 1), ?_, hsymbol⟩
    simp only [bisectStep, hsearch, hnarrow, Option.bind_eq_bind, Option.bind_some]

/-! ## The logistic search -/

theorem int16_add (x y : Int) : int16 (int16 x + y) = int16 (x + y) := Int.bmod_add_bmod

theorem int16_sub (x y : Int) : int16 (int16 x - y) = int16 (x - y) := Int.bmod_sub_bmod

/-- The candidates go round the 16 bits. -/
theorem cdfAt_int16 (envQ8 : BitVec 16) (x : Int) : cdfAt envQ8 (int16 x) = cdfAt envQ8 x := by
  unfold cdfAt int16
  rw [Int.bmod_bmod]

theorem cdfAt_add_word (envQ8 : BitVec 16) (x : Int) :
    cdfAt envQ8 (x + 2 ^ 16) = cdfAt envQ8 x := by
  unfold cdfAt int16
  rw [show ((2 : Int) ^ 16) = ((2 ^ 16 : Nat) : Int) from rfl, Int.add_bmod_right]

variable {envQ8 : BitVec 16} {x c : Int} {dithers : List Int}

namespace BitstrDec

variable {s : BitstrDec}

theorem boundAt_int16 : s.boundAt envQ8 (int16 x) = s.boundAt envQ8 x :=
  congrArg (scale s.wUpper) (cdfAt_int16 envQ8 x)

/-- The loop upwards ends at a candidate. -/
def UpEnds (s : BitstrDec) (envQ8 : BitVec 16) (x : Int) : Prop :=
  s.streamval ≤ s.boundAt envQ8 x ∨ Flat envQ8 x (x + 128)

/-- The loop downwards. -/
def DownEnds (s : BitstrDec) (envQ8 : BitVec 16) (x : Int) : Prop :=
  s.boundAt envQ8 x < s.streamval ∨ Flat envQ8 x (x - 128)

theorem UpEnds.word (h : s.UpEnds envQ8 (x + 2 ^ 16)) : s.UpEnds envQ8 x := by
  unfold UpEnds boundAt Flat at h ⊢
  rwa [show x + 2 ^ 16 + 128 = x + 128 + 2 ^ 16 by omega, cdfAt_add_word, cdfAt_add_word] at h

theorem DownEnds.word (h : s.DownEnds envQ8 (x - 2 ^ 16)) : s.DownEnds envQ8 x := by
  unfold DownEnds boundAt Flat at h ⊢
  rwa [← cdfAt_add_word envQ8 (x - 2 ^ 16), ← cdfAt_add_word envQ8 (x - 2 ^ 16 - 128),
    show x - 2 ^ 16 + 2 ^ 16 = x by omega,
    show x - 2 ^ 16 - 128 + 2 ^ 16 = x - 128 by omega] at h

theorem searchUp_succ (fuel : Nat) (wLower : BitVec 32) :
    s.searchUp envQ8 (fuel + 1) (int16 x) wLower =
      if s.streamval > s.boundAt envQ8 x then
        if s.boundAt envQ8 x = s.boundAt envQ8 (x + 128) then some (.error (-1))
        else s.searchUp envQ8 fuel (int16 (x + 128)) (s.boundAt envQ8 x)
      else some (.found (int16 (x - 64)) wLower (s.boundAt envQ8 x)) := by
  rw [searchUp, boundAt_int16, int16_add, int16_sub]
  dsimp only
  rw [boundAt_int16]

theorem searchDown_succ (fuel : Nat) (wUpper : BitVec 32) :
    s.searchDown envQ8 (fuel + 1) (int16 x) wUpper =
      if s.streamval > s.boundAt envQ8 x then
        some (.found (int16 (x + 64)) (s.boundAt envQ8 x) wUpper)
      else if s.boundAt envQ8 x = s.boundAt envQ8 (x - 128) then some (.error (-1))
      else s.searchDown envQ8 fuel (int16 (x - 128)) (s.boundAt envQ8 x) := by
  rw [searchDown, boundAt_int16, int16_add, int16_sub]
  dsimp only
  rw [boundAt_int16]

/-- A step of the loop upwards. -/
theorem searchUp_step (hwide : 2 ^ 24 ≤ s.wUpper.toNat) (hgo : ¬ s.UpEnds envQ8 x) (fuel : Nat)
    (wLower : BitVec 32) :
    s.searchUp envQ8 (fuel + 1) (int16 x) wLower =
      s.searchUp envQ8 fuel (int16 (x + 128)) (s.boundAt envQ8 x) := by
  unfold UpEnds at hgo
  rw [not_or, BitVec.not_le] at hgo
  rw [searchUp_succ, if_pos hgo.1, if_neg (fun heq => hgo.2 ((boundAt_eq_iff hwide _ _).mp heq))]

theorem searchDown_step (hwide : 2 ^ 24 ≤ s.wUpper.toNat) (hgo : ¬ s.DownEnds envQ8 x)
    (fuel : Nat) (wUpper : BitVec 32) :
    s.searchDown envQ8 (fuel + 1) (int16 x) wUpper =
      s.searchDown envQ8 fuel (int16 (x - 128)) (s.boundAt envQ8 x) := by
  unfold DownEnds at hgo
  rw [not_or] at hgo
  rw [searchDown_succ, if_neg hgo.1, if_neg (fun heq => hgo.2 ((boundAt_eq_iff hwide _ _).mp heq))]

/-- Without an end the loop goes on. -/
theorem searchUp_endless (hwide : 2 ^ 24 ≤ s.wUpper.toNat)
    (hgo : ∀ j : Nat, ¬ s.UpEnds envQ8 (x + 128 * j)) (fuel : Nat) (wLower : BitVec 32) :
    s.searchUp envQ8 fuel (int16 x) wLower = none := by
  induction fuel generalizing x wLower with
  | zero => rfl
  | succ fuel ih =>
    have hnow := hgo 0
    rw [Nat.cast_zero, Int.mul_zero, Int.add_zero] at hnow
    rw [searchUp_step hwide hnow]
    refine ih (fun j => ?_) _
    have hlater := hgo (j + 1)
    rwa [show x + 128 * ((j + 1 : Nat) : Int) = x + 128 + 128 * (j : Int) by omega] at hlater

theorem searchDown_endless (hwide : 2 ^ 24 ≤ s.wUpper.toNat)
    (hgo : ∀ j : Nat, ¬ s.DownEnds envQ8 (x - 128 * j)) (fuel : Nat) (wUpper : BitVec 32) :
    s.searchDown envQ8 fuel (int16 x) wUpper = none := by
  induction fuel generalizing x wUpper with
  | zero => rfl
  | succ fuel ih =>
    have hnow := hgo 0
    rw [Nat.cast_zero, Int.mul_zero, Int.sub_zero] at hnow
    rw [searchDown_step hwide hnow]
    refine ih (fun j => ?_) _
    have hlater := hgo (j + 1)
    rwa [show x - 128 * ((j + 1 : Nat) : Int) = x - 128 - 128 * (j : Int) by omega] at hlater

/-- To the first end. -/
theorem searchUp_ends (hwide : 2 ^ 24 ≤ s.wUpper.toNat) {n : Nat}
    (hgo : ∀ i < n, ¬ s.UpEnds envQ8 (x + 128 * i)) (hend : s.UpEnds envQ8 (x + 128 * n))
    (hfuel : n < fuel) :
    s.searchUp envQ8 fuel (int16 x) (s.boundAt envQ8 (x - 128)) =
      if s.streamval ≤ s.boundAt envQ8 (x + 128 * n) then
        some (.found (int16 (x + 128 * n - 64)) (s.boundAt envQ8 (x + 128 * n - 128))
          (s.boundAt envQ8 (x + 128 * n)))
      else some (.error (-1)) := by
  induction n generalizing x fuel with
  | zero =>
    obtain ⟨fuel, rfl⟩ := Nat.exists_eq_add_one.mpr hfuel
    rw [Nat.cast_zero, Int.mul_zero, Int.add_zero] at hend ⊢
    rw [searchUp_succ]
    by_cases hfound : s.streamval ≤ s.boundAt envQ8 x
    · rw [if_pos hfound, if_neg (BitVec.not_lt.mpr hfound)]
    · rw [if_neg hfound, if_pos (BitVec.not_le.mp hfound),
        if_pos ((boundAt_eq_iff hwide _ _).mpr (hend.resolve_left hfound))]
  | succ n ih =>
    obtain ⟨fuel, rfl⟩ := Nat.exists_eq_add_one.mpr (Nat.zero_lt_of_lt hfuel)
    have hnow := hgo 0 (Nat.succ_pos n)
    rw [Nat.cast_zero, Int.mul_zero, Int.add_zero] at hnow
    have hshift : ∀ i : Nat, x + 128 * ((i + 1 : Nat) : Int) = x + 128 + 128 * (i : Int) :=
      fun i => by omega
    rw [hshift] at hend ⊢
    rw [searchUp_step hwide hnow]
    have hnext := ih (x := x + 128) (fun i hi => hshift i ▸ hgo (i + 1) (by omega)) hend
      (Nat.lt_of_succ_lt_succ hfuel)
    rwa [show x + 128 - 128 = x by omega] at hnext

theorem searchDown_ends (hwide : 2 ^ 24 ≤ s.wUpper.toNat) {n : Nat}
    (hgo : ∀ i < n, ¬ s.DownEnds envQ8 (x - 128 * i)) (hend : s.DownEnds envQ8 (x - 128 * n))
    (hfuel : n < fuel) :
    s.searchDown envQ8 fuel (int16 x) (s.boundAt envQ8 (x + 128)) =
      if s.boundAt envQ8 (x - 128 * n) < s.streamval then
        some (.found (int16 (x - 128 * n + 64)) (s.boundAt envQ8 (x - 128 * n))
          (s.boundAt envQ8 (x - 128 * n + 128)))
      else some (.error (-1)) := by
  induction n generalizing x fuel with
  | zero =>
    obtain ⟨fuel, rfl⟩ := Nat.exists_eq_add_one.mpr hfuel
    rw [Nat.cast_zero, Int.mul_zero, Int.sub_zero] at hend ⊢
    rw [searchDown_succ]
    by_cases hfound : s.boundAt envQ8 x < s.streamval
    · rw [if_pos hfound, if_pos hfound]
    · rw [if_neg hfound, if_neg hfound,
        if_pos ((boundAt_eq_iff hwide _ _).mpr (hend.resolve_left hfound))]
  | succ n ih =>
    obtain ⟨fuel, rfl⟩ := Nat.exists_eq_add_one.mpr (Nat.zero_lt_of_lt hfuel)
    have hnow := hgo 0 (Nat.succ_pos n)
    rw [Nat.cast_zero, Int.mul_zero, Int.sub_zero] at hnow
    have hshift : ∀ i : Nat, x - 128 * ((i + 1 : Nat) : Int) = x - 128 - 128 * (i : Int) :=
      fun i => by omega
    rw [hshift] at hend ⊢
    rw [searchDown_step hwide hnow]
    have hnext := ih (x := x - 128) (fun i hi => hshift i ▸ hgo (i + 1) (by omega)) hend
      (Nat.lt_of_succ_lt_succ hfuel)
    rwa [show x - 128 + 128 = x by omega] at hnext

/-- A first end is within one round. -/
theorem exists_first {P : Nat → Prop} (hround : ∀ j, P (j + 512) → P j) (h : ∃ j, P j) :
    ∃ n < 512, (∀ i < n, ¬ P i) ∧ P n := by
  classical
  refine ⟨Nat.find h, ?_, fun i hi => Nat.find_min h hi, Nat.find_spec h⟩
  by_contra hlate
  obtain ⟨m, hm⟩ := Nat.exists_eq_add_of_le' (not_lt.mp hlate)
  have hfound := Nat.find_spec h
  rw [hm] at hfound
  exact Nat.find_min h (m := m) (by omega) (hround m hfound)

theorem upEnds_round (j : Nat) (h : s.UpEnds envQ8 (c + 128 * ((j + 512 : Nat) : Int))) :
    s.UpEnds envQ8 (c + 128 * j) := by
  rw [show c + 128 * ((j + 512 : Nat) : Int) = c + 128 * (j : Int) + 2 ^ 16 by omega] at h
  exact h.word

theorem downEnds_round (j : Nat) (h : s.DownEnds envQ8 (c - 128 * ((j + 512 : Nat) : Int))) :
    s.DownEnds envQ8 (c - 128 * j) := by
  rw [show c - 128 * ((j + 512 : Nat) : Int) = c - 128 * (j : Int) - 2 ^ 16 by omega] at h
  exact h.word

/-- The search for a sample ends: on its way round the 16 bits it meets a bound on the other
side of the window, or two neighbouring candidates with the same bound. -/
def SearchEnds (s : BitstrDec) (envQ8 : BitVec 16) (dither : Int) : Prop :=
  if s.streamval > s.boundAt envQ8 (startOf dither) then
    ∃ j : Nat, s.UpEnds envQ8 (startOf dither + 128 + 128 * j)
  else ∃ j : Nat, s.DownEnds envQ8 (startOf dither - 128 - 128 * j)

/-- The window is between the bounds of the extreme candidates. -/
def Between (s : BitstrDec) (envQ8 : BitVec 16) (dither : Int) : Prop :=
  s.boundAt envQ8 (startOf dither % 128 - 2 ^ 15) < s.streamval ∧
    s.streamval ≤ s.boundAt envQ8 (startOf dither % 128 + 2 ^ 15 - 128)

/-- The samples whose candidates are between the first one and the ends of the 16 bits. -/
def InRange (dither x : Int) : Prop :=
  ∃ j : Nat, (x = startOf dither + 128 + 128 * j - 64 ∧ startOf dither + 128 + 128 * j < 2 ^ 15) ∨
    (x = startOf dither - 128 - 128 * j + 64 ∧ -2 ^ 15 ≤ startOf dither - 128 - 128 * j)

theorem startOf_range (dither : Int) : -2 ^ 15 ≤ startOf dither ∧ startOf dither < 2 ^ 15 := by
  have hlow := Int.le_bmod (x := -dither + 64) (m := 2 ^ 16) (by decide)
  have hhigh := Int.bmod_lt (x := -dither + 64) (m := 2 ^ 16) (by decide)
  unfold startOf int16
  omega

/-- A bound on the other side of the window is met before the end of the 16 bits. -/
theorem up_inside (hhigh : c < 2 ^ 15) {n : Nat} (hn : n < 512)
    (habove : s.boundAt envQ8 c < s.streamval)
    (hfound : s.streamval ≤ s.boundAt envQ8 (c + 128 + 128 * n)) : c + 128 + 128 * n < 2 ^ 15 := by
  by_contra hout
  have hmono : s.boundAt envQ8 (c + 128 + 128 * n - 2 ^ 16) ≤ s.boundAt envQ8 c :=
    boundAt_mono (by omega) (by omega) hhigh
  have hsame : s.boundAt envQ8 (c + 128 + 128 * n - 2 ^ 16) =
      s.boundAt envQ8 (c + 128 + 128 * n) := by
    unfold boundAt
    rw [← cdfAt_add_word envQ8 (_ - 2 ^ 16), Int.sub_add_cancel]
  rw [hsame, BitVec.le_def] at hmono
  rw [BitVec.le_def] at hfound
  rw [BitVec.lt_def] at habove
  omega

theorem down_inside (hlow : -2 ^ 15 ≤ c) {n : Nat} (hn : n < 512)
    (hwithin : ¬ s.boundAt envQ8 c < s.streamval)
    (hfound : s.boundAt envQ8 (c - 128 - 128 * n) < s.streamval) : -2 ^ 15 ≤ c - 128 - 128 * n := by
  by_contra hout
  have hmono : s.boundAt envQ8 c ≤ s.boundAt envQ8 (c - 128 - 128 * n + 2 ^ 16) :=
    boundAt_mono hlow (by omega) (by omega)
  have hsame : s.boundAt envQ8 (c - 128 - 128 * n + 2 ^ 16) =
      s.boundAt envQ8 (c - 128 - 128 * n) := by
    unfold boundAt
    rw [cdfAt_add_word]
  rw [hsame, BitVec.le_def] at hmono
  rw [BitVec.lt_def] at hfound hwithin
  omega

/-- Two bounds around the window. -/
theorem bound_gap (hwide : 2 ^ 24 ≤ s.wUpper.toNat) {c' : Int}
    (habove : s.boundAt envQ8 c < s.streamval) (hwithin : s.streamval ≤ s.boundAt envQ8 c') :
    (s.boundAt envQ8 c).toNat + 256 ≤ (s.boundAt envQ8 c').toNat :=
  part_wide hwide habove hwithin

/-- The search that ends finds a sample of the range, or aborts. -/
theorem search_outcome (hfuel : 512 ≤ fuel) (hwide : 2 ^ 24 ≤ s.wUpper.toNat) {dither : Int}
    (h : s.SearchEnds envQ8 dither) :
    s.search fuel envQ8 dither = some (.error (-1)) ∨
      ∃ x lower upper, s.search fuel envQ8 dither = some (.found x lower upper) ∧
        InRange dither x ∧ lower.toNat + 256 ≤ upper.toNat := by
  obtain ⟨hlow, hhigh⟩ := startOf_range dither
  unfold InRange
  unfold SearchEnds at h
  unfold search
  rw [show int16 (-dither + 64) = startOf dither from rfl]
  generalize startOf dither = c at hlow hhigh h ⊢
  dsimp only
  by_cases habove : s.streamval > s.boundAt envQ8 c
  · rw [if_pos habove] at h ⊢
    obtain ⟨n, hn, hgo, hend⟩ := exists_first upEnds_round h
    have hsearch := searchUp_ends hwide hgo hend (hn.trans_le hfuel)
    rw [Int.add_sub_cancel] at hsearch
    by_cases hfound : s.streamval ≤ s.boundAt envQ8 (c + 128 + 128 * n)
    · have hinside := up_inside hhigh hn habove hfound
      have hbelow : s.boundAt envQ8 (c + 128 + 128 * n - 128) < s.streamval := by
        cases n with
        | zero => simpa using habove
        | succ n =>
          have hbefore := hgo n (Nat.lt_succ_self n)
          unfold UpEnds at hbefore
          rw [not_or, BitVec.not_le] at hbefore
          rw [show c + 128 + 128 * ((n + 1 : Nat) : Int) - 128 = c + 128 + 128 * (n : Int) by omega]
          exact hbefore.1
      have hvalue : int16 (c + 128 + 128 * n - 64) = c + 128 + 128 * n - 64 :=
        int16_of_fits (by omega) (by omega)
      rw [if_pos hfound, hvalue] at hsearch
      exact .inr ⟨_, _, _, hsearch, ⟨n, .inl ⟨rfl, hinside⟩⟩, bound_gap hwide hbelow hfound⟩
    · rw [if_neg hfound] at hsearch
      exact .inl hsearch
  · rw [if_neg habove] at h ⊢
    obtain ⟨n, hn, hgo, hend⟩ := exists_first downEnds_round h
    have hsearch := searchDown_ends hwide hgo hend (hn.trans_le hfuel)
    rw [Int.sub_add_cancel] at hsearch
    by_cases hfound : s.boundAt envQ8 (c - 128 - 128 * n) < s.streamval
    · have hinside := down_inside hlow hn habove hfound
      have hupper : s.streamval ≤ s.boundAt envQ8 (c - 128 - 128 * n + 128) := by
        cases n with
        | zero => simpa using habove
        | succ n =>
          have hbefore := hgo n (Nat.lt_succ_self n)
          unfold DownEnds at hbefore
          rw [not_or, BitVec.not_lt] at hbefore
          rw [show c - 128 - 128 * ((n + 1 : Nat) : Int) + 128 = c - 128 - 128 * (n : Int) by omega]
          exact hbefore.1
      have hvalue : int16 (c - 128 - 128 * n + 64) = c - 128 - 128 * n + 64 :=
        int16_of_fits (by omega) (by omega)
      rw [if_pos hfound, hvalue] at hsearch
      exact .inr ⟨_, _, _, hsearch, ⟨n, .inr ⟨rfl, hinside⟩⟩, bound_gap hwide hfound hupper⟩
    · rw [if_neg hfound] at hsearch
      exact .inl hsearch

/-- For the roots 1 to 4 no two neighbouring candidates have the same bound. -/
theorem not_flat (henv : 1 ≤ envQ8.toNat ∧ envQ8.toNat ≤ 4) (x : Int) :
    ¬ Flat envQ8 x (x + 128) := by
  have hlow := Int.le_bmod (x := x) (m := 2 ^ 16) (by decide)
  have hhigh := Int.bmod_lt (x := x) (m := 2 ^ 16) (by decide)
  have hsteep {y : Int} (hy : -2 ^ 15 ≤ y) (hy' : y + 128 < 2 ^ 15) :
      cdfAt envQ8 y < cdfAt envQ8 (y + 128) := by
    unfold cdfAt
    rw [int16_of_fits hy (by omega), int16_of_fits (by omega) hy']
    exact piecewise_steep henv.1 henv.2 hy hy'
  have hnext : cdfAt envQ8 (x + 128) = cdfAt envQ8 (int16 x + 128) := by
    rw [← cdfAt_int16 envQ8 (int16 x + 128), int16_add, cdfAt_int16]
  unfold Flat
  rw [hnext, ← cdfAt_int16 envQ8 x]
  have hx : -2 ^ 15 ≤ int16 x ∧ int16 x < 2 ^ 15 := by
    unfold int16
    omega
  generalize int16 x = y at hx
  intro hflat
  by_cases hwrap : y + 128 < 2 ^ 15
  · have hless := hsteep hx.1 hwrap
    rw [hflat] at hless
    exact BitVec.lt_irrefl _ hless
  · -- Behind the last candidate comes the first one.
    have hless := hsteep (y := y + 128 - 2 ^ 16) (by omega) (by omega)
    have hmono : cdfAt envQ8 (y + 128 - 2 ^ 16 + 128) ≤ cdfAt envQ8 y :=
      cdfAt_mono (by omega) (by omega) hx.2
    rw [← cdfAt_add_word envQ8 (y + 128 - 2 ^ 16), Int.sub_add_cancel, ← hflat] at hless
    exact BitVec.not_le.mpr hless hmono

/-- For all others some have. -/
theorem flat_end (henv : ¬ (1 ≤ envQ8.toNat ∧ envQ8.toNat ≤ 4)) {r : Int} (hr : 0 ≤ r)
    (hr' : r < 128) : Flat envQ8 (r + 32384) (r + 32384 + 128) := by
  obtain ⟨r, rfl⟩ := Int.eq_ofNat_of_zero_le hr
  unfold Flat cdfAt
  rw [int16_of_fits (by omega) (by omega), int16_of_fits (by omega) (by omega)]
  exact piecewise_flat (by omega) (by omega)

/-- The bounds of all candidates are between those of the extreme ones. -/
theorem boundAt_between {c x : Int} (hx : x % 128 = c % 128) :
    s.boundAt envQ8 (c % 128 - 2 ^ 15) ≤ s.boundAt envQ8 x ∧
      s.boundAt envQ8 x ≤ s.boundAt envQ8 (c % 128 + 2 ^ 15 - 128) := by
  have hlow := Int.le_bmod (x := x) (m := 2 ^ 16) (by decide)
  have hhigh := Int.bmod_lt (x := x) (m := 2 ^ 16) (by decide)
  have hround : x.bmod (2 ^ 16) % 128 = x % 128 := by
    have := Int.bmod_add_bdiv x (2 ^ 16)
    omega
  rw [← boundAt_int16 (x := x), int16]
  exact ⟨boundAt_mono (by omega) (by omega) (by omega), boundAt_mono (by omega) (by omega) (by omega)⟩

/-- A search ends unless it is for one of the roots 1 to 4 and the window is not between the
bounds. -/
theorem searchEnds_iff {dither : Int} : s.SearchEnds envQ8 dither ↔
    (1 ≤ envQ8.toNat ∧ envQ8.toNat ≤ 4 → s.Between envQ8 dither) := by
  obtain ⟨hlow, hhigh⟩ := startOf_range dither
  unfold SearchEnds Between
  generalize startOf dither = c at hlow hhigh ⊢
  constructor
  · intro h henv
    have hall (x : Int) (hx : x % 128 = c % 128) := @boundAt_between envQ8 s c x hx
    split at h
    · rename_i habove
      obtain ⟨j, hfound | hflat⟩ := h
      · exact ⟨Nat.lt_of_le_of_lt (hall c rfl).1 habove,
          BitVec.le_trans hfound (hall (c + 128 + 128 * j) (by omega)).2⟩
      · exact absurd hflat (not_flat henv _)
    · rename_i hwithin
      obtain ⟨j, hfound | hflat⟩ := h
      · exact ⟨Nat.lt_of_le_of_lt (hall (c - 128 - 128 * j) (by omega)).1 hfound,
          BitVec.le_trans (BitVec.not_lt.mp hwithin) (hall c rfl).2⟩
      · have hnot := not_flat henv (c - 128 - 128 * j - 128)
        rw [Int.sub_add_cancel] at hnot
        exact absurd hflat.symm hnot
  · intro h
    by_cases henv : 1 ≤ envQ8.toNat ∧ envQ8.toNat ≤ 4
    · obtain ⟨hbottom, htop⟩ := h henv
      split
      · rename_i habove
        have hne : c ≠ c % 128 + 2 ^ 15 - 128 := fun heq => by
          rw [← heq] at htop
          exact BitVec.not_lt.mpr htop habove
        obtain ⟨j, hj⟩ : ∃ j : Nat, c + 128 + 128 * (j : Int) = c % 128 + 2 ^ 15 - 128 :=
          ⟨((c % 128 + 2 ^ 15 - 128 - c) / 128 - 1).toNat, by omega⟩
        refine ⟨j, .inl ?_⟩
        rw [hj]
        exact htop
      · rename_i hwithin
        have hne : c ≠ c % 128 - 2 ^ 15 := fun heq => by
          rw [← heq] at hbottom
          exact hwithin hbottom
        obtain ⟨j, hj⟩ : ∃ j : Nat, c - 128 - 128 * (j : Int) = c % 128 - 2 ^ 15 :=
          ⟨((c - (c % 128 - 2 ^ 15)) / 128 - 1).toNat, by omega⟩
        refine ⟨j, .inl ?_⟩
        rw [hj]
        exact hbottom
    · have hflat := flat_end henv (r := c % 128) (by omega) (by omega)
      split
      · obtain ⟨j, hj⟩ : ∃ j : Nat, c + 128 + 128 * (j : Int) = c % 128 + 32384 + 2 ^ 16 :=
          ⟨((c % 128 + 32384 + 2 ^ 16 - c) / 128 - 1).toNat, by omega⟩
        refine ⟨j, .inr ?_⟩
        unfold Flat at hflat ⊢
        rw [hj, Int.add_right_comm _ (2 ^ 16) 128, cdfAt_add_word, cdfAt_add_word, hflat]
      · obtain ⟨j, hj⟩ : ∃ j : Nat, c - 128 - 128 * (j : Int) + 2 ^ 16 = c % 128 + 32384 + 128 :=
          ⟨((c - (c % 128 + 32384 + 128 - 2 ^ 16)) / 128 - 1).toNat, by omega⟩
        refine ⟨j, .inr ?_⟩
        unfold Flat at hflat ⊢
        rw [← cdfAt_add_word, ← cdfAt_add_word envQ8 (_ - 128),
          show c - 128 - 128 * (j : Int) - 128 + 2 ^ 16 = c % 128 + 32384 by omega, hj, hflat]

/-- Any other goes round the 16 bits for ever. -/
theorem search_endless (hwide : 2 ^ 24 ≤ s.wUpper.toNat) {dither : Int}
    (h : ¬ s.SearchEnds envQ8 dither) : s.search fuel envQ8 dither = none := by
  unfold SearchEnds at h
  unfold search
  rw [show int16 (-dither + 64) = startOf dither from rfl]
  dsimp only
  by_cases habove : s.streamval > s.boundAt envQ8 (startOf dither)
  · rw [if_pos habove, not_exists] at h
    rw [if_pos habove]
    exact searchUp_endless hwide h _ _
  · rw [if_neg habove, not_exists] at h
    rw [if_neg habove]
    exact searchDown_endless hwide h _ _

end BitstrDec

/-! ## The logistic decoder -/

/-- The first of four samples comes with an entry of the envelope. -/
def logisticItems : List Int → List Int → List (Option Int × Int)
  | inSqrt :: env, d₀ :: d₁ :: d₂ :: d₃ :: dithers =>
    (some inSqrt, d₀) :: (none, d₁) :: (none, d₂) :: (none, d₃) :: logisticItems env dithers
  | _, _ => []

/-- The root for a sample, from the value of `res` and the root before. -/
def nextRoot (before : Int × BitVec 16) : Option Int → Option (Int × BitVec 16)
  | none => some before
  | some inSqrt => (squareRoot inSqrt before.1).map fun r => (r.1, BitVec.ofInt 16 r.2)

def logisticStep (fuel : Nat) (s : BitstrDec × Int × BitVec 16) (item : Option Int × Int) :
    Option (Int ⊕ Int × BitstrDec × Int × BitVec 16) := do
  let root ← nextRoot s.2 item.1
  match ← s.1.search fuel root.2 item.2 with
  | .error code => some (.inl code)
  | .found x lower upper => do
    let next ← s.1.narrow fuel lower upper
    some (.inr (x, next, root))

theorem logisticStep_error {s : BitstrDec × Int × BitVec 16} {item : Option Int × Int}
    (h : logisticStep fuel s item = some (.inl code)) : code < 0 := by
  simp only [logisticStep, Option.bind_eq_bind, Option.bind_eq_some_iff] at h
  obtain ⟨root, -, r, hsearch, h⟩ := h
  cases r with
  | error code' =>
    obtain rfl := Sum.inl.inj (Option.some.inj h)
    rw [search_error hsearch]
    decide
  | found x lower upper =>
    simp only [Option.bind_eq_some_iff] at h
    obtain ⟨next, -, h⟩ := h
    simp at h

theorem sampleLoop_decode (envQ8 : BitVec 16) (res : Int) (s : BitstrDec) (dithers : List Int) :
    sampleLoop fuel envQ8 s dithers =
      (decodeAll (logisticStep fuel) (s, res, envQ8) (dithers.map fun d => (none, d))).map
        fun r => (r.1, r.2.1, r.2.2.1) := by
  induction dithers generalizing s with
  | nil => rfl
  | cons dither dithers ih =>
    simp only [sampleLoop, List.map_cons, decodeAll, logisticStep, nextRoot, Option.bind_eq_bind,
      Option.bind_some]
    cases hsearch : s.search fuel envQ8 dither with
    | none => rfl
    | some r =>
      cases r with
      | error code => rfl
      | found x lower upper =>
        simp only [Option.bind_some]
        cases hnarrow : s.narrow fuel lower upper with
        | none => rfl
        | some next =>
          simp only [Option.bind_some, ih]
          rw [Option.map_eq_bind, Option.map_eq_bind, Option.bind_assoc, Option.bind_assoc]
          rfl

/-- The root is that of the entry, for all four samples. -/
theorem logisticStep_entry (s : BitstrDec) (before : Int × BitVec 16) (inSqrt d : Int) :
    logisticStep fuel (s, before) (some inSqrt, d) =
      (squareRoot inSqrt before.1).bind fun r =>
        logisticStep fuel (s, r.1, BitVec.ofInt 16 r.2) (none, d) := by
  simp only [logisticStep, nextRoot, Option.map_eq_bind, Option.bind_eq_bind, Option.bind_assoc]
  rfl

/-- The other samples keep the root. -/
theorem decode_keeps_root {s last : BitstrDec × Int × BitVec 16} {data : List Int}
    (h : decodeAll (logisticStep fuel) s (dithers.map fun d => (none, d)) = some (code, data, last)) :
    last.2 = s.2 := by
  induction dithers generalizing s code data with
  | nil =>
    simp only [List.map_nil, decodeAll, Option.some.injEq, Prod.mk.injEq] at h
    exact congrArg Prod.snd h.2.2.symm
  | cons dither dithers ih =>
    simp only [List.map_cons, decodeAll, logisticStep, nextRoot, Option.bind_eq_bind,
      Option.bind_some, Option.bind_eq_some_iff] at h
    obtain ⟨r, ⟨found, -, hstep⟩, h⟩ := h
    cases found with
    | error code' =>
      obtain rfl := Option.some.inj hstep
      simp only [Option.some.injEq, Prod.mk.injEq] at h
      exact congrArg Prod.snd h.2.2.symm
    | found x lower upper =>
      simp only [Option.bind_eq_some_iff] at hstep
      obtain ⟨next, -, hstep⟩ := hstep
      obtain rfl := Option.some.inj hstep
      simp only [Option.bind_eq_some_iff, Option.some.injEq, Prod.mk.injEq] at h
      obtain ⟨⟨code', data', last'⟩, hrest, -, -, rfl⟩ := h
      exact ih (s := (next, s.2)) hrest

/-- The entry is used up before the first of its samples. -/
theorem decode_entry (s : BitstrDec) (before : Int × BitVec 16) (inSqrt d : Int)
    (items : List (Option Int × Int)) :
    (decodeAll (logisticStep fuel) (s, before) ((some inSqrt, d) :: items)).map
        (fun r => (r.1, r.2.1, r.2.2.1)) =
      (squareRoot inSqrt before.1).bind fun r =>
        (decodeAll (logisticStep fuel) (s, r.1, BitVec.ofInt 16 r.2) ((none, d) :: items)).map
          fun r => (r.1, r.2.1, r.2.2.1) := by
  simp only [decodeAll, logisticStep_entry, Option.map_eq_bind, Option.bind_eq_bind,
    Option.bind_assoc]
  refine congrArg _ (funext fun root => congrArg _ (funext fun r => ?_))
  cases r with
  | inl code => rfl
  | inr symbol => rfl

theorem decLogisticLoop_decode {n : Nat} {env : List Int} (hlength : dithers.length = 4 * n)
    (hn : n ≤ env.length) (s : BitstrDec) (before : Int × BitVec 16) :
    decLogisticLoop fuel s before.1 env dithers =
      (decodeAll (logisticStep fuel) (s, before) (logisticItems env dithers)).map
        fun r => (r.1, r.2.1, r.2.2.1) := by
  induction n generalizing env dithers s before with
  | zero =>
    obtain rfl : dithers = [] := List.eq_nil_of_length_eq_zero hlength
    cases env <;> rfl
  | succ n ih =>
    obtain ⟨inSqrt, env, rfl⟩ := List.exists_cons_of_length_pos (l := env) (by omega)
    obtain ⟨d₀, d₁, d₂, d₃, rest, rfl⟩ :
        ∃ d₀ d₁ d₂ d₃ rest, dithers = d₀ :: d₁ :: d₂ :: d₃ :: rest := by
      rcases dithers with _ | ⟨d₀, _ | ⟨d₁, _ | ⟨d₂, _ | ⟨d₃, rest⟩⟩⟩⟩
      case cons.cons.cons.cons => exact ⟨_, _, _, _, _, rfl⟩
      all_goals simp at hlength
      all_goals omega
    have hfour : logisticItems (inSqrt :: env) (d₀ :: d₁ :: d₂ :: d₃ :: rest) =
        (some inSqrt, d₀) ::
          (([d₁, d₂, d₃].map fun d => (none, d)) ++ logisticItems env rest) := rfl
    rw [hfour, decode_entry]
    simp only [decLogisticLoop, Option.bind_eq_bind]
    refine congrArg _ (funext fun r => ?_)
    have hall : (none, d₀) :: (([d₁, d₂, d₃].map fun d => ((none : Option Int), d)) ++
        logisticItems env rest) =
      ([d₀, d₁, d₂, d₃].map fun d => (none, d)) ++ logisticItems env rest := rfl
    rw [hall, decodeAll_append (fun _ _ _ h => logisticStep_error h), sampleLoop_decode _ r.1]
    cases hloop : decodeAll (logisticStep fuel) (s, r.1, BitVec.ofInt 16 r.2)
        ([d₀, d₁, d₂, d₃].map fun d => (none, d)) with
    | none => rfl
    | some q =>
      obtain ⟨code, data, last⟩ := q
      have hroot : last.2.1 = r.1 := congrArg Prod.fst (decode_keeps_root hloop)
      simp only [Option.map_some, Option.bind_some]
      by_cases hneg : code < 0
      · rw [if_pos hneg, if_pos hneg]
        rfl
      · rw [if_neg hneg, if_neg hneg]
        have hrest := ih (show rest.length = 4 * n by simp at hlength; omega)
          (show n ≤ env.length by simpa using hn) last.1 last.2
        rw [hroot] at hrest
        rw [hrest, Option.map_eq_bind, Option.map_eq_bind, Option.map_eq_bind, Option.bind_assoc,
          Option.bind_assoc]
        rfl

/-- The root for the sample is defined, and if it is 1 to 4, the window is between the bounds. -/
def SampleEnds (s : BitstrDec × Int × BitVec 16) (item : Option Int × Int) : Prop :=
  ∃ root, nextRoot s.2 item.1 = some root ∧
    (1 ≤ root.2.toNat ∧ root.2.toNat ≤ 4 → s.1.Between root.2 item.2)

theorem logisticStep_ends (hfuel : 512 ≤ fuel) {s : BitstrDec × Int × BitVec 16}
    (hwide : 2 ^ 24 ≤ s.1.wUpper.toNat) {item : Option Int × Int} (h : SampleEnds s item) :
    (∃ code < 0, logisticStep fuel s item = some (.inl code)) ∨
      ∃ x next, logisticStep fuel s item = some (.inr (x, next)) ∧ InRange item.2 x ∧
        2 ^ 24 ≤ next.1.wUpper.toNat := by
  obtain ⟨root, hroot, hends⟩ := h
  rcases search_outcome hfuel hwide (searchEnds_iff.mpr hends) with
    hsearch | ⟨x, lower, upper, hsearch, hx, hgap⟩
  · refine .inl ⟨-1, by decide, ?_⟩
    simp only [logisticStep, hroot, hsearch, Option.bind_eq_bind, Option.bind_some]
  · obtain ⟨next, hnarrow, hnext⟩ := narrow_ends (show 4 ≤ fuel by omega) (s := s.1) hgap
    refine .inr ⟨x, (next, root), ?_, hx, hnext⟩
    simp only [logisticStep, hroot, hsearch, hnarrow, Option.bind_eq_bind, Option.bind_some]

theorem logisticStep_endless {s : BitstrDec × Int × BitVec 16}
    (hwide : 2 ^ 24 ≤ s.1.wUpper.toNat) {item : Option Int × Int} (h : ¬ SampleEnds s item) :
    logisticStep fuel s item = none := by
  cases hroot : nextRoot s.2 item.1 with
  | none =>
    simp only [logisticStep, hroot, Option.bind_eq_bind, Option.bind_none]
  | some root =>
    have hsearch : s.1.search fuel root.2 item.2 = none :=
      search_endless hwide fun hends => h ⟨root, hroot, searchEnds_iff.mp hends⟩
    simp only [logisticStep, hroot, hsearch, Option.bind_eq_bind, Option.bind_some,
      Option.bind_none]

/-! ## The decoders -/

theorem bisect_sound_iff (hfuel : 4 ≤ fuel) {s : BitstrDec} (hwide : 2 ^ 24 ≤ s.wUpper.toNat)
    {items : List (List (BitVec 16) × Nat)} (hitems : ∀ item ∈ items, BisectTable item) :
    Sound InTable items (s.decHistBisectMulti fuel items) ↔
      Along (bisectStep fuel) Bracketed (s.start, 0) items := by
  have hpositive : ¬ s.wUpper = 0 := fun hzero => by
    rw [hzero] at hwide
    exact absurd hwide (by decide)
  have hresult : s.decHistBisectMulti fuel items =
      (decodeAll (bisectStep fuel) (s.start, 0) items).bind fun r =>
        if r.1 < 0 then some (r.1, r.2.1, { s with full := r.2.2.1.full })
        else some (r.2.2.1.finish.byteCount, r.2.1, r.2.2.1.finish) := by
    rw [decHistBisectMulti, if_neg hpositive, bisectLoop_eq, Option.map_eq_bind]
    simp only [Option.bind_eq_bind, Option.bind_assoc]
    rfl
  rw [hresult, sound_after_iff (fun t item code h => absurd h bisectStep_not_error)
    (fun last => { s with full := last.1.full })
    (fun last => last.1.finish) fun last => last.1.finish.byteCount]
  refine sound_iff (I := fun t => 2 ^ 24 ≤ t.1.wUpper.toNat) (Q := BisectTable)
    (fun t item ht hitem h => .inr (bisectStep_ends hfuel ht hitem h))
    (fun t item _ hitem h => bisectStep_fails hitem h) ?_ hitems
  exact (start_wUpper s).symm ▸ hwide

theorem logistic_sound_iff (hfuel : 512 ≤ fuel) {s : BitstrDec} (hwide : 2 ^ 24 ≤ s.wUpper.toNat)
    {first : Int} {env : List Int} {n : Nat} (hlength : dithers.length = 4 * n)
    (hn : n ≤ (first :: env).length) :
    Sound (fun item => InRange item.2) (logisticItems (first :: env) dithers)
        (s.decLogisticMulti2 fuel (first :: env) dithers) ↔
      Along (logisticStep fuel) SampleEnds (s.start, firstRes first, 0)
        (logisticItems (first :: env) dithers) := by
  have hresult : s.decLogisticMulti2 fuel (first :: env) dithers =
      (decodeAll (logisticStep fuel) (s.start, firstRes first, 0)
        (logisticItems (first :: env) dithers)).bind fun r =>
        if r.1 < 0 then some (r.1, r.2.1, { s with full := r.2.2.1.full })
        else some (r.2.2.1.finish.byteCount, r.2.1, r.2.2.1.finish) := by
    have hloop : decLogisticLoop fuel s.start (firstRes first) (first :: env) dithers = _ :=
      decLogisticLoop_decode hlength hn s.start (firstRes first, 0)
    simp only [decLogisticMulti2, List.head?_cons, Option.bind_eq_bind, Option.bind_some]
    rw [hloop, Option.map_eq_bind, Option.bind_assoc]
    rfl
  rw [hresult, sound_after_iff (fun _ _ _ h => logisticStep_error h)
    (fun last => { s with full := last.1.full }) (fun last => last.1.finish)
    fun last => last.1.finish.byteCount]
  refine sound_iff (I := fun t => 2 ^ 24 ≤ t.1.wUpper.toNat) (Q := fun _ => True)
    (fun t item ht _ h => logisticStep_ends hfuel ht h)
    (fun t item ht _ h => .inl (logisticStep_endless ht h)) ?_ fun _ _ => trivial
  exact (start_wUpper s).symm ▸ hwide

/-- On any stream, from any state: the search in single steps always ends, with an error or with
symbols of the tables. The bisection does if and only if the window is between the ends of the
table at every symbol, and the logistic decoder if and only if at every sample the root is
defined and, for the roots 1 to 4, the window is between the bounds of the extreme candidates. -/
theorem decoders_iff (hfuel : 512 ≤ fuel) (s : BitstrDec) (hwide : 2 ^ 24 ≤ s.wUpper.toNat)
    (oneStepItems bisectItems : List (List (BitVec 16) × Nat))
    (honeStep : ∀ item ∈ oneStepItems, OneStepTable item)
    (hbisect : ∀ item ∈ bisectItems, BisectTable item)
    (first : Int) (env dithers : List Int) (n : Nat) (hlength : dithers.length = 4 * n)
    (hn : n ≤ (first :: env).length) :
    Sound InTable oneStepItems (s.decHistOneStepMulti fuel oneStepItems) ∧
      (Sound InTable bisectItems (s.decHistBisectMulti fuel bisectItems) ↔
        Along (bisectStep fuel) Bracketed (s.start, 0) bisectItems) ∧
      (Sound (fun item => InRange item.2) (logisticItems (first :: env) dithers)
          (s.decLogisticMulti2 fuel (first :: env) dithers) ↔
        Along (logisticStep fuel) SampleEnds (s.start, firstRes first, 0)
          (logisticItems (first :: env) dithers)) :=
  ⟨oneStep_sound (by omega) hwide honeStep, bisect_sound_iff (by omega) hwide hbisect,
    logistic_sound_iff hfuel hwide hlength hn⟩

theorem decoders_four :
    let s := BitstrDec.init fun _ => 0x1234
    let table : List (BitVec 16) := [0, 20000, 65535]
    Sound InTable [(table, 1)] (s.decHistOneStepMulti 512 [(table, 1)]) ∧
      (Sound InTable [(table, 4)] (s.decHistBisectMulti 512 [(table, 4)]) ↔
        Along (bisectStep 512) Bracketed (s.start, 0) [(table, 4)]) ∧
      (Sound (fun item => InRange item.2) (logisticItems [810000] [0, 1, 2, 3])
          (s.decLogisticMulti2 512 [810000] [0, 1, 2, 3]) ↔
        Along (logisticStep 512) SampleEnds (s.start, firstRes 810000, 0)
          (logisticItems [810000] [0, 1, 2, 3])) :=
  decoders_iff le_rfl _ (by decide) [([0, 20000, 65535], 1)] [([0, 20000, 65535], 4)]
    (by simp [OneStepTable]) (fun item hitem => List.mem_singleton.mp hitem ▸
      ⟨by decide, rfl, rfl, 2, rfl⟩) 810000 [] [0, 1, 2, 3] 1 rfl le_rfl

/-- For an envelope of ones, a window above all bounds is searched for without end. -/
theorem search_ones (fuel : Nat) :
    (BitstrDec.init fun _ => 0xFFFF).start.search fuel 1 0 = none := by
  refine search_endless (by decide) fun h => ?_
  exact absurd (searchEnds_iff.mp h (by decide)).2 (by decide +kernel)

/-- On zeros the bisection has the symbol -1. An entry 0 of the envelope leads to a division by
0, and an entry 1 to a search without end. -/
theorem not_decoders_sound :
    (∃ t, (BitstrDec.init fun _ => 0).decHistBisectMulti 512 [([0, 20000, 65535], 4)] =
        some (1, [-1], t)) ∧
      (∀ fuel, (BitstrDec.init fun _ => 0).decLogisticMulti2 fuel [0] [0, 0, 0, 0] = none) ∧
      ∀ fuel, (BitstrDec.init fun _ => 0xFFFF).decLogisticMulti2 fuel [1] [0, 0, 0, 0] = none := by
  refine ⟨?_, fun fuel => ?_, fun fuel => ?_⟩
  · have hrun : ((BitstrDec.init fun _ => 0).decHistBisectMulti 512
        [([0, 20000, 65535], 4)]).map (fun r => (r.1, r.2.1)) = some (1, [-1]) := by decide +kernel
    obtain ⟨⟨code, data, t⟩, hdecode, hresult⟩ := Option.map_eq_some_iff.mp hrun
    obtain ⟨rfl, rfl⟩ := Prod.mk.inj hresult
    exact ⟨t, hdecode⟩
  · have hroot : squareRoot 0 (firstRes 0) = none := by decide +kernel
    simp [decLogisticMulti2, decLogisticLoop, hroot]
  · have hroot : squareRoot 1 (firstRes 1) = some (1, 1) := by decide +kernel
    have hloop : sampleLoop fuel (BitVec.ofInt 16 1) (BitstrDec.init fun _ => 0xFFFF).start
        [0, 0, 0, 0] = none := by
      rw [show BitVec.ofInt 16 1 = 1 from rfl, sampleLoop, search_ones]
      rfl
    simp only [decLogisticMulti2, List.head?_cons, decLogisticLoop, hroot, hloop,
      Option.bind_eq_bind, Option.bind_some, Option.bind_none]

end PerchWebrtc.Isac
