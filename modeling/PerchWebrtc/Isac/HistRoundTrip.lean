import PerchWebrtc.Isac.HistDecoders

/-!
# The round trip of the histogram coder of iSAC

`WebRtcIsacfix_EncHistMulti` codes each symbol with its own table. The decoders find the same
symbols, whatever follows the stream and in whatever calls, unless the end of the stream does
not fit into the encoder's buffer.

* `follow_calls`: the decoder follows the encoder, call by call;
* `hist_roundTrip_iff`: the round trip.
-/

namespace PerchWebrtc.Isac

open BitstrEnc BitstrDec

/-- The symbols come with their tables; `none` for an access outside of a table. -/
def encHistLoop (fuel : Nat) : BitstrEnc → List (Nat × List (BitVec 16)) → Option (Int × BitstrEnc)
  | s, [] => some (0, s)
  | s, (symbol, cdf) :: items => do
    let cdfLo ← cdf[symbol]?
    let cdfHi ← cdf[symbol + 1]?
    let (code, s) ← s.encodeInterval fuel cdfLo cdfHi
    if code = 0 then encHistLoop fuel s items else some (code, s)

/-- The pointer and the interval are stored at the end only. -/
def encHistMulti (fuel : Nat) (s : BitstrEnc) (items : List (Nat × List (BitVec 16))) :
    Option (Int × BitstrEnc) := do
  let (code, last) ← encHistLoop fuel s items
  if code = 0 then some (0, last)
  else some (code, { last with streamIndex := s.streamIndex, wUpper := s.wUpper })

/-- Calls that all return 0. -/
def encHistCalls (fuel : Nat) : BitstrEnc → List (List (Nat × List (BitVec 16))) → Option BitstrEnc
  | s, [] => some s
  | s, items :: calls => do
    let (code, s) ← encHistMulti fuel s items
    if code = 0 then encHistCalls fuel s calls else none

inductive DecCall where
  | oneStep (items : List (List (BitVec 16) × Nat))
  | bisect (items : List (List (BitVec 16) × Nat))

namespace DecCall

def run (fuel : Nat) (s : BitstrDec) : DecCall → Option (Int × List Int × BitstrDec)
  | oneStep items => s.decHistOneStepMulti fuel items
  | bisect items => s.decHistBisectMulti fuel items

def tables : DecCall → List (List (BitVec 16))
  | oneStep items => items.map Prod.fst
  | bisect items => items.map Prod.fst

/-- The search starts inside of the table, or the table has 2ᵏ − 1 entries. -/
def Admissible : DecCall → Prop
  | oneStep items => ∀ item ∈ items, item.2 < item.1.length
  | bisect items => ∀ item ∈ items, item.2 = item.1.length + 1 ∧ ∃ k, item.2 = 2 ^ k

end DecCall

/-- The last call's result, and the symbols of all; an error ends the calls. -/
def decodeCalls (fuel : Nat) : BitstrDec → List DecCall → Option (Int × List Int × BitstrDec)
  | s, [] => some (0, [], s)
  | s, [call] => call.run fuel s
  | s, call :: calls => do
    let (code, data, s) ← call.run fuel s
    if code < 0 then some (code, data, s)
    else do
      let (code, rest, s) ← decodeCalls fuel s calls
      some (code, data ++ rest, s)

/-- A table that increases from 0 to 65535. -/
structure IsCdf (cdf : List (BitVec 16)) : Prop where
  increasing : cdf.Pairwise (· < ·)
  first : cdf[0]? = some 0
  last : cdf.getLast? = some 65535

variable {cdf : List (BitVec 16)}

theorem IsCdf.sorted (h : IsCdf cdf) : cdf.Pairwise (· ≤ ·) :=
  h.increasing.imp fun hlt => BitVec.le_of_lt hlt

instance (cdf : List (BitVec 16)) : Decidable (IsCdf cdf) :=
  decidable_of_iff (cdf.Pairwise (· < ·) ∧ cdf[0]? = some 0 ∧ cdf.getLast? = some 65535)
    ⟨fun h => ⟨h.1, h.2.1, h.2.2⟩, fun h => ⟨h.increasing, h.first, h.last⟩⟩

/-- The symbol is in the table. -/
def Coded (item : Nat × List (BitVec 16)) : Prop := IsCdf item.2 ∧ item.1 + 1 < item.2.length

instance (item : Nat × List (BitVec 16)) : Decidable (Coded item) :=
  inferInstanceAs (Decidable (_ ∧ _))

variable {fuel : Nat} {e e' : BitstrEnc} {t : BitstrDec}
  {items items' : List (Nat × List (BitVec 16))} {lo : BitVec 16} {hi : BitVec 16}

/-- One symbol, and the encoder before the others. -/
theorem encHistLoop_cons (hfuel : 4 ≤ fuel) {item : Nat × List (BitVec 16)} (hcoded : Coded item)
    (hready : e.Ready) (hwide : 2 ^ 24 ≤ e.wUpper.toNat)
    (h : encHistLoop fuel e (item :: items) = some (0, e')) :
    ∃ lo hi next, item.2[item.1]? = some lo ∧ item.2[item.1 + 1]? = some hi ∧
      Narrowed lo hi e next ∧ next.Ready ∧ encHistLoop fuel next items = some (0, e') := by
  obtain ⟨symbol, cdf⟩ := item
  obtain ⟨hcdf, hsymbol⟩ := hcoded
  dsimp only at hcdf hsymbol
  have hlo : cdf[symbol]? = some cdf[symbol] := List.getElem?_eq_getElem (Nat.lt_of_succ_lt hsymbol)
  have hhi : cdf[symbol + 1]? = some cdf[symbol + 1] := List.getElem?_eq_getElem hsymbol
  have hlt : cdf[symbol] < cdf[symbol + 1] :=
    List.pairwise_iff_getElem.mp hcdf.increasing _ _ _ _ (Nat.lt_succ_self symbol)
  obtain ⟨c, next, hencode, hnext⟩ := encodeInterval_ok hfuel hready hwide hlt
  simp only [encHistLoop, hlo, hhi, hencode, Option.bind_eq_bind, Option.bind_some] at h
  by_cases hzero : c = 0
  · obtain ⟨hready', hwide', hshifted⟩ := hnext hzero
    rw [if_pos hzero] at h
    exact ⟨_, _, next, hlo, hhi, ⟨hlt, hwide, hwide', hshifted⟩, hready', h⟩
  · rw [if_neg hzero] at h
    exact absurd (congrArg Prod.fst (Option.some.inj h)) hzero

/-- What the encoder keeps. -/
theorem encHistLoop_ready (hfuel : 4 ≤ fuel) (hcoded : ∀ item ∈ items, Coded item)
    (hready : e.Ready) (hwide : 2 ^ 24 ≤ e.wUpper.toNat)
    (h : encHistLoop fuel e items = some (0, e')) :
    e'.Ready ∧ 2 ^ 24 ≤ e'.wUpper.toNat ∧
      ∀ stream, Codes stream e' → Codes stream e := by
  induction items generalizing e with
  | nil =>
    obtain rfl : e = e' := congrArg Prod.snd (Option.some.inj h)
    exact ⟨hready, hwide, fun _ => id⟩
  | cons item items ih =>
    obtain ⟨lo, hi, next, -, -, hnarrowed, hnext, hrest⟩ :=
      encHistLoop_cons hfuel (hcoded item List.mem_cons_self) hready hwide h
    obtain ⟨hready', hwide', hcodes⟩ :=
      ih (fun item' hitem => hcoded item' (List.mem_cons_of_mem _ hitem)) hnext hnarrowed.wide' hrest
    exact ⟨hready', hwide', fun stream hstream => hnarrowed.codes (hcodes stream hstream)⟩

theorem encHistLoop_append (fuel : Nat) (e : BitstrEnc) :
    encHistLoop fuel e (items ++ items') = (encHistLoop fuel e items).bind fun r =>
      if r.1 = 0 then encHistLoop fuel r.2 items' else some r := by
  induction items generalizing e with
  | nil => rfl
  | cons item items ih =>
    obtain ⟨symbol, cdf⟩ := item
    simp only [List.cons_append, encHistLoop, Option.bind_eq_bind, Option.bind_assoc]
    refine congrArg _ (funext fun cdfLo => congrArg _ (funext fun cdfHi =>
      congrArg _ (funext fun r => ?_)))
    by_cases hzero : r.1 = 0
    · rw [if_pos hzero, if_pos hzero, ih]
    · rw [if_neg hzero, if_neg hzero, Option.bind_some, if_neg hzero]

theorem encHistLoop_split (h : encHistLoop fuel e (items ++ items') = some (0, e')) :
    ∃ next, encHistLoop fuel e items = some (0, next) ∧
      encHistLoop fuel next items' = some (0, e') := by
  rw [encHistLoop_append, Option.bind_eq_some_iff] at h
  obtain ⟨⟨c, next⟩, hfirst, hrest⟩ := h
  by_cases hzero : c = 0
  · subst hzero
    exact ⟨next, hfirst, hrest⟩
  · rw [if_neg hzero] at hrest
    exact absurd (congrArg Prod.fst (Option.some.inj hrest)) hzero

/-- Calls that return 0 code their symbols in one run. -/
theorem encHistCalls_flatten {calls : List (List (Nat × List (BitVec 16)))}
    (h : encHistCalls fuel e calls = some e') :
    encHistLoop fuel e calls.flatten = some (0, e') := by
  induction calls generalizing e with
  | nil =>
    rw [Option.some.inj h]
    rfl
  | cons items calls ih =>
    simp only [encHistCalls, encHistMulti, Option.bind_eq_bind, Option.bind_eq_some_iff] at h
    obtain ⟨⟨c, next⟩, ⟨⟨c', last⟩, hloop, hstored⟩, hrest⟩ := h
    dsimp only at hstored hrest
    by_cases hcode : c = 0
    · rw [if_pos hcode] at hrest
      by_cases hzero : c' = 0
      · subst hzero
        rw [if_pos rfl] at hstored
        obtain rfl : last = next := congrArg Prod.snd (Option.some.inj hstored)
        rw [List.flatten_cons, encHistLoop_append, hloop, Option.bind_some, if_pos rfl]
        exact ih hrest
      · rw [if_neg hzero] at hstored
        exact absurd ((congrArg Prod.fst (Option.some.inj hstored)).trans hcode) hzero
    · rw [if_neg hcode] at hrest
      exact absurd hrest (by simp)

/-! ## The decoders -/

/-- A part is the one of the symbol. -/
theorem Part_of_narrowed {k : Nat} {next : BitstrEnc} (hlo : cdf[k]? = some lo)
    (hhi : cdf[k + 1]? = some hi) (h : Narrowed lo hi e next) (hstep : t.InStep e)
    (hcodes : Codes t.stream next) : t.Part cdf k lo hi where
  lower := hlo
  upper := hhi
  above := (h.streamval hstep hcodes).1
  within := (h.streamval hstep hcodes).2

theorem not_above {k : Nat} (h : t.Part cdf k lo hi) : ¬ scale t.wUpper 65535 < t.streamval := by
  have hle : hi ≤ 65535 := by
    rw [BitVec.le_def]
    have := hi.isLt
    show hi.toNat ≤ 65535
    omega
  exact BitVec.not_lt.mpr (BitVec.le_trans h.within (scale_mono _ hle))

theorem not_below (hcdf : IsCdf cdf) {k : Nat} {c : BitVec 16} (h : t.Part cdf k lo hi)
    (hfirst : cdf[0]? = some c) : ¬ t.streamval ≤ scale t.wUpper c := by
  have hle := scale_mono t.wUpper (entry_le hcdf.sorted hfirst h.lower (Nat.zero_le k))
  exact fun hbelow => BitVec.not_lt.mpr (BitVec.le_trans hbelow hle) h.above

theorem oneStep_found (hcdf : IsCdf cdf) {initIndex : Nat} (hinit : initIndex < cdf.length)
    {k : Nat} (h : t.Part cdf k lo hi) :
    t.oneStep cdf initIndex = some (.found k (scale t.wUpper lo) (scale t.wUpper hi)) := by
  obtain ⟨r, hsearch, hend⟩ := oneStep_ends hcdf.last hinit (s := t)
  rw [hsearch]
  rcases hend with ⟨-, hnone⟩ | ⟨k', lo', hi', rfl, hpart⟩
  · -- The window is between the first and the last entry.
    rcases hnone with hbeyond | ⟨c, hfirst, hbelow⟩
    · exact absurd hbeyond (not_above h)
    · exact absurd hbelow (not_below hcdf h hfirst)
  · obtain ⟨rfl, rfl, rfl⟩ := h.unique hcdf.sorted hpart
    rfl

theorem bisect_found (hcdf : IsCdf cdf) {cdfSize m : Nat} (hsize : cdfSize = cdf.length + 1)
    (hpow : cdfSize = 2 ^ m) {k : Nat} (h : t.Part cdf k lo hi) (wLower₀ : BitVec 32) :
    t.bisect cdf (cdfSize / 2) (cdfSize / 2 - 1) wLower₀ t.wUpper =
      some (.found k (scale t.wUpper lo) (scale t.wUpper hi)) := by
  have hk : k + 1 < cdf.length := (List.getElem?_eq_some_iff.mp h.upper).1
  obtain ⟨n, rfl⟩ : ∃ n, m = n + 1 := Nat.exists_eq_add_one.mpr <| by
    by_contra hzero
    rw [show m = 0 by omega] at hpow
    omega
  have hdouble : 2 ^ (n + 1) = 2 ^ n + 2 ^ n := by rw [Nat.pow_succ, Nat.mul_two]
  have hpos : 0 < 2 ^ n := Nat.pow_pos (by decide)
  rw [show cdfSize / 2 = 2 ^ n by omega]
  have hnone : t.Low cdf wLower₀ 0 wLower₀ := .inl ⟨rfl, rfl⟩
  have hall : t.High cdf (2 ^ n - 1 + 2 ^ n) t.wUpper := .inl ⟨by omega, rfl⟩
  obtain ⟨l, wLower, wUpper, hsearch, hl, hlow, hhigh⟩ :=
    bisect_brackets (show 2 ^ n - 1 + 1 = 0 + 2 ^ n by omega) (by omega) hnone hall
  rw [hsearch]
  -- The window is between the first and the last entry, so that both ends are entries.
  obtain ⟨i, c, rfl, hc, hlower, habove⟩ := hlow.resolve_left fun hnone => by
    rcases hhigh with ⟨hend, -⟩ | ⟨c, hc, hwUpper, hbelow⟩
    · omega
    · rw [hnone.1] at hc
      rw [hwUpper] at hbelow
      exact not_below hcdf h hc hbelow
  obtain ⟨c', hc', hupper, hwithin⟩ := hhigh.resolve_left fun hend => by
    have hlast := hcdf.last
    rw [List.getLast?_eq_getElem?, ← hend.1, Nat.add_sub_cancel, hc] at hlast
    rw [hlower, Option.some.inj hlast] at habove
    exact not_above h habove
  subst hlower hupper
  obtain ⟨rfl, rfl, rfl⟩ := h.unique hcdf.sorted ⟨hc, hc', habove, hwithin⟩
  simp

section Follow

variable (hfuel : 4 ≤ fuel) {decItems : List (List (BitVec 16) × Nat)}
  (hcoded : ∀ item ∈ items, Coded item) (htables : decItems.map Prod.fst = items.map Prod.snd)
  (hready : e.Ready) (hwide : 2 ^ 24 ≤ e.wUpper.toNat)
  (h : encHistLoop fuel e items = some (0, e')) (hstep : t.InStep e) (hcodes : Codes t.stream e')

include hfuel hcoded htables hready hwide h hstep hcodes

theorem follow_oneStepLoop (hinit : ∀ item ∈ decItems, item.2 < item.1.length) :
    ∃ t', oneStepLoop fuel t decItems = some (0, items.map fun item => (item.1 : Int), t') ∧
      t'.stream = t.stream ∧ t'.InStep e' := by
  induction items generalizing e t decItems with
  | nil =>
    obtain rfl : e = e' := congrArg Prod.snd (Option.some.inj h)
    rw [List.map_nil, List.map_eq_nil_iff] at htables
    rw [htables]
    exact ⟨t, rfl, rfl, hstep⟩
  | cons item items ih =>
    obtain ⟨⟨cdf, initIndex⟩, decItems, rfl, hcdf, htables'⟩ := List.map_eq_cons_iff.mp htables
    dsimp only at hcdf
    subst hcdf
    have hcoded' : ∀ item' ∈ items, Coded item' := fun item' hitem =>
      hcoded item' (List.mem_cons_of_mem _ hitem)
    obtain ⟨lo, hi, next, hlo, hhi, hnarrowed, hnext, hrest⟩ :=
      encHistLoop_cons hfuel (hcoded item List.mem_cons_self) hready hwide h
    have hnow : Codes t.stream next :=
      (encHistLoop_ready hfuel hcoded' hnext hnarrowed.wide' hrest).2.2 _ hcodes
    have hfound := oneStep_found (hcoded item List.mem_cons_self).1
      (hinit _ List.mem_cons_self) (Part_of_narrowed hlo hhi hnarrowed hstep hnow)
    obtain ⟨t₁, hnarrow, hstream, hstep₁⟩ := hnarrowed.follow hfuel hstep hnow
    obtain ⟨t', hloop, hstream', hstep'⟩ := ih hcoded' htables' hnext
      hnarrowed.wide' hrest hstep₁ (hstream.symm ▸ hcodes)
      fun item' hitem => hinit item' (List.mem_cons_of_mem _ hitem)
    refine ⟨t', ?_, hstream'.trans hstream, hstep'⟩
    simp only [oneStepLoop, hfound, hnarrow, hloop, Option.bind_eq_bind, Option.bind_some,
      List.map_cons]

theorem follow_bisectLoop
    (hsizes : ∀ item ∈ decItems, item.2 = item.1.length + 1 ∧ ∃ k, item.2 = 2 ^ k)
    (wLower : BitVec 32) :
    ∃ t', bisectLoop fuel t wLower decItems =
        some (0, items.map fun item => (item.1 : Int), t') ∧
      t'.stream = t.stream ∧ t'.InStep e' := by
  induction items generalizing e t decItems wLower with
  | nil =>
    obtain rfl : e = e' := congrArg Prod.snd (Option.some.inj h)
    rw [List.map_nil, List.map_eq_nil_iff] at htables
    rw [htables]
    exact ⟨t, rfl, rfl, hstep⟩
  | cons item items ih =>
    obtain ⟨⟨cdf, cdfSize⟩, decItems, rfl, hcdf, htables'⟩ := List.map_eq_cons_iff.mp htables
    dsimp only at hcdf
    subst hcdf
    have hcoded' : ∀ item' ∈ items, Coded item' := fun item' hitem =>
      hcoded item' (List.mem_cons_of_mem _ hitem)
    obtain ⟨lo, hi, next, hlo, hhi, hnarrowed, hnext, hrest⟩ :=
      encHistLoop_cons hfuel (hcoded item List.mem_cons_self) hready hwide h
    have hnow : Codes t.stream next :=
      (encHistLoop_ready hfuel hcoded' hnext hnarrowed.wide' hrest).2.2 _ hcodes
    obtain ⟨hsize, m, hpow⟩ := hsizes _ List.mem_cons_self
    have hfound := bisect_found (hcoded item List.mem_cons_self).1 hsize hpow
      (Part_of_narrowed hlo hhi hnarrowed hstep hnow) wLower
    obtain ⟨t₁, hnarrow, hstream, hstep₁⟩ := hnarrowed.follow hfuel hstep hnow
    have hpositive : ¬ t₁.wUpper = 0 := fun hzero => by
      have hwide' := hnarrowed.wide'
      rw [← hstep₁.wUpper, hzero] at hwide'
      exact absurd hwide' (by decide)
    obtain ⟨t', hloop, hstream', hstep'⟩ := ih hcoded' htables' hnext
      hnarrowed.wide' hrest hstep₁ (hstream.symm ▸ hcodes)
      (fun item' hitem => hsizes item' (List.mem_cons_of_mem _ hitem)) (scale t.wUpper lo + 1)
    refine ⟨t', ?_, hstream'.trans hstream, hstep'⟩
    simp only [bisectLoop, hfound, hnarrow, hloop, if_neg hpositive, Option.bind_eq_bind,
      Option.bind_some, List.map_cons]

end Follow

/-! ## The calls -/

theorem start_of_inStep (h : t.InStep e) : t.start = t := by
  have hconsumed := h.consumed
  unfold consumed at hconsumed
  refine if_neg fun hzero => ?_
  rw [hzero] at hconsumed
  split at hconsumed <;> omega

theorem length_le (hready : e.Ready) : e.length ≤ 399 := by
  have hroom : e.streamIndex < 200 := hready.room
  unfold BitstrEnc.length
  split <;> omega

theorem finish_of_inStep (hready : e.Ready) (h : t.InStep e) : t.finish = t := by
  have hconsumed := h.consumed
  have hlength := length_le hready
  unfold consumed at hconsumed
  have hindex : t.streamIndex % 2 ^ 16 = t.streamIndex := Nat.mod_eq_of_lt (by omega)
  unfold finish
  rw [hindex]

theorem byteCount_of_inStep (hready : e.Ready) (h : t.InStep e) :
    t.byteCount = (e.length + e.endLength : Nat) := by
  have hcount := byteCount_ok h ((length_le hready).trans (by decide))
  rwa [finish_of_inStep hready h] at hcount

theorem start_inStep (stream memory : Nat → BitVec 16) :
    (BitstrDec.init stream).start.InStep (.init memory) := by
  have hcode : (BitstrEnc.init memory).code = 0 := by
    show 0 * 2 ^ 32 + 0 = 0
    omega
  have hlength : (BitstrEnc.init memory).length = 0 := rfl
  have hupper : (BitstrEnc.init memory).wUpper.toNat = 2 ^ 32 - 1 := rfl
  unfold InStep
  rw [hcode, hlength, hupper]
  exact start_follows stream

/-- A call follows the encoder. -/
theorem follow_run (hfuel : 4 ≤ fuel) {call : DecCall} (hadmissible : call.Admissible)
    (hcoded : ∀ item ∈ items, Coded item) (htables : call.tables = items.map Prod.snd)
    (hready : e.Ready) (hwide : 2 ^ 24 ≤ e.wUpper.toNat)
    (h : encHistLoop fuel e items = some (0, e')) (hupper : t.wUpper = e.wUpper)
    (hstep : t.start.InStep e) (hcodes : Codes t.start.stream e') :
    ∃ t', call.run fuel t = some (((e'.length + e'.endLength : Nat) : Int),
        items.map fun item => (item.1 : Int), t') ∧
      t'.stream = t.start.stream ∧ t'.InStep e' := by
  have hpositive : ¬ t.wUpper = 0 := fun hzero => by
    rw [← hupper, hzero] at hwide
    exact absurd hwide (by decide)
  obtain ⟨hready', -, -⟩ := encHistLoop_ready hfuel hcoded hready hwide h
  cases call with
  | oneStep decItems =>
    obtain ⟨t', hloop, hstream, hstep'⟩ := follow_oneStepLoop hfuel hcoded htables hready
      hwide h hstep hcodes hadmissible
    refine ⟨t', ?_, hstream, hstep'⟩
    simp only [DecCall.run, decHistOneStepMulti, if_neg hpositive, hloop, Option.bind_eq_bind,
      Option.bind_some, if_neg (Int.lt_irrefl 0), finish_of_inStep hready' hstep',
      byteCount_of_inStep hready' hstep']
  | bisect decItems =>
    obtain ⟨t', hloop, hstream, hstep'⟩ := follow_bisectLoop hfuel hcoded htables hready
      hwide h hstep hcodes hadmissible 0
    refine ⟨t', ?_, hstream, hstep'⟩
    simp only [DecCall.run, decHistBisectMulti, if_neg hpositive, hloop, Option.bind_eq_bind,
      Option.bind_some, if_neg (Int.lt_irrefl 0), finish_of_inStep hready' hstep',
      byteCount_of_inStep hready' hstep']

/-- The decoder follows the encoder, in any calls. -/
theorem follow_calls (hfuel : 4 ≤ fuel) {calls : List DecCall} (hsome : calls ≠ [])
    (hadmissible : ∀ call ∈ calls, call.Admissible) (hcoded : ∀ item ∈ items, Coded item)
    (htables : calls.flatMap DecCall.tables = items.map Prod.snd) (hready : e.Ready)
    (hwide : 2 ^ 24 ≤ e.wUpper.toNat) (h : encHistLoop fuel e items = some (0, e'))
    (hupper : t.wUpper = e.wUpper) (hstep : t.start.InStep e)
    (hcodes : Codes t.start.stream e') :
    ∃ t', decodeCalls fuel t calls = some (((e'.length + e'.endLength : Nat) : Int),
        items.map fun item => (item.1 : Int), t') ∧
      t'.stream = t.start.stream ∧ t'.InStep e' := by
  induction calls generalizing e t items with
  | nil => exact absurd rfl hsome
  | cons call calls ih =>
    rw [List.flatMap_cons] at htables
    obtain ⟨items₁, items₂, rfl, htables₁, htables₂⟩ := List.append_eq_map_iff.mp htables
    have hcoded₁ : ∀ item ∈ items₁, Coded item := fun item hitem =>
      hcoded item (List.mem_append_left _ hitem)
    have hcoded₂ : ∀ item ∈ items₂, Coded item := fun item hitem =>
      hcoded item (List.mem_append_right _ hitem)
    obtain ⟨next, hfirst, hsecond⟩ := encHistLoop_split h
    obtain ⟨hready', hwide', -⟩ := encHistLoop_ready hfuel hcoded₁ hready hwide hfirst
    have hnow : Codes t.start.stream next :=
      (encHistLoop_ready hfuel hcoded₂ hready' hwide' hsecond).2.2 _ hcodes
    obtain ⟨t₁, hrun, hstream, hstep₁⟩ := follow_run hfuel (hadmissible call List.mem_cons_self)
      hcoded₁ htables₁.symm hready hwide hfirst hupper hstep hnow
    cases calls with
    | nil =>
      have hnil : items₂ = [] := List.map_eq_nil_iff.mp htables₂
      subst hnil
      obtain rfl : next = e' := congrArg Prod.snd (Option.some.inj hsecond)
      rw [List.append_nil]
      exact ⟨t₁, hrun, hstream, hstep₁⟩
    | cons call' calls =>
      have hstart := start_of_inStep hstep₁
      obtain ⟨t', hrest, hstream', hstep'⟩ := ih (t := t₁) (by simp)
        (fun c hc => hadmissible c (List.mem_cons_of_mem _ hc)) hcoded₂ htables₂.symm hready' hwide'
        hsecond hstep₁.wUpper_eq (hstart.symm ▸ hstep₁) (hstart.symm ▸ hstream.symm ▸ hcodes)
      refine ⟨t', ?_, hstream'.trans (hstart.symm ▸ hstream), hstep'⟩
      have hnonneg : ¬ ((next.length + next.endLength : Nat) : Int) < 0 :=
        not_lt.mpr (Int.natCast_nonneg _)
      simp only [decodeCalls, hrun, Option.bind_eq_bind, Option.bind_some, if_neg hnonneg, hrest,
        List.map_append]

/-- The decoders find the symbols and the length of the stream, in any calls and whatever
follows the stream, if and only if the end of the stream fits into the buffer. -/
theorem hist_roundTrip_iff (hfuel : 4 ≤ fuel) (memory : Nat → BitVec 16)
    (calls : List (List (Nat × List (BitVec 16)))) (hcoded : ∀ items ∈ calls, ∀ item ∈ items,
      Coded item) {s : BitstrEnc} (hs : encHistCalls fuel (.init memory) calls = some s) :
    (∃ n s', s.encTerminate = some (n, s') ∧
      ∀ stream, (∀ i < n, streamByte stream i = streamByte s'.stream i) →
      ∀ decCalls : List DecCall, decCalls ≠ [] → (∀ call ∈ decCalls, call.Admissible) →
        decCalls.flatMap DecCall.tables = calls.flatten.map Prod.snd →
        ∃ t, decodeCalls fuel (.init stream) decCalls =
          some ((n : Int), calls.flatten.map fun item => (item.1 : Int), t)) ↔ ¬ s.Overruns := by
  have hloop := encHistCalls_flatten hs
  have hitems : ∀ item ∈ calls.flatten, Coded item := fun item hitem => by
    obtain ⟨items, hin, hitem⟩ := List.mem_flatten.mp hitem
    exact hcoded items hin item hitem
  have hstart : 2 ^ 24 ≤ (BitstrEnc.init memory).wUpper.toNat := by
    show 2 ^ 24 ≤ (0xFFFFFFFF : BitVec 32).toNat
    decide
  obtain ⟨hready, hwide, -⟩ := encHistLoop_ready hfuel hitems (init_ready memory) hstart hloop
  constructor
  · rintro ⟨n, s', hend, -⟩ hover
    rw [encTerminate_overruns hready hwide hover] at hend
    exact absurd hend (by simp)
  · intro hfits
    obtain ⟨s', hend, hwithin⟩ := encTerminate_ok hready hwide hfits
    refine ⟨_, s', hend, fun stream hstream decCalls hsome hadmissible htables => ?_⟩
    have hcodes : Codes stream s := hwithin _ ⟨streamByte_lt stream, hstream⟩
    obtain ⟨t, hrun, -, -⟩ := follow_calls hfuel hsome hadmissible hitems htables
      (init_ready memory) hstart hloop rfl (start_inStep stream memory) hcodes
    exact ⟨t, hrun⟩

/-- Two symbols with tables of their own, in one call. -/
theorem hist_roundTrip_two :
    let calls := [[(1, [0, 20000, 65535]), (0, [0, 3, 4, 65535])]]
    ∃ s, encHistCalls 4 (.init fun _ => 0) calls = some s ∧
      ((∃ n s', s.encTerminate = some (n, s') ∧
        ∀ stream, (∀ i < n, streamByte stream i = streamByte s'.stream i) →
        ∀ decCalls : List DecCall, decCalls ≠ [] → (∀ call ∈ decCalls, call.Admissible) →
          decCalls.flatMap DecCall.tables = calls.flatten.map Prod.snd →
          ∃ t, decodeCalls 4 (.init stream) decCalls =
            some ((n : Int), calls.flatten.map fun item => (item.1 : Int), t)) ↔
        ¬ s.Overruns) := by
  intro calls
  obtain ⟨s, hs⟩ := Option.isSome_iff_exists.mp
    (show (encHistCalls 4 (.init fun _ => 0) calls).isSome by decide +kernel)
  exact ⟨s, hs, hist_roundTrip_iff (by decide) _ calls (by decide) hs⟩

/-- 200 symbols in 399 bytes, where the interval needs two more. -/
def overrunningSymbols : List (Nat × List (BitVec 16)) :=
  (0, [0, 2, 65535]) :: List.replicate 199 (0, [0, 1, 65535])

/-- The end of the stream is written past the 200 words of the buffer. -/
theorem not_hist_roundTrip :
    (∀ item ∈ overrunningSymbols, Coded item) ∧
      ∃ s, encHistCalls 4 (.init fun _ => 0) [overrunningSymbols] = some s ∧
        s.streamIndex = 199 ∧ s.encTerminate = none := by
  refine ⟨?_, ?_⟩
  · intro item hitem
    rcases List.mem_cons.mp hitem with rfl | hitem
    · decide
    · rw [List.eq_of_mem_replicate hitem]
      decide
  · have hrun : ((encHistCalls 4 (.init fun _ => 0) [overrunningSymbols]).map fun s =>
        (s.streamIndex, s.encTerminate.isNone)) = some (199, true) := by decide +kernel
    obtain ⟨s, hs, hend⟩ := Option.map_eq_some_iff.mp hrun
    exact ⟨s, hs, congrArg Prod.fst hend, Option.isNone_iff_eq_none.mp (congrArg Prod.snd hend)⟩

end PerchWebrtc.Isac
