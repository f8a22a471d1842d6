import PerchWebrtc.Isac.HistRoundTrip
import PerchWebrtc.Isac.Logistic

/-!
# The round trip of the logistic coder of iSAC

The samples with their entries of the envelope and their dither, one by one, for the loops of
the encoder and of the decoder.

* `encSamples_ends`: the encoder ends, for every sample;
* `follow_samples`, `abort_samples`: the decoder follows it, or aborts;
* `logistic_roundTrip_iff`: the round trip.
-/

namespace PerchWebrtc.Isac

open BitstrEnc BitstrDec

/-- Every entry is for four samples. -/
def perSample (env : List (BitVec 16)) : List (BitVec 16) := env.flatMap (List.replicate 4)

structure Sample where
  envQ8 : BitVec 16
  x : Int
  dither : Int

def samples (env : List (BitVec 16)) (data dithers : List Int) : List Sample :=
  (perSample env).zipWith (fun envQ8 p => ⟨envQ8, p.1, p.2⟩) (data.zip dithers)

/-- A sample that may be coded, on the grid of its dither. -/
structure Sample.Admissible (p : Sample) : Prop where
  env : 1 ≤ p.envQ8.toNat
  low : -32640 ≤ p.x
  high : p.x ≤ 32640
  grid : 128 ∣ p.x + p.dither

/-- The decoder's search does not abort before the sample that is coded. -/
def Sample.Found (p : Sample) : Prop :=
  ∀ n, ClippedBy p.envQ8 p.x n → Reached p.envQ8 p.dither (toward p.x n)

/-! ## One sample at a time -/

/-- The loop of the encoder, with an entry for each sample. -/
def encSamples (fuel : Nat) : BitstrEnc → List (BitVec 16 × Int) →
    Option (Int × List Int × BitstrEnc)
  | s, [] => some (0, [], s)
  | s, (envQ8, x) :: items => do
    let (x, cdfLo, cdfHi) ← clip envQ8 fuel x (cdfAt envQ8 (x - 64)) (cdfAt envQ8 (x + 64))
    let (code, s) ← s.encodeInterval fuel cdfLo cdfHi
    if code = 0 then do
      let (code, left, s) ← encSamples fuel s items
      some (code, x :: left, s)
    else some (code, x :: items.map Prod.snd, s)

/-- The loop of the decoder. -/
def decSamples (fuel : Nat) : BitstrDec → List (BitVec 16 × Int) →
    Option (Int × List Int × BitstrDec)
  | s, [] => some (0, [], s)
  | s, (envQ8, dither) :: items => do
    match ← s.search fuel envQ8 dither with
    | .error code => some (code, [], s)
    | .found x lower upper => do
      let s ← s.narrow fuel lower upper
      let (code, data, s) ← decSamples fuel s items
      some (code, x :: data, s)

variable {fuel : Nat} {env : List (BitVec 16)}

theorem perSample_cons (envQ8 : BitVec 16) (env : List (BitVec 16)) :
    perSample (envQ8 :: env) = List.replicate 4 envQ8 ++ perSample env := List.flatMap_cons

theorem perSample_length (env : List (BitVec 16)) : (perSample env).length = 4 * env.length := by
  simp [perSample, Nat.mul_comm]

/-- The entry changes after every fourth sample. -/
theorem envStep_eq (k : Nat) : (k &&& 1) &&& (k >>> 1) = if k % 4 = 3 then 1 else 0 := by
  rw [Nat.and_one_is_mod]
  rcases Nat.mod_two_eq_zero_or_one k with heven | hodd
  · rw [heven, Nat.zero_and, if_neg (by omega)]
  · rw [hodd, Nat.one_and_eq_mod_two, Nat.shiftRight_eq_div_pow]
    split <;> omega

/-- The entry for the sample, and the entries for the samples after it. -/
theorem perSample_drop {k : Nat} (hk : k % 4 < (perSample env).length) :
    ∃ envQ8, env.head? = some envQ8 ∧ (perSample env).drop (k % 4) =
      envQ8 :: (perSample (env.drop ((k &&& 1) &&& (k >>> 1)))).drop ((k + 1) % 4) := by
  cases env with
  | nil => exact absurd hk (Nat.not_lt_zero _)
  | cons envQ8 env =>
    refine ⟨envQ8, rfl, ?_⟩
    rw [envStep_eq, Nat.add_mod k 1 4]
    have hsmall : k % 4 < 4 := Nat.mod_lt _ (by decide)
    generalize k % 4 = r at hsmall
    interval_cases r <;> simp [perSample_cons, List.replicate]

theorem encLogisticLoop_eq {k : Nat} {s : BitstrEnc} {data : List Int}
    (hlength : k % 4 + data.length ≤ (perSample env).length) :
    encLogisticLoop fuel s k env data =
      encSamples fuel s (((perSample env).drop (k % 4)).zip data) := by
  induction data generalizing s k env with
  | nil => simp [encLogisticLoop, encSamples]
  | cons x data ih =>
    rw [List.length_cons] at hlength
    obtain ⟨envQ8, hhead, hdrop⟩ := perSample_drop
      (show k % 4 < (perSample env).length by omega)
    rw [perSample_length] at hlength
    have hrest : (k + 1) % 4 + data.length ≤
        (perSample (env.drop ((k &&& 1) &&& (k >>> 1)))).length := by
      rw [perSample_length, List.length_drop, envStep_eq]
      split <;> omega
    have hdata : (((perSample (env.drop ((k &&& 1) &&& (k >>> 1)))).drop ((k + 1) % 4)).zip
        data).map Prod.snd = data :=
      List.map_snd_zip (by rw [List.length_drop]; omega)
    rw [hdrop, List.zip_cons_cons]
    simp only [encLogisticLoop, encSamples, hhead, Option.bind_eq_bind, Option.bind_some, ih hrest,
      hdata]

theorem decSamples_append (s : BitstrDec) (items items' : List (BitVec 16 × Int)) :
    decSamples fuel s (items ++ items') = (decSamples fuel s items).bind fun r =>
      if r.1 < 0 then some r
      else (decSamples fuel r.2.2 items').map fun q => (q.1, r.2.1 ++ q.2.1, q.2.2) := by
  induction items generalizing s with
  | nil =>
    simp only [List.nil_append, decSamples, Option.bind_some, Int.lt_irrefl, if_false]
    exact (congrFun Option.map_id _).symm
  | cons item items ih =>
    obtain ⟨envQ8, dither⟩ := item
    simp only [List.cons_append, decSamples, Option.bind_eq_bind, Option.bind_assoc]
    cases hsearch : s.search fuel envQ8 dither with
    | none => rfl
    | some r =>
      cases r with
      | error code =>
        rw [search_error hsearch]
        rfl
      | found x lower upper =>
        simp only [Option.bind_some, Option.bind_assoc, ih]
        refine congrArg _ (funext fun next => congrArg _ (funext fun r => ?_))
        by_cases hneg : r.1 < 0
        · rw [if_pos hneg, if_pos hneg, Option.bind_some]
        · rw [if_neg hneg, if_neg hneg, Option.map_eq_bind, Option.map_eq_bind, Option.bind_assoc]
          rfl

theorem sampleLoop_eq (envQ8 : BitVec 16) (s : BitstrDec) (dithers : List Int) :
    sampleLoop fuel envQ8 s dithers = decSamples fuel s (dithers.map fun d => (envQ8, d)) := by
  induction dithers generalizing s with
  | nil => rfl
  | cons dither dithers ih =>
    refine Option.bind_congr fun r _ => ?_
    cases r with
    | error code => rfl
    | found x lower upper => exact Option.bind_congr fun next _ => by rw [ih]

theorem decLogisticLoop_eq {s : BitstrDec} {res : Int} {envQ8 dithers : List Int} {n : Nat}
    (hroots : rootsFrom res envQ8 = some env) (hlength : dithers.length = 4 * n)
    (hn : n ≤ env.length) :
    decLogisticLoop fuel s res envQ8 dithers = decSamples fuel s ((perSample env).zip dithers) := by
  induction n generalizing s res envQ8 dithers env with
  | zero =>
    obtain rfl : dithers = [] := List.eq_nil_of_length_eq_zero hlength
    simp [decLogisticLoop, decSamples]
  | succ n ih =>
    obtain ⟨d₀, d₁, d₂, d₃, rest, rfl⟩ : ∃ d₀ d₁ d₂ d₃ rest, dithers = d₀ :: d₁ :: d₂ :: d₃ :: rest := by
      rcases dithers with _ | ⟨d₀, _ | ⟨d₁, _ | ⟨d₂, _ | ⟨d₃, rest⟩⟩⟩⟩
      case cons.cons.cons.cons => exact ⟨_, _, _, _, _, rfl⟩
      all_goals simp at hlength
      all_goals omega
    cases envQ8 with
    | nil =>
      rw [rootsFrom, Option.some.injEq] at hroots
      subst hroots
      simp at hn
    | cons inSqrt envQ8 =>
      simp only [rootsFrom, Option.bind_eq_bind, Option.bind_eq_some_iff] at hroots
      obtain ⟨⟨res', newRes⟩, hroot, roots, hrest, hroots⟩ := hroots
      obtain rfl := Option.some.inj hroots
      have hzip : (perSample (BitVec.ofInt 16 newRes :: roots)).zip (d₀ :: d₁ :: d₂ :: d₃ :: rest) =
          [d₀, d₁, d₂, d₃].map (fun d => (BitVec.ofInt 16 newRes, d)) ++ (perSample roots).zip rest := by
        simp [perSample_cons, List.replicate]
      rw [hzip, decSamples_append, ← sampleLoop_eq]
      simp only [decLogisticLoop, hroot, Option.bind_eq_bind, Option.bind_some]
      refine congrArg _ (funext fun r => ?_)
      rw [ih hrest (by simp at hlength; omega) (by simpa using hn), Option.map_eq_bind]
      rfl

/-! ## The encoder -/

variable {e e' : BitstrEnc} {t : BitstrDec} {left : List Int} {ps : List Sample}

def Sample.encItem (p : Sample) : BitVec 16 × Int := (p.envQ8, p.x)

def Sample.decItem (p : Sample) : BitVec 16 × Int := (p.envQ8, p.dither)

/-- One sample: it is clipped, and coded or refused. -/
theorem encSamples_cons (hfuel : 512 ≤ fuel) {p : Sample} (hp : p.Admissible) (hready : e.Ready)
    (hwide : 2 ^ 24 ≤ e.wUpper.toNat) (rest : List (BitVec 16 × Int)) :
    ∃ n c next, ClippedBy p.envQ8 p.x n ∧
      (c = 0 → next.Ready ∧ Narrowed (cdfAt p.envQ8 (toward p.x n - 64))
        (cdfAt p.envQ8 (toward p.x n + 64)) e next) ∧
      encSamples fuel e (p.encItem :: rest) =
        if c = 0 then (encSamples fuel next rest).map fun r => (r.1, toward p.x n :: r.2.1, r.2.2)
        else some (c, toward p.x n :: rest.map Prod.snd, next) := by
  obtain ⟨n, hn, hclipped⟩ := exists_clippedBy hp.env hp.low hp.high
  have hzero : toward p.x 0 = p.x := by
    unfold toward
    split <;> omega
  have hclip := clip_ok hp.env hp.low hp.high hclipped (Nat.zero_le n)
    (show n - 0 < fuel by omega)
  rw [hzero] at hclip
  have hlt : cdfAt p.envQ8 (toward p.x n - 64) < cdfAt p.envQ8 (toward p.x n + 64) := by
    have hgap := hclipped.1
    unfold Wide at hgap
    rw [BitVec.lt_def]
    omega
  obtain ⟨c, next, hencode, hnext⟩ :=
    encodeInterval_ok (show 4 ≤ fuel by omega) hready hwide hlt
  refine ⟨n, c, next, hclipped, fun hc => ?_, ?_⟩
  · obtain ⟨hready', hwide', hshifted⟩ := hnext hc
    exact ⟨hready', hlt, hwide, hwide', hshifted⟩
  · simp only [Sample.encItem, encSamples, hclip, hencode, Option.bind_eq_bind, Option.bind_some]
    by_cases hc : c = 0
    · rw [if_pos hc, if_pos hc, Option.map_eq_bind]
      rfl
    · rw [if_neg hc, if_neg hc]

/-- The encoder ends. -/
theorem encSamples_ends (hfuel : 512 ≤ fuel) (hps : ∀ p ∈ ps, p.Admissible) (hready : e.Ready)
    (hwide : 2 ^ 24 ≤ e.wUpper.toNat) :
    ∃ r, encSamples fuel e (ps.map Sample.encItem) = some r := by
  induction ps generalizing e with
  | nil => exact ⟨_, rfl⟩
  | cons p ps ih =>
    obtain ⟨n, c, next, -, hnext, hencode⟩ := encSamples_cons hfuel (hps p List.mem_cons_self)
      hready hwide (ps.map Sample.encItem)
    rw [List.map_cons, hencode]
    by_cases hc : c = 0
    · obtain ⟨hready', hnarrowed⟩ := hnext hc
      obtain ⟨r, hrest⟩ := ih (fun q hq => hps q (List.mem_cons_of_mem _ hq)) hready'
        hnarrowed.wide'
      rw [if_pos hc, hrest]
      exact ⟨_, rfl⟩
    · rw [if_neg hc]
      exact ⟨_, rfl⟩

/-- A sample that was coded, and the others. -/
theorem encSamples_coded (hfuel : 512 ≤ fuel) {p : Sample} (hp : p.Admissible) (hready : e.Ready)
    (hwide : 2 ^ 24 ≤ e.wUpper.toNat) {rest : List (BitVec 16 × Int)}
    (h : encSamples fuel e (p.encItem :: rest) = some (0, left, e')) :
    ∃ n next left', ClippedBy p.envQ8 p.x n ∧ next.Ready ∧
      Narrowed (cdfAt p.envQ8 (toward p.x n - 64)) (cdfAt p.envQ8 (toward p.x n + 64)) e next ∧
      left = toward p.x n :: left' ∧ encSamples fuel next rest = some (0, left', e') := by
  obtain ⟨n, c, next, hclipped, hnext, hencode⟩ := encSamples_cons hfuel hp hready hwide rest
  rw [hencode] at h
  by_cases hc : c = 0
  · rw [if_pos hc, Option.map_eq_some_iff] at h
    obtain ⟨⟨c', left', last⟩, hrest, hresult⟩ := h
    simp only [Prod.mk.injEq] at hresult
    obtain ⟨rfl, rfl, rfl⟩ := hresult
    obtain ⟨hready', hnarrowed⟩ := hnext hc
    exact ⟨n, next, left', hclipped, hready', hnarrowed, rfl, hrest⟩
  · rw [if_neg hc] at h
    exact absurd (congrArg Prod.fst (Option.some.inj h)) hc

theorem encSamples_ready (hfuel : 512 ≤ fuel) (hps : ∀ p ∈ ps, p.Admissible) (hready : e.Ready)
    (hwide : 2 ^ 24 ≤ e.wUpper.toNat)
    (h : encSamples fuel e (ps.map Sample.encItem) = some (0, left, e')) :
    e'.Ready ∧ 2 ^ 24 ≤ e'.wUpper.toNat ∧ ∀ stream, Codes stream e' → Codes stream e := by
  induction ps generalizing e left with
  | nil =>
    simp only [List.map_nil, encSamples, Option.some.injEq, Prod.mk.injEq] at h
    obtain ⟨-, -, rfl⟩ := h
    exact ⟨hready, hwide, fun _ => id⟩
  | cons p ps ih =>
    obtain ⟨n, next, left', -, hnext, hnarrowed, -, hrest⟩ :=
      encSamples_coded hfuel (hps p List.mem_cons_self) hready hwide h
    obtain ⟨hready', hwide', hcodes⟩ :=
      ih (fun q hq => hps q (List.mem_cons_of_mem _ hq)) hnext hnarrowed.wide' hrest
    exact ⟨hready', hwide', fun stream hstream => hnarrowed.codes (hcodes stream hstream)⟩

/-! ## The decoder -/

theorem toward_range {x : Int} (hlow : -32640 ≤ x) (hhigh : x ≤ 32640) {envQ8 : BitVec 16}
    (henv : 1 ≤ envQ8.toNat) {n : Nat} (h : ClippedBy envQ8 x n) :
    -32640 ≤ toward x n ∧ toward x n ≤ 32640 ∧ 128 ∣ x - toward x n := by
  have hgrid : 128 ∣ x - toward x n := by
    unfold toward
    split <;> omega
  cases n with
  | zero =>
    unfold toward at hgrid ⊢
    split <;> omega
  | succ n =>
    have hfar := h.far henv (Nat.lt_succ_self n)
    unfold toward at hfar hgrid ⊢
    split at hfar <;> rename_i hsign
    · rw [if_pos hsign] at hgrid ⊢
      omega
    · rw [if_neg hsign] at hgrid ⊢
      omega

/-- The window of the decoder is in the part of the sample that was coded. -/
theorem meets_of_narrowed {p : Sample} (hp : p.Admissible) {n : Nat}
    (hclipped : ClippedBy p.envQ8 p.x n) {next : BitstrEnc}
    (hnarrowed : Narrowed (cdfAt p.envQ8 (toward p.x n - 64)) (cdfAt p.envQ8 (toward p.x n + 64))
      e next)
    (hstep : t.InStep e) (hcodes : Codes t.stream next) : t.Meets p.envQ8 (toward p.x n) := by
  obtain ⟨hlow, hhigh, -⟩ := toward_range hp.low hp.high hp.env hclipped
  obtain ⟨habove, hwithin⟩ := hnarrowed.streamval hstep hcodes
  exact ⟨by omega, by omega, hstep.wUpper_eq.symm ▸ hnarrowed.wide, habove, hwithin⟩

theorem grid_of_clipped {p : Sample} (hp : p.Admissible) {n : Nat}
    (hclipped : ClippedBy p.envQ8 p.x n) : 128 ∣ toward p.x n + p.dither := by
  obtain ⟨-, -, hsteps⟩ := toward_range hp.low hp.high hp.env hclipped
  have hgrid := hp.grid
  omega

section Follow

variable (hfuel : 512 ≤ fuel) (hps : ∀ p ∈ ps, p.Admissible) (hready : e.Ready)
  (hwide : 2 ^ 24 ≤ e.wUpper.toNat)
  (h : encSamples fuel e (ps.map Sample.encItem) = some (0, left, e')) (hstep : t.InStep e)
  (hcodes : Codes t.stream e')

include hfuel hps hready hwide h hstep hcodes

/-- The decoder follows the encoder, if its searches do not abort. -/
theorem follow_samples (hfound : ∀ p ∈ ps, p.Found) :
    ∃ t', decSamples fuel t (ps.map Sample.decItem) = some (0, left, t') ∧
      t'.stream = t.stream ∧ t'.InStep e' := by
  induction ps generalizing e t left with
  | nil =>
    simp only [List.map_nil, encSamples, Option.some.injEq, Prod.mk.injEq] at h
    obtain ⟨-, rfl, rfl⟩ := h
    exact ⟨t, rfl, rfl, hstep⟩
  | cons p ps ih =>
    have hp := hps p List.mem_cons_self
    have hps' : ∀ q ∈ ps, q.Admissible := fun q hq => hps q (List.mem_cons_of_mem _ hq)
    obtain ⟨n, next, left', hclipped, hnext, hnarrowed, rfl, hrest⟩ :=
      encSamples_coded hfuel hp hready hwide h
    have hnow : Codes t.stream next :=
      (encSamples_ready hfuel hps' hnext hnarrowed.wide' hrest).2.2 _ hcodes
    have hsearch := search_found (meets_of_narrowed hp hclipped hnarrowed hstep hnow)
      (grid_of_clipped hp hclipped) hfuel (hfound p List.mem_cons_self n hclipped)
    obtain ⟨t₁, hnarrow, hstream, hstep₁⟩ := hnarrowed.follow (show 4 ≤ fuel by omega) hstep hnow
    obtain ⟨t', hloop, hstream', hstep'⟩ := ih hps' hnext hnarrowed.wide' hrest hstep₁
      (hstream.symm ▸ hcodes) fun q hq => hfound q (List.mem_cons_of_mem _ hq)
    unfold boundAt at hsearch
    refine ⟨t', ?_, hstream'.trans hstream, hstep'⟩
    simp only [List.map_cons, Sample.decItem, decSamples, hsearch, hnarrow, Option.bind_eq_bind,
      Option.bind_some]
    rw [hloop]
    rfl

/-- It aborts at the first sample that its search does not find. -/
theorem abort_samples (hmissed : ¬ ∀ p ∈ ps, p.Found) :
    ∃ data t', decSamples fuel t (ps.map Sample.decItem) = some (-1, data, t') := by
  induction ps generalizing e t left with
  | nil => exact absurd (fun p hp => absurd hp List.not_mem_nil) hmissed
  | cons p ps ih =>
    have hp := hps p List.mem_cons_self
    have hps' : ∀ q ∈ ps, q.Admissible := fun q hq => hps q (List.mem_cons_of_mem _ hq)
    obtain ⟨n, next, left', hclipped, hnext, hnarrowed, rfl, hrest⟩ :=
      encSamples_coded hfuel hp hready hwide h
    have hnow : Codes t.stream next :=
      (encSamples_ready hfuel hps' hnext hnarrowed.wide' hrest).2.2 _ hcodes
    have hmeets := meets_of_narrowed hp hclipped hnarrowed hstep hnow
    have hgrid := grid_of_clipped hp hclipped
    by_cases hreached : Reached p.envQ8 p.dither (toward p.x n)
    · have hsearch := search_found hmeets hgrid hfuel hreached
      obtain ⟨t₁, hnarrow, hstream, hstep₁⟩ := hnarrowed.follow (show 4 ≤ fuel by omega) hstep hnow
      have hothers : ¬ ∀ q ∈ ps, q.Found := fun hall => hmissed fun q hq => by
        rcases List.mem_cons.mp hq with rfl | hq
        · intro m hm
          rwa [hm.unique hclipped]
        · exact hall q hq
      obtain ⟨data, t', hloop⟩ := ih hps' hnext hnarrowed.wide' hrest hstep₁
        (hstream.symm ▸ hcodes) hothers
      unfold boundAt at hsearch
      refine ⟨toward p.x n :: data, t', ?_⟩
      simp only [List.map_cons, Sample.decItem, decSamples, hsearch, hnarrow, Option.bind_eq_bind,
        Option.bind_some]
      rw [hloop]
      rfl
    · refine ⟨[], t, ?_⟩
      simp only [List.map_cons, Sample.decItem, decSamples,
        search_aborts hmeets hgrid hfuel hreached, Option.bind_eq_bind, Option.bind_some]

end Follow

/-! ## The calls -/

theorem samples_enc {data dithers : List Int} (hdithers : dithers.length = data.length) :
    (samples env data dithers).map Sample.encItem = (perSample env).zip data := by
  unfold samples
  generalize perSample env = entries
  induction entries generalizing data dithers with
  | nil => rfl
  | cons envQ8 entries ih =>
    cases data with
    | nil => rfl
    | cons x data =>
      cases dithers with
      | nil => simp at hdithers
      | cons dither dithers =>
        simp only [List.zip_cons_cons, List.zipWith_cons_cons, List.map_cons,
          ih (Nat.succ.inj hdithers), Sample.encItem]

theorem samples_dec {data dithers : List Int} (hdithers : dithers.length = data.length) :
    (samples env data dithers).map Sample.decItem = (perSample env).zip dithers := by
  unfold samples
  generalize perSample env = entries
  induction entries generalizing data dithers with
  | nil => rfl
  | cons envQ8 entries ih =>
    cases dithers with
    | nil => simp
    | cons dither dithers =>
      cases data with
      | nil => simp at hdithers
      | cons x data =>
        simp only [List.zip_cons_cons, List.zipWith_cons_cons, List.map_cons,
          ih (Nat.succ.inj hdithers), Sample.decItem]

/-- What the coder is used for: samples of the range, on the grid of their dithers, for an
envelope without zeros whose roots the decoder computes from its own. -/
structure Codable (env : List (BitVec 16)) (envDec data dithers : List Int) : Prop where
  fours : 4 ∣ data.length
  entries : data.length ≤ 4 * env.length
  lengths : dithers.length = data.length
  positive : ∀ envQ8 ∈ env, 1 ≤ envQ8.toNat
  range : ∀ x ∈ data, -32640 ≤ x ∧ x ≤ 32640
  grid : ∀ p ∈ data.zip dithers, 128 ∣ p.1 + p.2
  roots : squareRoots envDec = some env

variable {envDec data dithers : List Int}

theorem Codable.admissible (h : Codable env envDec data dithers) :
    ∀ p ∈ samples env data dithers, p.Admissible := by
  intro p hp
  obtain ⟨i, hi, rfl⟩ := List.mem_iff_getElem.mp hp
  have hlengths := h.lengths
  have hcount : i < (perSample env).length ∧ i < data.length ∧ i < dithers.length := by
    simp only [samples, List.length_zipWith, List.length_zip] at hi
    omega
  obtain ⟨hentry, hdata, hdithers⟩ := hcount
  have henv : (perSample env)[i] ∈ env := by
    have hmem := List.getElem_mem hentry
    simp only [perSample, List.mem_flatMap, List.mem_replicate] at hmem
    obtain ⟨envQ8, hin, -, heq⟩ := hmem
    exact heq ▸ hin
  obtain ⟨hlow, hhigh⟩ := h.range _ (List.getElem_mem hdata)
  have hgrid := h.grid (data[i], dithers[i]) (List.mem_iff_getElem.mpr
    ⟨i, by rw [List.length_zip]; omega, List.getElem_zip⟩)
  simp only [samples, List.getElem_zipWith, List.getElem_zip]
  exact ⟨h.positive _ henv, hlow, hhigh, hgrid⟩

theorem Codable.encLoop (h : Codable env envDec data dithers) (e : BitstrEnc) :
    encLogisticLoop fuel e 0 env data =
      encSamples fuel e ((samples env data dithers).map Sample.encItem) := by
  rw [encLogisticLoop_eq (by rw [perSample_length, Nat.zero_mod, Nat.zero_add]; exact h.entries),
    samples_enc h.lengths]
  rfl

/-- The decoder's call, from the samples one by one. -/
theorem Codable.decLogistic (h : Codable env envDec data dithers) (t : BitstrDec) :
    t.decLogisticMulti2 fuel envDec dithers =
      (decSamples fuel t.start ((samples env data dithers).map Sample.decItem)).bind fun r =>
        if r.1 < 0 then some (r.1, r.2.1, { t with full := r.2.2.full })
        else some (r.2.2.finish.byteCount, r.2.1, r.2.2.finish) := by
  have hroots := h.roots
  simp only [squareRoots, Option.bind_eq_bind, Option.bind_eq_some_iff] at hroots
  obtain ⟨first, hfirst, hroots⟩ := hroots
  obtain ⟨n, hn⟩ := h.fours
  have hentries := h.entries
  rw [samples_dec h.lengths, ← decLogisticLoop_eq hroots (h.lengths.trans hn) (by omega)]
  simp only [decLogisticMulti2, hfirst, Option.bind_eq_bind, Option.bind_some]

/-- The decoder's call returns the samples that the encoder left, or an error. -/
theorem decLogistic_iff (hfuel : 512 ≤ fuel) (h : Codable env envDec data dithers)
    (hready : e.Ready) (hwide : 2 ^ 24 ≤ e.wUpper.toNat)
    (henc : encLogisticLoop fuel e 0 env data = some (0, left, e')) (hstep : t.start.InStep e)
    (hcodes : Codes t.start.stream e') :
    (∃ t', t.decLogisticMulti2 fuel envDec dithers =
      some (((e'.length + e'.endLength : Nat) : Int), left, t')) ↔
      ∀ p ∈ samples env data dithers, p.Found := by
  rw [h.encLoop] at henc
  rw [h.decLogistic]
  constructor
  · rintro ⟨t', hdec⟩
    by_contra hmissed
    obtain ⟨data', last, habort⟩ := abort_samples hfuel h.admissible hready hwide henc hstep
      hcodes hmissed
    rw [habort, Option.bind_some, if_pos (show (-1 : Int) < 0 by decide)] at hdec
    have hcode := congrArg Prod.fst (Option.some.inj hdec)
    dsimp only at hcode
    omega
  · intro hfound
    obtain ⟨t', hloop, -, hstep'⟩ := follow_samples hfuel h.admissible hready hwide henc hstep
      hcodes hfound
    obtain ⟨hready', -, -⟩ := encSamples_ready hfuel h.admissible hready hwide henc
    rw [hloop, Option.bind_some, if_neg (Int.lt_irrefl 0), finish_of_inStep hready' hstep',
      byteCount_of_inStep hready' hstep']
    exact ⟨t', rfl⟩

/-- The decoder after the calls before. -/
theorem follow_before (hfuel : 4 ≤ fuel) {items : List (Nat × List (BitVec 16))}
    (hitems : ∀ item ∈ items, Coded item) {memory stream : Nat → BitVec 16} {s : BitstrEnc}
    (hloop : encHistLoop fuel (.init memory) items = some (0, s)) (hcodes : Codes stream s)
    {decCalls : List DecCall} (hadmissible : ∀ call ∈ decCalls, call.Admissible)
    (htables : decCalls.flatMap DecCall.tables = items.map Prod.snd) :
    ∃ c symbols t, decodeCalls fuel (.init stream) decCalls = some (c, symbols, t) ∧
      t.start.stream = stream ∧ t.start.InStep s := by
  have hstart : 2 ^ 24 ≤ (BitstrEnc.init memory).wUpper.toNat := by
    show 2 ^ 24 ≤ (0xFFFFFFFF : BitVec 32).toNat
    decide
  by_cases hnone : decCalls = []
  · subst hnone
    obtain rfl : items = [] := List.map_eq_nil_iff.mp htables.symm
    obtain rfl : BitstrEnc.init memory = s := congrArg Prod.snd (Option.some.inj hloop)
    exact ⟨_, _, _, rfl, rfl, start_inStep stream memory⟩
  · obtain ⟨t, hrun, hstream, hstep⟩ := follow_calls hfuel hnone hadmissible hitems htables
      (init_ready memory) hstart hloop rfl (start_inStep stream memory) hcodes
    have hsame := start_of_inStep hstep
    exact ⟨_, _, t, hrun, hsame.symm ▸ hstream, hsame.symm ▸ hstep⟩

/-- The tables of the encoder, decoded in one call. -/
def oneCall (items : List (Nat × List (BitVec 16))) : DecCall :=
  .oneStep (items.map fun item => (item.2, 0))

theorem oneCall_admissible {items : List (Nat × List (BitVec 16))}
    (hitems : ∀ item ∈ items, Coded item) : (oneCall items).Admissible := by
  intro entry hentry
  obtain ⟨item, hitem, rfl⟩ := List.mem_map.mp hentry
  exact (List.getElem?_eq_some_iff.mp (hitems item hitem).1.first).1

theorem oneCall_tables (items : List (Nat × List (BitVec 16))) :
    [oneCall items].flatMap DecCall.tables = items.map Prod.snd := by
  simp [oneCall, DecCall.tables]

/-- The encoder ends, for every sample. Where it returns 0, the decoder finds the samples that
it left, if and only if the end of the stream fits into the buffer and no search aborts on its
way to a sample. -/
theorem logistic_roundTrip_iff (hfuel : 512 ≤ fuel) (memory : Nat → BitVec 16)
    (calls : List (List (Nat × List (BitVec 16)))) (hcoded : ∀ items ∈ calls, ∀ item ∈ items,
      Coded item) {s : BitstrEnc} (hs : encHistCalls fuel (.init memory) calls = some s)
    (h : Codable env envDec data dithers) :
    ∃ code left s', encLogisticMulti2 fuel s env data = some (code, left, s') ∧
      (code = 0 →
        ((∃ n s'', s'.encTerminate = some (n, s'') ∧
          ∀ stream, (∀ i < n, streamByte stream i = streamByte s''.stream i) →
          ∀ decCalls : List DecCall, (∀ call ∈ decCalls, call.Admissible) →
            decCalls.flatMap DecCall.tables = calls.flatten.map Prod.snd →
            ∃ c symbols t t', decodeCalls fuel (.init stream) decCalls = some (c, symbols, t) ∧
              t.decLogisticMulti2 fuel envDec dithers = some ((n : Int), left, t')) ↔
        ¬ s'.Overruns ∧ ∀ p ∈ samples env data dithers, p.Found)) := by
  have hfuel' : 4 ≤ fuel := by omega
  have hloop := encHistCalls_flatten hs
  have hitems : ∀ item ∈ calls.flatten, Coded item := fun item hitem => by
    obtain ⟨items, hin, hitem⟩ := List.mem_flatten.mp hitem
    exact hcoded items hin item hitem
  have hstart : 2 ^ 24 ≤ (BitstrEnc.init memory).wUpper.toNat := by
    show 2 ^ 24 ≤ (0xFFFFFFFF : BitVec 32).toNat
    decide
  obtain ⟨hready, hwide, -⟩ := encHistLoop_ready hfuel' hitems (init_ready memory) hstart hloop
  obtain ⟨⟨code, left, last⟩, hends⟩ := encSamples_ends hfuel h.admissible hready hwide
  rw [← h.encLoop] at hends
  by_cases hcode : code = 0
  · subst hcode
    obtain ⟨hready', hwide', hbefore⟩ :=
      encSamples_ready hfuel h.admissible hready hwide (h.encLoop s ▸ hends)
    refine ⟨0, left, last, by simp [encLogisticMulti2, hends], fun _ => ⟨?_, ?_⟩⟩
    · rintro ⟨n, s'', hend, hround⟩
      have hfits : ¬ last.Overruns := fun hover => by
        rw [encTerminate_overruns hready' hwide' hover] at hend
        exact absurd hend (by simp)
      obtain ⟨s₁, hend₁, hwithin⟩ := encTerminate_ok hready' hwide' hfits
      obtain ⟨rfl, rfl⟩ := Prod.mk.inj (Option.some.inj (hend₁.symm.trans hend))
      refine ⟨hfits, ?_⟩
      have hcodes : Codes s₁.stream last := hwithin _ ⟨streamByte_lt _, fun _ _ => rfl⟩
      have hadmissible : ∀ call ∈ [oneCall calls.flatten], call.Admissible := fun call hcall =>
        List.mem_singleton.mp hcall ▸ oneCall_admissible hitems
      obtain ⟨c, symbols, t, t', hrun, hdec⟩ := hround s₁.stream (fun _ _ => rfl) _ hadmissible
        (oneCall_tables _)
      obtain ⟨c', symbols', t₁, hrun₁, hkept, hstep⟩ := follow_before hfuel' hitems hloop
        (hbefore _ hcodes) hadmissible (oneCall_tables _)
      obtain rfl : t₁ = t := congrArg (fun r => r.2.2) (Option.some.inj (hrun₁.symm.trans hrun))
      exact (decLogistic_iff hfuel h hready hwide hends hstep (hkept.symm ▸ hcodes)).mp ⟨t', hdec⟩
    · rintro ⟨hfits, hfound⟩
      obtain ⟨s₁, hend, hwithin⟩ := encTerminate_ok hready' hwide' hfits
      refine ⟨_, s₁, hend, fun stream hstream decCalls hadmissible htables => ?_⟩
      have hcodes : Codes stream last := hwithin _ ⟨streamByte_lt stream, hstream⟩
      obtain ⟨c, symbols, t, hrun, hkept, hstep⟩ := follow_before hfuel' hitems hloop
        (hbefore stream hcodes) hadmissible htables
      obtain ⟨t', hdec⟩ := (decLogistic_iff hfuel h hready hwide hends hstep
        (hkept.symm ▸ hcodes)).mpr hfound
      exact ⟨c, symbols, t, t', hrun, hdec⟩
  · refine ⟨code, left, { last with streamIndex := s.streamIndex, wUpper := s.wUpper }, ?_,
      fun hzero => absurd hzero hcode⟩
    simp [encLogisticMulti2, hends, hcode]

/-- Four samples after a symbol, one of which is clipped. -/
theorem logistic_roundTrip_four :
    let calls := [[(1, [0, 20000, 65535])]]
    let data : List Int := [300, 5, -400, 1280]
    let dithers : List Int := [84, -5, 16, 0]
    ∃ s, encHistCalls 512 (.init fun _ => 0) calls = some s ∧
      ∃ code left s', encLogisticMulti2 512 s [900] data = some (code, left, s') ∧
        (code = 0 →
          ((∃ n s'', s'.encTerminate = some (n, s'') ∧
            ∀ stream, (∀ i < n, streamByte stream i = streamByte s''.stream i) →
            ∀ decCalls : List DecCall, (∀ call ∈ decCalls, call.Admissible) →
              decCalls.flatMap DecCall.tables = calls.flatten.map Prod.snd →
              ∃ c symbols t t', decodeCalls 512 (.init stream) decCalls = some (c, symbols, t) ∧
                t.decLogisticMulti2 512 [810000] dithers = some ((n : Int), left, t')) ↔
          ¬ s'.Overruns ∧ ∀ p ∈ samples [900] data dithers, p.Found)) := by
  intro calls data dithers
  obtain ⟨s, hs⟩ := Option.isSome_iff_exists.mp
    (show (encHistCalls 512 (.init fun _ => 0) calls).isSome by decide +kernel)
  exact ⟨s, hs, logistic_roundTrip_iff le_rfl _ calls (by decide) hs
    ⟨by decide, by decide, rfl, by simp, by decide, by decide, by decide +kernel⟩⟩

/-- The encoder codes 16192 with a probability of 2, and the decoder starts at 0: it aborts
where the cdf is flat between them. -/
theorem not_logistic_roundTrip :
    Codable [9] [81] [16192, 0, 0, 0] [64, 0, 0, 0] ∧
      ∃ s n s' t, encLogisticMulti2 512 (.init fun _ => 0) [9] [16192, 0, 0, 0] =
          some (0, [16192, 0, 0, 0], s) ∧
        s.encTerminate = some (n, s') ∧
        (BitstrDec.init s'.stream).decLogisticMulti2 512 [81] [64, 0, 0, 0] =
          some (-1, [], t) := by
  refine ⟨⟨by decide, by decide, rfl, by simp, by decide, by decide, by decide +kernel⟩, ?_⟩
  have hrun : (do
      let (code, left, s) ← encLogisticMulti2 512 (.init fun _ => 0) [9] [16192, 0, 0, 0]
      let (_, s') ← s.encTerminate
      let (c, data, _) ← (BitstrDec.init s'.stream).decLogisticMulti2 512 [81] [64, 0, 0, 0]
      some (code, left, c, data)) = some (0, [16192, 0, 0, 0], -1, []) := by decide +kernel
  simp only [Option.bind_eq_bind, Option.bind_eq_some_iff, Option.some.injEq, Prod.mk.injEq] at hrun
  obtain ⟨⟨_, _, s⟩, henc, ⟨n, s'⟩, hend, ⟨_, _, t⟩, hdec, rfl, rfl, rfl, rfl⟩ := hrun
  exact ⟨s, n, s', t, henc, hend, hdec⟩

end PerchWebrtc.Isac
