import Mathlib.Data.List.Nodup
import Mathlib.Data.List.Pairwise
import Mathlib.Data.List.Perm.Basic
import Mathlib.Logic.Function.Basic

/-!
# Instructions in another order

Items that are read one after another, some of which may be refused, and what they write into
a list with at most one entry for a key.

* `foldlM_sides`: items each of which acts on one of two sides of a state;
* `foldlM_read`: items that are read first, and then applied;
* `entryOf_put`, `nodup_put`: an entry replaced, or added at the end;
* `alter_comm`: changes of the entry of a key;
* `perm_of_entryOf`: lists with the same entries are the same up to their order.
-/

namespace PerchWebrtc.Framework

/-! ## Folds that may fail -/

section

variable {α β γ ι ε σ : Type}

theorem bind_eq_ok {x : Except ε α} {f : α → Except ε β} {b : β} :
    x >>= f = .ok b ↔ ∃ a, x = .ok a ∧ f a = .ok b := by
  cases x with
  | error e => exact iff_of_false nofun fun ⟨_, h, _⟩ => nomatch h
  | ok a => exact ⟨fun h => ⟨a, rfl, h⟩, fun ⟨_, h, hb⟩ => by cases h; exact hb⟩

theorem map_eq_ok {x : Except ε α} {f : α → β} {b : β} :
    x.map f = .ok b ↔ ∃ a, x = .ok a ∧ f a = b := by
  cases x with
  | error e => exact iff_of_false nofun fun ⟨_, h, _⟩ => nomatch h
  | ok a =>
    exact ⟨fun h => ⟨a, rfl, Except.ok.inj h⟩, fun ⟨_, h, hb⟩ => by cases h; exact congrArg _ hb⟩

/-- The items of each side run by themselves, in their own order. -/
theorem foldlM_sides {mk : β → γ → σ} {step : σ → α → Except ε σ} {left : α → Bool}
    {f : β → α → Except ε β} {g : γ → α → Except ε γ}
    (hleft : ∀ b c a, left a = true → step (mk b c) a = (f b a).map (mk · c))
    (hright : ∀ b c a, left a = false → step (mk b c) a = (g c a).map (mk b)) {s : σ} :
    ∀ {l : List α} {b : β} {c : γ}, l.foldlM step (mk b c) = .ok s ↔
      ∃ b' c', s = mk b' c' ∧ (l.filter left).foldlM f b = .ok b' ∧
        (l.filter fun a => !left a).foldlM g c = .ok c'
  | [], b, c => by
    refine ⟨fun h => ⟨b, c, (Except.ok.inj h).symm, rfl, rfl⟩, ?_⟩
    rintro ⟨b', c', rfl, hb, hc⟩
    cases hb
    cases hc
    rfl
  | a :: l, b, c => by
    rw [List.foldlM_cons, bind_eq_ok]
    cases ha : left a with
    | true =>
      rw [hleft b c a ha, List.filter_cons_of_pos ha, List.filter_cons_of_neg (by simp [ha]),
        List.foldlM_cons]
      constructor
      · rintro ⟨s₁, hs₁, hs⟩
        obtain ⟨b₁, hb₁, rfl⟩ := map_eq_ok.mp hs₁
        obtain ⟨b', c', heq, hb, hc⟩ := (foldlM_sides hleft hright).mp hs
        exact ⟨b', c', heq, bind_eq_ok.mpr ⟨b₁, hb₁, hb⟩, hc⟩
      · rintro ⟨b', c', heq, hb, hc⟩
        obtain ⟨b₁, hb₁, hb⟩ := bind_eq_ok.mp hb
        exact ⟨mk b₁ c, map_eq_ok.mpr ⟨b₁, hb₁, rfl⟩,
          (foldlM_sides hleft hright).mpr ⟨b', c', heq, hb, hc⟩⟩
    | false =>
      rw [hright b c a ha, List.filter_cons_of_neg (by simp [ha]),
        List.filter_cons_of_pos (by simp [ha]), List.foldlM_cons]
      constructor
      · rintro ⟨s₁, hs₁, hs⟩
        obtain ⟨c₁, hc₁, rfl⟩ := map_eq_ok.mp hs₁
        obtain ⟨b', c', heq, hb, hc⟩ := (foldlM_sides hleft hright).mp hs
        exact ⟨b', c', heq, hb, bind_eq_ok.mpr ⟨c₁, hc₁, hc⟩⟩
      · rintro ⟨b', c', heq, hb, hc⟩
        obtain ⟨c₁, hc₁, hc⟩ := bind_eq_ok.mp hc
        exact ⟨mk b c₁, map_eq_ok.mpr ⟨c₁, hc₁, rfl⟩,
          (foldlM_sides hleft hright).mpr ⟨b', c', heq, hb, hc⟩⟩

/-- An item is read; what it says, if anything, is applied. -/
def readStep (read : α → Except ε (Option ι)) (apply : β → ι → β) (b : β) (a : α) :
    Except ε β :=
  (read a).map fun said => said.elim b (apply b)

/-- What the items say that are not refused. -/
def said (read : α → Except ε (Option ι)) (l : List α) : List ι :=
  l.filterMap fun a => (read a).toOption.join

theorem foldlM_read {read : α → Except ε (Option ι)} {apply : β → ι → β} {b' : β} :
    ∀ {l : List α} {b : β}, l.foldlM (readStep read apply) b = .ok b' ↔
      (∀ a ∈ l, ∃ i, read a = .ok i) ∧ b' = (said read l).foldl apply b
  | [], b => by
    refine ⟨fun h => ⟨fun a ha => absurd ha List.not_mem_nil, (Except.ok.inj h).symm⟩, ?_⟩
    rintro ⟨-, rfl⟩
    rfl
  | a :: l, b => by
    rw [List.foldlM_cons, bind_eq_ok, List.forall_mem_cons]
    constructor
    · rintro ⟨b₁, hb₁, hb⟩
      obtain ⟨i, hi, rfl⟩ := map_eq_ok.mp hb₁
      obtain ⟨hl, rfl⟩ := foldlM_read.mp hb
      refine ⟨⟨⟨i, hi⟩, hl⟩, ?_⟩
      cases i <;> simp [said, hi, Except.toOption]
    · rintro ⟨⟨⟨i, hi⟩, hl⟩, rfl⟩
      refine ⟨i.elim b (apply b), map_eq_ok.mpr ⟨i, hi, rfl⟩, foldlM_read.mpr ⟨hl, ?_⟩⟩
      cases i <;> simp [said, hi, Except.toOption]

/-- Items that commute may be applied in any order. -/
theorem foldl_perm_of_pairwise {apply : β → ι → β} {l l' : List ι} (hperm : l.Perm l')
    (h : l.Pairwise fun i j => ∀ b, apply (apply b i) j = apply (apply b j) i) (b : β) :
    l.foldl apply b = l'.foldl apply b := by
  have : Std.Symm fun i j => ∀ b, apply (apply b i) j = apply (apply b j) i :=
    ⟨fun _ _ h b => (h b).symm⟩
  exact hperm.foldl_eq' (fun i hi j hj b => h.forall_of_forall (fun _ _ _ => rfl) hi hj b) b

end

/-! ## One entry for a key -/

section

variable {κ δ τ : Type*} [DecidableEq κ] (key : δ → κ)

/-- The first entry of the key of `d` replaced by `d`, which is added if there is none. -/
def put (d : δ) : List δ → List δ
  | [] => [d]
  | e :: l => if key e = key d then d :: l else e :: put d l

/-- What `f` says of the first entry of a key. -/
def entryOf (f : δ → τ) (l : List δ) (k : κ) : Option τ := (l.find? (key · = k)).map f

theorem find?_put (d : δ) (k : κ) : ∀ l : List δ,
    (put key d l).find? (key · = k) = if key d = k then some d else l.find? (key · = k)
  | [] => by
    rw [put, List.find?_singleton]
    by_cases hk : key d = k <;> simp [hk]
  | e :: l => by
    rw [put]
    by_cases he : key e = key d
    · rw [if_pos he, List.find?_cons, List.find?_cons, he]
      by_cases hk : key d = k <;> simp [hk]
    · rw [if_neg he, List.find?_cons, List.find?_cons, find?_put d k l]
      by_cases hk : key e = k
      · have hne : key d ≠ k := hk ▸ Ne.symm he
        simp [hk, hne]
      · simp [hk]

theorem entryOf_put (f : δ → τ) (d : δ) (l : List δ) :
    entryOf key f (put key d l) = Function.update (entryOf key f l) (key d) (some (f d)) := by
  funext k
  rw [entryOf, find?_put]
  by_cases hk : key d = k
  · subst hk
    rw [if_pos rfl, Function.update_self]
    rfl
  · rw [if_neg hk, Function.update_of_ne (Ne.symm hk)]
    rfl

theorem mem_put {d x : δ} : ∀ {l : List δ}, x ∈ put key d l → x = d ∨ x ∈ l
  | [], h => .inl (List.mem_singleton.mp h)
  | e :: l, h => by
    rw [put] at h
    split at h
    · exact (List.mem_cons.mp h).imp_right (List.mem_cons_of_mem e)
    · obtain rfl | h := List.mem_cons.mp h
      · exact .inr List.mem_cons_self
      · exact (mem_put h).imp_right (List.mem_cons_of_mem e)

theorem nodup_put (d : δ) : ∀ {l : List δ}, (l.map key).Nodup → ((put key d l).map key).Nodup
  | [], _ => List.nodup_singleton _
  | e :: l, h => by
    obtain ⟨he, hl⟩ := List.nodup_cons.mp h
    rw [put]
    split
    next heq => exact List.nodup_cons.mpr ⟨heq ▸ he, hl⟩
    next hne =>
      refine List.nodup_cons.mpr ⟨fun hmem => ?_, nodup_put d hl⟩
      obtain ⟨x, hx, hkey⟩ := List.mem_map.mp hmem
      obtain rfl | hx := mem_put key hx
      · exact hne hkey.symm
      · exact he (hkey ▸ List.mem_map_of_mem hx)

theorem find?_eraseP (k₀ k : κ) : ∀ {l : List δ}, (l.map key).Nodup →
    (l.eraseP (key · = k₀)).find? (key · = k) = if k = k₀ then none else l.find? (key · = k)
  | [], _ => (ite_self none).symm
  | e :: l, h => by
    obtain ⟨he, hl⟩ := List.nodup_cons.mp h
    by_cases hkey : key e = k₀
    · rw [List.eraseP_cons_of_pos (by simpa using hkey)]
      by_cases hk : k = k₀
      · rw [if_pos hk, List.find?_eq_none]
        exact fun x hx hx' => he (hkey.trans (hk.symm.trans (of_decide_eq_true hx').symm) ▸
          List.mem_map_of_mem hx)
      · have hne : key e ≠ k := fun heq => hk (heq.symm.trans hkey)
        rw [if_neg hk, List.find?_cons_of_neg (by simpa using hne)]
    · rw [List.eraseP_cons_of_neg (by simpa using hkey), List.find?_cons, List.find?_cons,
        find?_eraseP k₀ k hl]
      by_cases hk : key e = k
      · have hne : k ≠ k₀ := hk ▸ hkey
        simp [hk, hne]
      · simp [hk]

theorem entryOf_eraseP (f : δ → τ) {k₀ : κ} {l : List δ} (h : (l.map key).Nodup) :
    entryOf key f (l.eraseP (key · = k₀)) = Function.update (entryOf key f l) k₀ none := by
  funext k
  rw [entryOf, find?_eraseP key k₀ k h]
  by_cases hk : k = k₀
  · rw [if_pos hk, hk, Function.update_self]
    rfl
  · rw [if_neg hk, Function.update_of_ne hk]
    rfl

theorem entryOf_map {f : δ → τ} {h : δ → δ} {g : τ → τ} (hkey : ∀ d, key (h d) = key d)
    (hf : ∀ d, f (h d) = g (f d)) (l : List δ) (k : κ) :
    entryOf key f (l.map h) k = (entryOf key f l k).map g := by
  have hsame : ((fun d => decide (key d = k)) ∘ h) = fun d => decide (key d = k) :=
    funext fun d => by rw [Function.comp_apply, hkey]
  rw [entryOf, entryOf, List.find?_map, hsame, Option.map_map, Option.map_map]
  exact congrArg (Option.map · _) (funext hf)

variable {key}

theorem entryOf_eq_some_iff {f : δ → τ} {l : List δ} (hl : (l.map key).Nodup) {k : κ} {t : τ} :
    entryOf key f l k = some t ↔ ∃ d ∈ l, key d = k ∧ f d = t := by
  rw [entryOf, Option.map_eq_some_iff]
  constructor
  · rintro ⟨d, hd, ht⟩
    have hkey : key d = k := of_decide_eq_true (List.find?_some (p := (key · = k)) hd)
    exact ⟨d, List.mem_of_find?_eq_some hd, hkey, ht⟩
  · rintro ⟨d, hd, rfl, ht⟩
    refine ⟨d, ?_, ht⟩
    cases hfind : l.find? (key · = key d) with
    | none => exact absurd (decide_eq_true rfl) (List.find?_eq_none.mp hfind d hd)
    | some e =>
      have hkey : key e = key d := of_decide_eq_true (List.find?_some (p := (key · = key d)) hfind)
      rw [List.inj_on_of_nodup_map hl (List.mem_of_find?_eq_some hfind) hd hkey]

theorem perm_of_entryOf {f : δ → τ} {l l' : List δ} (hl : (l.map key).Nodup)
    (hl' : (l'.map key).Nodup) (h : entryOf key f l = entryOf key f l') :
    (l.map f).Perm (l'.map f) := by
  have hpairs : (l.map fun d => (key d, f d)).Perm (l'.map fun d => (key d, f d)) := by
    refine (List.perm_ext_iff_of_nodup (.of_map Prod.fst ?_) (.of_map Prod.fst ?_)).mpr ?_
    · rwa [List.map_map]
    · rwa [List.map_map]
    · rintro ⟨k, t⟩
      have hmem : ∀ {m : List δ}, (m.map key).Nodup →
          ((k, t) ∈ m.map (fun d => (key d, f d)) ↔ entryOf key f m k = some t) := fun hm => by
        rw [entryOf_eq_some_iff hm, List.mem_map]
        simp only [Prod.mk.injEq]
      rw [hmem hl, hmem hl', h]
  simpa only [List.map_map, Function.comp_def] using hpairs.map Prod.snd

end

/-! ## Tables -/

section

variable {κ δ : Type*} [DecidableEq κ] {fresh : κ → δ} {k k' : κ} {f f' : δ → δ}

/-- The entry of a key changed, or a fresh one. -/
def alter (fresh : κ → δ) (k : κ) (f : δ → δ) (t : κ → Option δ) : κ → Option δ :=
  Function.update t k (some (f ((t k).getD (fresh k))))

theorem alter_comm (h : k = k' → ∀ d, f' (f d) = f (f' d)) (t : κ → Option δ) :
    alter fresh k' f' (alter fresh k f t) = alter fresh k f (alter fresh k' f' t) := by
  by_cases hk : k = k'
  · subst hk
    simp only [alter, Function.update_self, Function.update_idem, Option.getD_some, h rfl]
  · simp only [alter, Function.update_of_ne hk, Function.update_of_ne (Ne.symm hk)]
    exact Function.update_comm hk _ _ t

end

end PerchWebrtc.Framework
