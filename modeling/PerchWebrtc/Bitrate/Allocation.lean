import PerchWebrtc.Bitrate.Controller

/-!
# What the allocation leaves over

The observers are processed by their maximum, and what one of them cannot use is carried forward
to the ones behind it. What the last one cannot use is lost, also if one before it is below its
maximum.

* `allocate_spends`: all is given out if the last observer is below its maximum;
* `allocate_fills`: all is given out, or all are at their maximum, where an observer has no more
  room than the ones behind it;
* `onNetworkChanged_spends`.
-/

namespace PerchWebrtc.Bitrate

variable {ω : Type*}

/-- What an observer can be given above its minimum. -/
def room (x : BitVec 32 × ObserverConfiguration ω) : ℕ := x.1.toNat - x.2.minBitrate.toNat

/-- The sum of the maxima of the observers that are left. -/
def maxima (l : List (BitVec 32 × ObserverConfiguration ω)) : ℕ := (l.map (·.1.toNat)).sum

/-- What is given out. -/
def total (rates : List (ω × BitVec 32)) : ℕ := (rates.map (·.2.toNat)).sum

theorem maxima_cons (x : BitVec 32 × ObserverConfiguration ω)
    (l : List (BitVec 32 × ObserverConfiguration ω)) : maxima (x :: l) = x.1.toNat + maxima l := by
  simp [maxima]

theorem total_cons (r : ω × BitVec 32) (rates : List (ω × BitVec 32)) :
    total (r :: rates) = r.2.toNat + total rates := by simp [total]

/-- What the divisions may lose over the rounds. -/
theorem mul_pred_succ (k : ℕ) : (k + 1) * (k + 1 - 1) = k * (k - 1) + k + k := by
  cases k with
  | zero => rfl
  | succ k =>
    simp only [Nat.add_sub_cancel]
    ring

theorem mul_pred_add {k : ℕ} (h : 0 < k) : k * (k - 1) + k = k * k := by
  obtain ⟨k, rfl⟩ := Nat.exists_eq_add_of_lt h
  simp only [Nat.add_sub_cancel]
  ring

theorem allocate_spends : ∀ (l : List (BitVec 32 × ObserverConfiguration ω)) (share n : BitVec 32),
    l.length = n.toNat → minima l + l.length * share.toNat < 2 ^ 32 →
    ∀ last, l.getLast? = some last →
    minima l + l.length * share.toNat ≤ total (allocate l share n) + l.length * (l.length - 1) ∨
      (last.2.observer, last.1) ∈ allocate l share n
  | [], _, _, _, _, _, hlast => nomatch hlast
  | (top, o) :: rest, share, n, hn, hsum, last, hlast => by
    obtain ⟨rate, share', hstep, hlength, hleft, hcases⟩ := allocate_step hn hsum
    rw [hstep, total_cons, minima_cons, List.length_cons, mul_pred_succ, Nat.add_mul, Nat.one_mul]
    by_cases hnil : rest = []
    · subst hnil
      obtain rfl : (top, o) = last := by simpa using hlast
      rcases hcases with ⟨surplus, rfl, -⟩ | ⟨hallowance, -⟩
      · exact .inr List.mem_cons_self
      · refine .inl ?_
        show o.minBitrate.toNat + 0 + (0 * _ + _) ≤ rate.toNat + 0 + _
        omega
    · obtain ⟨y, rest', rfl⟩ := List.exists_cons_of_ne_nil hnil
      rw [List.getLast?_cons_cons] at hlast
      rcases allocate_spends (y :: rest') share' (n - 1) hlength hleft last hlast with hspent | hmem
      · refine .inl ?_
        show o.minBitrate.toNat + _ + _ ≤ rate.toNat + _ + _
        rcases hcases with ⟨surplus, rfl, hsurplus, -, hlost⟩ | ⟨hallowance, -, rfl⟩
        · have hlost := hlost hnil
          omega
        · omega
      · exact .inr (List.mem_cons_of_mem _ hmem)

/-- No observer has more room than one behind it. -/
def RoomSorted (l : List (BitVec 32 × ObserverConfiguration ω)) : Prop :=
  l.Pairwise fun x y => room x ≤ room y

/-- Where every observer has the room, the maxima are above the allowances. -/
theorem le_maxima {l : List (BitVec 32 × ObserverConfiguration ω)} {share : ℕ}
    (hlimits : ∀ x ∈ l, x.2.minBitrate ≤ x.1) (h : ∀ x ∈ l, share ≤ room x) :
    minima l + l.length * share ≤ maxima l := by
  induction l with
  | nil => simp [minima, maxima]
  | cons x l ih =>
    have hx : x.2.minBitrate.toNat ≤ x.1.toNat := hlimits x List.mem_cons_self
    have hroom := h x List.mem_cons_self
    have hl := ih (fun y hy => hlimits y (List.mem_cons_of_mem _ hy))
      fun y hy => h y (List.mem_cons_of_mem _ hy)
    rw [room] at hroom
    rw [minima_cons, maxima_cons, List.length_cons, Nat.add_mul, Nat.one_mul]
    omega

theorem allocate_fills : ∀ (l : List (BitVec 32 × ObserverConfiguration ω)) (share n : BitVec 32),
    l.length = n.toNat → minima l + l.length * share.toNat < 2 ^ 32 →
    (∀ x ∈ l, x.2.minBitrate ≤ x.1) → RoomSorted l →
    minima l + l.length * share.toNat ≤ total (allocate l share n) + l.length * (l.length - 1) ∨
      maxima l ≤ total (allocate l share n)
  | [], _, _, _, _, _, _ => .inr (Nat.zero_le _)
  | (top, o) :: rest, share, n, hn, hsum, hlimits, hsorted => by
    obtain ⟨rate, share', hstep, hlength, hleft, hcases⟩ := allocate_step hn hsum
    have hrest : ∀ x ∈ rest, x.2.minBitrate ≤ x.1 := fun x hx => hlimits x (by simp [hx])
    obtain ⟨hfirst, hsorted⟩ := List.pairwise_cons.mp hsorted
    rw [hstep, total_cons, maxima_cons, minima_cons, List.length_cons, mul_pred_succ, Nat.add_mul,
      Nat.one_mul]
    show o.minBitrate.toNat + _ + _ ≤ rate.toNat + _ + _ ∨ top.toNat + _ ≤ rate.toNat + _
    have hnext := allocate_fills rest share' (n - 1) hlength hleft hrest hsorted
    rcases hcases with ⟨surplus, rfl, hsurplus, -, hlost⟩ | ⟨hallowance, hle, rfl⟩
    · rcases hnext with hspent | hfull
      · by_cases hnil : rest = []
        · subst hnil
          exact .inr (Nat.add_le_add_left (Nat.zero_le _) _)
        · have hlost := hlost hnil
          exact .inl (by omega)
      · exact .inr (by omega)
    · rcases hnext with hspent | hfull
      · exact .inl (by omega)
      · -- The first observer has room for more than its share, and so have the ones behind it.
        have htop : rate.toNat ≤ top.toNat := hle
        have hroom : ∀ x ∈ rest, share'.toNat ≤ room x := by
          intro x hx
          have hx := hfirst x hx
          have hown : room (top, o) = top.toNat - o.minBitrate.toNat := rfl
          omega
        have hmaxima := le_maxima hrest hroom
        exact .inl (by omega)

namespace BitrateControllerImpl

variable {c : BitrateControllerImpl ω}

/-- The sum of the maxima of the observers. -/
def sumOfMaxima (c : BitrateControllerImpl ω) : ℕ :=
  (c.bitrateObservers.map (·.2.maxBitrate.toNat)).sum

theorem insertObserver_sorted {l : List (BitVec 32 × ObserverConfiguration ω)}
    (h : l.Pairwise fun x y => x.1 ≤ y.1) (o : BitVec 32 × ObserverConfiguration ω) :
    (insertObserver o l).Pairwise fun x y => x.1 ≤ y.1 := by
  induction l with
  | nil => exact List.pairwise_singleton _ o
  | cons x l ih =>
    obtain ⟨hx, hl⟩ := List.pairwise_cons.mp h
    by_cases hle : x.1 ≤ o.1
    · have hinsert : insertObserver o (x :: l) = x :: insertObserver o l := by
        simp [insertObserver, hle]
      rw [hinsert]
      refine List.pairwise_cons.mpr ⟨fun y hy => ?_, ih hl⟩
      rcases List.mem_cons.mp ((insertObserver_perm o l).subset hy) with rfl | hy
      · exact hle
      · exact hx y hy
    · have hinsert : insertObserver o (x :: l) = o :: x :: l := by
        simp [insertObserver, hle]
      have hlt : o.1 ≤ x.1 := BitVec.le_of_lt (BitVec.not_le.mp hle)
      rw [hinsert]
      refine List.pairwise_cons.mpr ⟨fun y hy => ?_, h⟩
      rcases List.mem_cons.mp hy with rfl | hy
      · exact hlt
      · exact BitVec.le_trans hlt (hx y hy)

theorem listMaxBitrates_sorted : c.listMaxBitrates.Pairwise fun x y => x.1 ≤ y.1 := by
  have hfold : ∀ (observers : List (ω × BitrateConfiguration))
      (l : List (BitVec 32 × ObserverConfiguration ω)), (l.Pairwise fun x y => x.1 ≤ y.1) →
      (observers.foldl (fun l o => insertObserver (o.2.maxBitrate, ⟨o.1, o.2.minBitrate⟩) l)
        l).Pairwise fun x y => x.1 ≤ y.1 := by
    intro observers
    induction observers with
    | nil => exact fun l hl => hl
    | cons o observers ih => exact fun l hl => ih _ (insertObserver_sorted hl _)
  exact hfold c.bitrateObservers [] .nil

/-- The last observer has the largest maximum. -/
theorem le_last {last : BitVec 32 × ObserverConfiguration ω}
    (h : c.listMaxBitrates.getLast? = some last) {o : ω × BitrateConfiguration}
    (ho : o ∈ c.bitrateObservers) : o.2.maxBitrate ≤ last.1 := by
  obtain ⟨front, hfront⟩ := List.getLast?_eq_some_iff.mp h
  have hsorted := listMaxBitrates_sorted (c := c)
  have hmem : (o.2.maxBitrate, (⟨o.1, o.2.minBitrate⟩ : ObserverConfiguration ω)) ∈
      c.listMaxBitrates :=
    listMaxBitrates_perm.symm.subset (List.mem_map.mpr ⟨o, ho, rfl⟩)
  rw [hfront] at hsorted hmem
  rcases List.mem_append.mp hmem with hmem | hmem
  · exact (List.pairwise_append.mp hsorted).2.2 _ hmem _ (List.mem_singleton_self _)
  · obtain rfl := List.mem_singleton.mp hmem
    exact BitVec.le_refl _

/-- The loop over all observers, with what the first division leaves over. -/
theorem listMaxBitrates_share {bitrate : BitVec 32} (hne : c.bitrateObservers ≠ [])
    (hcount : c.bitrateObservers.length < 2 ^ 32) (hsum : c.exactMinima < bitrate.toNat) :
    ∃ share : BitVec 32, c.rates bitrate = allocate c.listMaxBitrates share
        (BitVec.ofNat 32 c.bitrateObservers.length) ∧
      c.listMaxBitrates.length = (BitVec.ofNat 32 c.bitrateObservers.length).toNat ∧
      c.listMaxBitrates.length = c.bitrateObservers.length ∧
      minima c.listMaxBitrates + c.listMaxBitrates.length * share.toNat ≤ bitrate.toNat ∧
      bitrate.toNat <
        minima c.listMaxBitrates + c.listMaxBitrates.length * share.toNat +
          c.bitrateObservers.length := by
  have hpos := List.length_pos_iff.mpr hne
  have hlow : ¬ bitrate ≤ c.sumMinBitrates := by
    refine BitVec.not_le.mpr ?_
    show c.sumMinBitrates.toNat < bitrate.toNat
    rwa [sumMinBitrates_toNat (hsum.trans bitrate.isLt)]
  have hn : (BitVec.ofNat 32 c.bitrateObservers.length).toNat = c.bitrateObservers.length :=
    Nat.mod_eq_of_lt hcount
  have hzero : BitVec.ofNat 32 c.bitrateObservers.length ≠ 0 := by
    intro hzero
    rw [hzero] at hn
    exact absurd hn (Nat.ne_of_lt hpos)
  have hshare := toNat_share hcount hsum
  have hlength := @listMaxBitrates_length ω c
  have hmin := @minima_listMaxBitrates ω c
  have hall : c.bitrateObservers.length *
      ((bitrate.toNat - c.exactMinima) / c.bitrateObservers.length) ≤
        bitrate.toNat - c.exactMinima := Nat.mul_div_le _ _
  have hlost : bitrate.toNat - c.exactMinima < c.bitrateObservers.length *
      ((bitrate.toNat - c.exactMinima) / c.bitrateObservers.length) +
        c.bitrateObservers.length := Nat.lt_mul_div_succ _ hpos
  refine ⟨_, (if_neg hzero).trans (if_neg hlow), by rw [hlength, hn], hlength, ?_, ?_⟩
  · rw [hmin, hlength, hshare]
    omega
  · rw [hmin, hlength, hshare]
    omega

/-- What is given out to the observers. -/
def given (notifications : List (Notification ω)) : ℕ :=
  (notifications.map (·.targetBitrate.toNat)).sum

/-- If the observer that is processed last, which has the largest maximum, is below its maximum,
or if no observer has more room than one that is processed later, nothing is left over. -/
theorem onNetworkChanged_spends (c : BitrateControllerImpl ω) (bitrate : BitVec 32)
    (fractionLoss : BitVec 8) (rtt : BitVec 32)
    (hlimits : ∀ o ∈ c.bitrateObservers, o.2.minBitrate ≤ o.2.maxBitrate)
    (hne : c.bitrateObservers ≠ []) (hsum : c.exactMinima < bitrate.toNat) :
    let notifications := (c.onNetworkChanged bitrate fractionLoss rtt).1
    let n := c.bitrateObservers.length
    (∃ last, c.listMaxBitrates.getLast? = some last ∧
      (∀ o ∈ c.bitrateObservers, o.2.maxBitrate ≤ last.1) ∧
      (bitrate.toNat < given notifications + n * n ∨
        ∃ m ∈ notifications, m.observer = last.2.observer ∧ m.targetBitrate = last.1)) ∧
    (RoomSorted c.listMaxBitrates →
      min bitrate.toNat c.sumOfMaxima < given notifications + n * n) := by
  intro notifications n
  have hpos : 0 < n := List.length_pos_iff.mpr hne
  have hperm := @listMaxBitrates_perm ω c
  have hnil : c.listMaxBitrates ≠ [] := by
    intro hnil
    have hlength := hperm.length_eq
    rw [hnil, List.length_map] at hlength
    exact absurd hlength (Nat.ne_of_lt hpos)
  have hlast := List.getLast?_eq_some_getLast hnil
  generalize c.listMaxBitrates.getLast hnil = last at hlast
  have hgiven : given notifications = total (c.rates bitrate) := by
    simp [given, notifications, onNetworkChanged, total, Function.comp_def]
  suffices h : (bitrate.toNat < total (c.rates bitrate) + n * n ∨
      (last.2.observer, last.1) ∈ c.rates bitrate) ∧ (RoomSorted c.listMaxBitrates →
        min bitrate.toNat c.sumOfMaxima < total (c.rates bitrate) + n * n) by
    rw [hgiven]
    refine ⟨⟨last, hlast, fun o ho => le_last hlast ho, h.1.imp_right fun hmem => ?_⟩, h.2⟩
    exact ⟨_, List.mem_map.mpr ⟨_, hmem, rfl⟩, rfl, rfl⟩
  by_cases hcount : c.bitrateObservers.length < 2 ^ 32
  · obtain ⟨share, hrates, hn, hlength, hfits, hleft⟩ := listMaxBitrates_share hne hcount hsum
    have hbitrate := bitrate.isLt
    have hsquare := mul_pred_add hpos
    have hleft : bitrate.toNat < minima c.listMaxBitrates + n * share.toNat + n := by
      rw [hlength] at hleft
      exact hleft
    have hlimits' : ∀ x ∈ c.listMaxBitrates, x.2.minBitrate ≤ x.1 := by
      intro x hx
      obtain ⟨o, ho, rfl⟩ := List.mem_map.mp (hperm.subset hx)
      exact hlimits o ho
    have hmaxima : maxima c.listMaxBitrates = c.sumOfMaxima := by
      refine ((hperm.map _).sum_eq).trans ?_
      simp [sumOfMaxima, Function.comp_def]
    have hspends := allocate_spends c.listMaxBitrates share _ hn (by omega) last hlast
    have hfills := allocate_fills c.listMaxBitrates share _ hn (by omega) hlimits'
    rw [← hrates, show c.listMaxBitrates.length = n from hlength] at hspends hfills
    refine ⟨hspends.imp_left fun h => by omega, fun hsorted => ?_⟩
    rcases hfills hsorted with h | h
    · exact Nat.lt_of_le_of_lt (Nat.min_le_left _ _) (by omega)
    · rw [hmaxima] at h
      exact Nat.lt_of_le_of_lt (Nat.min_le_right _ _) (by omega)
  · -- There are more observers than bits per second.
    have hmany : bitrate.toNat < n * n :=
      Nat.lt_of_lt_of_le bitrate.isLt ((Nat.not_lt.mp hcount).trans (Nat.le_mul_of_pos_left _ hpos))
    exact ⟨.inl (by omega), fun _ => by omega⟩

/-- Three observers with the same minimum. -/
theorem onNetworkChanged_spends_three :
    let c : BitrateControllerImpl ℕ :=
      { bitrateObservers := [(1, ⟨0, 10, 90⟩), (2, ⟨0, 10, 20⟩), (3, ⟨0, 10, 40⟩)] }
    let notifications := (c.onNetworkChanged 100 0 0).1
    (∃ last, c.listMaxBitrates.getLast? = some last ∧
      (∀ o ∈ c.bitrateObservers, o.2.maxBitrate ≤ last.1) ∧
      ((100 : BitVec 32).toNat < given notifications + 3 * 3 ∨
        ∃ m ∈ notifications, m.observer = last.2.observer ∧ m.targetBitrate = last.1)) ∧
    (RoomSorted c.listMaxBitrates →
      min (100 : BitVec 32).toNat c.sumOfMaxima < given notifications + 3 * 3) :=
  onNetworkChanged_spends _ 100 0 0 (by decide) (by decide) (by decide)

/-- The observer with the larger maximum has less room, and what it cannot use is lost. -/
theorem not_onNetworkChanged_spends :
    ¬ ∀ (c : BitrateControllerImpl ℕ) (bitrate : BitVec 32),
      (∀ o ∈ c.bitrateObservers, o.2.minBitrate ≤ o.2.maxBitrate) →
      c.bitrateObservers ≠ [] → c.exactMinima < bitrate.toNat →
      min bitrate.toNat c.sumOfMaxima < given (c.onNetworkChanged bitrate 0 0).1 +
        c.bitrateObservers.length * c.bitrateObservers.length := by
  intro h
  have hclaim := h { bitrateObservers := [(1, ⟨0, 0, 100⟩), (2, ⟨0, 90, 110⟩)] } 230
    (by decide) (by decide) (by decide)
  exact absurd hclaim (by decide)

end BitrateControllerImpl

end PerchWebrtc.Bitrate
