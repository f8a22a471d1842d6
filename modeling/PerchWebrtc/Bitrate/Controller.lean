import Mathlib

/-!
# The bitrate controller

`BitrateControllerImpl` (`bitrate_controller_impl.cc`): what each observer is told when the
estimate of the bitrate changes. Of the estimate, here is what the controller sets.

* `allocate_bounds`: the loop over the observers, by induction on those that are left: their
  minima and a share for each of them are never more than what is left of the estimate;
* `onNetworkChanged_allocates`: every estimate, for every set of observers.
-/

namespace PerchWebrtc.Bitrate

structure BitrateConfiguration where
  startBitrate : BitVec 32
  minBitrate : BitVec 32
  maxBitrate : BitVec 32
  deriving DecidableEq

structure SendSideBandwidthEstimation where
  accumulateLostPacketsQ8 : BitVec 32 := 0
  accumulateExpectedPackets : BitVec 32 := 0
  bitrate : BitVec 32 := 0
  minBitrateConfigured : BitVec 32 := 0
  maxBitrateConfigured : BitVec 32 := 0
  lastFractionLoss : BitVec 8 := 0
  lastRoundTripTime : BitVec 16 := 0
  bweIncoming : BitVec 32 := 0
  timeLastIncrease : BitVec 32 := 0
  timeLastDecrease : BitVec 32 := 0

namespace SendSideBandwidthEstimation

def setSendBitrate (bitrate : BitVec 32) (e : SendSideBandwidthEstimation) :
    SendSideBandwidthEstimation :=
  { e with bitrate := bitrate }

def setMinMaxBitrate (minBitrate maxBitrate : BitVec 32) (e : SendSideBandwidthEstimation) :
    SendSideBandwidthEstimation :=
  { e with
    minBitrateConfigured := minBitrate
    maxBitrateConfigured := if maxBitrate = 0 then 1000000000 else maxBitrate }

end SendSideBandwidthEstimation

/-- A call of `OnNetworkChanged` of an observer. -/
structure Notification (ω : Type*) where
  observer : ω
  targetBitrate : BitVec 32
  fractionLoss : BitVec 8
  rtt : BitVec 32

structure ObserverConfiguration (ω : Type*) where
  observer : ω
  minBitrate : BitVec 32

/-- An observer is registered once. -/
structure BitrateControllerImpl (ω : Type*) where
  bandwidthEstimation : SendSideBandwidthEstimation := {}
  bitrateObservers : List (ω × BitrateConfiguration) := []
  nodup : (bitrateObservers.map Prod.fst).Nodup := by simp

variable {ω : Type*}

/-! ## Observers -/

section Observers

variable [DecidableEq ω]

/-- The configuration of an observer that is found is replaced. -/
def replaceObserver (observer : ω) (configuration : BitrateConfiguration)
    (l : List (ω × BitrateConfiguration)) : List (ω × BitrateConfiguration) :=
  if observer ∈ l.map Prod.fst then
    l.map fun o => if o.1 = observer then (o.1, configuration) else o
  else l ++ [(observer, configuration)]

theorem replaceObserver_nodup {observer : ω} {configuration : BitrateConfiguration}
    {l : List (ω × BitrateConfiguration)} (h : (l.map Prod.fst).Nodup) :
    ((replaceObserver observer configuration l).map Prod.fst).Nodup := by
  unfold replaceObserver
  split
  · have hkeys : (Prod.fst ∘ fun o : ω × BitrateConfiguration =>
        if o.1 = observer then (o.1, configuration) else o) = Prod.fst := by
      funext o
      simp only [Function.comp_apply]
      split <;> rfl
    rwa [List.map_map, hkeys]
  · rename_i hnew
    rw [List.map_append, List.map_singleton]
    exact List.nodup_append'.mpr ⟨h, List.nodup_singleton _, by simpa using hnew⟩

theorem mem_replaceObserver (observer : ω) (configuration : BitrateConfiguration)
    (l : List (ω × BitrateConfiguration)) :
    (observer, configuration) ∈ replaceObserver observer configuration l := by
  unfold replaceObserver
  split
  · rename_i hfound
    obtain ⟨o, ho, rfl⟩ := List.mem_map.mp hfound
    exact List.mem_map.mpr ⟨o, ho, if_pos rfl⟩
  · exact List.mem_append_right _ (List.mem_singleton_self _)

namespace BitrateControllerImpl

variable (c : BitrateControllerImpl ω)

def setBitrateObserver (observer : ω) (startBitrate minBitrate maxBitrate : BitVec 32) :
    BitrateControllerImpl ω :=
  let observers := replaceObserver observer ⟨startBitrate, minBitrate, maxBitrate⟩
    c.bitrateObservers
  let sumStartBitrate := (observers.map (·.2.startBitrate)).sum
  let sumMinBitrate := (observers.map (·.2.minBitrate)).sum
  let sumMaxBitrate := (observers.map (·.2.maxBitrate)).sum
  let estimation :=
    if observers.length = 1 then c.bandwidthEstimation.setSendBitrate sumStartBitrate
    else c.bandwidthEstimation
  { bandwidthEstimation := estimation.setMinMaxBitrate sumMinBitrate sumMaxBitrate
    bitrateObservers := observers
    nodup := replaceObserver_nodup c.nodup }

end BitrateControllerImpl

end Observers

/-! ## The allocation -/

/-- Insertion into `ObserverSortingMap`, a `std::multimap`: behind the observers with the
same maximum. -/
def insertObserver (o : BitVec 32 × ObserverConfiguration ω)
    (l : List (BitVec 32 × ObserverConfiguration ω)) : List (BitVec 32 × ObserverConfiguration ω) :=
  l.takeWhile (·.1 ≤ o.1) ++ o :: l.dropWhile (·.1 ≤ o.1)

/-- The loop over the observers by their maximum: what each of them may use. -/
def allocate : List (BitVec 32 × ObserverConfiguration ω) → BitVec 32 → BitVec 32 →
    List (ω × BitVec 32)
  | [], _, _ => []
  | (maxBitrate, o) :: rest, bitratePerObserver, numberOfObservers =>
    let numberOfObservers := numberOfObservers - 1
    let observerAllowance := o.minBitrate + bitratePerObserver
    if maxBitrate < observerAllowance then
      let remainder := observerAllowance - maxBitrate
      let bitratePerObserver :=
        if numberOfObservers ≠ 0 then bitratePerObserver + remainder / numberOfObservers
        else bitratePerObserver
      (o.observer, maxBitrate) :: allocate rest bitratePerObserver numberOfObservers
    else (o.observer, observerAllowance) :: allocate rest bitratePerObserver numberOfObservers

/-- The sum of the minima of the observers that are left. -/
def minima (l : List (BitVec 32 × ObserverConfiguration ω)) : Nat :=
  (l.map (·.2.minBitrate.toNat)).sum

theorem minima_cons (x : BitVec 32 × ObserverConfiguration ω)
    (l : List (BitVec 32 × ObserverConfiguration ω)) :
    minima (x :: l) = x.2.minBitrate.toNat + minima l := by simp [minima]

/-- A round of the loop: an observer is given its maximum, and the others share what is left of its
allowance except for a remainder of the division, or it is given its allowance. -/
theorem allocate_step {top : BitVec 32} {o : ObserverConfiguration ω}
    {rest : List (BitVec 32 × ObserverConfiguration ω)} {share n : BitVec 32}
    (hn : ((top, o) :: rest).length = n.toNat)
    (hsum : minima ((top, o) :: rest) + ((top, o) :: rest).length * share.toNat < 2 ^ 32) :
    ∃ rate share', allocate ((top, o) :: rest) share n =
        (o.observer, rate) :: allocate rest share' (n - 1) ∧
      rest.length = (n - 1).toNat ∧ minima rest + rest.length * share'.toNat < 2 ^ 32 ∧
      ((∃ surplus, rate = top ∧ o.minBitrate.toNat + share.toNat = top.toNat + surplus ∧
          rest.length * share'.toNat ≤ rest.length * share.toNat + surplus ∧
          (rest ≠ [] → rest.length * share.toNat + surplus <
            rest.length * share'.toNat + rest.length)) ∨
        rate.toNat = o.minBitrate.toNat + share.toNat ∧ rate ≤ top ∧ share' = share) := by
  have hlength : rest.length = (n - 1).toNat := by
    rw [List.length_cons] at hn
    rw [BitVec.toNat_sub_of_le (by show 1 ≤ n.toNat; omega)]
    show rest.length = n.toNat - 1
    omega
  rw [minima_cons, List.length_cons, Nat.add_mul, Nat.one_mul] at hsum
  have hsum : o.minBitrate.toNat + minima rest + (rest.length * share.toNat + share.toNat) <
      2 ^ 32 := hsum
  have hallowance : (o.minBitrate + share).toNat = o.minBitrate.toNat + share.toNat :=
    BitVec.toNat_add_of_lt (by omega)
  rw [allocate]
  dsimp only
  by_cases hmore : top < o.minBitrate + share
  · rw [if_pos hmore]
    have hmoreNat : top.toNat < (o.minBitrate + share).toNat := hmore
    have hremainder : (o.minBitrate + share - top).toNat =
        o.minBitrate.toNat + share.toNat - top.toNat := by
      rw [BitVec.toNat_sub_of_le (BitVec.le_of_lt hmore), hallowance]
    refine ⟨_, _, rfl, hlength, ?_⟩
    by_cases hlast : n - 1 = 0
    · have hnil : rest = [] := List.length_eq_zero_iff.mp (by rw [hlength, hlast]; rfl)
      rw [if_neg (not_not.mpr hlast)]
      exact ⟨by omega, .inl ⟨_, rfl, (Nat.add_sub_cancel' (by omega)).symm, Nat.le_add_right _ _,
        fun h => absurd hnil h⟩⟩
    · have hpos : 0 < rest.length := by
        refine Nat.pos_of_ne_zero fun h => hlast (BitVec.eq_of_toNat_eq ?_)
        rw [← hlength, h]
        rfl
      have hdiv : ((o.minBitrate + share - top) / (n - 1)).toNat =
          (o.minBitrate.toNat + share.toNat - top.toNat) / rest.length := by
        rw [BitVec.toNat_udiv, hremainder, hlength]
      have hcarry : rest.length *
          ((o.minBitrate.toNat + share.toNat - top.toNat) / rest.length) ≤
            o.minBitrate.toNat + share.toNat - top.toNat := Nat.mul_div_le _ _
      have hlost : o.minBitrate.toNat + share.toNat - top.toNat < rest.length *
          ((o.minBitrate.toNat + share.toNat - top.toNat) / rest.length) + rest.length :=
        Nat.lt_mul_div_succ _ hpos
      have hle : (o.minBitrate.toNat + share.toNat - top.toNat) / rest.length ≤
          o.minBitrate.toNat + share.toNat - top.toNat := Nat.div_le_self _ _
      have hone : share.toNat ≤ rest.length * share.toNat := Nat.le_mul_of_pos_left _ hpos
      rw [if_pos hlast, BitVec.toNat_add_of_lt (by rw [hdiv]; omega), hdiv, Nat.mul_add]
      exact ⟨by omega, .inl ⟨_, rfl, (Nat.add_sub_cancel' (by omega)).symm, by omega,
        fun _ => by omega⟩⟩
  · rw [if_neg hmore]
    exact ⟨_, _, rfl, hlength, by omega, .inr ⟨hallowance, BitVec.not_lt.mp hmore, rfl⟩⟩

/-- Each observer that is left is told one rate, between its limits. -/
theorem allocate_bounds : ∀ (l : List (BitVec 32 × ObserverConfiguration ω)) (share n : BitVec 32),
    l.length = n.toNat → (∀ x ∈ l, x.2.minBitrate ≤ x.1) →
    minima l + l.length * share.toNat < 2 ^ 32 →
    (allocate l share n).map Prod.fst = l.map (·.2.observer) ∧
      (∀ r ∈ allocate l share n,
        ∃ x ∈ l, r.1 = x.2.observer ∧ x.2.minBitrate ≤ r.2 ∧ r.2 ≤ x.1) ∧
      ((allocate l share n).map (·.2.toNat)).sum ≤ minima l + l.length * share.toNat
  | [], _, _, _, _, _ => ⟨rfl, by simp [allocate], Nat.zero_le _⟩
  | (top, o) :: rest, share, n, hn, hlimits, hsum => by
    have hrest : ∀ x ∈ rest, x.2.minBitrate ≤ x.1 := fun x hx => hlimits x (by simp [hx])
    have htop : o.minBitrate.toNat ≤ top.toNat := hlimits _ List.mem_cons_self
    obtain ⟨rate, share', hstep, hlength, hleft, hcases⟩ := allocate_step hn hsum
    rw [hstep, minima_cons, List.length_cons, Nat.add_mul, Nat.one_mul]
    show _ ∧ _ ∧ _ ≤ o.minBitrate.toNat + minima rest + (rest.length * share.toNat + share.toNat)
    -- The rate is between the limits, and with what is left for the others no more than before.
    have hrate : o.minBitrate.toNat ≤ rate.toNat ∧ rate ≤ top ∧
        rate.toNat + rest.length * share'.toNat ≤
          o.minBitrate.toNat + (rest.length * share.toNat + share.toNat) := by
      rcases hcases with ⟨surplus, rfl, hsurplus, hgrowth, -⟩ | ⟨hallowance, hle, rfl⟩
      · exact ⟨htop, BitVec.le_refl _, by omega⟩
      · exact ⟨by omega, hle, by omega⟩
    obtain ⟨hlow, hhigh, hgiven⟩ := hrate
    obtain ⟨hkeys, hbounds, htotal⟩ := allocate_bounds rest share' (n - 1) hlength hrest hleft
    refine ⟨by rw [List.map_cons, List.map_cons, hkeys], fun r hr => ?_, ?_⟩
    · rcases List.mem_cons.mp hr with rfl | hr
      · exact ⟨_, List.mem_cons_self, rfl, hlow, hhigh⟩
      · obtain ⟨x, hx, hlimit⟩ := hbounds r hr
        exact ⟨x, List.mem_cons_of_mem _ hx, hlimit⟩
    · simp only [List.map_cons, List.sum_cons]
      omega

namespace BitrateControllerImpl

variable (c : BitrateControllerImpl ω)

def sumMinBitrates : BitVec 32 := (c.bitrateObservers.map (·.2.minBitrate)).sum

def listMaxBitrates : List (BitVec 32 × ObserverConfiguration ω) :=
  c.bitrateObservers.foldl
    (fun l o => insertObserver (o.2.maxBitrate, ⟨o.1, o.2.minBitrate⟩) l) []

def rates (bitrate : BitVec 32) : List (ω × BitVec 32) :=
  let numberOfObservers := BitVec.ofNat 32 c.bitrateObservers.length
  if numberOfObservers = 0 then []
  else if bitrate ≤ c.sumMinBitrates then
    c.bitrateObservers.map fun o => (o.1, o.2.minBitrate)
  else
    allocate c.listMaxBitrates ((bitrate - c.sumMinBitrates) / numberOfObservers)
      numberOfObservers

def onNetworkChanged (bitrate : BitVec 32) (fractionLoss : BitVec 8) (rtt : BitVec 32) :
    List (Notification ω) × BitrateControllerImpl ω :=
  ((c.rates bitrate).map fun r => ⟨r.1, r.2, fractionLoss, rtt⟩,
    if BitVec.ofNat 32 c.bitrateObservers.length ≠ 0 ∧ bitrate ≤ c.sumMinBitrates then
      { c with bandwidthEstimation := c.bandwidthEstimation.setSendBitrate c.sumMinBitrates }
    else c)

variable {c}

theorem insertObserver_perm (o : BitVec 32 × ObserverConfiguration ω)
    (l : List (BitVec 32 × ObserverConfiguration ω)) : (insertObserver o l).Perm (o :: l) := by
  unfold insertObserver
  exact List.perm_middle.trans (.of_eq (by rw [List.takeWhile_append_dropWhile]))

theorem listMaxBitrates_perm : c.listMaxBitrates.Perm
    (c.bitrateObservers.map fun o => (o.2.maxBitrate, ⟨o.1, o.2.minBitrate⟩)) := by
  have hfold : ∀ (observers : List (ω × BitrateConfiguration))
      (l : List (BitVec 32 × ObserverConfiguration ω)),
      (observers.foldl (fun l o => insertObserver (o.2.maxBitrate, ⟨o.1, o.2.minBitrate⟩) l)
        l).Perm (l ++ observers.map fun o => (o.2.maxBitrate, ⟨o.1, o.2.minBitrate⟩)) := by
    intro observers
    induction observers with
    | nil => simp
    | cons o observers ih =>
      intro l
      rw [List.foldl_cons, List.map_cons]
      exact (ih _).trans (((insertObserver_perm _ l).append_right _).trans List.perm_middle.symm)
  simpa [listMaxBitrates] using hfold c.bitrateObservers []

/-- A sum of 32-bit numbers. -/
theorem toNat_sum_mod : ∀ (l : List (BitVec 32)),
    l.sum.toNat = (l.map BitVec.toNat).sum % 2 ^ 32
  | [] => rfl
  | a :: l => by
    rw [List.map_cons, List.sum_cons, List.sum_cons, BitVec.toNat_add, toNat_sum_mod l,
      Nat.add_mod_mod]

/-- A sum of 32-bit numbers that does not wrap around. -/
theorem toNat_sum {l : List (BitVec 32)} (h : (l.map BitVec.toNat).sum < 2 ^ 32) :
    l.sum.toNat = (l.map BitVec.toNat).sum := by
  rw [toNat_sum_mod, Nat.mod_eq_of_lt h]

/-- A rate between the limits of a registered observer. -/
def Permitted (c : BitrateControllerImpl ω) (r : ω × BitVec 32) : Prop :=
  ∃ configuration, (r.1, configuration) ∈ c.bitrateObservers ∧
    configuration.minBitrate ≤ r.2 ∧ r.2 ≤ configuration.maxBitrate

/-- The minima of the observers, in exact arithmetic. -/
def exactMinima (c : BitrateControllerImpl ω) : Nat :=
  (c.bitrateObservers.map (·.2.minBitrate.toNat)).sum

/-- What the observers are to be told of an estimate. -/
structure Allocates (c : BitrateControllerImpl ω) (bitrate : BitVec 32)
    (rates : List (ω × BitVec 32)) : Prop where
  once : (rates.map Prod.fst).Perm (c.bitrateObservers.map Prod.fst)
  permitted : ∀ r ∈ rates, c.Permitted r
  above : c.exactMinima < bitrate.toNat → (rates.map (·.2.toNat)).sum ≤ bitrate.toNat
  below : bitrate.toNat ≤ c.exactMinima → ∀ r ∈ rates, ∃ configuration,
    (r.1, configuration) ∈ c.bitrateObservers ∧ r.2 = configuration.minBitrate

theorem sumMinBitrates_toNat (hsum : c.exactMinima < 2 ^ 32) :
    c.sumMinBitrates.toNat = c.exactMinima := by
  have hmap : (c.bitrateObservers.map (·.2.minBitrate)).map BitVec.toNat =
      c.bitrateObservers.map (·.2.minBitrate.toNat) := by simp
  rw [sumMinBitrates, toNat_sum (by rwa [hmap]), hmap]
  rfl

theorem listMaxBitrates_length : c.listMaxBitrates.length = c.bitrateObservers.length := by
  simpa using (listMaxBitrates_perm (c := c)).length_eq

theorem minima_listMaxBitrates : minima c.listMaxBitrates = c.exactMinima := by
  refine ((listMaxBitrates_perm.map _).sum_eq).trans ?_
  simp [exactMinima, Function.comp_def]

/-- What each observer has above its minimum, if all have the same. -/
theorem toNat_share {bitrate : BitVec 32} (hcount : c.bitrateObservers.length < 2 ^ 32)
    (hsum : c.exactMinima < bitrate.toNat) :
    ((bitrate - c.sumMinBitrates) / BitVec.ofNat 32 c.bitrateObservers.length).toNat =
      (bitrate.toNat - c.exactMinima) / c.bitrateObservers.length := by
  have hminima : c.sumMinBitrates.toNat = c.exactMinima :=
    sumMinBitrates_toNat (hsum.trans bitrate.isLt)
  have hle : c.sumMinBitrates ≤ bitrate := by
    show c.sumMinBitrates.toNat ≤ bitrate.toNat
    omega
  rw [BitVec.toNat_udiv, BitVec.toNat_sub_of_le hle, hminima, BitVec.toNat_ofNat,
    Nat.mod_eq_of_lt hcount]

/-- The loop over all observers. -/
theorem allocate_listMaxBitrates {bitrate : BitVec 32}
    (hlimits : ∀ o ∈ c.bitrateObservers, o.2.minBitrate ≤ o.2.maxBitrate)
    (hcount : c.bitrateObservers.length < 2 ^ 32) (hsum : c.exactMinima < bitrate.toNat) :
    c.Allocates bitrate (allocate c.listMaxBitrates
      ((bitrate - c.sumMinBitrates) / BitVec.ofNat 32 c.bitrateObservers.length)
      (BitVec.ofNat 32 c.bitrateObservers.length)) := by
  have hperm := @listMaxBitrates_perm ω c
  have hn : (BitVec.ofNat 32 c.bitrateObservers.length).toNat = c.bitrateObservers.length :=
    Nat.mod_eq_of_lt hcount
  have hshare := toNat_share hcount hsum
  have hlength := @listMaxBitrates_length ω c
  have hmin := @minima_listMaxBitrates ω c
  have hall : c.bitrateObservers.length *
      ((bitrate.toNat - c.exactMinima) / c.bitrateObservers.length) ≤
        bitrate.toNat - c.exactMinima := Nat.mul_div_le _ _
  obtain ⟨hkeys, hbounds, htotal⟩ := allocate_bounds c.listMaxBitrates
    ((bitrate - c.sumMinBitrates) / BitVec.ofNat 32 c.bitrateObservers.length)
    (BitVec.ofNat 32 c.bitrateObservers.length) (by rw [hlength, hn])
    (fun x hx => by
      obtain ⟨o, ho, rfl⟩ := List.mem_map.mp (hperm.subset hx)
      exact hlimits o ho)
    (by rw [hmin, hlength, hshare]; omega)
  rw [hmin, hlength, hshare] at htotal
  refine ⟨?_, fun r hr => ?_, fun _ => by omega, fun h => absurd h (by omega)⟩
  · rw [hkeys]
    refine (hperm.map _).trans (.of_eq ?_)
    simp [Function.comp_def]
  · obtain ⟨x, hx, hkey, hlow, hhigh⟩ := hbounds r hr
    obtain ⟨o, ho, rfl⟩ := List.mem_map.mp (hperm.subset hx)
    exact ⟨o.2, by rw [hkey]; exact ho, hlow, hhigh⟩

/-- Every estimate, for every set of observers whose limits are in order. -/
theorem onNetworkChanged_allocates (c : BitrateControllerImpl ω) (bitrate : BitVec 32)
    (fractionLoss : BitVec 8) (rtt : BitVec 32)
    (hlimits : ∀ o ∈ c.bitrateObservers, o.2.minBitrate ≤ o.2.maxBitrate)
    (hcount : c.bitrateObservers.length < 2 ^ 32) (hsum : c.exactMinima < 2 ^ 32) :
    let notifications := (c.onNetworkChanged bitrate fractionLoss rtt).1
    c.Allocates bitrate (notifications.map fun n => (n.observer, n.targetBitrate)) ∧
      ∀ n ∈ notifications, n.fractionLoss = fractionLoss ∧ n.rtt = rtt := by
  intro notifications
  have hrates : notifications.map (fun n => (n.observer, n.targetBitrate)) = c.rates bitrate := by
    simp [notifications, onNetworkChanged, Function.comp_def]
  have hzero : BitVec.ofNat 32 c.bitrateObservers.length = 0 ↔ c.bitrateObservers = [] := by
    rw [← List.length_eq_zero_iff, ← BitVec.toNat_inj]
    show c.bitrateObservers.length % 2 ^ 32 = 0 ↔ _
    rw [Nat.mod_eq_of_lt hcount]
  refine ⟨?_, fun n hn => ?_⟩
  rotate_left
  · obtain ⟨r, -, rfl⟩ := List.mem_map.mp hn
    exact ⟨rfl, rfl⟩
  rw [hrates, rates]
  by_cases hnone : c.bitrateObservers = []
  · rw [if_pos (hzero.mpr hnone)]
    exact ⟨by simp [hnone], by simp, by simp, by simp⟩
  · rw [if_neg fun h => hnone (hzero.mp h)]
    by_cases hlow : bitrate ≤ c.sumMinBitrates
    · have hlowNat : bitrate.toNat ≤ c.sumMinBitrates.toNat := hlow
      rw [sumMinBitrates_toNat hsum] at hlowNat
      rw [if_pos hlow]
      refine ⟨by simp [Function.comp_def], fun r hr => ?_, fun h => absurd h (by omega),
        fun _ r hr => ?_⟩
      · obtain ⟨o, ho, rfl⟩ := List.mem_map.mp hr
        exact ⟨o.2, ho, BitVec.le_refl _, hlimits o ho⟩
      · obtain ⟨o, ho, rfl⟩ := List.mem_map.mp hr
        exact ⟨o.2, ho, rfl⟩
    · have hhigh : c.sumMinBitrates.toNat < bitrate.toNat := BitVec.not_le.mp hlow
      rw [sumMinBitrates_toNat hsum] at hhigh
      rw [if_neg hlow]
      exact allocate_listMaxBitrates hlimits hcount hhigh

/-- Two observers, of which the first has its maximum. -/
theorem onNetworkChanged_allocates_two :
    let c : BitrateControllerImpl Nat := { bitrateObservers := [(1, ⟨0, 10, 20⟩), (2, ⟨0, 5, 90⟩)] }
    let notifications := (c.onNetworkChanged 75 0 0).1
    c.Allocates 75 (notifications.map fun n => (n.observer, n.targetBitrate)) ∧
      ∀ n ∈ notifications, n.fractionLoss = 0 ∧ n.rtt = 0 :=
  onNetworkChanged_allocates _ 75 0 0 (by decide) (by decide) (by decide)

end BitrateControllerImpl

end PerchWebrtc.Bitrate
