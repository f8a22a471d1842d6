import PerchWebrtc.Bitrate.Controller
import PerchWebrtc.Framework.Machine

/-!
# The estimate of the bandwidth

`SendSideBandwidthEstimation` (`send_side_bandwidth_estimation.cc`), and what the bitrate
controller (`bitrate_controller_impl.cc`) makes of the estimates and the reports of a receiver. An
`int` is taken modulo 2^32; what is computed with floating-point numbers is a parameter, but for
the reduction by the loss, which is exact.

* `updateBandwidthEstimate_updates`, `updatePacketLoss_updates`: what each of the two may make of
  the bitrate;
* `onNetworkChanged_within`: an estimate that is not above the maximum is within the limits once
  the observers are told;
* `availableBandwidth_within`: runs.
-/

namespace PerchWebrtc.Bitrate

/-- A rate that is 8 % higher, and the rate of TCP-friendly rate control for a round-trip time and
a loss that are not zero. -/
structure FloatingPoint where
  increase : BitVec 32 → BitVec 32
  tfrc : BitVec 16 → BitVec 8 → BitVec 32

namespace SendSideBandwidthEstimation

def kBWEIncreaseIntervalMs : BitVec 32 := 1000
def kBWEDecreaseIntervalMs : BitVec 32 := 300
def kLimitNumPackets : Int := 20

variable (f : FloatingPoint) (e : SendSideBandwidthEstimation)

def availableBandwidth : Option (BitVec 32) := if e.bitrate = 0 then none else some e.bitrate

/-- The new bitrate with the loss and the round-trip time that were reported last, if it is
lower. -/
def updateBandwidthEstimate (bandwidth : BitVec 32) :
    Option (BitVec 32 × BitVec 8 × BitVec 16) × SendSideBandwidthEstimation :=
  let e := { e with bweIncoming := bandwidth }
  if e.bitrate = 0 then (none, e)
  else if 0 < e.bweIncoming ∧ e.bweIncoming < e.bitrate then
    (some (e.bweIncoming, e.lastFractionLoss, e.lastRoundTripTime), { e with bitrate := e.bweIncoming })
  else (none, e)

def calcTFRCbps (rtt : BitVec 16) (loss : BitVec 8) : BitVec 32 :=
  if rtt = 0 ∨ loss = 0 then 0 else f.tfrc rtt loss

/-- The rate that the loss and the last estimate of the receiver suggest. -/
def suggested (loss : BitVec 8) (rtt : BitVec 32) : BitVec 32 :=
  let newBitrate :=
    if 5 < loss ∧ loss ≤ 26 then e.bitrate
    else if 26 < loss then
      let reduced := BitVec.ofNat 32 (e.bitrate.toNat * (512 - loss.toNat) / 512)
      let tfrcBitrate := calcTFRCbps f (rtt.setWidth 16) loss
      if reduced < tfrcBitrate then tfrcBitrate else reduced
    else f.increase e.bitrate + 1000
  if 0 < e.bweIncoming ∧ e.bweIncoming < newBitrate then e.bweIncoming else newBitrate

/-- The limits that are configured, the lower one last. -/
def limit (newBitrate : BitVec 32) : BitVec 32 :=
  let newBitrate := if e.maxBitrateConfigured < newBitrate then e.maxBitrateConfigured else newBitrate
  if newBitrate < e.minBitrateConfigured then e.minBitrateConfigured else newBitrate

def shapeSimple (loss : BitVec 8) (rtt nowMs : BitVec 32) :
    Option (BitVec 32) × SendSideBandwidthEstimation :=
  if loss ≤ 5 ∧ nowMs - e.timeLastIncrease < kBWEIncreaseIntervalMs then (none, e)
  else
    let e := if loss ≤ 5 then { e with timeLastIncrease := nowMs } else e
    if 26 < loss ∧ nowMs - e.timeLastDecrease < kBWEDecreaseIntervalMs + rtt then (none, e)
    else
      let e := if 26 < loss then { e with timeLastDecrease := nowMs } else e
      (some (e.limit (e.suggested f loss rtt)), e)

/-- The end of `UpdatePacketLoss`, with the loss to be reported. -/
def reportLoss (rtt nowMs : BitVec 32) (loss : BitVec 8) :
    Option (BitVec 8 × BitVec 32) × SendSideBandwidthEstimation :=
  let e := { e with lastFractionLoss := loss }
  match e.shapeSimple f loss rtt nowMs with
  | (none, e) => (none, e)
  | (some bitrate, e) => (some (loss, bitrate), { e with bitrate := bitrate })

/-- The loss that is reported and the new bitrate, if it is changed. -/
def updatePacketLoss (numberOfPackets rtt nowMs : BitVec 32) (loss : BitVec 8) :
    Option (BitVec 8 × BitVec 32) × SendSideBandwidthEstimation :=
  if e.bitrate = 0 then (none, e)
  else
    let e := { e with lastRoundTripTime := rtt.setWidth 16 }
    if 0 < numberOfPackets.toInt then
      let numLostPacketsQ8 := loss.setWidth 32 * numberOfPackets
      let e := { e with
        accumulateLostPacketsQ8 := e.accumulateLostPacketsQ8 + numLostPacketsQ8
        accumulateExpectedPackets := e.accumulateExpectedPackets + numberOfPackets }
      if kLimitNumPackets ≤ e.accumulateExpectedPackets.toInt then
        let loss := (e.accumulateLostPacketsQ8.sdiv e.accumulateExpectedPackets).setWidth 8
        { e with
          accumulateLostPacketsQ8 := 0
          accumulateExpectedPackets := 0 }.reportLoss f rtt nowMs loss
      else (none, e)
    else e.reportLoss f rtt nowMs loss

/-! ## What becomes of the bitrate -/

variable {f e}

/-- The limits are kept, and the bitrate is, unless there is a new one; that has the property. -/
structure Updates (P : BitVec 32 → Prop) (e e' : SendSideBandwidthEstimation)
    (changed : Option (BitVec 32)) : Prop where
  minimum : e'.minBitrateConfigured = e.minBitrateConfigured
  maximum : e'.maxBitrateConfigured = e.maxBitrateConfigured
  bitrate : e'.bitrate = changed.getD e.bitrate
  changed : ∀ b, changed = some b → e.bitrate ≠ 0 ∧ P b

theorem updateBandwidthEstimate_updates (e : SendSideBandwidthEstimation) (bandwidth : BitVec 32) :
    Updates (· ≤ e.bitrate) e (e.updateBandwidthEstimate bandwidth).2
      ((e.updateBandwidthEstimate bandwidth).1.map (·.1)) := by
  rw [updateBandwidthEstimate]
  dsimp only
  by_cases hoff : e.bitrate = 0
  · rw [if_pos hoff]
    exact ⟨rfl, rfl, rfl, by simp⟩
  rw [if_neg hoff]
  by_cases hlower : 0 < bandwidth ∧ bandwidth < e.bitrate
  · rw [if_pos hlower]
    refine ⟨rfl, rfl, rfl, fun b hb => ?_⟩
    obtain rfl : bandwidth = b := Option.some.inj hb
    exact ⟨hoff, BitVec.le_of_lt hlower.2⟩
  · rw [if_neg hlower]
    exact ⟨rfl, rfl, rfl, by simp⟩

theorem shapeSimple_updates (loss : BitVec 8) (rtt nowMs : BitVec 32) :
    (e.shapeSimple f loss rtt nowMs).2.minBitrateConfigured = e.minBitrateConfigured ∧
      (e.shapeSimple f loss rtt nowMs).2.maxBitrateConfigured = e.maxBitrateConfigured ∧
      (e.shapeSimple f loss rtt nowMs).2.bitrate = e.bitrate ∧
      ∀ b, (e.shapeSimple f loss rtt nowMs).1 = some b → ∃ x, b = e.limit x := by
  -- The two times are noted; a limit only reads the limits.
  have hincrease : ∃ e', e' = (if loss ≤ 5 then { e with timeLastIncrease := nowMs } else e) ∧
      e'.minBitrateConfigured = e.minBitrateConfigured ∧
      e'.maxBitrateConfigured = e.maxBitrateConfigured ∧ e'.bitrate = e.bitrate :=
    ⟨_, rfl, by split_ifs <;> exact ⟨rfl, rfl, rfl⟩⟩
  obtain ⟨e', he', hmin, hmax, hbitrate⟩ := hincrease
  have hlimit : ∀ x, e'.limit x = e.limit x := fun x => by rw [limit, limit, hmin, hmax]
  rw [shapeSimple]
  by_cases hsoon : loss ≤ 5 ∧ nowMs - e.timeLastIncrease < kBWEIncreaseIntervalMs
  · rw [if_pos hsoon]
    exact ⟨rfl, rfl, rfl, by simp⟩
  rw [if_neg hsoon, ← he']
  dsimp only
  by_cases hagain : 26 < loss ∧ nowMs - e'.timeLastDecrease < kBWEDecreaseIntervalMs + rtt
  · rw [if_pos hagain]
    exact ⟨hmin, hmax, hbitrate, by simp⟩
  rw [if_neg hagain]
  by_cases hhigh : 26 < loss
  · rw [if_pos hhigh]
    refine ⟨hmin, hmax, hbitrate, fun b hb => ⟨_, (Option.some.inj hb).symm.trans (hlimit _)⟩⟩
  · rw [if_neg hhigh]
    refine ⟨hmin, hmax, hbitrate, fun b hb => ⟨_, (Option.some.inj hb).symm.trans (hlimit _)⟩⟩

theorem reportLoss_updates (hon : e.bitrate ≠ 0) (rtt nowMs : BitVec 32) (loss : BitVec 8) :
    Updates (fun b => ∃ x, b = e.limit x) e (e.reportLoss f rtt nowMs loss).2
      ((e.reportLoss f rtt nowMs loss).1.map (·.2)) := by
  obtain ⟨hmin, hmax, hbitrate, hlimit⟩ :=
    shapeSimple_updates (f := f) (e := { e with lastFractionLoss := loss }) loss rtt nowMs
  rw [reportLoss]
  generalize shapeSimple f { e with lastFractionLoss := loss } loss rtt nowMs = r at *
  obtain ⟨new, e'⟩ := r
  cases new with
  | none => exact ⟨hmin, hmax, hbitrate, by simp⟩
  | some b =>
    refine ⟨hmin, hmax, rfl, fun b' hb' => ?_⟩
    obtain rfl : b = b' := Option.some.inj hb'
    exact ⟨hon, hlimit b rfl⟩

theorem updatePacketLoss_updates (f : FloatingPoint) (e : SendSideBandwidthEstimation)
    (numberOfPackets rtt nowMs : BitVec 32) (loss : BitVec 8) :
    Updates (fun b => ∃ x, b = e.limit x) e
      (e.updatePacketLoss f numberOfPackets rtt nowMs loss).2
      ((e.updatePacketLoss f numberOfPackets rtt nowMs loss).1.map (·.2)) := by
  have hnone : ∀ e' : SendSideBandwidthEstimation,
      e'.minBitrateConfigured = e.minBitrateConfigured →
      e'.maxBitrateConfigured = e.maxBitrateConfigured → e'.bitrate = e.bitrate →
      Updates (fun b => ∃ x, b = e.limit x) e e' none :=
    fun e' hmin hmax hbitrate => ⟨hmin, hmax, hbitrate, by simp⟩
  have hreport : ∀ (e' : SendSideBandwidthEstimation) (loss : BitVec 8),
      e'.minBitrateConfigured = e.minBitrateConfigured →
      e'.maxBitrateConfigured = e.maxBitrateConfigured → e'.bitrate = e.bitrate →
      e.bitrate ≠ 0 →
      Updates (fun b => ∃ x, b = e.limit x) e (e'.reportLoss f rtt nowMs loss).2
        ((e'.reportLoss f rtt nowMs loss).1.map (·.2)) := by
    intro e' loss hmin hmax hbitrate hon
    have h := reportLoss_updates (f := f) (e := e') (by rwa [hbitrate]) rtt nowMs loss
    refine ⟨h.minimum.trans hmin, h.maximum.trans hmax, ?_, fun b hb => ⟨hon, ?_⟩⟩
    · rw [h.bitrate, hbitrate]
    · obtain ⟨-, x, hx⟩ := h.changed b hb
      exact ⟨x, by rw [hx, limit, limit, hmin, hmax]⟩
  rw [updatePacketLoss]
  by_cases hoff : e.bitrate = 0
  · rw [if_pos hoff]
    exact hnone _ rfl rfl rfl
  rw [if_neg hoff]
  dsimp only
  by_cases hsome : 0 < numberOfPackets.toInt
  · rw [if_pos hsome]
    split_ifs
    · exact hreport _ _ rfl rfl rfl hoff
    · exact hnone _ rfl rfl rfl
  · rw [if_neg hsome]
    exact hreport _ _ rfl rfl rfl hoff

/-- The lower limit is the last one. -/
theorem limit_le (e : SendSideBandwidthEstimation) (x : BitVec 32) :
    e.limit x ≤ e.maxBitrateConfigured ∨ e.limit x = e.minBitrateConfigured := by
  rw [limit]
  split_ifs with hmax hmin hmin
  · exact .inr rfl
  · exact .inl (BitVec.le_refl _)
  · exact .inr rfl
  · exact .inl (BitVec.not_lt.mp hmax)

end SendSideBandwidthEstimation

namespace BitrateControllerImpl

variable {ω : Type*} (f : FloatingPoint) (c : BitrateControllerImpl ω)

def onReceivedEstimatedBitrate (bitrate : BitVec 32) :
    List (Notification ω) × BitrateControllerImpl ω :=
  match c.bandwidthEstimation.updateBandwidthEstimate bitrate with
  | (none, e) => ([], { c with bandwidthEstimation := e })
  | (some (newBitrate, fractionLost, rtt), e) =>
    { c with bandwidthEstimation := e }.onNetworkChanged newBitrate fractionLost (rtt.setWidth 32)

def onReceivedRtcpReceiverReport (fractionLoss : BitVec 8) (rtt numberOfPackets nowMs : BitVec 32) :
    List (Notification ω) × BitrateControllerImpl ω :=
  match c.bandwidthEstimation.updatePacketLoss f numberOfPackets rtt nowMs fractionLoss with
  | (none, e) => ([], { c with bandwidthEstimation := e })
  | (some (loss, newBitrate), e) =>
    { c with bandwidthEstimation := e }.onNetworkChanged newBitrate loss rtt

/-! ## The limits -/

/-- The maxima of the observers, in exact arithmetic; without one, it is 1 Gbit/s. -/
def exactMaxima : Nat :=
  let sum := (c.bitrateObservers.map (·.2.maxBitrate.toNat)).sum
  if sum = 0 then 1000000000 else sum

/-- The bandwidth that is available is between the sums of the limits. -/
def Within : Prop :=
  ∀ b, c.bandwidthEstimation.availableBandwidth = some b →
    c.exactMinima ≤ b.toNat ∧ b.toNat ≤ c.exactMaxima

/-- The limits are those of the observers, of which there is one, and in order. -/
structure Configured : Prop where
  observers : BitVec.ofNat 32 c.bitrateObservers.length ≠ 0
  fits : c.exactMinima < 2 ^ 32
  ordered : c.exactMinima ≤ c.exactMaxima
  minimum : c.bandwidthEstimation.minBitrateConfigured = c.sumMinBitrates
  maximum : c.bandwidthEstimation.maxBitrateConfigured.toNat ≤ c.exactMaxima

variable {f c}

theorem within_of_range (hlow : c.exactMinima ≤ c.bandwidthEstimation.bitrate.toNat)
    (hhigh : c.bandwidthEstimation.bitrate.toNat ≤ c.exactMaxima) : c.Within := by
  intro b hb
  rw [SendSideBandwidthEstimation.availableBandwidth] at hb
  split_ifs at hb
  obtain rfl : c.bandwidthEstimation.bitrate = b := Option.some.inj hb
  exact ⟨hlow, hhigh⟩

/-- An estimate with the same limits. -/
theorem Configured.estimation {P : BitVec 32 → Prop} {e : SendSideBandwidthEstimation}
    {changed : Option (BitVec 32)} (hc : c.Configured)
    (h : SendSideBandwidthEstimation.Updates P c.bandwidthEstimation e changed) :
    ({ c with bandwidthEstimation := e } : BitrateControllerImpl ω).Configured :=
  ⟨hc.observers, hc.fits, hc.ordered, h.minimum.trans hc.minimum,
    (congrArg BitVec.toNat h.maximum).trans_le hc.maximum⟩

/-- An estimate with the same bitrate. -/
theorem Within.estimation {e : SendSideBandwidthEstimation} (hc : c.Within)
    (h : e.bitrate = c.bandwidthEstimation.bitrate) :
    ({ c with bandwidthEstimation := e } : BitrateControllerImpl ω).Within := by
  intro b hb
  refine hc b ?_
  rwa [SendSideBandwidthEstimation.availableBandwidth, ← h]

/-- The bitrate is that of an estimate that is on. -/
theorem Within.le_exactMaxima (hc : c.Within) (hon : c.bandwidthEstimation.bitrate ≠ 0) :
    c.bandwidthEstimation.bitrate.toNat ≤ c.exactMaxima :=
  (hc _ (if_neg hon)).2

theorem onNetworkChanged_configured (hc : c.Configured) (bitrate : BitVec 32)
    (fractionLoss : BitVec 8) (rtt : BitVec 32) :
    (c.onNetworkChanged bitrate fractionLoss rtt).2.Configured := by
  rw [onNetworkChanged]
  dsimp only
  split_ifs
  · exact ⟨hc.observers, hc.fits, hc.ordered, hc.minimum, hc.maximum⟩
  · exact hc

/-- The sum of the minima replaces what is below it. -/
theorem onNetworkChanged_within (hc : c.Configured)
    (hhigh : c.bandwidthEstimation.bitrate.toNat ≤ c.exactMaxima) (fractionLoss : BitVec 8)
    (rtt : BitVec 32) :
    (c.onNetworkChanged c.bandwidthEstimation.bitrate fractionLoss rtt).2.Within := by
  have hminima : c.sumMinBitrates.toNat = c.exactMinima := sumMinBitrates_toNat hc.fits
  rw [onNetworkChanged]
  dsimp only
  by_cases hlow : c.bandwidthEstimation.bitrate ≤ c.sumMinBitrates
  · rw [if_pos ⟨hc.observers, hlow⟩]
    exact within_of_range hminima.ge (hminima.trans_le hc.ordered)
  · rw [if_neg fun h => hlow h.2]
    have hmore : c.sumMinBitrates.toNat < c.bandwidthEstimation.bitrate.toNat :=
      BitVec.not_le.mp hlow
    exact within_of_range (by omega) hhigh

/-- The sum of the maxima that is configured, which may wrap around, is no more than the exact
one. -/
theorem configuredMaximum_le (observers : List (ω × BitrateConfiguration)) :
    (if (observers.map (·.2.maxBitrate)).sum = 0 then (1000000000 : BitVec 32)
      else (observers.map (·.2.maxBitrate)).sum).toNat ≤
        if (observers.map (·.2.maxBitrate.toNat)).sum = 0 then 1000000000
        else (observers.map (·.2.maxBitrate.toNat)).sum := by
  have hmap : (observers.map (·.2.maxBitrate)).map BitVec.toNat =
      observers.map (·.2.maxBitrate.toNat) := by simp
  have hsum := toNat_sum_mod (observers.map (·.2.maxBitrate))
  rw [hmap] at hsum
  by_cases hnone : (observers.map (·.2.maxBitrate)).sum = 0
  · rw [hnone] at hsum
    have hwrapped : (observers.map (·.2.maxBitrate.toNat)).sum % 2 ^ 32 = 0 := hsum.symm
    rw [if_pos hnone]
    show 1000000000 ≤ _
    split_ifs <;> omega
  · have hsome : (observers.map (·.2.maxBitrate.toNat)).sum ≠ 0 := fun hzero =>
      hnone (BitVec.eq_of_toNat_eq (by rw [hsum, hzero]; rfl))
    rw [if_neg hnone, if_neg hsome, hsum]
    exact Nat.mod_le _ _

theorem setBitrateObserver_configured [DecidableEq ω] (c : BitrateControllerImpl ω) (observer : ω)
    (startBitrate minBitrate maxBitrate : BitVec 32)
    (hcount : (c.setBitrateObserver observer startBitrate minBitrate
      maxBitrate).bitrateObservers.length < 2 ^ 32)
    (hfits : (c.setBitrateObserver observer startBitrate minBitrate maxBitrate).exactMinima < 2 ^ 32)
    (hordered : (c.setBitrateObserver observer startBitrate minBitrate maxBitrate).exactMinima ≤
      (c.setBitrateObserver observer startBitrate minBitrate maxBitrate).exactMaxima) :
    (c.setBitrateObserver observer startBitrate minBitrate maxBitrate).Configured := by
  refine ⟨fun h => ?_, hfits, hordered, rfl, ?_⟩
  · have hlength : (c.setBitrateObserver observer startBitrate minBitrate
        maxBitrate).bitrateObservers.length % 2 ^ 32 = 0 := congrArg BitVec.toNat h
    rw [Nat.mod_eq_of_lt hcount, List.length_eq_zero_iff] at hlength
    have hmem : observer ∈ (c.setBitrateObserver observer startBitrate minBitrate
        maxBitrate).bitrateObservers.map Prod.fst :=
      List.mem_map.mpr ⟨_, mem_replaceObserver _ _ _, rfl⟩
    rw [hlength] at hmem
    exact absurd hmem List.not_mem_nil
  · exact configuredMaximum_le _

end BitrateControllerImpl

/-! ## Events -/

/-- The controller, and what `RtcpBandwidthObserverImpl` keeps. -/
structure Session (ω : Type*) where
  controller : BitrateControllerImpl ω
  ssrcToLastReceivedExtendedHighSeqNum : BitVec 32 → Option (BitVec 32) := fun _ => none

inductive Event where
  | receivedEstimatedBitrate (bitrate : BitVec 32)
  | receivedRtcpReceiverReport (ssrc : BitVec 32) (fractionLoss : BitVec 8)
    (rtt lastReceivedExtendedHighSeqNum nowMs : BitVec 32)

namespace Session

variable {ω : Type*} (f : FloatingPoint)

/-- The packets between two reports on one source. -/
def numberOfPackets (s : Session ω) (ssrc lastReceivedExtendedHighSeqNum : BitVec 32) : BitVec 32 :=
  match s.ssrcToLastReceivedExtendedHighSeqNum ssrc with
  | none => 0
  | some last => lastReceivedExtendedHighSeqNum - last

def step (s : Session ω) : Event → Session ω
  | .receivedEstimatedBitrate bitrate =>
    { s with controller := (s.controller.onReceivedEstimatedBitrate bitrate).2 }
  | .receivedRtcpReceiverReport ssrc fractionLoss rtt lastReceivedExtendedHighSeqNum nowMs =>
    { controller := (s.controller.onReceivedRtcpReceiverReport f fractionLoss rtt
        (s.numberOfPackets ssrc lastReceivedExtendedHighSeqNum) nowMs).2
      ssrcToLastReceivedExtendedHighSeqNum :=
        Function.update s.ssrcToLastReceivedExtendedHighSeqNum ssrc
          (some lastReceivedExtendedHighSeqNum) }

/-- A report that changes the estimate. -/
def Changes (s : Session ω) : Event → Prop
  | .receivedEstimatedBitrate _ => False
  | .receivedRtcpReceiverReport ssrc fractionLoss rtt lastReceivedExtendedHighSeqNum nowMs =>
    (s.controller.bandwidthEstimation.updatePacketLoss f
      (s.numberOfPackets ssrc lastReceivedExtendedHighSeqNum) rtt nowMs fractionLoss).1.isSome

variable {f} {s : Session ω}

/-- One event: the limits stay, the estimate stays within them, and a report that changes it
brings it there. -/
theorem step_configured (hs : s.controller.Configured) (e : Event) :
    (step f s e).controller.Configured ∧
      (s.controller.Within ∨ Changes f s e → (step f s e).controller.Within) := by
  cases e with
  | receivedEstimatedBitrate bitrate =>
    have h := s.controller.bandwidthEstimation.updateBandwidthEstimate_updates bitrate
    have hconfigured := hs.estimation h
    rw [step, BitrateControllerImpl.onReceivedEstimatedBitrate]
    generalize s.controller.bandwidthEstimation.updateBandwidthEstimate bitrate = r at h hconfigured
    obtain ⟨_ | ⟨b, loss, rtt⟩, e⟩ := r
    · refine ⟨hconfigured, fun hwithin => ?_⟩
      exact (hwithin.resolve_right id).estimation h.bitrate
    · obtain rfl : e.bitrate = b := h.bitrate
      obtain ⟨hon, hlower⟩ := h.changed _ rfl
      refine ⟨BitrateControllerImpl.onNetworkChanged_configured hconfigured e.bitrate loss
          (rtt.setWidth 32), fun hwithin =>
        BitrateControllerImpl.onNetworkChanged_within hconfigured ?_ loss (rtt.setWidth 32)⟩
      exact Nat.le_trans hlower ((hwithin.resolve_right id).le_exactMaxima hon)
  | receivedRtcpReceiverReport ssrc fractionLoss rtt last nowMs =>
    have h := s.controller.bandwidthEstimation.updatePacketLoss_updates f
      (s.numberOfPackets ssrc last) rtt nowMs fractionLoss
    have hconfigured := hs.estimation h
    rw [step, BitrateControllerImpl.onReceivedRtcpReceiverReport, Changes]
    generalize s.controller.bandwidthEstimation.updatePacketLoss f (s.numberOfPackets ssrc last)
      rtt nowMs fractionLoss = r at h hconfigured
    obtain ⟨_ | ⟨loss, b⟩, e⟩ := r
    · refine ⟨hconfigured, fun hwithin => ?_⟩
      exact (hwithin.resolve_right (by simp)).estimation h.bitrate
    · obtain rfl : e.bitrate = b := h.bitrate
      obtain ⟨x, hx⟩ : ∃ x, e.bitrate = s.controller.bandwidthEstimation.limit x :=
        (h.changed _ rfl).2
      refine ⟨BitrateControllerImpl.onNetworkChanged_configured hconfigured e.bitrate loss rtt,
        fun _ => BitrateControllerImpl.onNetworkChanged_within hconfigured ?_ loss rtt⟩
      show e.bitrate.toNat ≤ s.controller.exactMaxima
      rw [hx]
      rcases s.controller.bandwidthEstimation.limit_le x with hle | heq
      · exact Nat.le_trans hle hs.maximum
      · rw [heq, hs.minimum, BitrateControllerImpl.sumMinBitrates_toNat hs.fits]
        exact hs.ordered

/-- From a state with the limits of the observers, an estimate within them stays there, and one
that is not is brought there by the first report that changes it. -/
theorem always_within {events : List Event} (hs : s.controller.Configured)
    (hwithin : s.controller.Within) :
    Machine.Always (step f) (fun s => s.controller.Within) s events := by
  refine Machine.Always.imp (fun _ h => h.2) (Machine.always_of_along
    (I := fun s => s.controller.Configured ∧ s.controller.Within) (P := fun _ _ => True)
    (fun s e hs _ => ?_) ⟨hs, hwithin⟩ (Machine.along_of_forall (fun _ _ => trivial) _ _))
  obtain ⟨hconfigured, hnext⟩ := step_configured (f := f) hs.1 e
  exact ⟨hconfigured, hnext (.inl hs.2)⟩

theorem run_configured (events : List Event) (hs : s.controller.Configured) :
    (Machine.run (step f) s events).controller.Configured := by
  induction events generalizing s with
  | nil => exact hs
  | cons e events ih => exact ih (step_configured hs e).1

end Session

/-- Any observers, as a call of `SetBitrateObserver` leaves them, and any events. -/
theorem availableBandwidth_within {ω : Type*} [DecidableEq ω] (f : FloatingPoint)
    (previous : BitrateControllerImpl ω) (observer : ω)
    (startBitrate minBitrate maxBitrate : BitVec 32) :
    let s : Session ω :=
      { controller := previous.setBitrateObserver observer startBitrate minBitrate maxBitrate }
    s.controller.bitrateObservers.length < 2 ^ 32 → s.controller.exactMinima < 2 ^ 32 →
      s.controller.exactMinima ≤ s.controller.exactMaxima →
      (s.controller.Within → ∀ events,
        Machine.Always (Session.step f) (fun s => s.controller.Within) s events) ∧
      ∀ before e after, (Machine.run (Session.step f) s before).Changes f e →
        Machine.Always (Session.step f) (fun s => s.controller.Within)
          (Session.step f (Machine.run (Session.step f) s before) e) after := by
  intro s hcount hfits hordered
  have hs : s.controller.Configured := BitrateControllerImpl.setBitrateObserver_configured previous
    observer startBitrate minBitrate maxBitrate hcount hfits hordered
  refine ⟨fun hwithin events => Session.always_within hs hwithin, fun before e after h => ?_⟩
  obtain ⟨hconfigured, hnext⟩ :=
    Session.step_configured (Session.run_configured (f := f) before hs) e
  exact Session.always_within hconfigured (hnext (.inr h))

/-- Rates that are not reduced, in exact arithmetic. -/
def exactIncrease : FloatingPoint where
  increase bitrate := BitVec.ofNat 32 ((bitrate.toNat * 108 + 50) / 100)
  tfrc _ _ := 0

/-- One observer, its first report and one after a second. -/
theorem availableBandwidth_within_one :
    let s : Session Nat :=
      { controller := ({} : BitrateControllerImpl Nat).setBitrateObserver 1 200000 100000 300000 }
    let events : List Event :=
      [.receivedEstimatedBitrate 400000, .receivedRtcpReceiverReport 1 0 50 1 1,
        .receivedRtcpReceiverReport 1 0 50 21 1001]
    Machine.Always (Session.step exactIncrease) (fun s => s.controller.Within) s events ∧
      (Machine.run (Session.step exactIncrease) s
        events).controller.bandwidthEstimation.availableBandwidth = some 217000 := by
  intro s events
  refine ⟨(availableBandwidth_within exactIncrease {} 1 200000 100000 300000 (by decide) (by decide)
    (by decide)).1 (BitrateControllerImpl.within_of_range (by decide) (by decide)) events, ?_⟩
  decide +kernel

/-- A second observer leaves the start bitrate, which is below the sum of the minima, and the
first report does not change it. Minima of which the sum is 2^32 are above every bitrate. -/
theorem availableBandwidth_not_within :
    (let s : Session Nat :=
      { controller := (({} : BitrateControllerImpl Nat).setBitrateObserver 2 200000 200000
          300000).setBitrateObserver 1 200000 100000 300000 }
    let s' := Machine.run (Session.step exactIncrease) s [.receivedRtcpReceiverReport 1 0 50 1 1]
    s'.controller.bandwidthEstimation.availableBandwidth = some 200000 ∧
      s'.controller.exactMinima = 300000) ∧
    (let s : Session Nat :=
      { controller := (({} : BitrateControllerImpl Nat).setBitrateObserver 2 200000 2147483648
          2147483648).setBitrateObserver 1 200000 2147483648 2147483648 }
    let s' := Machine.run (Session.step exactIncrease) s
      [.receivedRtcpReceiverReport 1 0 50 1 1, .receivedRtcpReceiverReport 1 0 50 21 1001]
    s'.controller.bandwidthEstimation.availableBandwidth = some 217000 ∧
      s'.controller.exactMinima = 4294967296) := by
  decide +kernel

end PerchWebrtc.Bitrate
