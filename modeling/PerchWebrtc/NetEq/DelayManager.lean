import PerchWebrtc.Framework.Machine
import PerchWebrtc.NetEq.Packet

/-!
# The delay manager

`DelayManager` and `DelayPeakDetector`: a histogram of inter-arrival times in Q30, which
forgets at a rate in Q15, and the level of the buffer that it asks for, in Q8.

* `updateHistogram_balanced`: an update keeps the entries non-negative and their sum 1;
* `limitTargetLevel_bounds`: what a level that was computed is between;
* `always_balanced`: both, after any calls.
-/

namespace PerchWebrtc.NetEq

structure Peak where
  periodMs : Int
  peakHeightPackets : Int

structure DelayPeakDetector where
  peakHistory : List Peak := []
  peakFound : Bool := false
  peakDetectionThreshold : Int := 0
  peakPeriodCounterMs : Int := -1

namespace DelayPeakDetector

def kMaxNumPeaks : Nat := 8
def kMinPeaksToTrigger : Nat := 2
def kPeakHeightMs : Int := 78
def kMaxPeakPeriodMs : Int := 10000

def reset (d : DelayPeakDetector) : DelayPeakDetector :=
  { d with peakPeriodCounterMs := -1, peakFound := false, peakHistory := [] }

def setPacketAudioLength (d : DelayPeakDetector) (lengthMs : Int) : DelayPeakDetector :=
  if lengthMs > 0 then { d with peakDetectionThreshold := kPeakHeightMs.tdiv lengthMs } else d

/-- −1 for an empty history. -/
def maxPeakHeight (d : DelayPeakDetector) : Int :=
  d.peakHistory.foldl (fun m peak => max m peak.peakHeightPackets) (-1)

def maxPeakPeriod (d : DelayPeakDetector) : Int :=
  d.peakHistory.foldl (fun m peak => max m peak.periodMs) (-1)

def checkPeakConditions (d : DelayPeakDetector) : DelayPeakDetector :=
  { d with peakFound := decide (d.peakHistory.length ≥ kMinPeaksToTrigger ∧
      d.peakPeriodCounterMs ≤ 2 * d.maxPeakPeriod) }

def update (d : DelayPeakDetector) (interArrivalTime targetLevel : Int) : DelayPeakDetector :=
  checkPeakConditions <|
    if interArrivalTime > targetLevel + d.peakDetectionThreshold ∨
        interArrivalTime > 2 * targetLevel then
      if d.peakPeriodCounterMs = -1 then { d with peakPeriodCounterMs := 0 }
      else if d.peakPeriodCounterMs ≤ kMaxPeakPeriodMs then
        let history := d.peakHistory ++ [⟨d.peakPeriodCounterMs, interArrivalTime⟩]
        { d with
          peakHistory := history.drop (history.length - kMaxNumPeaks)
          peakPeriodCounterMs := 0 }
      else if d.peakPeriodCounterMs ≤ 2 * kMaxPeakPeriodMs then { d with peakPeriodCounterMs := 0 }
      else d.reset
    else d

def incrementCounter (d : DelayPeakDetector) (incMs : Int) : DelayPeakDetector :=
  if d.peakPeriodCounterMs ≥ 0 then
    { d with peakPeriodCounterMs := int32 (d.peakPeriodCounterMs + incMs) }
  else d

end DelayPeakDetector

structure DelayManager where
  firstPacketReceived : Bool
  /-- The capacity of the packet buffer. -/
  maxPacketsInBuffer : Nat
  iatVector : List Int
  iatFactor : Int
  packetIatCountMs : Int
  baseTargetLevel : Int
  targetLevel : Int
  packetLenMs : Int
  streamingMode : Bool
  lastSeqNo : BitVec 16
  lastTimestamp : BitVec 32
  minimumDelayMs : Int
  leastRequiredDelayMs : Int
  maximumDelayMs : Int
  iatCumulativeSum : Int
  maxIatCumulativeSum : Int
  maxTimerMs : Int
  peakDetector : DelayPeakDetector
  lastPackCngOrDtmf : Int

namespace DelayManager

def kLimitProbability : Int := 53687091
def kLimitProbabilityStreaming : Int := 536871
def kMaxStreamingPeakPeriodMs : Int := 600000
def kCumulativeSumDrift : Int := 2
def kIatFactor : Int := 32745
def kMaxIat : Nat := 64

/-- The entries `temp_prob << 16`, where `temp_prob` is halved before each. -/
def startDistribution : Nat → Nat → List Int
  | 0, _ => []
  | n + 1, tempProb => ((tempProb / 2 * 2 ^ 16 : Nat) : Int) :: startDistribution n (tempProb / 2)

def resetHistogram (m : DelayManager) : DelayManager :=
  { m with
    iatVector := startDistribution (kMaxIat + 1) 0x4002
    baseTargetLevel := 4
    targetLevel := 4 * 2 ^ 8 }

def reset (m : DelayManager) : DelayManager :=
  { resetHistogram { m with
      packetLenMs := 0
      streamingMode := false
      peakDetector := m.peakDetector.reset } with
    iatFactor := 0
    packetIatCountMs := 0
    maxTimerMs := 0
    iatCumulativeSum := 0
    maxIatCumulativeSum := 0
    lastPackCngOrDtmf := 1 }

def create (maxPacketsInBuffer : Nat) (peakDetector : DelayPeakDetector) : DelayManager :=
  reset
    { firstPacketReceived := false
      maxPacketsInBuffer
      iatVector := List.replicate (kMaxIat + 1) 0
      iatFactor := 0
      packetIatCountMs := 0
      baseTargetLevel := 4
      targetLevel := 4 * 2 ^ 8
      packetLenMs := 0
      streamingMode := false
      lastSeqNo := 0
      lastTimestamp := 0
      minimumDelayMs := 0
      leastRequiredDelayMs := 4 * 2 ^ 8
      maximumDelayMs := 4 * 2 ^ 8
      iatCumulativeSum := 0
      maxIatCumulativeSum := 0
      maxTimerMs := 0
      peakDetector
      lastPackCngOrDtmf := 1 }

def updateCumulativeSums (m : DelayManager) (packetLenMs : Int) (sequenceNumber : BitVec 16) :
    DelayManager :=
  let iatPacketsQ8 := (int32 (m.packetIatCountMs * 2 ^ 8)).tdiv packetLenMs
  let gap := ((sequenceNumber.toNat : Int) - m.lastSeqNo.toNat) * 2 ^ 8
  let sum := int32 (m.iatCumulativeSum + int32 (iatPacketsQ8 - gap))
  let sum := max (int32 (sum - kCumulativeSumDrift)) 0
  let m := { m with iatCumulativeSum := sum }
  let m := if sum > m.maxIatCumulativeSum then { m with maxIatCumulativeSum := sum, maxTimerMs := 0 }
    else m
  if m.maxTimerMs > kMaxStreamingPeakPeriodMs then
    { m with maxIatCumulativeSum := int32 (m.maxIatCumulativeSum - kCumulativeSumDrift) }
  else m

/-- Every entry multiplied by the forgetting factor. -/
def forget (factor : Int) (v : List Int) : List Int := v.map fun x => int32 ((x * factor) >>> (15 : Nat))

/-- `vector_sum`, added up entry by entry. -/
def vectorSum (v : List Int) : Int := v.foldl (fun sum x => int32 (sum + x)) 0

/-- A 16th of an entry, but not more than `vector_sum`, is added to or taken from one
entry after the other, until the sum is right. -/
def correct (flipSign : Int) : List Int → Int → List Int × Int
  | [], sum => ([], sum)
  | x :: v, sum =>
    if sum.natAbs > 0 then
      let correction := flipSign * min (sum.natAbs : Int) (x >>> (4 : Nat))
      let rest := correct flipSign v (sum + correction)
      ((x + correction) :: rest.1, rest.2)
    else (x :: v, sum)

/-- `none` if one of its assertions fails. -/
def updateHistogram (m : DelayManager) (iatPackets : Int) : Option DelayManager :=
  if 0 ≤ iatPackets ∧ iatPackets < m.iatVector.length then
    let v := forget m.iatFactor m.iatVector
    let seen := (32768 - m.iatFactor) * 2 ^ 15
    let sum := int32 (int32 (vectorSum v + seen) - 2 ^ 30)
    let v := v.set iatPackets.toNat (int32 (v.getD iatPackets.toNat 0 + seen))
    let corrected := if sum ≠ 0 then correct (if sum > 0 then -1 else 1) v sum else (v, sum)
    if corrected.2 = 0 then
      some { m with
        iatVector := corrected.1
        iatFactor := m.iatFactor + (kIatFactor - m.iatFactor + 3) >>> (2 : Nat) }
    else none
  else none

/-- The loop of `CalculateTargetLevel` from the entries after `index` on. -/
def searchLevel (limitProbability : Int) : List Int → Nat → Int → Nat
  | [], index, _ => index
  | x :: v, index, sum =>
    let sum := int32 (sum - x)
    if sum > limitProbability ∧ v ≠ [] then searchLevel limitProbability v (index + 1) sum
    else index + 1

def calculateTargetLevel (m : DelayManager) (iatPackets : Int) : DelayManager :=
  let limitProbability := if m.streamingMode then kLimitProbabilityStreaming else kLimitProbability
  let index : Int := searchLevel limitProbability m.iatVector.tail 0
    (2 ^ 30 - m.iatVector.headD 0)
  let peakDetector := m.peakDetector.update iatPackets index
  let targetLevel := if peakDetector.peakFound then max index peakDetector.maxPeakHeight else index
  { m with
    baseTargetLevel := index
    peakDetector
    targetLevel := int32 (max targetLevel 1 * 2 ^ 8) }

def limitTargetLevel (m : DelayManager) : DelayManager :=
  let level := m.targetLevel
  let level := if m.packetLenMs > 0 ∧ m.minimumDelayMs > 0 then
      max level ((int32 (m.minimumDelayMs * 2 ^ 8)).tdiv m.packetLenMs)
    else level
  let level := if m.maximumDelayMs > 0 ∧ m.packetLenMs > 0 then
      min level ((int32 (m.maximumDelayMs * 2 ^ 8)).tdiv m.packetLenMs)
    else level
  let maxBufferPacketsQ8 := (int32 (3 * int32 (m.maxPacketsInBuffer * 2 ^ 8))).tdiv 4
  { m with
    leastRequiredDelayMs := int32 (m.targetLevel * m.packetLenMs) >>> (8 : Nat)
    targetLevel := max (min level maxBufferPacketsQ8) (2 ^ 8) }

/-- The packet length of `Update`, from the timestamps if it can. -/
def measuredLenMs (m : DelayManager) (sequenceNumber : BitVec 16) (timestamp : BitVec 32)
    (sampleRateHz : Int) : Int :=
  if timestamp ≤ m.lastTimestamp ∨ sequenceNumber ≤ m.lastSeqNo then m.packetLenMs
  else
    let packetLenSamp := int32 ((timestamp - m.lastTimestamp).toNat /
      (sequenceNumber - m.lastSeqNo).toNat : Nat)
    (int32 (1000 * packetLenSamp)).tdiv sampleRateHz

/-- The inter-arrival time of `Update` in packets, compensated for a gap and for reordering. -/
def iatPackets (m : DelayManager) (packetLenMs : Int) (sequenceNumber : BitVec 16) : Int :=
  let iatPackets := m.packetIatCountMs.tdiv packetLenMs
  let number : Int := sequenceNumber.toNat
  let last : Int := m.lastSeqNo.toNat
  min
    (if number > last + 1 then max (int32 (iatPackets - (number - last - 1))) 0
    else if number < last then int32 (iatPackets + (last + 1 - number))
    else iatPackets) kMaxIat

/-- `none` if an assertion fails. -/
def update (m : DelayManager) (sequenceNumber : BitVec 16) (timestamp : BitVec 32)
    (sampleRateHz : Int) : Option (Int × DelayManager) := do
  if sampleRateHz ≤ 0 then
    return (-1, m)
  if m.firstPacketReceived = false then
    return (0, { m with
      packetIatCountMs := 0
      lastSeqNo := sequenceNumber
      lastTimestamp := timestamp
      firstPacketReceived := true })
  let packetLenMs := m.measuredLenMs sequenceNumber timestamp sampleRateHz
  let m ← if packetLenMs > 0 then
      let iatPackets := m.iatPackets packetLenMs sequenceNumber
      let m := if m.streamingMode then m.updateCumulativeSums packetLenMs sequenceNumber else m
      (m.updateHistogram iatPackets).map fun m =>
        let m := m.calculateTargetLevel iatPackets
        limitTargetLevel { m with
          targetLevel := if m.streamingMode then max m.targetLevel m.maxIatCumulativeSum
            else m.targetLevel }
    else some m
  return (0, { m with
    packetIatCountMs := 0
    lastSeqNo := sequenceNumber
    lastTimestamp := timestamp })

def setPacketAudioLength (m : DelayManager) (lengthMs : Int) : Int × DelayManager :=
  if lengthMs ≤ 0 then (-1, m)
  else (0, { m with
    packetLenMs := lengthMs
    peakDetector := m.peakDetector.setPacketAudioLength lengthMs
    packetIatCountMs := 0
    lastPackCngOrDtmf := 1 })

def updateCounters (m : DelayManager) (elapsedTimeMs : Int) : DelayManager :=
  { m with
    packetIatCountMs := int32 (m.packetIatCountMs + elapsedTimeMs)
    peakDetector := m.peakDetector.incrementCounter elapsedTimeMs
    maxTimerMs := int32 (m.maxTimerMs + elapsedTimeMs) }

def resetPacketIatCount (m : DelayManager) : DelayManager := { m with packetIatCountMs := 0 }

def setMinimumDelay (m : DelayManager) (delayMs : Int) : Bool × DelayManager :=
  if (m.maximumDelayMs > 0 ∧ delayMs > m.maximumDelayMs) ∨ (m.packetLenMs > 0 ∧
      delayMs > (int32 (int32 (3 * m.maxPacketsInBuffer) * m.packetLenMs)).tdiv 4) then (false, m)
  else (true, { m with minimumDelayMs := delayMs })

def setMaximumDelay (m : DelayManager) (delayMs : Int) : Bool × DelayManager :=
  if delayMs = 0 then (true, { m with maximumDelayMs := 0 })
  else if delayMs < m.minimumDelayMs ∨ delayMs < m.packetLenMs then (false, m)
  else (true, { m with maximumDelayMs := delayMs })

def setStreamingMode (m : DelayManager) (value : Bool) : DelayManager :=
  { m with streamingMode := value }

/-! ## The histogram -/

theorem forget_length (factor : Int) (v : List Int) : (forget factor v).length = v.length := by
  simp [forget]

variable {v : List Int}

theorem entry_le_sum (hnonneg : ∀ x ∈ v, 0 ≤ x) {x : Int} (hx : x ∈ v) :
    x ≤ v.sum := List.single_le_sum hnonneg x hx

/-- An entry after forgetting, without the wrap-around. -/
theorem forget_entry {factor x : Int} (hfactor : 0 ≤ factor) (hone : factor ≤ 2 ^ 15)
    (hx : 0 ≤ x) (hbound : x ≤ 2 ^ 30) :
    int32 ((x * factor) >>> (15 : Nat)) = x * factor / 2 ^ 15 := by
  have hproduct : x * factor ≤ 2 ^ 30 * 2 ^ 15 := by nlinarith
  have hpositive : 0 ≤ x * factor := Int.mul_nonneg hx hfactor
  rw [Int.shiftRight_eq_div_pow]
  exact int32_of_fits (by omega) (by omega)

/-- Each entry loses less than 1 by the truncation. -/
theorem forget_sum {factor : Int} (hfactor : 0 ≤ factor) (hone : factor ≤ 2 ^ 15)
    (hv : ∀ x ∈ v, 0 ≤ x ∧ x ≤ 2 ^ 30) :
    (∀ x ∈ forget factor v, 0 ≤ x) ∧ 2 ^ 15 * (forget factor v).sum ≤ factor * v.sum ∧
      factor * v.sum ≤ 2 ^ 15 * (forget factor v).sum + (2 ^ 15 - 1) * v.length := by
  induction v with
  | nil => simp [forget]
  | cons x v ih =>
    obtain ⟨hnonneg, hlow, hhigh⟩ := ih fun y hy => hv y (List.mem_cons_of_mem x hy)
    obtain ⟨hx, hbound⟩ := hv x List.mem_cons_self
    have hentry := forget_entry hfactor hone hx hbound
    have hpositive : 0 ≤ x * factor := Int.mul_nonneg hx hfactor
    have hcons : forget factor (x :: v) = x * factor / 2 ^ 15 :: forget factor v := by
      show int32 ((x * factor) >>> (15 : Nat)) :: _ = _
      rw [hentry]
      rfl
    rw [hcons]
    refine ⟨?_, ?_, ?_⟩
    · intro y hy
      rcases List.mem_cons.mp hy with rfl | hy
      · omega
      · exact hnonneg y hy
    · simp only [List.sum_cons, Int.mul_add, Int.mul_comm factor x]
      omega
    · simp only [List.sum_cons, List.length_cons, Int.mul_add, Int.mul_comm factor x]
      push_cast
      omega

theorem vectorSum_eq (hnonneg : ∀ x ∈ v, 0 ≤ x) (hsum : v.sum < 2 ^ 31) : vectorSum v = v.sum := by
  suffices ∀ start : Int, 0 ≤ start → start + v.sum < 2 ^ 31 →
      v.foldl (fun sum x => int32 (sum + x)) start = start + v.sum by
    simpa [vectorSum] using this 0 (by decide) (by omega)
  clear hsum
  induction v with
  | nil => simp
  | cons x v ih =>
    intro start hstart hfits
    have hx := hnonneg x List.mem_cons_self
    have hrest : ∀ y ∈ v, 0 ≤ y := fun y hy => hnonneg y (List.mem_cons_of_mem x hy)
    have hv : 0 ≤ v.sum := List.sum_nonneg hrest
    rw [List.sum_cons] at hfits ⊢
    rw [List.foldl_cons, int32_of_fits (by omega) (by omega), ih hrest _ (by omega) (by omega)]
    omega

theorem sum_set_add (y : Int) : ∀ (v : List Int) (i : Nat), i < v.length →
    (v.set i (v.getD i 0 + y)).sum = v.sum + y
  | [], _, h => absurd h (Nat.not_lt_zero _)
  | x :: v, 0, _ => by
    simp only [List.set_cons_zero, List.getD_cons_zero, List.sum_cons]
    omega
  | x :: v, i + 1, h => by
    simp only [List.set_cons_succ, List.getD_cons_succ, List.sum_cons,
      sum_set_add y v i (Nat.lt_of_succ_lt_succ h)]
    omega

theorem set_nonneg (hnonneg : ∀ x ∈ v, 0 ≤ x) {y : Int} (hy : 0 ≤ y) (i : Nat) :
    ∀ x ∈ v.set i y, 0 ≤ x := by
  intro x hx
  rcases List.mem_or_eq_of_mem_set hx with hx | rfl
  · exact hnonneg x hx
  · exact hy

@[simp] theorem correct_zero (flipSign : Int) (v : List Int) : correct flipSign v 0 = (v, 0) := by
  cases v <;> rfl

/-- What is missing is added to the entries, and all of it where one of them is large enough. -/
theorem correct_of_missing (hnonneg : ∀ x ∈ v, 0 ≤ x) {sum : Int} (hsum : sum ≤ 0) :
    (correct 1 v sum).1.length = v.length ∧ (∀ x ∈ (correct 1 v sum).1, 0 ≤ x) ∧
      (correct 1 v sum).1.sum - v.sum = (correct 1 v sum).2 - sum ∧
      ((∃ x ∈ v, -sum ≤ x / 16) → (correct 1 v sum).2 = 0) := by
  induction v generalizing sum with
  | nil => simp [correct]
  | cons x v ih =>
    have hx := hnonneg x List.mem_cons_self
    have hrest : ∀ y ∈ v, 0 ≤ y := fun y hy => hnonneg y (List.mem_cons_of_mem x hy)
    rw [correct]
    by_cases hmissing : sum.natAbs > 0
    · rw [if_pos hmissing]
      have hsixteenth : x >>> (4 : Nat) = x / 16 := Int.shiftRight_eq_div_pow x 4
      have hadded : 0 ≤ 1 * min (sum.natAbs : Int) (x >>> (4 : Nat)) ∧
          1 * min (sum.natAbs : Int) (x >>> (4 : Nat)) ≤ -sum ∧
          (-sum ≤ x / 16 → 1 * min (sum.natAbs : Int) (x >>> (4 : Nat)) = -sum) := by omega
      generalize 1 * min (sum.natAbs : Int) (x >>> (4 : Nat)) = correction at hadded ⊢
      obtain ⟨hpositive, hbound, hfull⟩ := hadded
      obtain ⟨hlength, hpos, htotal, henough⟩ := ih hrest (show sum + correction ≤ 0 by omega)
      refine ⟨congrArg (· + 1) hlength, ?_, ?_, ?_⟩
      · intro y hy
        rcases List.mem_cons.mp hy with rfl | hy
        · omega
        · exact hpos y hy
      · simp only [List.sum_cons]
        omega
      · rintro ⟨y, hy, hlarge⟩
        rcases List.mem_cons.mp hy with rfl | hy
        · -- Everything is added here, and nothing is missing afterwards.
          rw [hfull hlarge]
          simp
        · exact henough ⟨y, hy, by omega⟩
    · rw [if_neg hmissing]
      have hzero : sum = 0 := by omega
      simpa [hzero] using ⟨hx, hrest⟩

/-- Some entry is large if the sum is. -/
theorem exists_large {bound : Int} (h : v.length * bound < v.sum) : ∃ x ∈ v, bound < x := by
  by_contra hnone
  have hsmall : ∀ x ∈ v, x ≤ bound := fun x hx => not_lt.mp fun hlarge => hnone ⟨x, hx, hlarge⟩
  have hsum := List.sum_le_card_nsmul v bound hsmall
  rw [nsmul_eq_mul] at hsum
  exact absurd h (not_lt.mpr hsum)

/-- A sum that misses 1 by the truncation of the entries is corrected. -/
theorem correct_sum (hnonneg : ∀ x ∈ v, 0 ≤ x) (hlength : v.length = 65) {sum : Int}
    (htotal : v.sum = 2 ^ 30 + sum) (hsum : sum ≤ 0) (hmissing : -65 ≤ sum) :
    let corrected := if sum ≠ 0 then correct (if sum > 0 then -1 else 1) v sum else (v, sum)
    corrected.2 = 0 ∧ corrected.1.length = 65 ∧ (∀ x ∈ corrected.1, 0 ≤ x) ∧
      corrected.1.sum = 2 ^ 30 := by
  have hchoice : (if sum ≠ 0 then correct (if sum > 0 then -1 else 1) v sum else (v, sum)) =
      correct 1 v sum := by
    by_cases hzero : sum = 0
    · simp [hzero]
    · rw [if_pos hzero, if_neg (by omega)]
  obtain ⟨hkept, hpositive, hadded, henough⟩ := correct_of_missing hnonneg hsum
  obtain ⟨x, hx, hlarge⟩ := exists_large (show (v.length : Int) * 2 ^ 20 < v.sum by
    rw [hlength]
    omega)
  have hdone := henough ⟨x, hx, by omega⟩
  rw [hchoice]
  exact ⟨hdone, hkept.trans hlength, hpositive, by omega⟩

/-- The factor grows towards its steady state. -/
theorem factor_grows {factor : Int} (hlow : 0 ≤ factor) (hhigh : factor ≤ kIatFactor) :
    0 < factor + (kIatFactor - factor + 3) >>> (2 : Nat) ∧
      factor + (kIatFactor - factor + 3) >>> (2 : Nat) ≤ kIatFactor := by
  unfold kIatFactor at *
  rw [Int.shiftRight_eq_div_pow]
  omega

/-- The histogram and the forgetting factor between the calls. -/
structure Balanced (m : DelayManager) : Prop where
  length : m.iatVector.length = kMaxIat + 1
  nonneg : ∀ x ∈ m.iatVector, 0 ≤ x
  sum : m.iatVector.sum = 2 ^ 30
  factor : 0 ≤ m.iatFactor ∧ m.iatFactor ≤ kIatFactor

variable {m : DelayManager}

theorem Balanced.congr {m' : DelayManager} (h : m.Balanced) (hvector : m'.iatVector = m.iatVector)
    (hfactor : m'.iatFactor = m.iatFactor) : m'.Balanced := by
  obtain ⟨hlength, hnonneg, hsum, hrange⟩ := h
  rw [← hvector] at hlength hnonneg hsum
  rw [← hfactor] at hrange
  exact ⟨hlength, hnonneg, hsum, hrange⟩

theorem updateHistogram_balanced (h : m.Balanced) {iatPackets : Int} (hlow : 0 ≤ iatPackets)
    (hhigh : iatPackets ≤ kMaxIat) :
    ∃ v factor, m.updateHistogram iatPackets =
        some { m with iatVector := v, iatFactor := factor } ∧
      ({ m with iatVector := v, iatFactor := factor } : DelayManager).Balanced ∧ 0 < factor := by
  obtain ⟨hlength, hnonneg, hsum, hfactor⟩ := h
  have hgrows := factor_grows hfactor.1 hfactor.2
  rw [kIatFactor] at hfactor
  rw [kMaxIat] at hlength hhigh
  have hentries : ∀ x ∈ m.iatVector, 0 ≤ x ∧ x ≤ 2 ^ 30 := fun x hx =>
    ⟨hnonneg x hx, hsum ▸ entry_le_sum hnonneg hx⟩
  obtain ⟨hforget, hlose, hkeep⟩ := forget_sum hfactor.1 (by omega) hentries
  rw [hsum, hlength] at hkeep
  rw [hsum] at hlose
  have hforgotten := forget_length m.iatFactor m.iatVector
  rw [hlength] at hforgotten
  rw [updateHistogram, if_pos ⟨hlow, by omega⟩]
  generalize forget m.iatFactor m.iatVector = v at hforget hlose hkeep hforgotten ⊢
  have hindex : iatPackets.toNat < v.length := by omega
  have hentry : v.getD iatPackets.toNat 0 ∈ v := by
    rw [List.getD_eq_getElem _ _ hindex]
    exact List.getElem_mem hindex
  have hle := entry_le_sum hforget hentry
  have hpositive := hforget _ hentry
  have hseen : int32 (v.getD iatPackets.toNat 0 + (32768 - m.iatFactor) * 2 ^ 15) =
      v.getD iatPackets.toNat 0 + (32768 - m.iatFactor) * 2 ^ 15 :=
    int32_of_fits (by omega) (by omega)
  have htotal := sum_set_add ((32768 - m.iatFactor) * 2 ^ 15) v _ hindex
  have hvector : vectorSum v = v.sum := vectorSum_eq hforget (by omega)
  have hadded : int32 (vectorSum v + (32768 - m.iatFactor) * 2 ^ 15) =
      v.sum + (32768 - m.iatFactor) * 2 ^ 15 := by
    rw [hvector, int32_of_fits (by omega) (by omega)]
  have hmissing : int32 (v.sum + (32768 - m.iatFactor) * 2 ^ 15 - 2 ^ 30) =
      v.sum + (32768 - m.iatFactor) * 2 ^ 15 - 2 ^ 30 := int32_of_fits (by omega) (by omega)
  dsimp only
  rw [hseen, hadded, hmissing]
  have hset := set_nonneg hforget (y := v.getD iatPackets.toNat 0 +
    (32768 - m.iatFactor) * 2 ^ 15) (by omega) iatPackets.toNat
  obtain ⟨hdone, hkept, hcorrected, hone⟩ := correct_sum hset (by rw [List.length_set, hforgotten])
    (htotal.trans (show v.sum + (32768 - m.iatFactor) * 2 ^ 15 =
      2 ^ 30 + (v.sum + (32768 - m.iatFactor) * 2 ^ 15 - 2 ^ 30) by omega)) (by omega) (by omega)
  rw [if_pos hdone]
  exact ⟨_, _, rfl, ⟨hkept, hcorrected, hone, hgrows.1.le, hgrows.2⟩, hgrows.1⟩

/-! ## The target level -/

theorem int32_spec (x : Int) : ∃ k : Int, int32 x = x - k * 2 ^ 32 ∧ -2 ^ 31 ≤ int32 x ∧
    int32 x < 2 ^ 31 := by
  refine ⟨(x - int32 x) / 2 ^ 32, ?_, ?_, ?_⟩ <;> unfold int32
  · have hdvd : ((2 ^ 32 : Nat) : Int) ∣ x - x.bmod (2 ^ 32) := Int.dvd_self_sub_bmod
    omega
  · exact Int.le_bmod (by decide)
  · exact Int.bmod_lt (by decide)

/-- 75% of the capacity, whatever the capacity. -/
theorem int32_three_quarters (capacity : Nat) :
    (int32 (3 * int32 (capacity * 2 ^ 8))).tdiv 4 ≤ 192 * capacity := by
  obtain ⟨k, hshift, hlow, hhigh⟩ := int32_spec (capacity * 2 ^ 8)
  obtain ⟨l, hproduct, hlow', hhigh'⟩ := int32_spec (3 * int32 (capacity * 2 ^ 8))
  rw [Int.tdiv_eq_ediv]
  -- A product that wraps around is less than the true one, which then is at least 2 ^ 31.
  split <;> omega

/-- The bounds of a level that was computed. -/
theorem limitTargetLevel_bounds (m : DelayManager) :
    2 ^ 8 ≤ m.limitTargetLevel.targetLevel ∧
      m.limitTargetLevel.targetLevel ≤ max (2 ^ 8 : Int) (192 * m.maxPacketsInBuffer) := by
  have hcapacity := int32_three_quarters m.maxPacketsInBuffer
  unfold limitTargetLevel
  dsimp only
  constructor
  · exact le_max_right _ _
  · refine max_le ?_ (le_max_left _ _)
    exact (min_le_right _ _).trans (hcapacity.trans (le_max_right _ _))

/-- A packet arrives at most 2³¹ − 2¹⁶ ms after the one before. -/
def Counted (m : DelayManager) : Prop :=
  0 ≤ m.packetIatCountMs ∧ m.packetIatCountMs + 2 ^ 16 < 2 ^ 31

instance (m : DelayManager) : Decidable m.Counted := inferInstanceAs (Decidable (_ ∧ _))

theorem iatPackets_bounds (h : m.Counted) {packetLenMs : Int} (hpositive : packetLenMs > 0)
    (sequenceNumber : BitVec 16) :
    0 ≤ m.iatPackets packetLenMs sequenceNumber ∧
      m.iatPackets packetLenMs sequenceNumber ≤ kMaxIat := by
  obtain ⟨hlow, hhigh⟩ := h
  have hquotient : 0 ≤ m.packetIatCountMs.tdiv packetLenMs :=
    Int.tdiv_nonneg hlow hpositive.le
  have hle : m.packetIatCountMs.tdiv packetLenMs ≤ m.packetIatCountMs := by
    rw [Int.tdiv_eq_ediv_of_nonneg hlow]
    exact Int.ediv_le_self _ hlow
  have hnumber := sequenceNumber.isLt
  have hlast := m.lastSeqNo.isLt
  refine ⟨le_min ?_ (by decide), min_le_right _ _⟩
  split
  · exact le_max_right _ _
  · split
    · rw [int32_of_fits (by omega) (by omega)]
      omega
    · exact hquotient

/-- The sums of the streaming mode are apart from the histogram. -/
theorem sums_histogram (packetLenMs : Int) (sequenceNumber : BitVec 16) :
    let m' := if m.streamingMode then m.updateCumulativeSums packetLenMs sequenceNumber else m
    m'.iatVector = m.iatVector ∧ m'.iatFactor = m.iatFactor ∧
      m'.maxPacketsInBuffer = m.maxPacketsInBuffer := by
  unfold updateCumulativeSums
  dsimp only
  split
  · split
    · split <;> exact ⟨rfl, rfl, rfl⟩
    · split <;> exact ⟨rfl, rfl, rfl⟩
  · exact ⟨rfl, rfl, rfl⟩

/-- The level was computed, or is the one of a reset. -/
def Levelled (m : DelayManager) : Prop :=
  (2 ^ 8 ≤ m.targetLevel ∧ m.targetLevel ≤ max (2 ^ 8 : Int) (192 * m.maxPacketsInBuffer)) ∨
    (m.targetLevel = 2 ^ 10 ∧ m.iatFactor = 0)

theorem recorded (h : m.Balanced) {iatPackets : Int} (hlow : 0 ≤ iatPackets)
    (hhigh : iatPackets ≤ kMaxIat) :
    ∃ m', ((m.updateHistogram iatPackets).map fun m =>
        let m := m.calculateTargetLevel iatPackets
        limitTargetLevel { m with
          targetLevel := if m.streamingMode then max m.targetLevel m.maxIatCumulativeSum
            else m.targetLevel }) = some m' ∧ m'.Balanced ∧
      (2 ^ 8 ≤ m'.targetLevel ∧
        m'.targetLevel ≤ max (2 ^ 8 : Int) (192 * m'.maxPacketsInBuffer)) ∧
      m'.maxPacketsInBuffer = m.maxPacketsInBuffer := by
  obtain ⟨v, factor, hupdate, hbalanced, -⟩ := updateHistogram_balanced h hlow hhigh
  rw [hupdate]
  exact ⟨_, rfl, hbalanced.congr rfl rfl, limitTargetLevel_bounds _, rfl⟩

/-- Every packet that comes in time is recorded, and no assertion fails. -/
theorem update_balanced (h : m.Balanced) (hlevel : m.Levelled) (hcounted : m.Counted)
    (sequenceNumber : BitVec 16) (timestamp : BitVec 32) (sampleRateHz : Int) :
    ∃ r m', m.update sequenceNumber timestamp sampleRateHz = some (r, m') ∧ m'.Balanced ∧
      m'.Levelled ∧ m'.maxPacketsInBuffer = m.maxPacketsInBuffer := by
  unfold update
  by_cases hrate : sampleRateHz ≤ 0
  · rw [if_pos hrate]
    exact ⟨_, _, rfl, h, hlevel, rfl⟩
  rw [if_neg hrate]
  by_cases hfirst : m.firstPacketReceived = false
  · rw [if_pos hfirst]
    exact ⟨_, _, rfl, h.congr rfl rfl, hlevel, rfl⟩
  rw [if_neg hfirst]
  dsimp only
  by_cases hlen : m.measuredLenMs sequenceNumber timestamp sampleRateHz > 0
  · rw [if_pos hlen]
    obtain ⟨hlow, hhigh⟩ := iatPackets_bounds hcounted hlen sequenceNumber
    generalize m.iatPackets _ sequenceNumber = iatPackets at hlow hhigh ⊢
    obtain ⟨hvector, hfactor, hcapacity⟩ := sums_histogram
      (m.measuredLenMs sequenceNumber timestamp sampleRateHz) sequenceNumber (m := m)
    generalize (if m.streamingMode then m.updateCumulativeSums _ sequenceNumber else m) = summed
      at hvector hfactor hcapacity ⊢
    obtain ⟨m', hrecorded, hbalanced, hbounds, hkept⟩ :=
      recorded (h.congr hvector hfactor) hlow hhigh
    rw [hrecorded]
    exact ⟨_, _, rfl, hbalanced.congr rfl rfl, .inl hbounds, hkept.trans hcapacity⟩
  · rw [if_neg hlen]
    exact ⟨_, _, rfl, h.congr rfl rfl, hlevel, rfl⟩

inductive Call where
  | update (sequenceNumber : BitVec 16) (timestamp : BitVec 32) (sampleRateHz : Int)
  | setPacketAudioLength (lengthMs : Int)
  | updateCounters (elapsedTimeMs : Int)
  | reset
  | resetPacketIatCount
  | setMinimumDelay (delayMs : Int)
  | setMaximumDelay (delayMs : Int)
  | setStreamingMode (value : Bool)

/-- `none` once an assertion has failed. -/
def step (s : Option DelayManager) (c : Call) : Option DelayManager :=
  s.bind fun m => match c with
    | .update sequenceNumber timestamp sampleRateHz =>
      (m.update sequenceNumber timestamp sampleRateHz).map Prod.snd
    | .setPacketAudioLength lengthMs => some (m.setPacketAudioLength lengthMs).2
    | .updateCounters elapsedTimeMs => some (m.updateCounters elapsedTimeMs)
    | .reset => some m.reset
    | .resetPacketIatCount => some m.resetPacketIatCount
    | .setMinimumDelay delayMs => some (m.setMinimumDelay delayMs).2
    | .setMaximumDelay delayMs => some (m.setMaximumDelay delayMs).2
    | .setStreamingMode value => some (m.setStreamingMode value)

theorem reset_balanced (m : DelayManager) : m.reset.Balanced where
  length := by
    show (startDistribution (kMaxIat + 1) 0x4002).length = kMaxIat + 1
    decide
  nonneg := by
    show ∀ x ∈ startDistribution (kMaxIat + 1) 0x4002, 0 ≤ x
    decide
  sum := by
    show (startDistribution (kMaxIat + 1) 0x4002).sum = 2 ^ 30
    decide
  factor := by
    show 0 ≤ (0 : Int) ∧ 0 ≤ kIatFactor
    decide

/-- What holds between the calls. -/
def Kept (capacity : Nat) (s : Option DelayManager) : Prop :=
  ∃ m, s = some m ∧ m.Balanced ∧ m.Levelled ∧ m.maxPacketsInBuffer = capacity

/-- Packets arrive in time. -/
def InTime (s : Option DelayManager) : Call → Prop
  | .update _ _ _ => ∀ m ∈ s, m.Counted
  | _ => True

theorem step_kept {capacity : Nat} {s : Option DelayManager} {c : Call} (h : Kept capacity s)
    (hcounted : InTime s c) : Kept capacity (step s c) := by
  obtain ⟨m, rfl, hbalanced, hlevel, hcapacity⟩ := h
  cases c with
  | update sequenceNumber timestamp sampleRateHz =>
    obtain ⟨r, m', hupdate, hbalanced', hlevel', hcapacity'⟩ :=
      update_balanced hbalanced hlevel (hcounted m rfl) sequenceNumber timestamp sampleRateHz
    exact ⟨m', congrArg (Option.map Prod.snd) hupdate, hbalanced', hlevel',
      hcapacity'.trans hcapacity⟩
  | setPacketAudioLength lengthMs =>
    refine ⟨_, rfl, ?_⟩
    unfold setPacketAudioLength
    split
    · exact ⟨hbalanced, hlevel, hcapacity⟩
    · exact ⟨hbalanced.congr rfl rfl, hlevel, hcapacity⟩
  | updateCounters elapsedTimeMs => exact ⟨_, rfl, hbalanced.congr rfl rfl, hlevel, hcapacity⟩
  | reset => exact ⟨_, rfl, m.reset_balanced, .inr ⟨rfl, rfl⟩, hcapacity⟩
  | resetPacketIatCount => exact ⟨_, rfl, hbalanced.congr rfl rfl, hlevel, hcapacity⟩
  | setMinimumDelay delayMs =>
    refine ⟨_, rfl, ?_⟩
    unfold setMinimumDelay
    split
    · exact ⟨hbalanced, hlevel, hcapacity⟩
    · exact ⟨hbalanced.congr rfl rfl, hlevel, hcapacity⟩
  | setMaximumDelay delayMs =>
    refine ⟨_, rfl, ?_⟩
    unfold setMaximumDelay
    split
    · exact ⟨hbalanced.congr rfl rfl, hlevel, hcapacity⟩
    · split
      · exact ⟨hbalanced, hlevel, hcapacity⟩
      · exact ⟨hbalanced.congr rfl rfl, hlevel, hcapacity⟩
  | setStreamingMode value => exact ⟨_, rfl, hbalanced.congr rfl rfl, hlevel, hcapacity⟩

open Machine in
/-- After any calls where packets arrive in time: no assertion has failed, the histogram has
non-negative entries with the sum 1, the factor is in its range, and the level is at least one
packet and, once it was computed, at most one packet or 75% of the capacity. -/
theorem always_balanced (capacity : Nat) (peakDetector : DelayPeakDetector) (calls : List Call)
    (h : Along step InTime (some (create capacity peakDetector)) calls) :
    Always step (fun s => ∃ m, s = some m ∧
        m.iatVector.length = 65 ∧ (∀ x ∈ m.iatVector, 0 ≤ x) ∧ m.iatVector.sum = 2 ^ 30 ∧
        0 ≤ m.iatFactor ∧ m.iatFactor ≤ 32745 ∧ 2 ^ 8 ≤ m.targetLevel ∧
        (m.targetLevel ≤ max (2 ^ 8 : Int) (192 * capacity) ∨
          m.targetLevel = 2 ^ 10 ∧ m.iatFactor = 0))
      (some (create capacity peakDetector)) calls := by
  have hstart : Kept capacity (some (create capacity peakDetector)) :=
    ⟨_, rfl, reset_balanced _, .inr ⟨rfl, rfl⟩, rfl⟩
  have hkept := always_of_along (fun s c => step_kept (s := s) (c := c)) hstart h
  refine hkept.imp ?_
  rintro s ⟨m, rfl, hbalanced, hlevel, rfl⟩
  refine ⟨m, rfl, hbalanced.length, hbalanced.nonneg, hbalanced.sum, hbalanced.factor.1,
    hbalanced.factor.2, ?_, hlevel.imp_left And.right⟩
  rcases hlevel with ⟨hlow, _⟩ | ⟨hstart, _⟩
  · exact hlow
  · rw [hstart]
    decide

/-- Three packets of 20 ms in a buffer for 4. -/
theorem always_balanced_packets :
    let calls := [.setPacketAudioLength 20, .update 1 0 8000, .updateCounters 20,
      .update 2 160 8000, .updateCounters 45, .update 3 320 8000, .reset]
    Machine.Always step (fun s => ∃ m, s = some m ∧
        m.iatVector.length = 65 ∧ (∀ x ∈ m.iatVector, 0 ≤ x) ∧ m.iatVector.sum = 2 ^ 30 ∧
        0 ≤ m.iatFactor ∧ m.iatFactor ≤ 32745 ∧ 2 ^ 8 ≤ m.targetLevel ∧
        (m.targetLevel ≤ max (2 ^ 8 : Int) (192 * (4 : Nat)) ∨
          m.targetLevel = 2 ^ 10 ∧ m.iatFactor = 0))
      (some (create 4 {})) calls := by
  refine always_balanced 4 {} _ ⟨trivial, ?_, trivial, ?_, trivial, ?_, trivial, trivial⟩
  all_goals
    show ∀ m ∈ step _ _, m.Counted
    decide +kernel

/-- The start level of four packets is more than 75% of a buffer for 4; and after
2³¹ ms without a packet an assertion fails. -/
theorem not_always_balanced :
    ¬ Machine.Always step (fun s => ∃ m, s = some m ∧ 2 ^ 8 ≤ m.targetLevel ∧
        m.targetLevel ≤ max (2 ^ 8 : Int) (192 * (4 : Nat)))
      (some (create 4 {})) [.setPacketAudioLength 20, .reset] ∧
    Machine.run step (some (create 50 {})) [.setPacketAudioLength 20, .update 1 0 8000,
      .updateCounters (2 ^ 31 - 1), .updateCounters 1, .update 2 160 8000] = none := by
  refine ⟨?_, rfl⟩
  rintro ⟨⟨m, hcreated, -, hhigh⟩, -⟩
  have hlevel : m.targetLevel = 2 ^ 10 := by
    rw [← Option.some.inj hcreated]
    rfl
  rw [hlevel] at hhigh
  exact absurd hhigh (by decide)

end DelayManager

end PerchWebrtc.NetEq
