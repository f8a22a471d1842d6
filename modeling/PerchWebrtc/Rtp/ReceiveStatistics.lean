import PerchWebrtc.Rtp.HeaderParser

/-!
# The statistics of a received stream

`StreamStatisticianImpl` (`receive_statistics_impl.cc`). Each packet that is in
order raises the highest sequence number, and each report adds the packets that
were lost since the last one to the cumulative loss. The readings of the clock
and the conversion of NTP times, which uses floating point, are parameters.

* `Tracks`: the counters, and the numbers that have been received;
* `Tracks.missing_eq_iff`: a report counts what was lost since the last one,
  unless the numbers have passed a multiple of 2^16 in between;
* `reports_accurate_iff`: the reports of a stream.
-/

namespace PerchWebrtc.Rtp

abbrev U32 := BitVec 32

structure Statistics where
  fractionLost : Byte
  cumulativeLost : U32
  extendedMaxSequenceNumber : U32
  jitter : U32
  maxJitter : U32
  deriving DecidableEq

structure StreamStatisticianImpl where
  jitterQ4 : U32 := 0
  jitterMaxQ4 : U32 := 0
  cumulativeLoss : U32 := 0
  jitterQ4TransmissionTimeOffset : U32 := 0
  lastReceiveTimeSecs : U32 := 0
  lastReceiveTimeFrac : U32 := 0
  lastReceivedTimestamp : U32 := 0
  lastReceivedTransmissionTimeOffset : U32 := 0
  receivedSeqFirst : BitVec 16 := 0
  receivedSeqMax : BitVec 16 := 0
  receivedSeqWraps : BitVec 16 := 0
  firstPacket : Bool := true
  receivedPacketOverhead : BitVec 16 := 12
  receivedByteCount : U32 := 0
  receivedRetransmittedPackets : U32 := 0
  receivedInorderPacketCount : U32 := 0
  lastReportInorderPackets : U32 := 0
  lastReportOldPackets : U32 := 0
  lastReportSeqMax : BitVec 16 := 0
  lastReportedStatistics : Statistics := ⟨0, 0, 0, 0, 0⟩

/-- What a packet brings besides its header: its size, the time of its arrival
and the frequency of its payload type. -/
structure Arrival where
  bytes : U32
  secs : U32
  frac : U32
  payloadTypeFrequency : U32

namespace StreamStatisticianImpl

-- `ModuleRTPUtility::ConvertNTPTimeToRTP`.
variable (convertNTPTimeToRTP : U32 → U32 → U32 → U32)

variable (s : StreamStatisticianImpl)

def resetStatistics : StreamStatisticianImpl :=
  { s with
    lastReportInorderPackets := 0
    lastReportOldPackets := 0
    lastReportSeqMax := 0
    lastReportedStatistics := ⟨0, 0, 0, 0, 0⟩
    jitterQ4 := 0
    jitterMaxQ4 := 0
    cumulativeLoss := 0
    jitterQ4TransmissionTimeOffset := 0
    receivedSeqWraps := 0
    receivedSeqMax := 0
    receivedSeqFirst := 0
    receivedByteCount := 0
    receivedRetransmittedPackets := 0
    receivedInorderPacketCount := 0
    firstPacket := true }

/-- A jitter moved by a sixteenth towards a difference, in Q4, unless that is
too large. -/
def updateJitter (timeDiffSamples jitterQ4 : U32) : U32 :=
  let timeDiffSamples := if timeDiffSamples.slt 0 then -timeDiffSamples else timeDiffSamples
  if timeDiffSamples.slt 450000 then
    jitterQ4 + ((timeDiffSamples <<< 4) - jitterQ4 + 8).sshiftRight 4
  else jitterQ4

/-- The part of `IncomingPacket` for a packet in order. -/
def inOrderPacket (header : RTPHeader) (arrival : Arrival) : StreamStatisticianImpl :=
  let s := { s with
    receivedInorderPacketCount := s.receivedInorderPacketCount + 1
    receivedSeqWraps :=
      if header.sequenceNumber < s.receivedSeqMax then s.receivedSeqWraps + 1
      else s.receivedSeqWraps
    receivedSeqMax := header.sequenceNumber }
  let receiveTimeRtp := convertNTPTimeToRTP arrival.secs arrival.frac arrival.payloadTypeFrequency
  let lastReceiveTimeRtp := convertNTPTimeToRTP s.lastReceiveTimeSecs s.lastReceiveTimeFrac
    arrival.payloadTypeFrequency
  let s :=
    if header.timestamp ≠ s.lastReceivedTimestamp ∧ 1 < s.receivedInorderPacketCount then
      { s with
        jitterQ4 := updateJitter ((receiveTimeRtp - lastReceiveTimeRtp) -
          (header.timestamp - s.lastReceivedTimestamp)) s.jitterQ4
        jitterQ4TransmissionTimeOffset := updateJitter ((receiveTimeRtp - lastReceiveTimeRtp) -
          ((header.timestamp + header.extension.transmissionTimeOffset) -
            (s.lastReceivedTimestamp + s.lastReceivedTransmissionTimeOffset)))
          s.jitterQ4TransmissionTimeOffset }
    else s
  { s with
    lastReceivedTimestamp := header.timestamp
    lastReceiveTimeSecs := arrival.secs
    lastReceiveTimeFrac := arrival.frac }

def incomingPacket (header : RTPHeader) (arrival : Arrival) (retransmitted inOrder : Bool) :
    StreamStatisticianImpl :=
  let s := { s with receivedByteCount := s.receivedByteCount + arrival.bytes }
  if s.firstPacket then
    { s with
      firstPacket := false
      receivedSeqFirst := header.sequenceNumber
      receivedSeqMax := header.sequenceNumber
      receivedInorderPacketCount := 1
      lastReceiveTimeSecs := arrival.secs
      lastReceiveTimeFrac := arrival.frac }
  else
    let s :=
      if inOrder then s.inOrderPacket convertNTPTimeToRTP header arrival
      else if retransmitted then
        { s with receivedRetransmittedPackets := s.receivedRetransmittedPackets + 1 }
      else { s with receivedInorderPacketCount := s.receivedInorderPacketCount + 1 }
    { s with
      receivedPacketOverhead := BitVec.ofNat 16 ((15 * s.receivedPacketOverhead.toNat +
        (header.headerLength + header.paddingLength.setWidth 16).toNat) >>> 4) }

/-- The highest number at the last report; the number before the first at the
first report. -/
def reportedSeqMax : BitVec 16 :=
  if s.lastReportInorderPackets = 0 then s.receivedSeqFirst - 1 else s.lastReportSeqMax

/-- `exp_since_last`. -/
def expectedSinceLast : BitVec 16 :=
  if s.receivedSeqMax < s.reportedSeqMax then 0 else s.receivedSeqMax - s.reportedSeqMax

/-- `missing`; retransmitted packets count as received. -/
def missing : U32 :=
  let recSinceLast := (s.receivedInorderPacketCount - s.lastReportInorderPackets) +
    (s.receivedRetransmittedPackets - s.lastReportOldPackets)
  let expSinceLast := s.expectedSinceLast.setWidth 32
  if recSinceLast < expSinceLast then expSinceLast - recSinceLast else 0

/-- `GetStatistics`; `none` stands for `false`. -/
def getStatistics (reset : Bool) : Option Statistics × StreamStatisticianImpl :=
  if s.receivedSeqFirst = 0 ∧ s.receivedByteCount = 0 then (none, s)
  else if ¬ reset then
    if s.lastReportInorderPackets = 0 then (none, s) else (some s.lastReportedStatistics, s)
  else
    let jitterMaxQ4 := if s.jitterMaxQ4 < s.jitterQ4 then s.jitterQ4 else s.jitterMaxQ4
    let cumulativeLoss := s.cumulativeLoss + s.missing
    let statistics : Statistics :=
      { fractionLost :=
          if s.expectedSinceLast ≠ 0 then
            BitVec.ofNat 8 (255 * s.missing.toNat / s.expectedSinceLast.toNat)
          else 0
        cumulativeLost := cumulativeLoss
        extendedMaxSequenceNumber :=
          (s.receivedSeqWraps.setWidth 32 <<< 16) + s.receivedSeqMax.setWidth 32
        jitter := s.jitterQ4 >>> 4
        maxJitter := jitterMaxQ4 >>> 4 }
    (some statistics, { s with
      cumulativeLoss := cumulativeLoss
      jitterMaxQ4 := jitterMaxQ4
      lastReportedStatistics := statistics
      lastReportInorderPackets := s.receivedInorderPacketCount
      lastReportOldPackets := s.receivedRetransmittedPackets
      lastReportSeqMax := s.receivedSeqMax })

end StreamStatisticianImpl

/-! ## Numbers that have been received -/

/-- The first and the highest of numbers, the last one first. -/
def firstOf (numbers : List Nat) : Nat := numbers.getLastD 0

def highestOf (numbers : List Nat) : Nat := numbers.headD 0

/-- How many of the numbers between the first and the highest are missing. -/
def lostOf (numbers : List Nat) : Nat :=
  if numbers = [] then 0
  else ((Finset.Icc (firstOf numbers) (highestOf numbers)).filter (· ∉ numbers)).card

/-- The packets of a stream that have been received, and those at the last
report. The numbers do not wrap. -/
structure Stream where
  received : List Nat := []
  reported : List Nat := []

/-- The highest number at the last report; the number before the first at the
first report. -/
def Stream.below (g : Stream) : Int :=
  if g.reported = [] then (firstOf g.received : Int) - 1 else highestOf g.reported

section Numbers

variable {numbers : List Nat}

theorem firstOf_cons {n : Nat} (hne : numbers ≠ []) : firstOf (n :: numbers) = firstOf numbers := by
  obtain ⟨m, l, rfl⟩ := List.exists_cons_of_ne_nil hne
  rfl

theorem firstOf_le (h : numbers.Pairwise (· > ·)) {n : Nat} (hn : n ∈ numbers) :
    firstOf numbers ≤ n := by
  induction numbers generalizing n with
  | nil => cases hn
  | cons m l ih =>
    obtain ⟨hm, hl⟩ := List.pairwise_cons.mp h
    by_cases hnil : l = []
    · subst hnil
      rw [List.mem_singleton.mp hn]
      exact Nat.le_refl _
    · rw [firstOf_cons hnil]
      rcases List.mem_cons.mp hn with rfl | hmem
      · obtain ⟨k, hk⟩ := List.exists_mem_of_ne_nil l hnil
        exact (ih hl hk).trans (Nat.le_of_lt (hm k hk))
      · exact ih hl hmem

theorem le_highestOf (h : numbers.Pairwise (· > ·)) {n : Nat} (hn : n ∈ numbers) :
    n ≤ highestOf numbers := by
  cases h with
  | nil => cases hn
  | cons hm _ =>
    rcases List.mem_cons.mp hn with rfl | hmem
    · exact Nat.le_refl _
    · exact Nat.le_of_lt (hm n hmem)

theorem firstOf_mem (hne : numbers ≠ []) : firstOf numbers ∈ numbers := by
  unfold firstOf
  rw [List.getLastD_eq_getLast?, List.getLast?_eq_some_getLast hne]
  exact List.getLast_mem hne

/-- The numbers in between are received or lost. -/
theorem lostOf_add_length (h : numbers.Pairwise (· > ·)) (hne : numbers ≠ []) :
    lostOf numbers + numbers.length + firstOf numbers = highestOf numbers + 1 := by
  have hsub : numbers.toFinset ⊆ Finset.Icc (firstOf numbers) (highestOf numbers) := by
    intro n hn
    rw [List.mem_toFinset] at hn
    exact Finset.mem_Icc.mpr ⟨firstOf_le h hn, le_highestOf h hn⟩
  have hnodup : numbers.Nodup := h.imp fun hgt => Nat.ne_of_gt hgt
  have hfilter : (Finset.Icc (firstOf numbers) (highestOf numbers)).filter (· ∉ numbers) =
      Finset.Icc (firstOf numbers) (highestOf numbers) \ numbers.toFinset := by
    ext n
    simp only [Finset.mem_filter, Finset.mem_sdiff, List.mem_toFinset]
  have hle := le_highestOf h (firstOf_mem hne)
  have hcard := Finset.card_le_card hsub
  unfold lostOf
  rw [if_neg hne, hfilter, Finset.card_sdiff_of_subset hsub, Nat.card_Icc,
    List.toFinset_card_of_nodup hnodup]
  rw [Nat.card_Icc, List.toFinset_card_of_nodup hnodup] at hcard
  omega

theorem firstOf_append {new : List Nat} (hne : numbers ≠ []) :
    firstOf (new ++ numbers) = firstOf numbers := by
  induction new with
  | nil => rfl
  | cons n l ih => rw [List.cons_append, firstOf_cons (List.append_ne_nil_of_right_ne_nil l hne), ih]

theorem lostOf_le_append {new : List Nat} (h : (new ++ numbers).Pairwise (· > ·)) :
    lostOf numbers ≤ lostOf (new ++ numbers) := by
  obtain ⟨-, hnumbers, hgt⟩ := List.pairwise_append.mp h
  by_cases hne : numbers = []
  · rw [hne, lostOf, if_pos rfl]
    exact Nat.zero_le _
  · unfold lostOf
    rw [if_neg hne, if_neg (List.append_ne_nil_of_right_ne_nil new hne), firstOf_append hne]
    refine Finset.card_le_card fun n hn => ?_
    rw [Finset.mem_filter, Finset.mem_Icc] at hn ⊢
    obtain ⟨⟨hfirst, hhighest⟩, hlost⟩ := hn
    have hmem : highestOf numbers ∈ numbers := by
      obtain ⟨m, l, rfl⟩ := List.exists_cons_of_ne_nil hne
      exact List.mem_cons_self
    refine ⟨⟨hfirst, hhighest.trans (le_highestOf h (List.mem_append_right _ hmem))⟩, fun hin => ?_⟩
    rcases List.mem_append.mp hin with hnew | hold
    · exact absurd (hgt n hnew _ hmem) (by omega)
    · exact hlost hold

end Numbers

/-! ## Counters and numbers -/

/-- The counters after packets in order. -/
structure Tracks (s : StreamStatisticianImpl) (g : Stream) : Prop where
  decreasing : g.received.Pairwise (· > ·)
  suffix : g.reported <:+ g.received
  firstPacket : s.firstPacket = true ↔ g.received = []
  seqFirst : s.receivedSeqFirst = BitVec.ofNat 16 (firstOf g.received)
  seqMax : s.receivedSeqMax = BitVec.ofNat 16 (highestOf g.received)
  inorder : s.receivedInorderPacketCount = BitVec.ofNat 32 g.received.length
  retransmitted : s.receivedRetransmittedPackets = s.lastReportOldPackets
  lastInorder : s.lastReportInorderPackets = BitVec.ofNat 32 g.reported.length
  lastSeqMax : g.reported ≠ [] → s.lastReportSeqMax = BitVec.ofNat 16 (highestOf g.reported)
  byteCount : g.received = [] → s.receivedByteCount = 0

/-- The counters of the packets hold all numbers from the first to the highest. -/
def Stream.Bounded (g : Stream) : Prop :=
  lostOf g.received + g.received.length < 2 ^ 32

/-- What a report needs to count right: nothing has been lost since the last
one, or the highest number has not passed a multiple of 2^16. -/
def Stream.InCycle (g : Stream) : Prop :=
  g.Bounded ∧
    (lostOf g.received = lostOf g.reported ∨ g.below / 2 ^ 16 = (highestOf g.received : Int) / 2 ^ 16)

section Report

variable {s : StreamStatisticianImpl} {g : Stream}

/-- The expected packets since the last report are received or lost. -/
theorem Tracks.expected (h : Tracks s g) (hne : g.received ≠ []) :
    g.reported.length ≤ g.received.length ∧ lostOf g.reported ≤ lostOf g.received ∧
      (highestOf g.received : Int) - g.below = (lostOf g.received : Int) - lostOf g.reported +
        ((g.received.length : Int) - g.reported.length) := by
  have hreceived := lostOf_add_length h.decreasing hne
  have hlength := h.suffix.length_le
  obtain ⟨new, hnew⟩ := h.suffix
  have hdecreasing := h.decreasing
  rw [← hnew] at hdecreasing
  have hle : lostOf g.reported ≤ lostOf g.received := hnew ▸ lostOf_le_append hdecreasing
  refine ⟨hlength, hle, ?_⟩
  unfold Stream.below
  by_cases hreported : g.reported = []
  · rw [if_pos hreported, hreported]
    have hzero : lostOf [] = 0 := if_pos rfl
    rw [hzero, List.length_nil]
    omega
  · have hold := lostOf_add_length (List.pairwise_append.mp hdecreasing).2.1 hreported
    have hfirst : firstOf g.received = firstOf g.reported := hnew ▸ firstOf_append hreported
    rw [if_neg hreported]
    omega

theorem Tracks.lastInorder_eq_zero (h : Tracks s g) (hlength : g.received.length < 2 ^ 32) :
    s.lastReportInorderPackets = 0 ↔ g.reported = [] := by
  have hle := h.suffix.length_le
  rw [h.lastInorder]
  constructor
  · intro hzero
    have hmod := congrArg BitVec.toNat hzero
    rw [BitVec.toNat_ofNat, Nat.mod_eq_of_lt (by omega)] at hmod
    exact List.length_eq_zero_iff.mp hmod
  · rintro hnil
    rw [hnil]
    rfl

theorem Tracks.reportedSeqMax_toNat (h : Tracks s g) (hlength : g.received.length < 2 ^ 32) :
    (s.reportedSeqMax.toNat : Int) = g.below % 2 ^ 16 := by
  unfold StreamStatisticianImpl.reportedSeqMax Stream.below
  by_cases hreported : g.reported = []
  · rw [if_pos ((h.lastInorder_eq_zero hlength).mpr hreported), if_pos hreported, h.seqFirst]
    bv_omega
  · rw [if_neg (mt (h.lastInorder_eq_zero hlength).mp hreported), if_neg hreported,
      h.lastSeqMax hreported]
    bv_omega

/-- The packets expected since the last report, in 16 bits. -/
theorem Tracks.expectedSinceLast_toNat (h : Tracks s g) (hlength : g.received.length < 2 ^ 32) :
    (s.expectedSinceLast.toNat : Int) =
      if (highestOf g.received : Int) % 2 ^ 16 < g.below % 2 ^ 16 then 0
      else (highestOf g.received : Int) % 2 ^ 16 - g.below % 2 ^ 16 := by
  have hlast := h.reportedSeqMax_toNat hlength
  have hmax : (s.receivedSeqMax.toNat : Int) = (highestOf g.received : Int) % 2 ^ 16 := by
    rw [h.seqMax]
    bv_omega
  unfold StreamStatisticianImpl.expectedSinceLast
  rw [← hlast, ← hmax]
  by_cases hlt : s.receivedSeqMax < s.reportedSeqMax
  · rw [if_pos hlt, if_pos (by exact_mod_cast hlt)]
    rfl
  · rw [if_neg hlt, if_neg (by exact_mod_cast hlt)]
    bv_omega

theorem Tracks.missing_toNat (h : Tracks s g) (hlength : g.received.length < 2 ^ 32) :
    (s.missing.toNat : Int) = max 0 ((s.expectedSinceLast.toNat : Int) -
      ((g.received.length : Int) - g.reported.length)) := by
  have hle := h.suffix.length_le
  unfold StreamStatisticianImpl.missing
  rw [h.retransmitted, h.inorder, h.lastInorder, BitVec.sub_self, BitVec.add_zero]
  dsimp only
  have hrec : (BitVec.ofNat 32 g.received.length - BitVec.ofNat 32 g.reported.length).toNat =
      g.received.length - g.reported.length := by
    bv_omega
  have hexp : (s.expectedSinceLast.setWidth 32).toNat = s.expectedSinceLast.toNat := by
    rw [BitVec.toNat_setWidth, Nat.mod_eq_of_lt (by omega)]
  split
  · bv_omega
  · have hzero : (0 : U32).toNat = 0 := rfl
    bv_omega

/-- A report counts no packet too many, and all that were lost exactly if the
numbers have not passed a multiple of 2^16 meanwhile or none was lost. -/
theorem Tracks.missing_eq_iff (h : Tracks s g) (hne : g.received ≠ []) (hbounded : g.Bounded) :
    s.missing.toNat ≤ lostOf g.received - lostOf g.reported ∧
      (s.missing.toNat = lostOf g.received - lostOf g.reported ↔ g.InCycle) := by
  have hlength : g.received.length < 2 ^ 32 := by
    unfold Stream.Bounded at hbounded
    omega
  obtain ⟨hle, hlost, hexpected⟩ := h.expected hne
  have hmissing := h.missing_toNat hlength
  have hexp := h.expectedSinceLast_toNat hlength
  unfold Stream.InCycle
  rw [and_iff_right hbounded]
  generalize g.below = b at *
  generalize (highestOf g.received : Int) = n at *
  generalize s.expectedSinceLast.toNat = e at *
  split at hexp <;> constructor <;> omega

theorem Tracks.resetStatistics (s : StreamStatisticianImpl) : Tracks s.resetStatistics {} where
  decreasing := List.Pairwise.nil
  suffix := List.suffix_refl _
  firstPacket := iff_of_true rfl rfl
  seqFirst := rfl
  seqMax := rfl
  inorder := rfl
  retransmitted := rfl
  lastInorder := rfl
  lastSeqMax := fun hne => absurd rfl hne
  byteCount := fun _ => rfl

/-- The counters that `inOrderPacket` sets; the rest is about times. -/
theorem inOrderPacket_counters (convert : U32 → U32 → U32 → U32) (s : StreamStatisticianImpl)
    (header : RTPHeader) (arrival : Arrival) :
    let s' := s.inOrderPacket convert header arrival
    s'.firstPacket = s.firstPacket ∧ s'.receivedSeqFirst = s.receivedSeqFirst ∧
      s'.receivedSeqMax = header.sequenceNumber ∧
      s'.receivedInorderPacketCount = s.receivedInorderPacketCount + 1 ∧
      s'.receivedRetransmittedPackets = s.receivedRetransmittedPackets ∧
      s'.lastReportOldPackets = s.lastReportOldPackets ∧
      s'.lastReportInorderPackets = s.lastReportInorderPackets ∧
      s'.lastReportSeqMax = s.lastReportSeqMax ∧ s'.cumulativeLoss = s.cumulativeLoss := by
  unfold StreamStatisticianImpl.inOrderPacket
  dsimp only
  split
  · exact ⟨rfl, rfl, rfl, rfl, rfl, rfl, rfl, rfl, rfl⟩
  · exact ⟨rfl, rfl, rfl, rfl, rfl, rfl, rfl, rfl, rfl⟩

/-- A packet whose number is above all others. -/
theorem Tracks.incomingPacket (h : Tracks s g) (convert : U32 → U32 → U32 → U32) {number : Nat}
    {header : RTPHeader} (arrival : Arrival) (retransmitted : Bool)
    (hnumber : header.sequenceNumber = BitVec.ofNat 16 number)
    (horder : ∀ n ∈ g.received, n < number) :
    Tracks (s.incomingPacket convert header arrival retransmitted true)
        { g with received := number :: g.received } ∧
      (s.incomingPacket convert header arrival retransmitted true).cumulativeLoss =
        s.cumulativeLoss := by
  have hpairwise : (number :: g.received).Pairwise (· > ·) :=
    List.pairwise_cons.mpr ⟨horder, h.decreasing⟩
  have hsuffix : g.reported <:+ number :: g.received := h.suffix.trans (List.suffix_cons _ _)
  unfold StreamStatisticianImpl.incomingPacket
  dsimp only
  by_cases hfirst : s.firstPacket = true
  · have hnil := h.firstPacket.mp hfirst
    rw [if_pos hfirst]
    refine ⟨⟨hpairwise, hsuffix, iff_of_false Bool.false_ne_true (List.cons_ne_nil _ _), ?_, hnumber,
      ?_, h.retransmitted, h.lastInorder, h.lastSeqMax, fun hcons => absurd hcons (List.cons_ne_nil _ _)⟩,
      rfl⟩
    · rw [hnil]
      exact hnumber
    · rw [hnil]
      rfl
  · have hne : g.received ≠ [] := mt h.firstPacket.mpr hfirst
    rw [if_neg hfirst, if_pos rfl]
    obtain ⟨hf, hsf, hmax, hcount, hret, hold, hin, hseq, hloss⟩ := inOrderPacket_counters convert
      { s with receivedByteCount := s.receivedByteCount + arrival.bytes } header arrival
    generalize StreamStatisticianImpl.inOrderPacket convert _ header arrival = s' at *
    dsimp only at *
    refine ⟨⟨hpairwise, hsuffix, ?_, ?_, hmax.trans hnumber, ?_, ?_, hin.trans h.lastInorder, ?_,
      fun hcons => absurd hcons (List.cons_ne_nil _ _)⟩, hloss⟩
    · dsimp only
      rw [hf]
      exact iff_of_false hfirst (List.cons_ne_nil _ _)
    · dsimp only
      rw [hsf, firstOf_cons hne]
      exact h.seqFirst
    · dsimp only
      rw [hcount, h.inorder, List.length_cons]
      bv_omega
    · dsimp only
      rw [hret, hold]
      exact h.retransmitted
    · dsimp only
      rw [hseq]
      exact h.lastSeqMax

/-- Nothing is reported before the first packet. -/
theorem Tracks.received_ne (h : Tracks s g)
    (hgiven : ¬ (s.receivedSeqFirst = 0 ∧ s.receivedByteCount = 0)) : g.received ≠ [] := by
  intro hnil
  refine hgiven ⟨?_, h.byteCount hnil⟩
  rw [h.seqFirst, hnil]
  rfl

theorem Tracks.report (h : Tracks s g)
    (hgiven : ¬ (s.receivedSeqFirst = 0 ∧ s.receivedByteCount = 0)) :
    Tracks (s.getStatistics true).2 { g with reported := g.received } := by
  have hne := h.received_ne hgiven
  unfold StreamStatisticianImpl.getStatistics
  rw [if_neg hgiven, if_neg (not_not.mpr rfl)]
  exact ⟨h.decreasing, List.suffix_refl _, h.firstPacket, h.seqFirst, h.seqMax, h.inorder, rfl,
    h.inorder, fun _ => h.seqMax, h.byteCount⟩

end Report

/-! ## Streams -/

/-- The packets of one stream, with their numbers, and the reports. -/
inductive StatisticsCall where
  | incomingPacket (number : Nat) (header : RTPHeader) (arrival : Arrival) (retransmitted : Bool)
  | getStatistics (reset : Bool)
  | resetStatistics

namespace StatisticsCall

variable (convert : U32 → U32 → U32 → U32)

def apply (s : StreamStatisticianImpl) : StatisticsCall → StreamStatisticianImpl
  | .incomingPacket _ header arrival retransmitted =>
    s.incomingPacket convert header arrival retransmitted true
  | .getStatistics reset => (s.getStatistics reset).2
  | .resetStatistics => s.resetStatistics

/-- The packets received and reported after a call; a report is not given while
the counters are 0. -/
def follow (s : StreamStatisticianImpl) (g : Stream) : StatisticsCall → Stream
  | .incomingPacket number _ _ _ => { g with received := number :: g.received }
  | .getStatistics reset =>
    if reset ∧ ¬ (s.receivedSeqFirst = 0 ∧ s.receivedByteCount = 0) then
      { g with reported := g.received }
    else g
  | .resetStatistics => {}

/-- A packet is in order. -/
def InOrder (g : Stream) : StatisticsCall → Prop
  | .incomingPacket number header _ _ =>
    header.sequenceNumber = BitVec.ofNat 16 number ∧ ∀ n ∈ g.received, n < number
  | _ => True

/-- The cumulative loss that is reported is the number of packets that are
missing. -/
def Accurate (s : StreamStatisticianImpl) (g : Stream) : StatisticsCall → Prop
  | .getStatistics true =>
    ∀ statistics ∈ (s.getStatistics true).1, statistics.cumulativeLost.toNat = lostOf g.received
  | _ => True

/-- A report that is given counts right. -/
def Counts (s : StreamStatisticianImpl) (g : Stream) : StatisticsCall → Prop
  | .getStatistics true => ¬ (s.receivedSeqFirst = 0 ∧ s.receivedByteCount = 0) → g.InCycle
  | _ => True

/-- Each call of a stream has a property, in the state before it. -/
def Along (P : StreamStatisticianImpl → Stream → StatisticsCall → Prop) :
    StreamStatisticianImpl → Stream → List StatisticsCall → Prop
  | _, _, [] => True
  | s, g, c :: calls => P s g c ∧ Along P (c.apply convert s) (c.follow s g) calls

end StatisticsCall

section Streams

open StatisticsCall

variable {convert : U32 → U32 → U32 → U32} {s : StreamStatisticianImpl} {g : Stream}
  {c : StatisticsCall}

theorem Tracks.apply (h : Tracks s g) (horder : c.InOrder g) :
    Tracks (c.apply convert s) (c.follow s g) := by
  cases c with
  | incomingPacket number header arrival retransmitted =>
    exact (h.incomingPacket convert arrival retransmitted horder.1 horder.2).1
  | getStatistics reset =>
    unfold StatisticsCall.apply StatisticsCall.follow
    dsimp only
    by_cases hgiven : s.receivedSeqFirst = 0 ∧ s.receivedByteCount = 0
    · rw [if_neg fun hand => hand.2 hgiven, StreamStatisticianImpl.getStatistics, if_pos hgiven]
      exact h
    · cases reset with
      | true =>
        rw [if_pos ⟨rfl, hgiven⟩]
        exact h.report hgiven
      | false =>
        rw [if_neg fun hand => Bool.false_ne_true hand.1, StreamStatisticianImpl.getStatistics,
          if_neg hgiven, if_pos Bool.false_ne_true]
        split
        · exact h
        · exact h
  | resetStatistics => exact Tracks.resetStatistics s

theorem getStatistics_given {reset : Bool}
    (hgiven : ¬ (s.receivedSeqFirst = 0 ∧ s.receivedByteCount = 0)) (hreset : reset = true) :
    ∃ statistics, (s.getStatistics reset).1 = some statistics ∧
      statistics.cumulativeLost = s.cumulativeLoss + s.missing ∧
      (s.getStatistics reset).2.cumulativeLoss = s.cumulativeLoss + s.missing := by
  unfold StreamStatisticianImpl.getStatistics
  rw [if_neg hgiven, if_neg (not_not.mpr hreset)]
  exact ⟨_, rfl, rfl, rfl⟩

/-- A report adds what was lost since the last one, or too little. -/
theorem Tracks.accurate_of_counts (h : Tracks s g)
    (hloss : s.cumulativeLoss.toNat = lostOf g.reported) (hcounts : c.Counts s g) :
    c.Accurate s g := by
  cases c with
  | incomingPacket number header arrival retransmitted => trivial
  | resetStatistics => trivial
  | getStatistics reset =>
    cases reset with
    | false => trivial
    | true =>
      intro statistics hsome
      by_cases hgiven : s.receivedSeqFirst = 0 ∧ s.receivedByteCount = 0
      · rw [StreamStatisticianImpl.getStatistics, if_pos hgiven] at hsome
        cases hsome
      · obtain ⟨statistics', hsome', hlost, -⟩ := getStatistics_given hgiven rfl
        rw [hsome', Option.mem_some_iff] at hsome
        subst hsome
        have hcycle : g.InCycle := hcounts hgiven
        have hne := h.received_ne hgiven
        have hmissing := (h.missing_eq_iff hne hcycle.1).2.mpr hcycle
        have hle := (h.expected hne).2.1
        have hbounded := hcycle.1
        unfold Stream.Bounded at hbounded
        rw [hlost, BitVec.toNat_add, hmissing, hloss, Nat.mod_eq_of_lt (by omega)]
        omega

theorem Tracks.counts_of_accurate (h : Tracks s g)
    (hloss : s.cumulativeLoss.toNat = lostOf g.reported) (hbounded : g.Bounded)
    (haccurate : c.Accurate s g) : c.Counts s g := by
  cases c with
  | incomingPacket number header arrival retransmitted => trivial
  | resetStatistics => trivial
  | getStatistics reset =>
    cases reset with
    | false => trivial
    | true =>
      intro hgiven
      obtain ⟨statistics, hsome, hlost, -⟩ := getStatistics_given hgiven rfl
      have hequal := haccurate statistics hsome
      have hne := h.received_ne hgiven
      obtain ⟨hmissing, hiff⟩ := h.missing_eq_iff hne hbounded
      have hle := (h.expected hne).2.1
      refine hiff.mp ?_
      unfold Stream.Bounded at hbounded
      rw [hlost, BitVec.toNat_add, hloss, Nat.mod_eq_of_lt (by omega)] at hequal
      omega

/-- The cumulative loss is that of the last report. -/
theorem Tracks.cumulativeLoss_apply (h : Tracks s g)
    (hloss : s.cumulativeLoss.toNat = lostOf g.reported) (horder : c.InOrder g)
    (haccurate : c.Accurate s g) :
    (c.apply convert s).cumulativeLoss.toNat = lostOf (c.follow s g).reported := by
  cases c with
  | incomingPacket number header arrival retransmitted =>
    unfold StatisticsCall.apply StatisticsCall.follow
    dsimp only
    rw [(h.incomingPacket convert arrival retransmitted horder.1 horder.2).2]
    exact hloss
  | resetStatistics => exact (if_pos rfl).symm
  | getStatistics reset =>
    unfold StatisticsCall.apply StatisticsCall.follow
    dsimp only
    by_cases hgiven : s.receivedSeqFirst = 0 ∧ s.receivedByteCount = 0
    · rw [if_neg fun hand => hand.2 hgiven, StreamStatisticianImpl.getStatistics, if_pos hgiven]
      exact hloss
    · cases reset with
      | true =>
        obtain ⟨statistics, hsome, hlost, hnext⟩ := getStatistics_given hgiven rfl
        rw [if_pos ⟨rfl, hgiven⟩, hnext, ← hlost]
        exact haccurate statistics hsome
      | false =>
        rw [if_neg fun hand => Bool.false_ne_true hand.1, StreamStatisticianImpl.getStatistics,
          if_neg hgiven, if_pos Bool.false_ne_true]
        split
        · exact hloss
        · exact hloss

theorem Tracks.accurate_iff_counts (h : Tracks s g)
    (hloss : s.cumulativeLoss.toNat = lostOf g.reported) {calls : List StatisticsCall}
    (horder : Along convert (fun _ g c => c.InOrder g) s g calls) :
    (Along convert (fun s g c => c.Counts s g) s g calls →
      Along convert (fun s g c => c.Accurate s g) s g calls) ∧
    (Along convert (fun _ g _ => g.Bounded) s g calls →
      Along convert (fun s g c => c.Accurate s g) s g calls →
      Along convert (fun s g c => c.Counts s g) s g calls) := by
  induction calls generalizing s g with
  | nil => exact ⟨fun _ => trivial, fun _ _ => trivial⟩
  | cons c calls ih =>
    obtain ⟨hin, horders⟩ := horder
    have hnext : Tracks (c.apply convert s) (c.follow s g) := h.apply hin
    constructor
    · rintro ⟨hcounts, hrest⟩
      have haccurate := h.accurate_of_counts hloss hcounts
      have hloss' : (c.apply convert s).cumulativeLoss.toNat = lostOf (c.follow s g).reported :=
        h.cumulativeLoss_apply hloss hin haccurate
      exact ⟨haccurate, (ih hnext hloss' horders).1 hrest⟩
    · rintro ⟨hbounded, hbounds⟩ ⟨haccurate, hrest⟩
      have hloss' : (c.apply convert s).cumulativeLoss.toNat = lostOf (c.follow s g).reported :=
        h.cumulativeLoss_apply hloss hin haccurate
      exact ⟨h.counts_of_accurate hloss hbounded haccurate,
        (ih hnext hloss' horders).2 hbounds hrest⟩

end Streams

open StatisticsCall in
/-- The cumulative loss that is reported for packets in order is the number of
packets missing from the first to the highest, wherever the reports are taken,
exactly if no report is given for an interval in which packets were lost and the
numbers passed a multiple of 2^16. -/
theorem reports_accurate_iff (convert : U32 → U32 → U32 → U32) (calls : List StatisticsCall)
    (horder : Along convert (fun _ g c => c.InOrder g) {} {} calls) :
    (Along convert (fun s g c => c.Counts s g) {} {} calls →
      Along convert (fun s g c => c.Accurate s g) {} {} calls) ∧
    (Along convert (fun _ g _ => g.Bounded) {} {} calls →
      Along convert (fun s g c => c.Accurate s g) {} {} calls →
      Along convert (fun s g c => c.Counts s g) {} {} calls) :=
  (Tracks.resetStatistics {}).accurate_iff_counts (if_pos rfl).symm horder

/-- A packet with no more than a number. -/
def numbered (number : Nat) : StatisticsCall :=
  .incomingPacket number { RTPHeader.cleared with sequenceNumber := BitVec.ofNat 16 number }
    ⟨12, 0, 0, 90000⟩ false

open StatisticsCall in
/-- A wrap without a loss. -/
theorem reports_accurate_iff_wrapped :
    Along (fun _ _ _ => 0) (fun s g c => c.Accurate s g) {} {}
      [numbered 65533, numbered 65535, .getStatistics true, numbered 65536, .getStatistics true] := by
  refine (reports_accurate_iff (fun _ _ _ => 0) _ ?_).1 ?_
  · exact ⟨⟨rfl, by decide⟩, ⟨rfl, by decide⟩, trivial, ⟨rfl, by decide⟩, trivial, trivial⟩
  · refine ⟨trivial, trivial, fun _ => ⟨?_, Or.inr (by decide)⟩, trivial,
      fun _ => ⟨?_, Or.inl (by decide)⟩, trivial⟩
    · unfold Stream.Bounded
      decide
    · unfold Stream.Bounded
      decide

open StatisticsCall in
/-- Two packets are lost about a wrap, and none of them is reported. -/
theorem not_accurate_about_wrap :
    Along (fun _ _ _ => 0) (fun _ g c => c.InOrder g) {} {}
      [numbered 65534, .getStatistics true, numbered 65537, .getStatistics true] ∧
    ¬ Along (fun _ _ _ => 0) (fun s g c => c.Accurate s g) {} {}
      [numbered 65534, .getStatistics true, numbered 65537, .getStatistics true] := by
  refine ⟨⟨⟨rfl, by decide⟩, trivial, ⟨rfl, by decide⟩, trivial, trivial⟩, ?_⟩
  rintro ⟨-, -, -, haccurate, -⟩
  exact absurd (haccurate _ rfl) (by decide)

end PerchWebrtc.Rtp
