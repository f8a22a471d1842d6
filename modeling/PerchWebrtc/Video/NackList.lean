import PerchWebrtc.Framework.Arrivals
import PerchWebrtc.Video.JitterBuffer

/-!
# The NACK list

Before a frame is decoded, `missing_sequence_numbers_` is what is missing
between the first and the newest of the packets that the frame buffers took
(`Arrivals.missing`), as long as its limits are kept and a free frame is found
for every packet.

* `updateNackList_eq`: one packet;
* `insertPackets_missing`: any sequence of packets.
-/

namespace PerchWebrtc

namespace Arrivals

/-- The limits of the NACK list, with positions in the place of numbers. From
2^15 - 1 on, the distance of a missing number says no longer which of two
numbers is newer. -/
def WithinLimits (a : Arrivals) (maxNackListSize maxPacketAgeToNack : Nat) : Prop :=
  a.missing.length ≤ maxNackListSize ∧
    ∀ p ∈ a.missing, a.newest - p ≤ maxPacketAgeToNack ∧ a.newest - p < 2 ^ 15 - 1

instance (a : Arrivals) (maxNackListSize maxPacketAgeToNack : Nat) :
    Decidable (a.WithinLimits maxNackListSize maxPacketAgeToNack) :=
  inferInstanceAs (Decidable (_ ∧ ∀ _ ∈ _, _))

end Arrivals

namespace Video

open Circular

namespace VCMJitterBuffer

/-! ## The parts of the state -/

/-- What the NACK list depends on. -/
structure NackState where
  nackMode : VCMNackMode
  missing : List (BitVec 16)
  latest : BitVec 16
  firstPacketSinceReset : Bool
  maxNackListSize : Nat
  maxPacketAgeToNack : Nat
  inInitialState : Bool

def nackState (jb : VCMJitterBuffer) : NackState where
  nackMode := jb.nackMode
  missing := jb.missingSequenceNumbers
  latest := jb.latestReceivedSequenceNumber
  firstPacketSinceReset := jb.firstPacketSinceReset
  maxNackListSize := jb.maxNackListSize
  maxPacketAgeToNack := jb.maxPacketAgeToNack
  inInitialState := jb.lastDecodedState.inInitialState

/-- NACK mode, and no frame is decoded. -/
structure Nacking (size age : Nat) (q : NackState) : Prop where
  nackMode : q.nackMode = .kNack
  inInitialState : q.inInitialState = true
  maxNackListSize : q.maxNackListSize = size
  maxPacketAgeToNack : q.maxPacketAgeToNack = age

/-- The list is what is missing of the arrivals. -/
structure Tracks (a : Arrivals) (q : NackState) : Prop where
  bounded : a.Bounded
  started : q.firstPacketSinceReset = false
  latest : q.latest = BitVec.ofInt 16 a.newest
  missing : q.missing = a.missing.map (BitVec.ofInt 16)

section Update

variable {size age : Nat} {a : Arrivals} {jb : VCMJitterBuffer} {seqNum : BitVec 16}

theorem insertMissing_last {ps : List ℤ} {p : ℤ} (h : ∀ q ∈ ps, q < p ∧ p - q < 2 ^ 15) :
    insertMissing (BitVec.ofInt 16 p) (ps.map (BitVec.ofInt 16)) =
      (ps ++ [p]).map (BitVec.ofInt 16) := by
  rw [insertMissing, Ordered.insertAtEnd_last, List.map_append]
  · rfl
  · intro x hx
    obtain ⟨q, hq, rfl⟩ := List.mem_map.mp hx
    exact precedes_ofInt (h q hq).1 (by have := (h q hq).2; omega)

/-- The loop of `UpdateNackList` over `k` numbers. -/
theorem pushMissing_eq : ∀ {k fuel : Nat} {p : ℤ} {ps : List ℤ}, k < fuel → k < 2 ^ 15 →
    (∀ q ∈ ps, q < p ∧ p + k - q ≤ 2 ^ 15) →
    pushMissing (BitVec.ofInt 16 (p + k)) fuel (BitVec.ofInt 16 p) (ps.map (BitVec.ofInt 16)) =
      (ps ++ Arrivals.span p k).map (BitVec.ofInt 16)
  | k, 0, _, _, hfuel, _, _ => absurd hfuel (Nat.not_lt_zero k)
  | 0, fuel + 1, p, ps, _, _, _ => by
    rw [pushMissing, Nat.cast_zero, add_zero, if_neg (precedes_irrefl _)]
    simp [Arrivals.span]
  | k + 1, fuel + 1, p, ps, hfuel, hk, h => by
    have hstep : p + ((k + 1 : Nat) : ℤ) = p + 1 + (k : ℤ) := by omega
    have hnext : BitVec.ofInt 16 p + 1 = BitVec.ofInt 16 (p + 1) := by
      rw [BitVec.ofInt_add]
      rfl
    rw [pushMissing, if_pos (precedes_ofInt (by omega) (by omega)),
      insertMissing_last fun q hq => ⟨(h q hq).1, by have := (h q hq).2; omega⟩, hnext, hstep,
      pushMissing_eq (by omega) (by omega), Arrivals.span_succ, List.append_assoc]
    · rfl
    · intro q hq
      rcases List.mem_append.mp hq with hq | hq
      · have := h q hq
        omega
      · rw [List.mem_singleton.mp hq]
        omega

theorem limitNackList_eq (hsize : jb.missingSequenceNumbers.length ≤ jb.maxNackListSize)
    (hage : ∀ oldest ∈ jb.missingSequenceNumbers.head?,
      (seqNum - oldest).toNat ≤ jb.maxPacketAgeToNack) :
    jb.limitNackList seqNum = (true, jb) := by
  have hlarge : jb.tooLargeNackList = false := decide_eq_false (Nat.not_lt.mpr hsize)
  have hold : jb.missingTooOldPacket seqNum = false := by
    unfold missingTooOldPacket
    cases hhead : jb.missingSequenceNumbers.head? with
    | none => rfl
    | some oldest => exact decide_eq_false (Nat.not_lt.mpr (hage oldest hhead))
  simp [limitNackList, hlarge, hold]

theorem skipDecoded_eq (h : jb.lastDecodedState.inInitialState = true) : jb.skipDecoded = jb :=
  if_pos h

/-- The positions of a newer number. -/
theorem receive_newer (h : Precedes (BitVec.ofInt 16 a.newest) seqNum) :
    ∃ k : Nat, k < 2 ^ 15 - 1 ∧ (seqNum - BitVec.ofInt 16 a.newest).toNat = k + 1 ∧
      seqNum = BitVec.ofInt 16 (a.newest + 1 + k) ∧
      a.receive seqNum = ⟨a.first, a.newest + 1 + k, (a.newest + 1 + k) :: a.received⟩ := by
  obtain ⟨hne, hhalf⟩ := h
  have hpos : (seqNum - BitVec.ofInt 16 a.newest).toNat ≠ 0 := fun e =>
    hne (sub_eq_zero.mp (BitVec.eq_of_toNat_eq e))
  have hnum := ofInt_position a.newest seqNum
  have hposition : position a.newest seqNum =
      a.newest + 1 + (((seqNum - BitVec.ofInt 16 a.newest).toNat - 1 : Nat) : ℤ) := by
    rw [position, if_pos (by omega)]
    omega
  refine ⟨(seqNum - BitVec.ofInt 16 a.newest).toNat - 1, by omega, by omega, ?_, ?_⟩
  · rw [← hposition, hnum]
  · rw [Arrivals.receive, hposition, max_eq_right (by omega)]

/-- The positions of a number that is not newer. At half a circle, a number is
taken for a newer one. -/
theorem receive_older (h : ¬ Precedes (BitVec.ofInt 16 a.newest) seqNum)
    (hhalf : (seqNum - BitVec.ofInt 16 a.newest).toNat ≠ 2 ^ 15) :
    ∃ p : ℤ, p ≤ a.newest ∧ a.newest - p < 2 ^ 15 ∧ seqNum = BitVec.ofInt 16 p ∧
      a.receive seqNum = ⟨a.first, a.newest, p :: a.received⟩ := by
  have hnum := ofInt_position a.newest seqNum
  have hlt := (seqNum - BitVec.ofInt 16 a.newest).isLt
  have hposition : position a.newest seqNum ≤ a.newest ∧
      a.newest - position a.newest seqNum < 2 ^ 15 := by
    unfold position
    dsimp only
    by_cases hzero : (seqNum - BitVec.ofInt 16 a.newest).toNat = 0
    · rw [hzero, if_pos (by omega)]
      omega
    · have hfar : ¬ 2 * (seqNum - BitVec.ofInt 16 a.newest).toNat < 2 ^ 16 := fun hlt =>
        h ⟨fun e => hzero (by rw [e, BitVec.sub_self]; rfl), hlt⟩
      rw [if_neg (by omega)]
      omega
  refine ⟨position a.newest seqNum, hposition.1, hposition.2, hnum.symm, ?_⟩
  rw [Arrivals.receive, max_eq_left hposition.1]

/-- Within the limits, no number is half a circle newer. -/
theorem ne_half_of_withinLimits (h : a.Bounded)
    (hlimits : (a.receive seqNum).WithinLimits size age) :
    (seqNum - BitVec.ofInt 16 a.newest).toNat ≠ 2 ^ 15 := by
  intro hhalf
  have hreceive : a.receive seqNum =
      ⟨a.first, a.newest + 2 ^ 15, (a.newest + 2 ^ 15) :: a.received⟩ := by
    have hposition : position a.newest seqNum = a.newest + 2 ^ 15 := by
      rw [position, hhalf]
      rfl
    rw [Arrivals.receive, hposition, max_eq_right (by omega)]
  have hmem : a.newest + 1 ∈ (a.receive seqNum).missing := by
    have hfirst := h.first_le
    rw [hreceive, Arrivals.mem_missing, List.mem_cons, not_or]
    refine ⟨Int.lt_add_one_of_le hfirst, ?_, by omega, fun hmem => ?_⟩
    · show a.newest + 1 < a.newest + 2 ^ 15
      omega
    · have := h.le_newest _ hmem
      omega
  have hdistance := (hlimits.2 _ hmem).2
  rw [hreceive] at hdistance
  have : a.newest + 2 ^ 15 - (a.newest + 1) < 2 ^ 15 - 1 := hdistance
  omega

/-- The list behind a newer number. -/
theorem pushMissing_newer (hbounded : a.Bounded)
    (hnewer : Precedes (BitVec.ofInt 16 a.newest) seqNum)
    (hlimits : (a.receive seqNum).WithinLimits size age) :
    pushMissing seqNum (seqNum - BitVec.ofInt 16 a.newest).toNat (BitVec.ofInt 16 a.newest + 1)
      (a.missing.map (BitVec.ofInt 16)) = (a.receive seqNum).missing.map (BitVec.ofInt 16) := by
  obtain ⟨k, hk, hdistance, hnum, hreceive⟩ := receive_newer hnewer
  have hsplit := Arrivals.missing_newer hbounded (k := k) rfl rfl
  have hnext : BitVec.ofInt 16 a.newest + 1 = BitVec.ofInt 16 (a.newest + 1) := by
    rw [BitVec.ofInt_add]
    rfl
  have hspread : ∀ q ∈ a.missing, q < a.newest + 1 ∧ a.newest + 1 + k - q ≤ 2 ^ 15 := by
    intro q hq
    have hnear := (hlimits.2 q (by rw [hreceive, hsplit]; exact List.mem_append_left _ hq)).2
    have hlt := (Arrivals.mem_missing.mp hq).2.1
    rw [hreceive] at hnear
    have : a.newest + 1 + k - q < 2 ^ 15 - 1 := hnear
    omega
  have hpush := pushMissing_eq (Nat.lt_succ_self k) (by omega) hspread
  rw [← hnum, ← hsplit, ← hreceive] at hpush
  rw [hdistance, hnext, hpush]

/-- The list behind a number that is not newer. -/
theorem erase_older (hbounded : a.Bounded)
    (hnewer : ¬ Precedes (BitVec.ofInt 16 a.newest) seqNum)
    (hlimits : (a.receive seqNum).WithinLimits size age) :
    Ordered.erase Precedes id seqNum (a.missing.map (BitVec.ofInt 16)) =
      (a.receive seqNum).missing.map (BitVec.ofInt 16) := by
  obtain ⟨p, hle, hnear, hnum, hreceive⟩ := receive_older hnewer
    (ne_half_of_withinLimits hbounded hlimits)
  have herase := Arrivals.missing_older (a := a) (p := p) rfl
  rw [hreceive] at hlimits
  rw [hreceive, herase, hnum, Ordered.erase_map]
  intro q hq
  constructor
  · intro hsame
    by_contra hne
    have hold := (hlimits.2 q (by rw [herase]; exact (List.mem_erase_of_ne hne).mpr hq)).2
    have hold : a.newest - q < 2 ^ 15 - 1 := hold
    have hlt := (Arrivals.mem_missing.mp hq).2.1
    rcases lt_or_gt_of_ne hne with hlt' | hlt'
    · exact hsame.1 (precedes_ofInt hlt' (by omega))
    · exact hsame.2 (precedes_ofInt hlt' (by omega))
  · rintro rfl
    exact ⟨precedes_irrefl _, precedes_irrefl _⟩

/-- In the limits the oldest missing number is not too old. -/
theorem sub_oldest_le (hnewer : Precedes (BitVec.ofInt 16 a.newest) seqNum)
    (hlimits : (a.receive seqNum).WithinLimits size age) {oldest : BitVec 16}
    (holdest : oldest ∈ ((a.receive seqNum).missing.map (BitVec.ofInt 16)).head?) :
    (seqNum - oldest).toNat ≤ age := by
  obtain ⟨k, hk, hdistance, hnum, hreceive⟩ := receive_newer hnewer
  obtain ⟨q, hq, rfl⟩ := List.mem_map.mp (List.mem_of_mem_head? holdest)
  obtain ⟨hage, hnear⟩ := hlimits.2 q hq
  have hlt := (Arrivals.mem_missing.mp hq).2.1
  rw [hreceive] at hage hnear hlt
  have hsub := @ofInt_sub_toNat_of_lt 16 q (a.newest + 1 + k) (le_of_lt hlt)
    (lt_trans hnear (by norm_num))
  rw [← hnum] at hsub
  have hage : a.newest + 1 + k - q ≤ age := hage
  omega

theorem updateNackList_eq (h : Tracks a jb.nackState) (hn : Nacking size age jb.nackState)
    (hlimits : (a.receive seqNum).WithinLimits size age) :
    jb.updateNackList seqNum = (true, { jb with
      missingSequenceNumbers := (a.receive seqNum).missing.map (BitVec.ofInt 16) }) := by
  obtain ⟨hmode, hinitial, rfl, rfl⟩ := hn
  have hlatest : jb.latestReceivedSequenceNumber = BitVec.ofInt 16 a.newest := h.latest
  have hmissing : jb.missingSequenceNumbers = a.missing.map (BitVec.ofInt 16) := h.missing
  have hkack : ¬ jb.nackMode = .kNoNack := by
    rw [show jb.nackMode = .kNack from hmode]
    decide
  rw [updateNackList, if_neg hkack, skipDecoded_eq hinitial]
  dsimp only
  by_cases hnewer : Precedes (BitVec.ofInt 16 a.newest) seqNum
  · have hlist := pushMissing_newer h.bounded hnewer hlimits
    rw [← hlatest, ← hmissing] at hlist
    rw [if_pos (hlatest ▸ hnewer), hlist, limitNackList_eq]
    · rw [List.length_map]
      exact hlimits.1
    · exact fun oldest holdest => sub_oldest_le hnewer hlimits holdest
  · have hlist := erase_older h.bounded hnewer hlimits
    rw [← hmissing] at hlist
    rw [if_neg (hlatest ▸ hnewer), hlist]

end Update

/-! ## What leaves the list unchanged -/

section Frame

variable (jb : VCMJitterBuffer) (packet : VCMPacket Mem) (i : Nat)

theorem placeFrame_nackState (first : Bool) :
    (jb.placeFrame packet i first).nackState = jb.nackState := by
  unfold placeFrame
  dsimp only
  split_ifs <;> rfl

theorem updateEmptyFrame_inInitialState (st : VCMDecodingState) (frame : VCMFrameBuffer) :
    (st.updateEmptyFrame frame).2.inInitialState = st.inInitialState := by
  unfold VCMDecodingState.updateEmptyFrame
  dsimp only
  split_ifs <;> rfl

theorem switchReturn_nackState (first : Bool) (previousState : VCMFrameBufferStateEnum)
    (bufferReturn : VCMFrameBufferEnum) :
    (jb.switchReturn packet i first previousState bufferReturn).2.nackState = jb.nackState := by
  have hplace (stays : Prop) [Decidable stays] :
      (if stays then jb else jb.placeFrame packet i first).nackState = jb.nackState := by
    split
    · rfl
    · exact placeFrame_nackState jb packet i first
  have hst := updateEmptyFrame_inInitialState jb.lastDecodedState (jb.frameBuffers i)
  unfold switchReturn
  cases bufferReturn
  case kCompleteSession => exact hplace _
  case kDecodableSession => exact hplace _
  case kIncomplete =>
    dsimp only
    split_ifs
    · unfold nackState
      dsimp only
      rw [hst]
      rfl
    all_goals rfl
  all_goals rfl

/-- A frame is there for the packet, or can be had without recycling. -/
def HasFrame : Prop :=
  (jb.incompleteFrames.findFrame packet.timestamp).isSome ∨
    (jb.decodableFrames.findFrame packet.timestamp).isSome ∨ jb.freeFrames ≠ [] ∨
      jb.maxNumberOfFrames < kMaxNumberOfFrames

theorem getEmptyFrame_eq (h : jb.freeFrames ≠ [] ∨ jb.maxNumberOfFrames < kMaxNumberOfFrames) :
    ∃ i jb', jb.getEmptyFrame = some (i, jb') ∧ jb'.nackState = jb.nackState := by
  unfold getEmptyFrame tryToIncreaseJitterBufferSize
  cases hfree : jb.freeFrames with
  | nil =>
    have hmax : ¬ kMaxNumberOfFrames ≤ jb.maxNumberOfFrames :=
      Nat.not_le.mpr (h.resolve_left fun hne => hne hfree)
    rw [if_pos rfl, if_neg hmax, List.nil_append]
    exact ⟨_, _, rfl, rfl⟩
  | cons i free =>
    rw [if_neg (List.cons_ne_nil i free), Option.bind_some, hfree]
    exact ⟨i, _, rfl, rfl⟩

theorem getFrame_eq (hinitial : jb.lastDecodedState.inInitialState = true)
    (h : jb.HasFrame packet) :
    ∃ i jb', jb.getFrame packet = (.kNoError, some i, jb') ∧ jb'.nackState = jb.nackState := by
  have hold : jb.lastDecodedState.isOldPacket packet = false := by
    rw [VCMDecodingState.isOldPacket, hinitial]
    rfl
  unfold getFrame
  rw [hold, if_neg Bool.false_ne_true]
  dsimp only
  cases hincomplete : jb.incompleteFrames.findFrame packet.timestamp with
  | some i => exact ⟨i, _, rfl, rfl⟩
  | none =>
    cases hdecodable : jb.decodableFrames.findFrame packet.timestamp with
    | some i => exact ⟨i, _, rfl, rfl⟩
    | none =>
      unfold HasFrame at h
      rw [hincomplete, hdecodable] at h
      obtain ⟨i, jb', hempty, hstate⟩ := getEmptyFrame_eq { jb with numConsecutiveOldPackets := 0 }
        ((h.resolve_left Bool.false_ne_true).resolve_left Bool.false_ne_true)
      dsimp only
      rw [hempty]
      exact ⟨i, _, rfl, hstate⟩

end Frame

/-! ## One packet -/

section Receive

variable {size age : Nat} {a : Arrivals} {jb : VCMJitterBuffer} {packet : VCMPacket Mem}

theorem latest_receive (hbounded : a.Bounded)
    (hlimits : (a.receive packet.seqNum).WithinLimits size age) :
    latestSequenceNumber (BitVec.ofInt 16 a.newest) packet.seqNum =
      BitVec.ofInt 16 (a.receive packet.seqNum).newest := by
  unfold latestSequenceNumber
  by_cases hnewer : Precedes (BitVec.ofInt 16 a.newest) packet.seqNum
  · obtain ⟨k, -, -, hnum, hreceive⟩ := receive_newer hnewer
    rw [if_neg hnewer.asymm, hreceive, ← hnum]
  · obtain ⟨p, hle, hnear, hnum, hreceive⟩ := receive_older hnewer
      (ne_half_of_withinLimits hbounded hlimits)
    rw [hreceive]
    rcases eq_or_lt_of_le hle with rfl | hlt
    · rw [hnum, ite_self]
    · rw [hnum, if_pos (precedes_ofInt hlt (by omega))]

/-- A packet that a frame took, behind the first. -/
theorem receivePacket_tracks (h : Tracks a jb.nackState) (hn : Nacking size age jb.nackState)
    (hlimits : (a.receive packet.seqNum).WithinLimits size age) (i : Nat) :
    (jb.receivePacket packet i).1 = true ∧
      Tracks (a.receive packet.seqNum) (jb.receivePacket packet i).2.nackState ∧
      Nacking size age (jb.receivePacket packet i).2.nackState := by
  have hstarted : jb.firstPacketSinceReset = false := h.started
  have hlatest : jb.latestReceivedSequenceNumber = _ := h.latest
  have hnewest := latest_receive h.bounded hlimits
  rw [← hlatest] at hnewest
  unfold receivePacket
  rw [hstarted, if_neg Bool.false_ne_true]
  dsimp only
  split
  · have hupdate := @updateNackList_eq size age a
      (jb.setFrame i { jb.frameBuffers i with nackCount := (jb.frameBuffers i).nackCount + 1 }) _
      h hn hlimits
    rw [hupdate]
    exact ⟨rfl, ⟨h.bounded.receive _, hstarted, hnewest, rfl⟩, ⟨hn.1, hn.2, hn.3, hn.4⟩⟩
  · rw [updateNackList_eq h hn hlimits]
    exact ⟨rfl, ⟨h.bounded.receive _, hstarted, hnewest, rfl⟩, ⟨hn.1, hn.2, hn.3, hn.4⟩⟩

/-- No packet was taken yet. -/
structure Waiting (q : NackState) : Prop where
  first : q.firstPacketSinceReset = true
  missing : q.missing = []

theorem receivePacket_first (h : Waiting jb.nackState) (hn : Nacking size age jb.nackState)
    (i : Nat) :
    (jb.receivePacket packet i).1 = true ∧
      Tracks (.begin packet.seqNum) (jb.receivePacket packet i).2.nackState ∧
      Nacking size age (jb.receivePacket packet i).2.nackState := by
  have hfirst : jb.firstPacketSinceReset = true := h.first
  unfold receivePacket
  rw [hfirst, if_pos rfl]
  refine ⟨rfl, ⟨Arrivals.bounded_begin _, rfl, ?_, ?_⟩, ⟨hn.1, hn.2, hn.3, hn.4⟩⟩
  · show packet.seqNum = BitVec.ofInt 16 (packet.seqNum.toNat : ℤ)
    rw [BitVec.ofInt_natCast, BitVec.ofNat_toNat, BitVec.setWidth_eq]
  · rw [Arrivals.missing_begin]
    exact h.missing

/-- The list follows the arrivals, if there are any. -/
def Follows (arrived : Option Arrivals) (q : NackState) : Prop :=
  arrived.elim (Waiting q) fun a => Tracks a q

/-- One more number arrived. -/
def arrive (arrived : Option Arrivals) (seqNum : BitVec 16) : Arrivals :=
  arrived.elim (.begin seqNum) fun a => a.receive seqNum

theorem receivePacket_follows {arrived : Option Arrivals} (h : Follows arrived jb.nackState)
    (hn : Nacking size age jb.nackState)
    (hlimits : (arrive arrived packet.seqNum).WithinLimits size age) (i : Nat) :
    (jb.receivePacket packet i).1 = true ∧
      Tracks (arrive arrived packet.seqNum) (jb.receivePacket packet i).2.nackState ∧
      Nacking size age (jb.receivePacket packet i).2.nackState := by
  cases arrived with
  | none => exact receivePacket_first h hn i
  | some a => exact receivePacket_tracks h hn hlimits i

end Receive

/-! ## Runs -/

/-- What `InsertPacket` is called with, together with what it finds in its
surroundings. -/
structure Insertion where
  packet : VCMPacket Mem
  fresh : Mem
  frameData : FrameData

def insert (jb : VCMJitterBuffer) (x : Insertion) :
    (VCMFrameBufferEnum × Option Bool) × VCMJitterBuffer :=
  jb.insertPacket x.fresh x.frameData x.packet

/-- What the frame buffer returns for the packet. -/
def bufferReturn (jb : VCMJitterBuffer) (x : Insertion) : VCMFrameBufferEnum :=
  match jb.getFrame x.packet with
  | (error, none, _) => error
  | (_, some i, jb) =>
    ((jb.frameBuffers i).insertPacket x.fresh jb.decodeErrorMode x.frameData x.packet).1

def insertPackets : List Insertion → VCMJitterBuffer → VCMJitterBuffer
  | [], jb => jb
  | x :: xs, jb => insertPackets xs (jb.insert x).2

/-- The numbers of the packets that the frame buffers took. -/
def taken : List Insertion → VCMJitterBuffer → List (BitVec 16)
  | [], _ => []
  | x :: xs, jb =>
    if 0 < (jb.bufferReturn x).value then x.packet.seqNum :: taken xs (jb.insert x).2
    else taken xs (jb.insert x).2

/-- No frame has to be recycled. -/
def FindFrames : List Insertion → VCMJitterBuffer → Prop
  | [], _ => True
  | x :: xs, jb => jb.HasFrame x.packet ∧ FindFrames xs (jb.insert x).2

/-- After each of the numbers, what is missing is within the limits. -/
def LimitsKept (maxNackListSize maxPacketAgeToNack : Nat) (seqNums : List (BitVec 16)) : Prop :=
  ∀ seen ∈ seqNums.inits, ∀ a ∈ Arrivals.ofNumbers seen,
    a.WithinLimits maxNackListSize maxPacketAgeToNack

/-- The missing numbers, in the order of the set. -/
def missingNumbers (seqNums : List (BitVec 16)) : List (BitVec 16) :=
  (Arrivals.ofNumbers seqNums).elim [] fun a => a.missing.map (BitVec.ofInt 16)

/-- A started jitter buffer in NACK mode. -/
def nacking (mode : VCMDecodeErrorMode)
    (maxNackListSize maxPacketAgeToNack maxIncompleteTimeMs : Nat) : VCMJitterBuffer :=
  ({ decodeErrorMode := mode : VCMJitterBuffer }.start.setNackMode .kNack).setNackSettings
    maxNackListSize maxPacketAgeToNack maxIncompleteTimeMs

section Runs

variable {size age : Nat} {jb : VCMJitterBuffer}

/-- A packet is taken and arrives, or leaves the list as it is. -/
theorem insert_follows {arrived : Option Arrivals} {x : Insertion}
    (h : Follows arrived jb.nackState) (hn : Nacking size age jb.nackState)
    (hframe : jb.HasFrame x.packet)
    (hlimits : 0 < (jb.bufferReturn x).value →
      (arrive arrived x.packet.seqNum).WithinLimits size age) :
    Nacking size age (jb.insert x).2.nackState ∧
      Follows (if 0 < (jb.bufferReturn x).value then some (arrive arrived x.packet.seqNum)
        else arrived) (jb.insert x).2.nackState := by
  obtain ⟨i, jb', hget, hstate⟩ := getFrame_eq jb x.packet hn.inInitialState hframe
  rw [← hstate] at h hn
  have hinitial : jb'.lastDecodedState.inInitialState = true := hn.inInitialState
  have hold : jb'.lastDecodedState.isOldPacket x.packet = false := by
    rw [VCMDecodingState.isOldPacket, hinitial]
    rfl
  unfold insert insertPacket bufferReturn at *
  rw [hget] at hlimits ⊢
  dsimp only at hlimits ⊢
  rw [hold, if_neg Bool.false_ne_true]
  unfold insertInto
  dsimp only
  by_cases htook : 0 < ((jb'.frameBuffers i).insertPacket x.fresh jb'.decodeErrorMode x.frameData
      x.packet).1.value
  · rw [if_pos htook, if_pos htook, switchReturn_nackState]
    obtain ⟨-, htracks, hn'⟩ := @receivePacket_follows size age
      ({ jb' with numConsecutiveOldFrames := 0 }.setFrame i ((jb'.frameBuffers i).insertPacket
        x.fresh jb'.decodeErrorMode x.frameData x.packet).2) _ _ h hn (hlimits htook) i
    exact ⟨hn', htracks⟩
  · rw [if_neg htook, if_neg htook, switchReturn_nackState]
    exact ⟨hn, h⟩

/-- The arrivals from a state on. -/
theorem insertPackets_follows : ∀ {xs : List Insertion} {jb : VCMJitterBuffer} {a : Arrivals},
    Tracks a jb.nackState → Nacking size age jb.nackState → FindFrames xs jb →
    (∀ seen ∈ (taken xs jb).inits, (seen.foldl Arrivals.receive a).WithinLimits size age) →
    Tracks ((taken xs jb).foldl Arrivals.receive a) (insertPackets xs jb).nackState
  | [], _, _, h, _, _, _ => h
  | x :: xs, jb, a, h, hn, hframes, hlimits => by
    rw [taken] at hlimits ⊢
    have hstep := @insert_follows size age jb (some a) x h hn hframes.1
    by_cases htook : 0 < (jb.bufferReturn x).value
    · rw [if_pos htook] at hlimits hstep ⊢
      rw [List.inits_cons] at hlimits
      obtain ⟨hn', h'⟩ := hstep fun _ => hlimits [x.packet.seqNum]
        (List.mem_cons_of_mem _ (List.mem_map_of_mem (List.mem_inits _ _ |>.mpr List.nil_prefix)))
      exact insertPackets_follows h' hn' hframes.2 fun seen hseen =>
        hlimits (x.packet.seqNum :: seen) (List.mem_cons_of_mem _ (List.mem_map_of_mem hseen))
    · rw [if_neg htook] at hlimits hstep ⊢
      obtain ⟨hn', h'⟩ := hstep fun h => absurd h htook
      exact insertPackets_follows h' hn' hframes.2 hlimits

/-- Up to the first arrival. -/
theorem insertPackets_waiting : ∀ {xs : List Insertion} {jb : VCMJitterBuffer},
    Waiting jb.nackState → Nacking size age jb.nackState → FindFrames xs jb →
    LimitsKept size age (taken xs jb) →
    Follows (Arrivals.ofNumbers (taken xs jb)) (insertPackets xs jb).nackState
  | [], _, h, _, _, _ => h
  | x :: xs, jb, h, hn, hframes, hlimits => by
    rw [taken] at hlimits ⊢
    have hstep := @insert_follows size age jb none x h hn hframes.1
    by_cases htook : 0 < (jb.bufferReturn x).value
    · rw [if_pos htook] at hlimits hstep ⊢
      unfold LimitsKept at hlimits
      rw [List.inits_cons] at hlimits
      obtain ⟨hn', h'⟩ := hstep fun _ => hlimits [x.packet.seqNum]
        (List.mem_cons_of_mem _ (List.mem_map_of_mem (List.mem_inits _ _ |>.mpr List.nil_prefix))) _ rfl
      exact insertPackets_follows h' hn' hframes.2 fun seen hseen =>
        hlimits (x.packet.seqNum :: seen) (List.mem_cons_of_mem _ (List.mem_map_of_mem hseen)) _ rfl
    · rw [if_neg htook] at hlimits hstep ⊢
      obtain ⟨hn', h'⟩ := hstep fun h => absurd h htook
      exact insertPackets_waiting h' hn' hframes.2 hlimits

/-- In a run that finds a frame for every packet and keeps the limits, the
list is what is missing between the first and the newest number taken. -/
theorem insertPackets_missing {mode : VCMDecodeErrorMode} {time : Nat} {xs : List Insertion}
    (hframes : FindFrames xs (nacking mode size age time))
    (hlimits : LimitsKept size age (taken xs (nacking mode size age time))) :
    (insertPackets xs (nacking mode size age time)).missingSequenceNumbers =
      missingNumbers (taken xs (nacking mode size age time)) := by
  have h := insertPackets_waiting ⟨rfl, rfl⟩ ⟨rfl, rfl, rfl, rfl⟩ hframes hlimits
  unfold missingNumbers
  cases harrived : Arrivals.ofNumbers (taken xs (nacking mode size age time)) with
  | none =>
    rw [harrived] at h
    exact Waiting.missing h
  | some a =>
    rw [harrived] at h
    exact Tracks.missing h

end Runs

/-! ## Examples of runs -/

instance (jb : VCMJitterBuffer) (packet : VCMPacket Mem) : Decidable (jb.HasFrame packet) :=
  inferInstanceAs (Decidable (_ ∨ _ ∨ _ ∨ _))

instance decidableFindFrames : ∀ (xs : List Insertion) (jb : VCMJitterBuffer),
    Decidable (FindFrames xs jb)
  | [], _ => isTrue trivial
  | x :: xs, jb =>
    have := decidableFindFrames xs (jb.insert x).2
    inferInstanceAs (Decidable (jb.HasFrame x.packet ∧ FindFrames xs (jb.insert x).2))

instance (maxNackListSize maxPacketAgeToNack : Nat) (seqNums : List (BitVec 16)) :
    Decidable (LimitsKept maxNackListSize maxPacketAgeToNack seqNums) :=
  inferInstanceAs (Decidable (∀ seen ∈ seqNums.inits, ∀ a ∈ Arrivals.ofNumbers seen, _))

/-- A packet of one byte that is a frame by itself. -/
def wholeFrame (seqNum : BitVec 16) (timestamp : BitVec 32) : Insertion where
  packet :=
    { timestamp, seqNum, dataPtr := some fun _ => 0, sizeBytes := 1, markerBit := true,
      frameType := .kVideoFrameDelta, isFirstPacket := true }
  fresh _ := 0
  frameData := ⟨0, fun _ => false⟩

/-- Over the wrap, with a late packet, a duplicate and a loss. -/
theorem insertPackets_missing_wrapped :
    let xs := [wholeFrame 65534 3000, wholeFrame 2 9000, wholeFrame 0 6000, wholeFrame 2 9000,
      wholeFrame 4 12000]
    (insertPackets xs (nacking .kNoErrors 250 450 0)).missingSequenceNumbers = [65535, 1, 3] := by
  have hmissing := @insertPackets_missing 250 450 .kNoErrors 0
    [wholeFrame 65534 3000, wholeFrame 2 9000, wholeFrame 0 6000, wholeFrame 2 9000,
      wholeFrame 4 12000] (by decide +kernel) (by decide +kernel)
  refine hmissing.trans ?_
  decide +kernel

/-- The timestamps 1 and 2^31 + 1 are the same for the list of the frames, so
that the second packet is refused, and listed as missing. -/
theorem insertPackets_not_missing :
    ¬ ∀ (mode : VCMDecodeErrorMode) (size age time : Nat) (xs : List Insertion),
      (∀ x ∈ xs, x.packet.frameType ≠ .kFrameEmpty) →
      LimitsKept size age (xs.map fun x => x.packet.seqNum) →
      (insertPackets xs (nacking mode size age time)).missingSequenceNumbers =
        missingNumbers (xs.map fun x => x.packet.seqNum) := by
  intro h
  have hmissing := h .kNoErrors 250 450 0 [wholeFrame 1 1, wholeFrame 2 0x80000001, wholeFrame 3 2]
    (by decide) (by decide +kernel)
  revert hmissing
  decide +kernel

end VCMJitterBuffer

end Video

end PerchWebrtc
