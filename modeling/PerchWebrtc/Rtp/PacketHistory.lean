import PerchWebrtc.Framework.Bytes

/-!
# The history of sent packets

`RTPPacketHistory` (`rtp_packet_history.cc`): the packets that may have to be
sent again, in a ring. A lookup guesses the index from the distance between the
sequence numbers and searches the ring if the guess is wrong. The clock is a
parameter of the calls that read it.

* `findSeqNum_some`, `findSeqNum_none`: what the guess and the search find;
* `Refines`: the ring holds the last packets of a `History`, which only grows;
* `Refines.putRTPPacket`, `Refines.replaceRTPHeader`, `Refines.updateResendTime`: the calls
  on both sides;
* `run_getRTPPacket`: a lookup after any calls.
-/

namespace PerchWebrtc.Rtp

inductive StorageType where
  | kDontStore
  | kDontRetransmit
  | kAllowRetransmission
  deriving DecidableEq

/-- What the parallel vectors hold at one index. -/
structure StoredPacket where
  packet : List Byte := []
  seqNum : BitVec 16 := 0
  length : Nat := 0
  time : Int := 0
  resendTime : Int := 0
  type : StorageType := .kDontStore
  deriving DecidableEq

structure RTPPacketHistory where
  store : Bool := false
  prevIndex : Nat := 0
  maxPacketLength : Nat := 0
  stored : List StoredPacket := []

/-- What `GetRTPPacket` hands out when it returns `true`. -/
inductive Retrieved where
  /-- The length is set to 0, nothing is copied. -/
  | recentlyResent
  | packet (bytes : List Byte) (storedTime : Int) (type : StorageType)
  deriving DecidableEq

/-- `std::vector::resize` of bytes. -/
def resize (buffer : List Byte) (size : Nat) : List Byte :=
  buffer.take size ++ List.replicate (size - buffer.length) 0

/-- `std::copy` of bytes to the beginning of others. -/
def overwrite (bytes buffer : List Byte) : List Byte := bytes ++ buffer.drop bytes.length

/-- The sequence number of a packet. -/
def seqNumOf (packet : List Byte) : BitVec 16 := packet.getD 2 0 ++ packet.getD 3 0

namespace RTPPacketHistory

variable (s : RTPPacketHistory)

def allocate (numberToStore : Nat) : RTPPacketHistory :=
  if s.store then s
  else { s with store := true, stored := List.replicate numberToStore {} }

def free : RTPPacketHistory := if s.store then {} else s

def setStorePacketsStatus (enable : Bool) (numberToStore : Nat) : RTPPacketHistory :=
  if enable then s.allocate numberToStore else s.free

def verifyAndAllocatePacketLength (packetLength : Nat) : RTPPacketHistory :=
  if ¬ s.store then s
  else if packetLength ≤ s.maxPacketLength then s
  else { s with
    stored := s.stored.map fun slot => { slot with packet := resize slot.packet packetLength }
    maxPacketLength := packetLength }

/-- `now` is what the clock would say. -/
def putRTPPacket (packet : List Byte) (maxPacketLength : Nat) (captureTimeMs now : Int)
    (type : StorageType) : Int × RTPPacketHistory :=
  if type = .kDontStore then (0, s)
  else if ¬ s.store then (0, s)
  else
    let s := s.verifyAndAllocatePacketLength maxPacketLength
    if s.maxPacketLength < packet.length then (-1, s)
    else (0, { s with
      stored := s.stored.modify s.prevIndex fun slot =>
        { packet := overwrite packet slot.packet
          seqNum := seqNumOf packet
          length := packet.length
          time := if 0 < captureTimeMs then captureTimeMs else now
          resendTime := 0
          type := type }
      prevIndex := if s.stored.length ≤ s.prevIndex + 1 then 0 else s.prevIndex + 1 })

def seqNumAt (index : Nat) : BitVec 16 := (s.stored.getD index {}).seqNum

/-- The index that `FindSeqNum` tries first: the place of the last packet, and
from there back by the distance between the numbers, if that is in the ring. -/
def guessIndex (sequenceNumber : BitVec 16) : Nat :=
  let last := if 0 < s.prevIndex then s.prevIndex - 1 else s.stored.length - 1
  let idx : Int := ((s.prevIndex : Int) - 1) - ((s.seqNumAt last).toNat - sequenceNumber.toNat)
  if 0 ≤ idx ∧ idx < s.stored.length then idx.toNat else last

def findSeqNum (sequenceNumber : BitVec 16) : Option Nat :=
  if s.seqNumAt (s.guessIndex sequenceNumber) ≠ sequenceNumber then
    s.stored.findIdx? (·.seqNum = sequenceNumber)
  else some (s.guessIndex sequenceNumber)

def replaceRTPHeader (header : List Byte) (sequenceNumber : BitVec 16) : Int × RTPPacketHistory :=
  if ¬ s.store then (0, s)
  else if s.maxPacketLength < header.length then (-1, s)
  else
    match s.findSeqNum sequenceNumber with
    | none => (-1, s)
    | some index =>
      let length := (s.stored.getD index {}).length
      if length = 0 ∨ s.maxPacketLength < length then (-1, s)
      else (0, { s with
        stored := s.stored.modify index fun slot =>
          { slot with packet := overwrite header slot.packet } })

def hasRTPPacket (sequenceNumber : BitVec 16) : Bool :=
  if ¬ s.store then false
  else
    match s.findSeqNum sequenceNumber with
    | none => false
    | some index =>
      let length := (s.stored.getD index {}).length
      ¬ (length = 0 ∨ s.maxPacketLength < length)

/-- `GetRTPPacket` into a buffer; `none` stands for `false`. -/
def getRTPPacket (sequenceNumber : BitVec 16) (minElapsedTimeMs bufferSize : Nat) (now : Int) :
    Option Retrieved :=
  if ¬ s.store then none
  else
    match s.findSeqNum sequenceNumber with
    | none => none
    | some index =>
      let slot := s.stored.getD index {}
      if slot.length = 0 ∨ s.maxPacketLength < slot.length then none
      else if bufferSize < slot.length then none
      else if 0 < minElapsedTimeMs ∧ now - slot.resendTime < minElapsedTimeMs then
        some .recentlyResent
      else some (.packet (slot.packet.take slot.length) slot.time slot.type)

def updateResendTime (sequenceNumber : BitVec 16) (now : Int) : RTPPacketHistory :=
  if ¬ s.store then s
  else
    match s.findSeqNum sequenceNumber with
    | none => s
    | some index =>
      { s with stored := s.stored.modify index fun slot => { slot with resendTime := now } }

end RTPPacketHistory

/-! ## What a history is for -/

/-- A packet that has been stored. -/
structure SentPacket where
  seqNum : BitVec 16
  packet : List Byte
  time : Int
  resendTime : Int
  type : StorageType

/-- The bytes of a packet with others at its beginning. -/
def SentPacket.replaceHeader (header : List Byte) (e : SentPacket) : SentPacket :=
  { e with packet := (overwrite header e.packet).take e.packet.length }

/-- All packets that have been stored since the history was switched on, the
last one first. Only the last `capacity` of them can be looked up. -/
structure History where
  capacity : Nat
  limit : Nat := 0
  entries : List SentPacket := []

namespace History

variable (h : History)

def window : List SentPacket := h.entries.take h.capacity

/-- The last packet with a number, if it is among the last `capacity`. -/
def lookup (sequenceNumber : BitVec 16) : Option SentPacket :=
  h.window.find? (·.seqNum = sequenceNumber)

/-- Changes the packets with a number among the last `capacity`. -/
def change (sequenceNumber : BitVec 16) (f : SentPacket → SentPacket) : History :=
  { h with
    entries := (h.window.map fun e => if e.seqNum = sequenceNumber then f e else e) ++
      h.entries.drop h.capacity }

def put (packet : List Byte) (maxPacketLength : Nat) (captureTimeMs now : Int)
    (type : StorageType) : History :=
  if type = .kDontStore then h
  else
    let h := { h with limit := max h.limit maxPacketLength }
    if h.limit < packet.length then h
    else { h with
      entries :=
        { seqNum := seqNumOf packet
          packet := packet
          time := if 0 < captureTimeMs then captureTimeMs else now
          resendTime := 0
          type := type } :: h.entries }

def replaceHeader (header : List Byte) (sequenceNumber : BitVec 16) : History :=
  if h.limit < header.length then h
  else h.change sequenceNumber (SentPacket.replaceHeader header)

def updateResendTime (sequenceNumber : BitVec 16) (now : Int) : History :=
  h.change sequenceNumber fun e => { e with resendTime := now }

/-- The answer to a lookup. -/
def get (sequenceNumber : BitVec 16) (minElapsedTimeMs bufferSize : Nat) (now : Int) :
    Option Retrieved :=
  (h.lookup sequenceNumber).bind fun e =>
    if bufferSize < e.packet.length then none
    else if 0 < minElapsedTimeMs ∧ now - e.resendTime < minElapsedTimeMs then some .recentlyResent
    else some (.packet e.packet e.time e.type)

/-- A packet that is stored is long enough for a sequence number, as the source
asserts, and its number is not that of a packet that stays. -/
def Admits (packet : List Byte) (maxPacketLength : Nat) (type : StorageType) : Prop :=
  type ≠ .kDontStore → packet.length ≤ max h.limit maxPacketLength →
    3 < packet.length ∧ ∀ e ∈ h.entries.take (h.capacity - 1), e.seqNum ≠ seqNumOf packet

end History

/-! ## Lookups -/

namespace RTPPacketHistory

section Lookup

variable {s : RTPPacketHistory} {q : BitVec 16} {i : Nat}

theorem seqNumAt_eq (hi : i < s.stored.length) : s.seqNumAt i = s.stored[i].seqNum := by
  unfold seqNumAt
  rw [List.getD_eq_getElem _ _ hi]

theorem guessIndex_lt (hprev : s.prevIndex < s.stored.length) (q : BitVec 16) :
    s.guessIndex q < s.stored.length := by
  have hlast : (if 0 < s.prevIndex then s.prevIndex - 1 else s.stored.length - 1) <
      s.stored.length := by
    split <;> omega
  unfold guessIndex
  dsimp only
  generalize (if 0 < s.prevIndex then s.prevIndex - 1 else s.stored.length - 1) = last at hlast ⊢
  split
  · omega
  · exact hlast

theorem findSeqNum_some (hprev : s.prevIndex < s.stored.length) (h : s.findSeqNum q = some i) :
    ∃ hi : i < s.stored.length, s.stored[i].seqNum = q := by
  unfold findSeqNum at h
  by_cases hguess : s.seqNumAt (s.guessIndex q) = q
  · rw [if_neg (not_not.mpr hguess)] at h
    have hlt := guessIndex_lt hprev q
    rw [seqNumAt_eq hlt] at hguess
    obtain rfl := Option.some.inj h
    exact ⟨hlt, hguess⟩
  · rw [if_pos hguess] at h
    obtain ⟨hi, hseq, -⟩ := List.findIdx?_eq_some_iff_getElem.mp h
    exact ⟨hi, of_decide_eq_true hseq⟩

theorem findSeqNum_none (h : s.findSeqNum q = none) : ∀ slot ∈ s.stored, slot.seqNum ≠ q := by
  unfold findSeqNum at h
  by_cases hguess : s.seqNumAt (s.guessIndex q) = q
  · rw [if_neg (not_not.mpr hguess)] at h
    cases h
  · rw [if_pos hguess] at h
    intro slot hslot
    exact of_decide_eq_false (List.findIdx?_eq_none_iff.mp h slot hslot)

/-- As long as the ring has not been filled, a number is not found behind the
packets if it is among them: the guess does not lead there, and the search
comes to them last. -/
theorem findSeqNum_unused (hprev : s.prevIndex < s.stored.length)
    (hunused : ∀ slot ∈ s.stored.drop s.prevIndex, slot.seqNum = 0)
    (h : s.findSeqNum q = some i) (hi : s.prevIndex ≤ i) :
    ∀ slot ∈ s.stored.take s.prevIndex, slot.seqNum ≠ q := by
  obtain ⟨hlt, hseq⟩ := findSeqNum_some hprev h
  have hq : q = 0 := by
    rw [← hseq]
    exact hunused _ (List.mem_drop_iff_getElem.mpr ⟨i - s.prevIndex, by omega, by
      congr 1
      omega⟩)
  unfold findSeqNum at h
  by_cases hguess : s.seqNumAt (s.guessIndex q) = q
  · rw [if_neg (not_not.mpr hguess)] at h
    by_cases hzero : s.prevIndex = 0
    · rw [hzero, List.take_zero]
      exact fun slot hslot => absurd hslot List.not_mem_nil
    · have hindex := Option.some.inj h
      unfold guessIndex at hindex
      rw [if_pos (Nat.pos_of_ne_zero hzero)] at hindex
      have hnone : q.toNat = 0 := by rw [hq]; rfl
      dsimp only at hindex
      split at hindex <;> omega
  · rw [if_pos hguess] at h
    obtain ⟨_, _, hfirst⟩ := List.findIdx?_eq_some_iff_getElem.mp h
    intro slot hslot
    obtain ⟨j, hj, rfl⟩ := List.mem_take_iff_getElem.mp hslot
    exact of_decide_eq_false (eq_false_of_ne_true (hfirst j (by omega)))

end Lookup

end RTPPacketHistory

/-! ## The ring as a history -/

def StoredPacket.entry (slot : StoredPacket) : SentPacket where
  seqNum := slot.seqNum
  packet := slot.packet.take slot.length
  time := slot.time
  resendTime := slot.resendTime
  type := slot.type

/-- The packets of slots. -/
def entriesOf (slots : List StoredPacket) : List SentPacket :=
  (slots.filter (·.length ≠ 0)).map StoredPacket.entry

/-- The packets of the ring, the last one first. -/
def RTPPacketHistory.packets (s : RTPPacketHistory) : List SentPacket :=
  (entriesOf (s.stored.drop s.prevIndex ++ s.stored.take s.prevIndex)).reverse

/-- The ring holds the last packets of the history, with one number each. It is
filled from its beginning. -/
structure Refines (s : RTPPacketHistory) (h : History) : Prop where
  store : s.store = true
  capacity : s.stored.length = h.capacity
  limit : s.maxPacketLength = h.limit
  prevIndex : s.prevIndex < s.stored.length
  buffers : ∀ slot ∈ s.stored, slot.packet.length = s.maxPacketLength
  lengths : ∀ slot ∈ s.stored, slot.length ≤ s.maxPacketLength
  filled : ∀ slot ∈ s.stored.take s.prevIndex, slot.length ≠ 0
  rest : (∀ slot ∈ s.stored.drop s.prevIndex, slot.length ≠ 0) ∨
    ∀ slot ∈ s.stored.drop s.prevIndex, slot.length = 0 ∧ slot.seqNum = 0
  distinct : s.stored.Pairwise fun a b => a.length ≠ 0 → b.length ≠ 0 → a.seqNum ≠ b.seqNum
  window : s.packets = h.window

section Refinement

open RTPPacketHistory

variable {s : RTPPacketHistory} {h : History} {q : BitVec 16} {i : Nat} {slot : StoredPacket}
  {packet : List Byte} {type : StorageType} {B : List StoredPacket} {A : List StoredPacket}

theorem mem_entriesOf {slots : List StoredPacket} {e : SentPacket} :
    e ∈ entriesOf slots ↔ ∃ slot ∈ slots, slot.length ≠ 0 ∧ slot.entry = e := by
  simp only [entriesOf, List.mem_map, List.mem_filter, decide_eq_true_eq, and_assoc]

theorem entriesOf_append (a b : List StoredPacket) :
    entriesOf (a ++ b) = entriesOf a ++ entriesOf b := by
  simp only [entriesOf, List.filter_append, List.map_append]

theorem entriesOf_cons_used (h : slot.length ≠ 0) (slots : List StoredPacket) :
    entriesOf (slot :: slots) = slot.entry :: entriesOf slots := by
  rw [entriesOf, List.filter_cons_of_pos (by simpa using h), List.map_cons, entriesOf]

theorem entriesOf_cons_unused (h : slot.length = 0) (slots : List StoredPacket) :
    entriesOf (slot :: slots) = entriesOf slots := by
  rw [entriesOf, List.filter_cons_of_neg (by simp [h]), entriesOf]

theorem length_entriesOf_le (slots : List StoredPacket) :
    (entriesOf slots).length ≤ slots.length := by
  rw [entriesOf, List.length_map]
  exact List.length_filter_le ..

theorem length_entriesOf {slots : List StoredPacket} (h : ∀ slot ∈ slots, slot.length ≠ 0) :
    (entriesOf slots).length = slots.length := by
  rw [entriesOf, List.length_map, List.filter_eq_self.mpr fun slot hs => decide_eq_true (h slot hs)]

theorem mem_packets {e : SentPacket} :
    e ∈ s.packets ↔ ∃ slot ∈ s.stored, slot.length ≠ 0 ∧ slot.entry = e := by
  have hmem (slot : StoredPacket) :
      slot ∈ s.stored.drop s.prevIndex ++ s.stored.take s.prevIndex ↔ slot ∈ s.stored := by
    rw [List.mem_append, or_comm, ← List.mem_append, List.take_append_drop]
  simp only [packets, List.mem_reverse, mem_entriesOf, hmem]

/-- The packets with a number are one. -/
theorem Refines.unique (hr : Refines s h) {a b : StoredPacket} (ha : a ∈ s.stored)
    (hb : b ∈ s.stored) (ha₀ : a.length ≠ 0) (hb₀ : b.length ≠ 0) (hseq : a.seqNum = b.seqNum) :
    a = b := by
  by_contra hne
  have hsymm : Std.Symm fun a b : StoredPacket =>
      a.length ≠ 0 → b.length ≠ 0 → a.seqNum ≠ b.seqNum :=
    ⟨fun a b hab hb ha => (hab ha hb).symm⟩
  exact hr.distinct.forall ha hb hne ha₀ hb₀ hseq

theorem find?_eq_some {α : Type*} {p : α → Bool} {l : List α} {a : α} (ha : a ∈ l) (hp : p a)
    (huniq : ∀ b ∈ l, p b → b = a) : l.find? p = some a := by
  cases hfind : l.find? p with
  | none => exact absurd hp (List.find?_eq_none.mp hfind a ha)
  | some b => rw [huniq b (List.mem_of_find?_eq_some hfind) (List.find?_some hfind)]

/-- The index that `FindSeqNum` finds leads to the packet, if there is one. -/
theorem Refines.lookup_eq (hr : Refines s h) :
    h.lookup q = (s.findSeqNum q).bind fun i =>
      if (s.stored.getD i {}).length = 0 then none else some (s.stored.getD i {}).entry := by
  unfold History.lookup
  rw [← hr.window]
  cases hfind : s.findSeqNum q with
  | none =>
    refine List.find?_eq_none.mpr fun e he hq => ?_
    obtain ⟨slot, hslot, -, rfl⟩ := mem_packets.mp he
    exact findSeqNum_none hfind slot hslot (of_decide_eq_true hq)
  | some i =>
    obtain ⟨hi, hseq⟩ := findSeqNum_some hr.prevIndex hfind
    rw [Option.bind_some, List.getD_eq_getElem _ _ hi]
    by_cases hlength : s.stored[i].length = 0
    · rw [if_pos hlength]
      have hbehind : s.prevIndex ≤ i := by
        by_contra hlt
        exact hr.filled _ (List.mem_take_iff_getElem.mpr ⟨i, by omega, rfl⟩) hlength
      have hdrop : s.stored[i] ∈ s.stored.drop s.prevIndex :=
        List.mem_drop_iff_getElem.mpr ⟨i - s.prevIndex, by omega, by congr 1; omega⟩
      have hunused := hr.rest.resolve_left fun hall => hall _ hdrop hlength
      refine List.find?_eq_none.mpr fun e he hq => ?_
      obtain ⟨slot, hslot, hused, rfl⟩ := mem_packets.mp he
      rw [← List.take_append_drop s.prevIndex s.stored, List.mem_append] at hslot
      rcases hslot with hslot | hslot
      · exact findSeqNum_unused hr.prevIndex (fun slot hslot => (hunused slot hslot).2) hfind hbehind
          slot hslot (of_decide_eq_true hq)
      · exact hused (hunused slot hslot).1
    · rw [if_neg hlength]
      have hmem : s.stored[i] ∈ s.stored := List.getElem_mem hi
      refine find?_eq_some (mem_packets.mpr ⟨_, hmem, hlength, rfl⟩) (decide_eq_true hseq)
        fun e he hq => ?_
      obtain ⟨slot, hslot, hused, rfl⟩ := mem_packets.mp he
      rw [hr.unique hslot hmem hused hlength ((of_decide_eq_true hq).trans hseq.symm)]

theorem Refines.getRTPPacket_eq (hr : Refines s h) (minElapsedTimeMs bufferSize : Nat) (now : Int) :
    s.getRTPPacket q minElapsedTimeMs bufferSize now =
      h.get q minElapsedTimeMs bufferSize now := by
  unfold RTPPacketHistory.getRTPPacket History.get
  rw [hr.lookup_eq, if_neg (not_not.mpr hr.store)]
  cases hfind : s.findSeqNum q with
  | none => rfl
  | some i =>
    obtain ⟨hi, -⟩ := findSeqNum_some hr.prevIndex hfind
    have hmem : s.stored[i] ∈ s.stored := List.getElem_mem hi
    have hle := hr.lengths _ hmem
    have hbuffer := hr.buffers _ hmem
    dsimp only [Option.bind_some]
    rw [List.getD_eq_getElem _ _ hi]
    by_cases hlength : s.stored[i].length = 0
    · rw [if_pos (.inl hlength), if_pos hlength]
      rfl
    · have htake : s.stored[i].entry.packet.length = s.stored[i].length := by
        rw [StoredPacket.entry, List.length_take]
        omega
      rw [if_neg (by omega), if_neg hlength, Option.bind_some, htake]
      rfl

theorem Refines.hasRTPPacket_eq (hr : Refines s h) : s.hasRTPPacket q = (h.lookup q).isSome := by
  unfold RTPPacketHistory.hasRTPPacket
  rw [hr.lookup_eq, if_neg (not_not.mpr hr.store)]
  cases hfind : s.findSeqNum q with
  | none => rfl
  | some i =>
    obtain ⟨hi, -⟩ := findSeqNum_some hr.prevIndex hfind
    have hle := hr.lengths _ (List.getElem_mem hi)
    dsimp only [Option.bind_some]
    rw [List.getD_eq_getElem _ _ hi]
    by_cases hlength : s.stored[i].length = 0
    · rw [if_pos hlength, decide_eq_false (by omega)]
      rfl
    · rw [if_neg hlength, decide_eq_true (by omega)]
      rfl

/-- The slots are changed without their numbers and their lengths. -/
theorem Refines.map (hr : Refines s h) {F : StoredPacket → StoredPacket} {G : SentPacket → SentPacket}
    {m : Nat} {h' : History} (hseq : ∀ slot, (F slot).seqNum = slot.seqNum)
    (hlength : ∀ slot, (F slot).length = slot.length)
    (hbuffer : ∀ slot ∈ s.stored, (F slot).packet.length = m) (hm : s.maxPacketLength ≤ m)
    (hentry : ∀ slot ∈ s.stored, slot.length ≠ 0 → (F slot).entry = G slot.entry)
    (hcapacity : h'.capacity = h.capacity) (hlimit : h'.limit = m)
    (hwindow : h'.window = h.window.map G) :
    Refines { s with stored := s.stored.map F, maxPacketLength := m } h' where
  store := hr.store
  capacity := by rw [List.length_map, hr.capacity, hcapacity]
  limit := hlimit.symm
  prevIndex := by rw [List.length_map]; exact hr.prevIndex
  buffers := by
    dsimp only
    rw [List.forall_mem_map]
    exact hbuffer
  lengths := by
    dsimp only
    simp only [List.forall_mem_map, hlength]
    exact fun slot hslot => (hr.lengths slot hslot).trans hm
  filled := by
    simp only [← List.map_take, List.forall_mem_map, hlength]
    exact hr.filled
  rest := by
    simp only [← List.map_drop, List.forall_mem_map, hlength, hseq]
    exact hr.rest
  distinct := by
    rw [List.pairwise_map]
    simp only [hlength, hseq]
    exact hr.distinct
  window := by
    rw [hwindow, ← hr.window]
    unfold packets entriesOf
    rw [← List.map_drop, ← List.map_take, ← List.map_append, List.filter_map, List.map_map,
      List.map_reverse, List.map_map]
    have hcomp : (fun slot : StoredPacket => decide (slot.length ≠ 0)) ∘ F =
        fun slot => decide (slot.length ≠ 0) := funext fun slot => by
      rw [Function.comp_apply, hlength]
    rw [hcomp]
    refine congrArg List.reverse (List.map_congr_left fun slot hslot => ?_)
    obtain ⟨hslot, hused⟩ := List.mem_filter.mp hslot
    refine hentry slot ?_ (of_decide_eq_true hused)
    rw [List.mem_append, or_comm, ← List.mem_append, List.take_append_drop] at hslot
    exact hslot

theorem Refines.verify (hr : Refines s h) (packetLength : Nat) :
    Refines (s.verifyAndAllocatePacketLength packetLength)
      { h with limit := max h.limit packetLength } := by
  unfold verifyAndAllocatePacketLength
  rw [if_neg (not_not.mpr hr.store)]
  by_cases hle : packetLength ≤ s.maxPacketLength
  · rw [if_pos hle, Nat.max_eq_left (hr.limit ▸ hle)]
    exact hr
  · rw [if_neg hle]
    refine hr.map (G := id) (fun _ => rfl) (fun _ => rfl)
      (fun slot _ => ?_) (by omega) (fun slot hslot _ => ?_) rfl ?_ (List.map_id _).symm
    · unfold resize
      rw [List.length_append, List.length_take, List.length_replicate]
      omega
    · have hlength := hr.lengths slot hslot
      have hbuffer := hr.buffers slot hslot
      have htake : (resize slot.packet packetLength).take slot.length =
          slot.packet.take slot.length := by
        unfold resize
        rw [List.take_append_of_le_length, List.take_take, Nat.min_eq_left (by omega)]
        rw [List.length_take]
        omega
      rw [StoredPacket.entry, htake]
      rfl
    · have hlimit := hr.limit
      dsimp only
      omega

theorem History.change_window (h : History) (q : BitVec 16) (f : SentPacket → SentPacket) :
    (h.change q f).window = h.window.map fun e => if e.seqNum = q then f e else e := by
  unfold History.change History.window
  dsimp only
  generalize (fun e : SentPacket => if e.seqNum = q then f e else e) = k
  rcases Nat.le_total h.entries.length h.capacity with hle | hle
  · rw [List.drop_of_length_le hle, List.append_nil, List.take_of_length_le]
    rw [List.length_map, List.length_take]
    exact Nat.min_le_left _ _
  · rw [List.take_left']
    rw [List.length_map, List.length_take, Nat.min_eq_left hle]

/-- The slot that is found changes, as the packet with its number does. -/
theorem Refines.modify (hr : Refines s h) {f : StoredPacket → StoredPacket} {g : SentPacket → SentPacket}
    (hfind : s.findSeqNum q = some i) (hused : (s.stored.getD i {}).length ≠ 0)
    (hseq : ∀ slot, (f slot).seqNum = slot.seqNum) (hlength : ∀ slot, (f slot).length = slot.length)
    (hbuffer : ∀ slot ∈ s.stored, (f slot).packet.length = s.maxPacketLength)
    (hentry : ∀ slot ∈ s.stored, (f slot).entry = g slot.entry) :
    Refines { s with stored := s.stored.modify i f } (h.change q g) := by
  obtain ⟨hi, hnum⟩ := findSeqNum_some hr.prevIndex hfind
  rw [List.getD_eq_getElem _ _ hi] at hused
  have hmap : s.stored.modify i f =
      s.stored.map fun slot => if slot.seqNum = q ∧ slot.length ≠ 0 then f slot else slot := by
    refine List.ext_getElem (by rw [List.length_modify, List.length_map]) fun j hj _ => ?_
    rw [List.length_modify] at hj
    rw [List.getElem_modify, List.getElem_map]
    by_cases hij : i = j
    · subst hij
      rw [if_pos rfl, if_pos ⟨hnum, hused⟩]
    · rw [if_neg hij]
      by_cases hother : s.stored[j].seqNum = q ∧ s.stored[j].length ≠ 0
      · exfalso
        have hpair := List.pairwise_iff_getElem.mp hr.distinct
        rcases Nat.lt_or_gt_of_ne hij with hlt | hlt
        · exact hpair i j hi hj hlt hused hother.2 (hnum.trans hother.1.symm)
        · exact hpair j i hj hi hlt hother.2 hused (hother.1.trans hnum.symm)
      · rw [if_neg hother]
  rw [hmap]
  refine hr.map (fun slot => ?_) (fun slot => ?_) (fun slot hslot => ?_) (Nat.le_refl _)
    (fun slot hslot hne => ?_) rfl hr.limit.symm (h.change_window q g)
  · split
    · exact hseq slot
    · rfl
  · split
    · exact hlength slot
    · rfl
  · split
    · exact hbuffer slot hslot
    · exact hr.buffers slot hslot
  · by_cases hsame : slot.seqNum = q
    · rw [if_pos ⟨hsame, hne⟩, if_pos (show slot.entry.seqNum = q from hsame)]
      exact hentry slot hslot
    · rw [if_neg (fun hand => hsame hand.1), if_neg (show ¬ slot.entry.seqNum = q from hsame)]

theorem mem_modify {α : Type*} {f : α → α} {l : List α} {b : α} (h : b ∈ l.modify i f) :
    b ∈ l ∨ ∃ a ∈ l, b = f a := by
  obtain ⟨j, hj, rfl⟩ := List.getElem_of_mem h
  rw [List.length_modify] at hj
  rw [List.getElem_modify]
  split
  · exact Or.inr ⟨_, List.getElem_mem hj, rfl⟩
  · exact Or.inl (List.getElem_mem hj)

theorem modify_eq_append {α : Type*} {f : α → α} {l : List α} (hi : i < l.length) :
    l.modify i f = l.take i ++ f l[i] :: l.drop (i + 1) := by
  rw [List.modify_eq_take_drop, List.drop_eq_getElem_cons hi]
  rfl

/-- A slot that holds no packet does not matter. -/
theorem Refines.modify_unused (hr : Refines s h) {f : StoredPacket → StoredPacket}
    (hi : i < s.stored.length) (hlength : s.stored[i].length = 0)
    (hf : ∀ slot, (f slot).seqNum = slot.seqNum ∧ (f slot).length = slot.length ∧
      (f slot).packet = slot.packet) :
    Refines { s with stored := s.stored.modify i f } h := by
  have hbehind : s.prevIndex ≤ i := by
    by_contra hlt
    exact hr.filled _ (List.mem_take_iff_getElem.mpr ⟨i, by omega, rfl⟩) hlength
  have htake : (s.stored.modify i f).take s.prevIndex = s.stored.take s.prevIndex := by
    rw [modify_eq_append hi, List.take_append_of_le_length, List.take_take, Nat.min_eq_left hbehind]
    rw [List.length_take]
    omega
  have hdrop (g : StoredPacket → StoredPacket) : (s.stored.modify i g).drop s.prevIndex =
      (s.stored.take i).drop s.prevIndex ++ g s.stored[i] :: s.stored.drop (i + 1) := by
    rw [modify_eq_append hi, List.drop_append_of_le_length]
    rw [List.length_take]
    omega
  have hsame := hdrop id
  rw [List.modify_id, id_eq] at hsame
  have hunused := hr.rest.resolve_left fun hall =>
    hall s.stored[i] (by rw [hsame]; exact List.mem_append_right _ List.mem_cons_self) hlength
  rw [hsame, List.forall_mem_append, List.forall_mem_cons] at hunused
  constructor
  case store => exact hr.store
  case capacity => exact (List.length_modify ..).trans hr.capacity
  case limit => exact hr.limit
  case prevIndex => exact hr.prevIndex.trans_eq (List.length_modify ..).symm
  case buffers =>
    intro slot hslot
    rcases mem_modify hslot with hslot | ⟨old, hold, rfl⟩
    · exact hr.buffers slot hslot
    · rw [(hf old).2.2]
      exact hr.buffers old hold
  case lengths =>
    intro slot hslot
    rcases mem_modify hslot with hslot | ⟨old, hold, rfl⟩
    · exact hr.lengths slot hslot
    · rw [(hf old).2.1]
      exact hr.lengths old hold
  case filled =>
    dsimp only
    rw [htake]
    exact hr.filled
  case rest =>
    dsimp only
    rw [hdrop f, List.forall_mem_append, List.forall_mem_append, List.forall_mem_cons,
      List.forall_mem_cons, (hf _).1, (hf _).2.1]
    exact Or.inr hunused
  case distinct =>
    refine List.pairwise_iff_getElem.mpr fun j k hj hk hjk => ?_
    rw [List.length_modify] at hj hk
    have hkeep (l : Nat) (hl : l < (s.stored.modify i f).length) (hl' : l < s.stored.length) :
        (s.stored.modify i f)[l].seqNum = s.stored[l].seqNum ∧
          (s.stored.modify i f)[l].length = s.stored[l].length := by
      rw [List.getElem_modify]
      split
      · exact ⟨(hf _).1, (hf _).2.1⟩
      · exact ⟨rfl, rfl⟩
    rw [(hkeep j _ hj).1, (hkeep j _ hj).2, (hkeep k _ hk).1, (hkeep k _ hk).2]
    exact List.pairwise_iff_getElem.mp hr.distinct j k hj hk hjk
  case window =>
    rw [← hr.window]
    unfold packets
    dsimp only
    rw [htake, hdrop f, hsame]
    simp only [entriesOf_append, entriesOf_cons_unused hlength,
      entriesOf_cons_unused ((hf _).2.1.trans hlength)]

/-- Nothing changes where there is no packet with the number. -/
theorem Refines.change_none (hr : Refines s h) (hnone : h.lookup q = none) (g : SentPacket → SentPacket) :
    Refines s (h.change q g) where
  store := hr.store
  capacity := hr.capacity
  limit := hr.limit
  prevIndex := hr.prevIndex
  buffers := hr.buffers
  lengths := hr.lengths
  filled := hr.filled
  rest := hr.rest
  distinct := hr.distinct
  window := by
    rw [h.change_window, hr.window]
    refine (List.map_id _).symm.trans (List.map_congr_left fun e he => ?_)
    rw [if_neg fun hq => List.find?_eq_none.mp hnone e he (decide_eq_true hq)]
    rfl

theorem Refines.replaceRTPHeader (hr : Refines s h) (header : List Byte) (q : BitVec 16) :
    Refines (s.replaceRTPHeader header q).2 (h.replaceHeader header q) := by
  unfold RTPPacketHistory.replaceRTPHeader History.replaceHeader
  rw [if_neg (not_not.mpr hr.store), hr.limit]
  by_cases hheader : h.limit < header.length
  · rw [if_pos hheader, if_pos hheader]
    exact hr
  · rw [if_neg hheader, if_neg hheader]
    have hlookup := hr.lookup_eq (q := q)
    cases hfind : s.findSeqNum q with
    | none =>
      rw [hfind] at hlookup
      exact hr.change_none hlookup _
    | some i =>
      rw [hfind, Option.bind_some] at hlookup
      dsimp only
      obtain ⟨hi, -⟩ := findSeqNum_some hr.prevIndex hfind
      have hle := hr.lengths _ (List.getElem_mem hi)
      by_cases hlength : (s.stored.getD i {}).length = 0
      · rw [if_pos (.inl hlength)]
        rw [if_pos hlength] at hlookup
        exact hr.change_none hlookup _
      · have hfits : (s.stored.getD i {}).length ≤ h.limit := by
          rw [List.getD_eq_getElem _ _ hi, ← hr.limit]
          exact hle
        rw [if_neg (by omega)]
        have hlimit := hr.limit
        have hmodify := hr.modify (g := SentPacket.replaceHeader header)
          (f := fun slot => { slot with packet := overwrite header slot.packet }) hfind hlength
          (fun _ => rfl) (fun _ => rfl) (fun slot hslot => ?_) fun slot hslot => ?_
        · rw [hr.limit] at hmodify
          exact hmodify
        · have hbuffer := hr.buffers slot hslot
          unfold overwrite
          rw [List.length_append, List.length_drop]
          omega
        · have hbuffer := hr.buffers slot hslot
          have hlength := hr.lengths slot hslot
          unfold StoredPacket.entry SentPacket.replaceHeader overwrite
          dsimp only
          rw [List.length_take, Nat.min_eq_left (by omega), List.take_append, List.take_append,
            List.drop_take, List.take_take]
          congr 2
          rw [Nat.min_self]

theorem Refines.updateResendTime (hr : Refines s h) (q : BitVec 16) (now : Int) :
    Refines (s.updateResendTime q now) (h.updateResendTime q now) := by
  unfold RTPPacketHistory.updateResendTime History.updateResendTime
  rw [if_neg (not_not.mpr hr.store)]
  have hlookup := hr.lookup_eq (q := q)
  cases hfind : s.findSeqNum q with
  | none =>
    rw [hfind] at hlookup
    exact hr.change_none hlookup _
  | some i =>
    rw [hfind, Option.bind_some] at hlookup
    obtain ⟨hi, -⟩ := findSeqNum_some hr.prevIndex hfind
    by_cases hlength : (s.stored.getD i {}).length = 0
    · rw [if_pos hlength] at hlookup
      rw [List.getD_eq_getElem _ _ hi] at hlength
      exact Refines.change_none (hr.modify_unused (f := fun slot => { slot with resendTime := now })
        hi hlength fun _ => ⟨rfl, rfl, rfl⟩) hlookup _
    · exact hr.modify (f := fun slot => { slot with resendTime := now }) hfind hlength (fun _ => rfl)
        (fun _ => rfl) hr.buffers fun _ _ => rfl

/-- The slot for a packet, in place of another. -/
def newSlot (packet : List Byte) (time : Int) (type : StorageType) (slot : StoredPacket) :
    StoredPacket where
  packet := overwrite packet slot.packet
  seqNum := seqNumOf packet
  length := packet.length
  time := time
  resendTime := 0
  type := type

/-- The last packets but the oldest, which is the first of the ring if the ring
is full. -/
theorem entriesOf_tail {x : StoredPacket} {entries : List SentPacket}
    (hA : ∀ slot ∈ A, slot.length ≠ 0)
    (hB : (∀ slot ∈ x :: B, slot.length ≠ 0) ∨ ∀ slot ∈ x :: B, slot.length = 0 ∧ slot.seqNum = 0)
    (h : (entriesOf (x :: B ++ A)).reverse = entries.take (A.length + B.length + 1)) :
    entries.take (A.length + B.length) = (entriesOf (B ++ A)).reverse := by
  have htake : entries.take (A.length + B.length) =
      (entries.take (A.length + B.length + 1)).take (A.length + B.length) := by
    rw [List.take_take, Nat.min_eq_left (Nat.le_succ _)]
  rw [htake, ← h]
  rcases hB with hused | hunused
  · rw [List.forall_mem_cons] at hused
    rw [List.cons_append, entriesOf_cons_used hused.1, List.reverse_cons, List.take_left']
    rw [List.length_reverse, length_entriesOf, List.length_append, Nat.add_comm]
    exact List.forall_mem_append.mpr ⟨hused.2, hA⟩
  · rw [List.cons_append, entriesOf_cons_unused (hunused x List.mem_cons_self).1,
      List.take_of_length_le]
    have hle := length_entriesOf_le (B ++ A)
    rw [List.length_append] at hle
    rw [List.length_reverse]
    omega

theorem newSlot_used {time : Int} (hne : packet ≠ []) :
    (newSlot packet time type slot).length ≠ 0 :=
  fun hzero => hne (List.length_eq_zero_iff.mp hzero)

theorem newSlot_buffer {time : Int} {m : Nat} (hlimit : packet.length ≤ m)
    (hslot : slot.packet.length = m) : (newSlot packet time type slot).packet.length = m := by
  dsimp only [newSlot, overwrite]
  rw [List.length_append, List.length_drop]
  omega

theorem newSlot_entry {time : Int} :
    (newSlot packet time type slot).entry = ⟨seqNumOf packet, packet, time, 0, type⟩ := by
  dsimp only [newSlot, StoredPacket.entry, overwrite]
  rw [List.take_left']
  rfl

/-- The ring around the slot of the previous index, and the last packets but the oldest. -/
theorem Refines.ring (hr : Refines s h) : ∃ A x B, s.stored = A ++ x :: B ∧
    s.prevIndex = A.length ∧ (∀ slot ∈ A, slot.length ≠ 0) ∧
    ((∀ slot ∈ x :: B, slot.length ≠ 0) ∨
      ∀ slot ∈ x :: B, slot.length = 0 ∧ slot.seqNum = 0) ∧
    h.capacity = A.length + B.length + 1 ∧
    h.entries.take (A.length + B.length) = (entriesOf (B ++ A)).reverse := by
  obtain ⟨A, x, B, hL, hp⟩ : ∃ A x B, s.stored = A ++ x :: B ∧ s.prevIndex = A.length := by
    refine ⟨s.stored.take s.prevIndex, s.stored.get ⟨s.prevIndex, hr.prevIndex⟩,
      s.stored.drop (s.prevIndex + 1), ?_, ?_⟩
    · rw [List.get_eq_getElem, ← List.drop_eq_getElem_cons hr.prevIndex, List.take_append_drop]
    · rw [List.length_take, Nat.min_eq_left (Nat.le_of_lt hr.prevIndex)]
  have htake : s.stored.take s.prevIndex = A := by rw [hL, hp, List.take_left]
  have hdrop : s.stored.drop s.prevIndex = x :: B := by rw [hL, hp, List.drop_left]
  have hcapacity : h.capacity = A.length + B.length + 1 := by
    rw [← hr.capacity, hL, List.length_append, List.length_cons]
    omega
  have hfilled := hr.filled
  have hrest := hr.rest
  have hwindow := hr.window
  rw [htake] at hfilled
  rw [hdrop] at hrest
  unfold packets History.window at hwindow
  rw [htake, hdrop, hcapacity] at hwindow
  exact ⟨A, x, B, hL, hp, hfilled, hrest, hcapacity, entriesOf_tail hfilled hrest hwindow⟩

/-- The next index is behind the new slot, or at the beginning of a ring that ends there. -/
theorem ring_split {α : Type*} (A B : List α) (y : α) {n : Nat}
    (hn : n = if (A ++ y :: B).length ≤ A.length + 1 then 0 else A.length + 1) :
    n = 0 ∧ B = [] ∨ n < (A ++ y :: B).length ∧ (A ++ y :: B).take n = A ++ [y] ∧
      (A ++ y :: B).drop n = B := by
  rw [List.append_cons, List.length_append, List.length_append, List.length_singleton] at *
  split at hn
  · exact .inl ⟨hn, List.length_eq_zero_iff.mp (by omega)⟩
  · have hlength : (A ++ [y]).length = n := by rw [hn, List.length_append, List.length_singleton]
    exact .inr ⟨by omega, List.take_left' hlength, List.drop_left' hlength⟩

/-- A number that no other slot has takes the place of any number. -/
theorem distinct_replace {x y : StoredPacket}
    (hdistinct : (A ++ x :: B).Pairwise fun a b => a.length ≠ 0 → b.length ≠ 0 → a.seqNum ≠ b.seqNum)
    (hy : ∀ slot ∈ A ++ B, slot.length ≠ 0 → slot.seqNum ≠ y.seqNum) :
    (A ++ y :: B).Pairwise fun a b => a.length ≠ 0 → b.length ≠ 0 → a.seqNum ≠ b.seqNum := by
  have hsymm {a b : StoredPacket} (hab : a.length ≠ 0 → b.length ≠ 0 → a.seqNum ≠ b.seqNum) :
      b.length ≠ 0 → a.length ≠ 0 → b.seqNum ≠ a.seqNum := fun hb ha => (hab ha hb).symm
  rw [List.perm_middle.pairwise_iff hsymm, List.pairwise_cons] at hdistinct ⊢
  exact ⟨fun slot hslot _ hused => (hy slot hslot hused).symm, hdistinct.2⟩

/-- The packets of a ring whose newest slot is before the next index. -/
theorem entriesOf_next {y : StoredPacket} {n : Nat} (hy : y.length ≠ 0)
    (hsplit : n = 0 ∧ B = [] ∨ n < (A ++ y :: B).length ∧ (A ++ y :: B).take n = A ++ [y] ∧
      (A ++ y :: B).drop n = B) :
    (entriesOf ((A ++ y :: B).drop n ++ (A ++ y :: B).take n)).reverse =
      y.entry :: (entriesOf (B ++ A)).reverse := by
  have hlast : entriesOf (B ++ A ++ [y]) = entriesOf (B ++ A) ++ [y.entry] := by
    rw [entriesOf_append, entriesOf_cons_used hy]
    rfl
  rw [← List.reverse_concat, ← hlast]
  rcases hsplit with ⟨rfl, rfl⟩ | ⟨-, htake, hdrop⟩
  · rw [List.drop_zero, List.take_zero, List.append_nil, List.nil_append]
  · rw [htake, hdrop, List.append_assoc]

/-- The oldest packet of the ring, or an unused slot, makes room for a new one. -/
theorem Refines.push (hr : Refines s h) (time : Int) (type : StorageType) (hne : packet ≠ [])
    (hlimit : packet.length ≤ s.maxPacketLength)
    (hfresh : ∀ e ∈ h.entries.take (h.capacity - 1), e.seqNum ≠ seqNumOf packet) :
    Refines { s with
        stored := s.stored.modify s.prevIndex (newSlot packet time type)
        prevIndex := if s.stored.length ≤ s.prevIndex + 1 then 0 else s.prevIndex + 1 }
      { h with entries := ⟨seqNumOf packet, packet, time, 0, type⟩ :: h.entries } := by
  obtain ⟨A, x, B, hL, hp, hfilled, hrest, hcapacity, htail⟩ := hr.ring
  have hmodify : s.stored.modify s.prevIndex (newSlot packet time type) =
      A ++ newSlot packet time type x :: B := by
    rw [hL, hp, modify_eq_append (by simp)]
    simp
  have hlength : s.stored.length = (A ++ newSlot packet time type x :: B).length := by
    rw [hL, List.length_append, List.length_append, List.length_cons, List.length_cons]
  have hsplit := ring_split A B (newSlot packet time type x) rfl
  rw [← hlength, ← hp] at hsplit
  generalize (if s.stored.length ≤ s.prevIndex + 1 then 0 else s.prevIndex + 1) = n at hsplit ⊢
  have hnew : (newSlot packet time type x).length ≠ 0 := newSlot_used hne
  have hbuffer : (newSlot packet time type x).packet.length = s.maxPacketLength :=
    newSlot_buffer hlimit (hr.buffers x (hL ▸ List.mem_append_right _ List.mem_cons_self))
  rw [hmodify]
  have hmem {p : StoredPacket → Prop} (hstored : ∀ slot ∈ s.stored, p slot)
      (hp : p (newSlot packet time type x)) :
      ∀ slot ∈ A ++ newSlot packet time type x :: B, p slot := by
    rw [hL, List.forall_mem_append, List.forall_mem_cons] at hstored
    exact List.forall_mem_append.mpr
      ⟨hstored.1, List.forall_mem_cons.mpr ⟨hp, hstored.2.2⟩⟩
  have hused : ∀ slot ∈ A ++ [newSlot packet time type x], slot.length ≠ 0 := by
    rw [List.forall_mem_append, List.forall_mem_singleton]
    exact ⟨hfilled, hnew⟩
  constructor
  case store => exact hr.store
  case capacity => exact hlength.symm.trans hr.capacity
  case limit => exact hr.limit
  case prevIndex =>
    rcases hsplit with ⟨rfl, -⟩ | ⟨hn, -⟩
    · exact hlength ▸ Nat.zero_lt_of_lt hr.prevIndex
    · exact hlength ▸ hn
  case buffers => exact hmem hr.buffers hbuffer
  case lengths => exact hmem hr.lengths hlimit
  case filled =>
    dsimp only
    rcases hsplit with ⟨rfl, -⟩ | ⟨-, htake, -⟩
    · rw [List.take_zero]
      exact List.forall_mem_nil _
    · rw [htake]
      exact hused
  case rest =>
    dsimp only
    rcases hsplit with ⟨rfl, rfl⟩ | ⟨-, -, hdrop⟩
    · rw [List.drop_zero]
      exact Or.inl hused
    · rw [hdrop]
      exact hrest.imp (fun hall => (List.forall_mem_cons.mp hall).2)
        fun hall => (List.forall_mem_cons.mp hall).2
  case distinct =>
    refine distinct_replace (hL ▸ hr.distinct) fun slot hslot hslot₀ hseq => ?_
    rw [hcapacity, Nat.add_sub_cancel, htail] at hfresh
    refine hfresh slot.entry (List.mem_reverse.mpr (mem_entriesOf.mpr ⟨slot, ?_, hslot₀, rfl⟩)) hseq
    rw [List.mem_append, or_comm, ← List.mem_append]
    exact hslot
  case window =>
    unfold packets History.window
    dsimp only
    rw [hcapacity, List.take_succ_cons, htail, ← newSlot_entry]
    exact entriesOf_next hnew (by rwa [← hlength])

/-- A packet whose number is not among the last ones takes the place of the
oldest. -/
theorem Refines.putRTPPacket (hr : Refines s h) {maxPacketLength : Nat} (captureTimeMs now : Int)
    (hnew : h.Admits packet maxPacketLength type) :
    Refines (s.putRTPPacket packet maxPacketLength captureTimeMs now type).2
      (h.put packet maxPacketLength captureTimeMs now type) := by
  unfold RTPPacketHistory.putRTPPacket History.put
  rw [if_neg (not_not.mpr hr.store)]
  by_cases htype : type = .kDontStore
  · rw [if_pos htype, if_pos htype]
    exact hr
  · rw [if_neg htype, if_neg htype]
    have hv := hr.verify maxPacketLength
    generalize s.verifyAndAllocatePacketLength maxPacketLength = s at hv ⊢
    have hmax : s.maxPacketLength = max h.limit maxPacketLength := hv.limit
    dsimp only
    by_cases hlimit : s.maxPacketLength < packet.length
    · have hlimit' : max h.limit maxPacketLength < packet.length := hmax ▸ hlimit
      rw [if_pos hlimit, if_pos hlimit']
      exact hv
    · have hlimit' : ¬ max h.limit maxPacketLength < packet.length := hmax ▸ hlimit
      obtain ⟨hlong, hfresh⟩ := hnew htype (Nat.le_of_not_lt hlimit')
      rw [if_neg hlimit, if_neg hlimit']
      refine hv.push _ type (fun hnil => ?_) (Nat.le_of_not_lt hlimit) hfresh
      rw [hnil] at hlong
      exact Nat.not_lt_zero _ hlong

theorem refines_allocate {n : Nat} (hn : 0 < n) :
    Refines (({} : RTPPacketHistory).allocate n) { capacity := n } := by
  have hempty : ∀ slot ∈ List.replicate n ({} : StoredPacket), slot = {} :=
    fun slot hslot => List.eq_of_mem_replicate hslot
  constructor
  case store => rfl
  case capacity => exact List.length_replicate
  case limit => rfl
  case prevIndex => exact hn.trans_eq List.length_replicate.symm
  case buffers =>
    intro slot hslot
    rw [hempty slot hslot]
    rfl
  case lengths =>
    intro slot hslot
    rw [hempty slot hslot]
    exact Nat.le_refl 0
  case filled => exact List.forall_mem_nil _
  case rest =>
    refine Or.inr fun slot hslot => ?_
    rw [hempty slot hslot]
    exact ⟨rfl, rfl⟩
  case distinct =>
    refine List.pairwise_replicate.mpr (Or.inr fun hne => absurd rfl hne)
  case window =>
    unfold packets entriesOf allocate
    simp [History.window]

/-- A change to the packets with one number leaves the others. -/
theorem History.lookup_change_ne (h : History) {q' : BitVec 16} {f : SentPacket → SentPacket}
    (hf : ∀ e, (f e).seqNum = e.seqNum) (hq : q' ≠ q) : (h.change q f).lookup q' = h.lookup q' := by
  unfold lookup
  rw [h.change_window, List.find?_map]
  have hkeep : (fun e : SentPacket => decide (e.seqNum = q')) ∘
      (fun e => if e.seqNum = q then f e else e) = fun e => decide (e.seqNum = q') := by
    funext e
    rw [Function.comp_apply]
    split
    · rw [hf]
    · rfl
  rw [hkeep]
  cases hfind : h.window.find? fun e => decide (e.seqNum = q') with
  | none => rfl
  | some e =>
    have he : e.seqNum = q' := by simpa using List.find?_some hfind
    rw [Option.map_some, if_neg fun heq => hq (he.symm.trans heq)]

end Refinement

/-! ## Runs -/

section Runs

/-- The calls that change a history. -/
inductive HistoryCall where
  | setStorePacketsStatus (enable : Bool) (numberToStore : Nat)
  | putRTPPacket (packet : List Byte) (maxPacketLength : Nat) (captureTimeMs now : Int)
      (type : StorageType)
  | replaceRTPHeader (header : List Byte) (sequenceNumber : BitVec 16)
  | updateResendTime (sequenceNumber : BitVec 16) (now : Int)

def RTPPacketHistory.call (s : RTPPacketHistory) : HistoryCall → RTPPacketHistory
  | .setStorePacketsStatus enable n => s.setStorePacketsStatus enable n
  | .putRTPPacket packet maxPacketLength captureTimeMs now type =>
    (s.putRTPPacket packet maxPacketLength captureTimeMs now type).2
  | .replaceRTPHeader header q => (s.replaceRTPHeader header q).2
  | .updateResendTime q now => s.updateResendTime q now

/-- What a call does to the packets; there is no history while it is off. -/
def History.call (h : Option History) : HistoryCall → Option History
  | .setStorePacketsStatus true n => some (h.getD { capacity := n })
  | .setStorePacketsStatus false _ => none
  | .putRTPPacket packet maxPacketLength captureTimeMs now type =>
    h.map (·.put packet maxPacketLength captureTimeMs now type)
  | .replaceRTPHeader header q => h.map (·.replaceHeader header q)
  | .updateResendTime q now => h.map (·.updateResendTime q now)

/-- The calls are those that the assertions of the source allow, and the last
packets that are stored have distinct numbers. -/
def Admissible (h : Option History) : HistoryCall → Prop
  | .setStorePacketsStatus true n => 0 < n
  | .putRTPPacket packet maxPacketLength _ _ type =>
    ∀ h' ∈ h, h'.Admits packet maxPacketLength type
  | _ => True

def AllAdmissible : Option History → List HistoryCall → Prop
  | _, [] => True
  | h, c :: calls => Admissible h c ∧ AllAdmissible (History.call h c) calls

/-- The ring and the history, also while there is none. -/
def Corresponds (s : RTPPacketHistory) : Option History → Prop
  | none => s = {}
  | some h => Refines s h

variable {s : RTPPacketHistory} {h : Option History}

theorem Corresponds.call (ht : Corresponds s h) {c : HistoryCall} (hc : Admissible h c) :
    Corresponds (s.call c) (History.call h c) := by
  cases h with
  | none =>
    obtain rfl : s = {} := ht
    cases c with
    | setStorePacketsStatus enable n =>
      cases enable with
      | false => rfl
      | true => exact refines_allocate hc
    | putRTPPacket packet maxPacketLength captureTimeMs now type =>
      show (RTPPacketHistory.putRTPPacket {} packet maxPacketLength captureTimeMs now type).2 = {}
      unfold RTPPacketHistory.putRTPPacket
      split
      · rfl
      · rfl
    | replaceRTPHeader header q => rfl
    | updateResendTime q now => rfl
  | some h =>
    have hr : Refines s h := ht
    cases c with
    | setStorePacketsStatus enable n =>
      cases enable with
      | false => exact if_pos hr.store
      | true =>
        show Refines (s.allocate n) h
        rw [RTPPacketHistory.allocate, if_pos hr.store]
        exact hr
    | putRTPPacket packet maxPacketLength captureTimeMs now type =>
      exact hr.putRTPPacket captureTimeMs now (hc h rfl)
    | replaceRTPHeader header q => exact hr.replaceRTPHeader header q
    | updateResendTime q now => exact hr.updateResendTime q now

theorem Corresponds.run : ∀ {calls : List HistoryCall} {s : RTPPacketHistory} {h : Option History},
    Corresponds s h → AllAdmissible h calls →
      Corresponds (calls.foldl RTPPacketHistory.call s) (calls.foldl History.call h)
  | [], _, _, ht, _ => ht
  | _ :: _, _, _, ht, hc => (ht.call hc.1).run hc.2

theorem Corresponds.getRTPPacket_eq (ht : Corresponds s h) (q : BitVec 16)
    (minElapsedTimeMs bufferSize : Nat)
    (now : Int) : s.getRTPPacket q minElapsedTimeMs bufferSize now =
      h.bind (·.get q minElapsedTimeMs bufferSize now) := by
  cases h with
  | none =>
    obtain rfl : s = {} := ht
    rfl
  | some h => exact Refines.getRTPPacket_eq ht minElapsedTimeMs bufferSize now

theorem Corresponds.hasRTPPacket_eq (ht : Corresponds s h) (q : BitVec 16) :
    s.hasRTPPacket q = (h.bind (·.lookup q)).isSome := by
  cases h with
  | none =>
    obtain rfl : s = {} := ht
    rfl
  | some h => exact Refines.hasRTPPacket_eq ht

/-- After any calls, a number leads to the last packet that was stored with it,
if it is among as many as the history holds, and other numbers do not notice
that a header is replaced. -/
theorem run_getRTPPacket {calls : List HistoryCall} (hcalls : AllAdmissible none calls)
    (q : BitVec 16) (minElapsedTimeMs bufferSize : Nat) (now : Int) :
    let s := calls.foldl RTPPacketHistory.call {}
    let h := calls.foldl History.call none
    s.getRTPPacket q minElapsedTimeMs bufferSize now =
        h.bind (·.get q minElapsedTimeMs bufferSize now) ∧
      s.hasRTPPacket q = (h.bind (·.lookup q)).isSome ∧
      ∀ header q', q ≠ q' → (s.replaceRTPHeader header q').2.getRTPPacket q minElapsedTimeMs
        bufferSize now = s.getRTPPacket q minElapsedTimeMs bufferSize now := by
  have ht : Corresponds (calls.foldl RTPPacketHistory.call {}) (calls.foldl History.call none) :=
    Corresponds.run rfl hcalls
  refine ⟨ht.getRTPPacket_eq q minElapsedTimeMs bufferSize now, ht.hasRTPPacket_eq q,
    fun header q' hq => ?_⟩
  have hreplace := (ht.call (c := .replaceRTPHeader header q') trivial).getRTPPacket_eq q
    minElapsedTimeMs bufferSize now
  refine hreplace.trans ((?_ : _ = _).trans (ht.getRTPPacket_eq q minElapsedTimeMs bufferSize now).symm)
  cases calls.foldl History.call none with
  | none => rfl
  | some h =>
    show (h.replaceHeader header q').get q minElapsedTimeMs bufferSize now = _
    unfold History.replaceHeader
    split
    · rfl
    · unfold History.get
      rw [h.lookup_change_ne (f := SentPacket.replaceHeader header) (fun _ => rfl) hq]
      rfl

/-- Two packets kept, around the wrap of the numbers; the second is among them
and the first is not. -/
theorem run_getRTPPacket_wrapped :
    (([.setStorePacketsStatus true 2,
        .putRTPPacket [128, 0, 255, 254] 1500 10 10 .kAllowRetransmission,
        .putRTPPacket [128, 0, 255, 255, 7] 1500 20 20 .kAllowRetransmission,
        .putRTPPacket [128, 0, 0, 0] 1500 30 30 .kAllowRetransmission] :
          List HistoryCall).foldl RTPPacketHistory.call {}).getRTPPacket 65535 0 1500 40 =
      some (.packet [128, 0, 255, 255, 7] 20 .kAllowRetransmission) := by
  have hcalls : AllAdmissible none [.setStorePacketsStatus true 2,
      .putRTPPacket [128, 0, 255, 254] 1500 10 10 .kAllowRetransmission,
      .putRTPPacket [128, 0, 255, 255, 7] 1500 20 20 .kAllowRetransmission,
      .putRTPPacket [128, 0, 0, 0] 1500 30 30 .kAllowRetransmission] := by
    refine ⟨Nat.zero_lt_two, ?_, ?_, ?_, trivial⟩
    all_goals
      rintro h hh - -
      obtain rfl := Option.some.inj hh
      exact ⟨by decide, by decide⟩
  exact (run_getRTPPacket hcalls 65535 0 1500 40).1.trans (by decide)

end Runs

end PerchWebrtc.Rtp
