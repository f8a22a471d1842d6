import PerchWebrtc.Fec.RecoveredList
import PerchWebrtc.Fec.Receiver

/-!
# Delivery of recovered packets

`ReceiverFEC::ProcessReceivedFEC`: the first packet of the list of received
packets is delivered if it is a media packet, the list is decoded, and the
recovered packets that have not been returned yet are delivered. The callback
may refuse a packet.

* `log`: what a run queues, recovers, drops and delivers;
* `accounts_decode`: a recovered packet is delivered, dropped, or still waiting;
* `run_tally`: also, a media packet is delivered once at most for each time it
  was queued;
* `alongDecode_fresh`: a number that is in the list is not recovered.
-/

namespace PerchWebrtc.Fec

open Circular Decoder

/-- A call of `OnRecoveredPacket`, from one of the two places, and whether it
returned true. -/
inductive Delivery where
  | media (pkt : Packet) (accepted : Bool)
  | recovered (pkt : Packet) (accepted : Bool)

namespace ReceiverFEC

/-! ## The model -/

/-- The loop over the recovered packets: the value that is returned, the
calls, and the list after it. The calls of the callback return `answers`. -/
def sendRecovered : List RecoveredPacket → (Nat → Bool) → Int × List Delivery × List RecoveredPacket
  | [], _ => (0, [], [])
  | r :: l, answers =>
    if r.returned then
      let sent := sendRecovered l answers
      (sent.1, sent.2.1, r :: sent.2.2)
    else if answers 0 then
      let sent := sendRecovered l fun i => answers (i + 1)
      (sent.1, .recovered r.pkt true :: sent.2.1, { r with returned := true } :: sent.2.2)
    else (-1, [.recovered r.pkt false], r :: l)

/-- The received packets are decoded; `DecodeFEC` returns no error. -/
def decodeReceived (s : ReceiverFEC) : Option ReceiverFEC :=
  (s.decoder.decodeFEC s.receivedPacketList).map fun d =>
    { s with receivedPacketList := [], decoder := d }

/-- The part after decoding. -/
def returnRecovered (answers : Nat → Bool) (s : ReceiverFEC) : Int × List Delivery × ReceiverFEC :=
  let sent := sendRecovered s.decoder.recoveredPacketList answers
  (sent.1, sent.2.1, { s with decoder := { s.decoder with recoveredPacketList := sent.2.2 } })

def processReceivedFEC (answers : Nat → Bool) (s : ReceiverFEC) :
    Option (Int × List Delivery × ReceiverFEC) :=
  match s.receivedPacketList with
  | [] => some (s.returnRecovered answers)
  | rx :: _ =>
    if rx.isFec then s.decodeReceived.map (returnRecovered answers)
    else if answers 0 then
      s.decodeReceived.map fun s' =>
        let sent := s'.returnRecovered fun i => answers (i + 1)
        (sent.1, .media rx.pkt true :: sent.2.1, sent.2.2)
    else some (-1, [.media rx.pkt false], s)

inductive Op where
  | setPayloadTypeFEC (payloadType : BitVec 8)
  | addReceivedFECPacket (uninit : BitVec 32) (rtpHeader : RtpHeader) (incoming : Mem)
      (payloadDataLength : BitVec 16)
  | processReceivedFEC (answers : Nat → Bool)

def step : Op → ReceiverFEC → Option ReceiverFEC
  | .setPayloadTypeFEC payloadType, s => some (s.setPayloadTypeFEC payloadType)
  | .addReceivedFECPacket uninit rtpHeader incoming payloadDataLength, s =>
    (s.addReceivedFECPacket uninit rtpHeader incoming payloadDataLength false).map (·.2.2)
  | .processReceivedFEC answers, s => (s.processReceivedFEC answers).map (·.2.2)

def run : List Op → ReceiverFEC → Option ReceiverFEC
  | [], s => some s
  | op :: ops, s => (s.step op).bind (run ops)

/-! ## What happens in a run -/

inductive LogEntry where
  | queue (rx : ReceivedPacket)
  | recover (r : RecoveredPacket)
  | drop (r : RecoveredPacket)
  | deliver (delivery : Delivery)

/-- The packets that `DiscardOldPackets` drops. -/
def discardLog (d : Decoder) : List LogEntry :=
  (d.recoveredPacketList.take (d.recoveredPacketList.length - kMaxMediaPackets)).map .drop

def recoverLog : Nat → Decoder → List LogEntry
  | 0, _ => []
  | n + 1, d =>
    match scan d.fecPacketList with
    | (_, none) => []
    | (rest, some f) =>
      match recoverPacket f with
      | none => []
      | some r =>
        let d' := { d with fecPacketList := rest }.addRecovered r
        .recover r :: (discardLog d' ++ recoverLog n d'.discardOldPackets)

/-- The packets that a reset drops, after which the list is empty. -/
def resetLog (received : List ReceivedPacket) (d : Decoder) : List LogEntry :=
  match d.resetOnGap received with
  | none => []
  | some d' =>
    if d'.recoveredPacketList.isEmpty then d.recoveredPacketList.map .drop else []

def decodeLog (received : List ReceivedPacket) (d : Decoder) : List LogEntry :=
  resetLog received d ++
    match (d.resetOnGap received).bind (insertPacketsFrom received) with
    | none => []
    | some d' =>
      discardLog d' ++ recoverLog d'.discardOldPackets.fecPacketList.length d'.discardOldPackets

/-- The received packets are decoded in the call. -/
def Decodes (answers : Nat → Bool) (s : ReceiverFEC) : Prop :=
  ∃ rx ∈ s.receivedPacketList.head?, rx.isFec = true ∨ answers 0 = true

instance (answers : Nat → Bool) (s : ReceiverFEC) : Decidable (Decodes answers s) :=
  inferInstanceAs (Decidable (∃ rx ∈ s.receivedPacketList.head?, _))

def stepLog : Op → ReceiverFEC → List LogEntry
  | .setPayloadTypeFEC _, _ => []
  | .addReceivedFECPacket uninit rtpHeader incoming payloadDataLength, s =>
    match s.addReceivedFECPacket uninit rtpHeader incoming payloadDataLength false with
    | none => []
    | some (_, _, s') =>
      (s'.receivedPacketList.drop s.receivedPacketList.length).map .queue
  | .processReceivedFEC answers, s =>
    (if Decodes answers s then decodeLog s.receivedPacketList s.decoder else []) ++
      match s.processReceivedFEC answers with
      | none => []
      | some (_, deliveries, _) => deliveries.map .deliver

def log : List Op → ReceiverFEC → List LogEntry
  | [], _ => []
  | op :: ops, s =>
    stepLog op s ++
      match s.step op with
      | none => []
      | some s' => log ops s'

/-! ## Counting -/

namespace LogEntry

/-- The packets that are recovered. -/
def recovered? : LogEntry → Option Packet
  | .recover r => some r.pkt
  | _ => none

/-- The packets that are dropped before they are returned. -/
def dropped? : LogEntry → Option Packet
  | .drop r => if r.returned then none else some r.pkt
  | _ => none

/-- The recovered packets that the callback takes. -/
def sent? : LogEntry → Option Packet
  | .deliver (.recovered pkt true) => some pkt
  | _ => none

/-- The media packets that the callback takes. -/
def sentMedia? : LogEntry → Option Packet
  | .deliver (.media pkt true) => some pkt
  | _ => none

def queuedMedia? : LogEntry → Option Packet
  | .queue rx => if rx.isFec then none else some rx.pkt
  | _ => none

def isRefused : LogEntry → Bool
  | .deliver (.recovered _ accepted) => !accepted
  | .deliver (.media _ accepted) => !accepted
  | _ => false

end LogEntry

open LogEntry

/-- The recovered packets that have not been returned. -/
def pending (l : List RecoveredPacket) : List Packet :=
  (l.filter fun r => !r.returned).map (·.pkt)

/-- The media packets of the list of received packets. -/
def waitingMedia (l : List ReceivedPacket) : List Packet :=
  (l.filter fun rx => !rx.isFec).map (·.pkt)

@[simp]
theorem pending_append (l l' : List RecoveredPacket) :
    pending (l ++ l') = pending l ++ pending l' := by
  rw [pending, List.filter_append, List.map_append]
  rfl

theorem pending_perm {l l' : List RecoveredPacket} (h : l.Perm l') :
    (pending l).Perm (pending l') := (h.filter _).map _

/-- What is dropped of a list is what was waiting in it. -/
theorem filterMap_dropped (l : List RecoveredPacket) :
    (l.map LogEntry.drop).filterMap dropped? = pending l := by
  induction l with
  | nil => rfl
  | cons r l ih =>
    rw [List.map_cons, pending, List.filter_cons]
    cases hr : r.returned with
    | true =>
      rw [List.filterMap_cons_none (by simp only [dropped?, hr, if_true]), ih]
      rfl
    | false =>
      rw [List.filterMap_cons_some (b := r.pkt)
        (by simp only [dropped?, hr, Bool.false_eq_true, if_false]), ih]
      rfl

theorem filterMap_drop_eq_nil {f : LogEntry → Option Packet} (hf : ∀ r, f (.drop r) = none)
    (l : List RecoveredPacket) : (l.map LogEntry.drop).filterMap f = [] := by
  rw [List.filterMap_map]
  exact List.filterMap_eq_nil_iff.mpr fun r _ => hf r

/-- From one list of recovered packets to another: what waited and what is
recovered is delivered, dropped, or waits. -/
def Accounts (l : List RecoveredPacket) (entries : List LogEntry) (l' : List RecoveredPacket) : Prop :=
  (pending l ++ entries.filterMap recovered?).Perm
    (entries.filterMap sent? ++ (entries.filterMap dropped? ++ pending l'))

section Accounts

variable {l l' l'' : List RecoveredPacket}

theorem Accounts.trans {entries entries' : List LogEntry} (h : Accounts l entries l')
    (h' : Accounts l' entries' l'') : Accounts l (entries ++ entries') l'' := by
  unfold Accounts at h h' ⊢
  simp only [List.filterMap_append]
  rw [← List.append_assoc (pending l)]
  refine (h.append_right _).trans ?_
  rw [List.append_assoc, List.append_assoc]
  refine ((h'.append_left _).append_left _).trans ?_
  rw [List.append_assoc, List.append_assoc]
  exact (List.perm_append_comm_assoc _ _ _).append_left _

theorem Accounts.of_perm (h : (pending l).Perm (pending l')) : Accounts l [] l' := by
  unfold Accounts
  simp only [List.filterMap_nil, List.append_nil, List.nil_append]
  exact h

/-- Packets are dropped from the front of the list. -/
theorem accounts_drop (n : Nat) : Accounts l ((l.take n).map .drop) (l.drop n) := by
  unfold Accounts
  rw [filterMap_drop_eq_nil (fun _ => rfl), filterMap_drop_eq_nil (fun _ => rfl),
    filterMap_dropped, List.nil_append, List.append_nil, ← pending_append, List.take_append_drop]

theorem accounts_recovered {r : RecoveredPacket} (hr : r.returned = false)
    (h : (pending l').Perm (pending l ++ pending [r])) : Accounts l [.recover r] l' := by
  have hnew : pending [r] = [r.pkt] := by
    rw [pending, List.filter_cons_of_pos (by rw [hr]; rfl)]
    rfl
  rw [hnew] at h
  exact h.symm

end Accounts

/-! ## Decoding -/

/-- A packet that is recovered has not been returned. -/
theorem recoverFrom_returned : ∀ {l : List ProtectedPacket} {r r' : RecoveredPacket},
    recoverFrom l r = some r' → r'.returned = r.returned
  | [], r, r', h => by rw [Option.some.inj h]
  | ⟨n, none⟩ :: l, r, r', h => recoverFrom_returned (r := { r with seqNum := n }) h
  | ⟨n, some src⟩ :: l, r, r', h => by
    obtain ⟨r₁, hxor, hrest⟩ := Option.bind_eq_some_iff.mp h
    rw [recoverFrom_returned hrest]
    unfold xorPackets at hxor
    split at hxor
    · rw [← Option.some.inj hxor]
    · cases hxor

theorem recoverPacket_returned {f : FecPacket} {r : RecoveredPacket} (h : recoverPacket f = some r) :
    r.returned = false := by
  obtain ⟨r₀, hinit, h⟩ := Option.bind_eq_some_iff.mp h
  obtain ⟨r₁, hrec, rfl⟩ := Option.map_eq_some_iff.mp h
  show r₁.returned = false
  rw [recoverFrom_returned hrec]
  unfold initRecovery at hinit
  simp only at hinit
  split at hinit
  · rw [← Option.some.inj hinit]
  · cases hinit

theorem pending_addRecovered (r : RecoveredPacket) (d : Decoder) :
    (pending (d.addRecovered r).recoveredPacketList).Perm
      (pending d.recoveredPacketList ++ pending [r]) := by
  rw [← pending_append]
  exact pending_perm (sort_perm _ _)

theorem accounts_recover : ∀ {n : Nat} {d d' : Decoder}, attemptRecoverFrom n d = some d' →
    Accounts d.recoveredPacketList (recoverLog n d) d'.recoveredPacketList
  | 0, d, d', h => by
    obtain rfl := Option.some.inj h
    exact .of_perm (.refl _)
  | n + 1, d, d', h => by
    rw [attemptRecoverFrom] at h
    rw [recoverLog]
    generalize scan d.fecPacketList = scanned at h ⊢
    obtain ⟨rest, _ | f⟩ := scanned
    · obtain rfl := Option.some.inj h
      exact .of_perm (.refl _)
    · obtain ⟨d₁, hwith, h⟩ := Option.bind_eq_some_iff.mp h
      obtain ⟨r, hrec, rfl⟩ := Option.map_eq_some_iff.mp hwith
      simp only [hrec]
      have hadd := pending_addRecovered r { d with fecPacketList := rest }
      exact (accounts_recovered (recoverPacket_returned hrec) hadd).trans
        ((accounts_drop _).trans (accounts_recover h))

theorem pending_insertPacketsFrom : ∀ {received : List ReceivedPacket} {d d' : Decoder},
    d.insertPacketsFrom received = some d' →
    (pending d'.recoveredPacketList).Perm (pending d.recoveredPacketList)
  | [], d, d', h => by rw [Option.some.inj h]
  | rx :: received, d, d', h => by
    obtain ⟨d₁, hins, h⟩ := Option.bind_eq_some_iff.mp h
    refine (pending_insertPacketsFrom h).trans ?_
    unfold insertPacket at hins
    split at hins
    · -- An FEC packet leaves the list as it is.
      unfold insertFECPacket at hins
      split at hins
      · rw [Option.some.inj hins]
      split at hins
      · rw [Option.some.inj hins]
      · obtain ⟨f, -, rfl⟩ := Option.map_eq_some_iff.mp hins
        exact .refl _
    · obtain rfl := Option.some.inj hins
      unfold insertMediaPacket
      split
      · exact .refl _
      · refine (pending_addRecovered _ d).trans ?_
        rw [show pending [_] = [] from rfl, List.append_nil]

variable {received : List ReceivedPacket}

theorem accounts_reset {d d' : Decoder} (h : d.resetOnGap received = some d') :
    Accounts d.recoveredPacketList (resetLog received d) d'.recoveredPacketList := by
  have hcases : d' = Decoder.init ∨ d' = d := by
    unfold resetOnGap at h
    split at h
    · split at h
      · obtain rfl := Option.some.inj h
        split
        · exact .inl rfl
        · exact .inr rfl
      · cases h
    · exact .inr (Option.some.inj h).symm
  unfold resetLog
  simp only [h]
  rcases hcases with rfl | rfl
  · have hall := @accounts_drop d.recoveredPacketList d.recoveredPacketList.length
    rwa [List.take_length, List.drop_length] at hall
  · split
    · rename_i hempty
      rw [List.isEmpty_iff.mp hempty]
      exact .of_perm (.refl _)
    · exact .of_perm (.refl _)

theorem accounts_decode {d d' : Decoder} (h : d.decodeFEC received = some d') :
    Accounts d.recoveredPacketList (decodeLog received d) d'.recoveredPacketList := by
  obtain ⟨d₁, hreset, h⟩ := Option.bind_eq_some_iff.mp h
  obtain ⟨d₂, hins, h⟩ := Option.bind_eq_some_iff.mp h
  obtain ⟨d₃, hfrom, rfl⟩ := Option.map_eq_some_iff.mp hins
  unfold decodeLog
  rw [hreset, Option.bind_some, hfrom]
  refine (accounts_reset hreset).trans ?_
  exact (Accounts.of_perm (pending_insertPacketsFrom hfrom).symm).trans
    ((accounts_drop _).trans (accounts_recover h))

/-! ## Delivering -/

/-- The deliveries of the loop are from the recovered packets, and leave only
what was refused. -/
theorem sendRecovered_spec : ∀ (l : List RecoveredPacket) (answers : Nat → Bool),
    let sent := sendRecovered l answers
    let entries := sent.2.1.map LogEntry.deliver
    Accounts l entries sent.2.2 ∧ entries.filterMap sentMedia? = [] ∧
      ((∀ entry ∈ entries, entry.isRefused = false) → pending sent.2.2 = [])
  | [], _ => ⟨.of_perm (.refl _), rfl, fun _ => rfl⟩
  | r :: l, answers => by
    simp only
    rw [sendRecovered]
    split
    · rename_i hr
      obtain ⟨hacc, hmedia, hall⟩ := sendRecovered_spec l answers
      have hskip : ∀ l, pending (r :: l) = pending l := fun l => by
        rw [pending, List.filter_cons_of_neg (by rw [hr]; exact Bool.false_ne_true)]
        rfl
      refine ⟨?_, hmedia, fun h => (hskip _).trans (hall h)⟩
      unfold Accounts at hacc ⊢
      rwa [hskip, hskip]
    rename_i hr
    have hwait : pending (r :: l) = r.pkt :: pending l := by
      rw [pending, List.filter_cons_of_pos (by simpa using hr)]
      rfl
    split
    · obtain ⟨hacc, hmedia, hall⟩ := sendRecovered_spec l fun i => answers (i + 1)
      refine ⟨?_, hmedia, fun h => hall fun entry he => h entry (List.mem_cons_of_mem _ he)⟩
      unfold Accounts at hacc ⊢
      rw [hwait]
      exact hacc.cons r.pkt
    · refine ⟨.of_perm (.refl _), rfl, fun h => ?_⟩
      exact (Bool.false_ne_true (h _ (List.mem_singleton.mpr rfl)).symm).elim

/-- What some entries of the log are to the states before and after them. -/
structure Tally (s : ReceiverFEC) (entries : List LogEntry) (s' : ReceiverFEC) : Prop where
  accounts : Accounts s.decoder.recoveredPacketList entries s'.decoder.recoveredPacketList
  media : (entries.filterMap sentMedia? ++ waitingMedia s'.receivedPacketList).Sublist
    (waitingMedia s.receivedPacketList ++ entries.filterMap queuedMedia?)

theorem Tally.refl (s : ReceiverFEC) : Tally s [] s :=
  ⟨.of_perm (.refl _), by simp⟩

theorem Tally.trans {s₁ s₂ s₃ : ReceiverFEC} {entries entries' : List LogEntry}
    (h : Tally s₁ entries s₂) (h' : Tally s₂ entries' s₃) : Tally s₁ (entries ++ entries') s₃ := by
  refine ⟨h.accounts.trans h'.accounts, ?_⟩
  simp only [List.filterMap_append]
  rw [List.append_assoc]
  refine (h'.media.append_left _).trans ?_
  rw [← List.append_assoc, ← List.append_assoc]
  exact h.media.append_right _

variable {s : ReceiverFEC} {s' : ReceiverFEC}

/-- A call appends to the list of received packets and does nothing else. -/
theorem addReceivedFECPacket_append {uninit : BitVec 32} {rtpHeader : RtpHeader} {incoming : Mem}
    {payloadDataLength : BitVec 16} {fecPacket : Bool} {result : Int × Bool × ReceiverFEC}
    (h : s.addReceivedFECPacket uninit rtpHeader incoming payloadDataLength fecPacket = some result) :
    ∃ new, result.2.2 = { s with receivedPacketList := s.receivedPacketList ++ new } := by
  have hsame : s = { s with receivedPacketList := s.receivedPacketList ++ [] } := by
    rw [List.append_nil]
  have hqueue : ∀ first second, ∃ new,
      s.queue first second = { s with receivedPacketList := s.receivedPacketList ++ new } := by
    intro first second
    unfold queue
    split
    · exact ⟨[], hsame⟩
    · exact ⟨_, rfl⟩
  have hone : ∀ {received h n s'}, s.addOneBlock received h n incoming payloadDataLength = some s' →
      ∃ new, s' = { s with receivedPacketList := s.receivedPacketList ++ new } := by
    intro received h n s' hadd
    unfold addOneBlock at hadd
    simp only at hadd
    split at hadd <;> obtain ⟨_, -, rfl⟩ := Option.map_eq_some_iff.mp hadd <;> exact hqueue _ _
  unfold addReceivedFECPacket at h
  simp only at h
  split at h
  · rw [← Option.some.inj h]
    exact ⟨[], hsame⟩
  split at h
  swap
  · obtain ⟨s', hadd, rfl⟩ := Option.map_eq_some_iff.mp h
    exact hone hadd
  split at h
  · rw [← Option.some.inj h]
    exact ⟨[], hsame⟩
  split at h
  · obtain ⟨s', hadd, rfl⟩ := Option.map_eq_some_iff.mp h
    obtain ⟨_, -, hadd⟩ := Option.bind_eq_some_iff.mp hadd
    obtain ⟨_, -, rfl⟩ := Option.map_eq_some_iff.mp hadd
    exact hqueue _ _
  · obtain ⟨s', hadd, rfl⟩ := Option.map_eq_some_iff.mp h
    exact hone hadd

theorem filterMap_queued (l : List ReceivedPacket) :
    (l.map LogEntry.queue).filterMap queuedMedia? = waitingMedia l := by
  induction l with
  | nil => rfl
  | cons rx l ih =>
    rw [List.map_cons, waitingMedia, List.filter_cons]
    cases hrx : rx.isFec with
    | true =>
      rw [List.filterMap_cons_none (by simp only [queuedMedia?, hrx, if_true]), ih]
      rfl
    | false =>
      rw [List.filterMap_cons_some (b := rx.pkt)
        (by simp only [queuedMedia?, hrx, Bool.false_eq_true, if_false]), ih]
      rfl

theorem tally_queue (s : ReceiverFEC) (new : List ReceivedPacket) :
    Tally s (new.map .queue) { s with receivedPacketList := s.receivedPacketList ++ new } := by
  have hnone : ∀ {f : LogEntry → Option Packet}, (∀ rx, f (.queue rx) = none) →
      (new.map LogEntry.queue).filterMap f = [] := by
    intro f hf
    rw [List.filterMap_map]
    exact List.filterMap_eq_nil_iff.mpr fun rx _ => hf rx
  refine ⟨?_, ?_⟩
  · unfold Accounts
    rw [hnone fun _ => rfl, hnone fun _ => rfl, hnone fun _ => rfl, List.append_nil,
      List.nil_append, List.nil_append]
  · rw [hnone fun _ => rfl, filterMap_queued, List.nil_append, waitingMedia, List.filter_append,
      List.map_append]
    exact List.Sublist.refl _

/-- The decoder logs what it recovers and drops. -/
def FromDecoder : LogEntry → Prop
  | .recover _ => True
  | .drop _ => True
  | _ => False

theorem fromDecoder_drop {l : List RecoveredPacket} : ∀ entry ∈ l.map LogEntry.drop, FromDecoder entry := by
  intro entry he
  obtain ⟨r, -, rfl⟩ := List.mem_map.mp he
  trivial

theorem fromDecoder_recoverLog : ∀ (n : Nat) (d : Decoder), ∀ entry ∈ recoverLog n d, FromDecoder entry
  | 0, _ => nofun
  | n + 1, d => by
    intro entry he
    rw [recoverLog] at he
    split at he
    · cases he
    split at he
    · cases he
    · rcases List.mem_cons.mp he with rfl | he
      · trivial
      rcases List.mem_append.mp he with he | he
      · exact fromDecoder_drop entry he
      · exact fromDecoder_recoverLog n _ entry he

theorem fromDecoder_decodeLog (received : List ReceivedPacket) (d : Decoder) :
    ∀ entry ∈ decodeLog received d, FromDecoder entry := by
  intro entry he
  rcases List.mem_append.mp he with he | he
  · unfold resetLog at he
    split at he
    · cases he
    split at he
    · exact fromDecoder_drop entry he
    · cases he
  · split at he
    · cases he
    rcases List.mem_append.mp he with he | he
    · exact fromDecoder_drop entry he
    · exact fromDecoder_recoverLog _ _ entry he

theorem filterMap_fromDecoder {entries : List LogEntry} (h : ∀ entry ∈ entries, FromDecoder entry)
    {f : LogEntry → Option Packet} (hf : ∀ r, f (.recover r) = none) (hf' : ∀ r, f (.drop r) = none) :
    entries.filterMap f = [] := by
  refine List.filterMap_eq_nil_iff.mpr fun entry he => ?_
  have hentry := h entry he
  cases entry with
  | recover r => exact hf r
  | drop r => exact hf' r
  | queue rx => exact hentry.elim
  | deliver delivery => exact hentry.elim

/-- The list is decoded, after its first packet may have been delivered. -/
theorem tally_decode (h : s.decodeReceived = some s') {front : List Delivery}
    (hfront : front = [] ∨ ∃ rx rest, s.receivedPacketList = rx :: rest ∧ rx.isFec = false ∧
      front = [.media rx.pkt true]) :
    Tally s (decodeLog s.receivedPacketList s.decoder ++ front.map .deliver) s' := by
  obtain ⟨d, hdec, rfl⟩ := Option.map_eq_some_iff.mp h
  have hnone : ∀ f : LogEntry → Option Packet, (∀ pkt, f (.deliver (.media pkt true)) = none) →
      (front.map LogEntry.deliver).filterMap f = [] := by
    intro f hf
    obtain rfl | ⟨rx, rest, -, -, rfl⟩ := hfront
    · rfl
    · exact List.filterMap_cons_none (hf rx.pkt)
  have hfrom := fromDecoder_decodeLog s.receivedPacketList s.decoder
  refine ⟨(accounts_decode hdec).trans ?_, ?_⟩
  · unfold Accounts
    rw [hnone _ fun _ => rfl, hnone _ fun _ => rfl, hnone _ fun _ => rfl, List.append_nil,
      List.nil_append, List.nil_append]
  · simp only [List.filterMap_append]
    rw [filterMap_fromDecoder hfrom (fun _ => rfl) fun _ => rfl,
      filterMap_fromDecoder hfrom (fun _ => rfl) fun _ => rfl, hnone queuedMedia? fun _ => rfl]
    show (_ ++ []).Sublist (_ ++ [])
    rw [List.append_nil, List.append_nil]
    obtain rfl | ⟨rx, rest, hlist, hmedia, rfl⟩ := hfront
    · exact List.nil_sublist _
    · rw [hlist, waitingMedia, List.filter_cons_of_pos (by rw [hmedia]; rfl)]
      exact (List.nil_sublist _).cons_cons _

theorem tally_return (s : ReceiverFEC) (answers : Nat → Bool) :
    Tally s ((s.returnRecovered answers).2.1.map .deliver) (s.returnRecovered answers).2.2 := by
  obtain ⟨hacc, hmedia, -⟩ := sendRecovered_spec s.decoder.recoveredPacketList answers
  have hqueued : ∀ l : List Delivery, (l.map LogEntry.deliver).filterMap queuedMedia? = [] := by
    intro l
    rw [List.filterMap_map]
    exact List.filterMap_eq_nil_iff.mpr fun _ _ => rfl
  refine ⟨hacc, ?_⟩
  rw [hqueued, List.append_nil]
  show (((sendRecovered s.decoder.recoveredPacketList answers).2.1.map _).filterMap _ ++ _).Sublist _
  rw [hmedia]
  exact List.Sublist.refl _

/-- A call delivers from the list as it is, is refused the first packet, or
decodes the list after that packet was delivered. -/
theorem processReceivedFEC_cases {answers : Nat → Bool} {result : Int × List Delivery × ReceiverFEC}
    (h : s.processReceivedFEC answers = some result) :
    (¬ Decodes answers s ∧ result = s.returnRecovered answers) ∨
    (¬ Decodes answers s ∧ ∃ pkt, result = (-1, [.media pkt false], s)) ∨
    (Decodes answers s ∧ ∃ s' front answers', s.decodeReceived = some s' ∧
      result.2.1 = front ++ (s'.returnRecovered answers').2.1 ∧
      result.2.2 = (s'.returnRecovered answers').2.2 ∧
      (front = [] ∨ ∃ rx rest, s.receivedPacketList = rx :: rest ∧ rx.isFec = false ∧
        front = [.media rx.pkt true])) := by
  unfold processReceivedFEC at h
  unfold Decodes
  cases hlist : s.receivedPacketList with
  | nil =>
    rw [hlist] at h
    exact .inl ⟨by simp, (Option.some.inj h).symm⟩
  | cons rx rest =>
    rw [hlist] at h
    simp only [List.head?_cons, Option.mem_def, Option.some.injEq, exists_eq_left'] at h ⊢
    cases hfec : rx.isFec with
    | true =>
      rw [hfec, if_pos rfl] at h
      obtain ⟨s', hdec, rfl⟩ := Option.map_eq_some_iff.mp h
      exact .inr (.inr ⟨.inl rfl, s', [], answers, hdec, rfl, rfl, .inl rfl⟩)
    | false =>
      rw [hfec, if_neg Bool.false_ne_true] at h
      split at h
      · rename_i hans
        obtain ⟨s', hdec, rfl⟩ := Option.map_eq_some_iff.mp h
        exact .inr (.inr ⟨.inr hans, s', _, _, hdec, rfl, rfl, .inr ⟨rx, rest, rfl, hfec, rfl⟩⟩)
      · rename_i hans
        refine .inr (.inl ⟨?_, rx.pkt, (Option.some.inj h).symm⟩)
        rintro (h | h)
        · cases h
        · exact hans h

theorem step_tally {op : Op} (h : s.step op = some s') : Tally s (stepLog op s) s' := by
  cases op with
  | setPayloadTypeFEC payloadType =>
    obtain rfl := Option.some.inj h
    exact ⟨.of_perm (.refl _), by simp [stepLog, setPayloadTypeFEC]⟩
  | addReceivedFECPacket uninit rtpHeader incoming payloadDataLength =>
    obtain ⟨⟨ret, fecPacket, s''⟩, hadd, rfl⟩ := Option.map_eq_some_iff.mp h
    obtain ⟨new, heq⟩ := addReceivedFECPacket_append hadd
    simp only at heq
    simp only [stepLog, hadd, heq, List.drop_left]
    exact tally_queue s new
  | processReceivedFEC answers =>
    obtain ⟨⟨ret, deliveries, s''⟩, hproc, rfl⟩ := Option.map_eq_some_iff.mp h
    simp only [stepLog, hproc]
    rcases processReceivedFEC_cases hproc with ⟨hdecodes, heq⟩ | ⟨hdecodes, pkt, heq⟩ |
      ⟨hdecodes, s₁, front, answers', hdec, hdel, hs, hfront⟩
    · rw [if_neg hdecodes, List.nil_append]
      obtain rfl : deliveries = _ := congrArg (·.2.1) heq
      obtain rfl : s'' = _ := congrArg (·.2.2) heq
      exact tally_return s answers
    · rw [if_neg hdecodes, List.nil_append]
      obtain rfl : deliveries = _ := congrArg (·.2.1) heq
      obtain rfl : s'' = s := congrArg (·.2.2) heq
      exact ⟨.of_perm (.refl _), by simp [sentMedia?, queuedMedia?]⟩
    · simp only at hdel hs
      rw [if_pos hdecodes, hdel, hs, List.map_append, ← List.append_assoc]
      exact (tally_decode hdec hfront).trans (tally_return s₁ answers')

theorem run_tally : ∀ {ops : List Op} {s s' : ReceiverFEC}, run ops s = some s' →
    Tally s (log ops s) s'
  | [], s, s', h => by
    obtain rfl := Option.some.inj h
    exact Tally.refl s
  | op :: ops, s, s', h => by
    obtain ⟨s₁, hstep, h⟩ := Option.bind_eq_some_iff.mp h
    rw [log, hstep]
    exact (step_tally hstep).trans (run_tally h)

/-- Without a refusal, nothing waits after a call. -/
theorem step_settled {op : Op} (h : s.step op = some s')
    (hpending : pending s.decoder.recoveredPacketList = [])
    (hall : ∀ entry ∈ stepLog op s, entry.isRefused = false) :
    pending s'.decoder.recoveredPacketList = [] := by
  cases op with
  | setPayloadTypeFEC payloadType =>
    obtain rfl := Option.some.inj h
    exact hpending
  | addReceivedFECPacket uninit rtpHeader incoming payloadDataLength =>
    obtain ⟨result, hadd, rfl⟩ := Option.map_eq_some_iff.mp h
    obtain ⟨new, heq⟩ := addReceivedFECPacket_append hadd
    rw [heq]
    exact hpending
  | processReceivedFEC answers =>
    obtain ⟨⟨ret, deliveries, s''⟩, hproc, rfl⟩ := Option.map_eq_some_iff.mp h
    simp only [stepLog, hproc] at hall
    have hdeliver : ∀ delivery ∈ deliveries, (LogEntry.deliver delivery).isRefused = false :=
      fun delivery hd => hall _ (List.mem_append_right _ (List.mem_map_of_mem hd))
    have hreturn : ∀ (s₁ : ReceiverFEC) (answers' : Nat → Bool),
        (∀ delivery ∈ (s₁.returnRecovered answers').2.1, delivery ∈ deliveries) →
        pending (s₁.returnRecovered answers').2.2.decoder.recoveredPacketList = [] := by
      intro s₁ answers' hsub
      refine (sendRecovered_spec s₁.decoder.recoveredPacketList answers').2.2 fun entry he => ?_
      obtain ⟨delivery, hd, rfl⟩ := List.mem_map.mp he
      exact hdeliver delivery (hsub delivery hd)
    rcases processReceivedFEC_cases hproc with ⟨-, heq⟩ | ⟨-, pkt, heq⟩ |
      ⟨-, s₁, front, answers', -, hdel, hs, -⟩
    · obtain rfl : deliveries = _ := congrArg (·.2.1) heq
      obtain rfl : s'' = _ := congrArg (·.2.2) heq
      exact hreturn s answers fun _ hd => hd
    · obtain rfl : s'' = s := congrArg (·.2.2) heq
      exact hpending
    · simp only at hdel hs
      rw [hs]
      exact hreturn s₁ answers' fun _ hd => hdel ▸ List.mem_append_right _ hd

theorem run_settled : ∀ {ops : List Op} {s s' : ReceiverFEC}, run ops s = some s' →
    pending s.decoder.recoveredPacketList = [] →
    (∀ entry ∈ log ops s, entry.isRefused = false) → pending s'.decoder.recoveredPacketList = []
  | [], s, s', h, hpending, _ => by
    obtain rfl := Option.some.inj h
    exact hpending
  | op :: ops, s, s', h, hpending, hall => by
    obtain ⟨s₁, hstep, h⟩ := Option.bind_eq_some_iff.mp h
    rw [log, hstep] at hall
    refine run_settled h (step_settled hstep hpending fun entry he => ?_) fun entry he => ?_
    · exact hall entry (List.mem_append_left _ he)
    · exact hall entry (List.mem_append_right _ he)

/-! ## Numbers that are in the list -/

/-- The number that is recovered is not in the list of recovered packets. -/
def Fresh : Event → Decoder → Prop
  | .recover f, d => missingSeqNum f ∉ d.seqNums
  | _, _ => True

/-- `P` holds at every event of the decoder in a run. -/
def AlongDecode (P : Event → Decoder → Prop) : List Op → ReceiverFEC → Prop
  | [], _ => True
  | op :: ops, s =>
    (∀ answers, op = .processReceivedFEC answers → Decodes answers s →
      CallAlong P s.receivedPacketList s.decoder) ∧
    ∀ s', s.step op = some s' → AlongDecode P ops s'

theorem recoverAlong_fresh : ∀ {n : Nat} {d : Decoder}, SortedList d → RecoverAlong Fits n d →
    RecoverAlong Fresh n d
  | 0, _, _, _ => trivial
  | n + 1, d, hd, h => by
    rw [RecoverAlong] at h ⊢
    split <;> rename_i heq <;> rw [heq] at h
    · trivial
    · rename_i rest f
      obtain ⟨hmem, hone⟩ := (scan_subset heq).2 f rfl
      obtain ⟨p, hp, hnone, hseq, -⟩ := exists_missing hone
      obtain ⟨hwith, hsorted⟩ := hd.recoverWith heq h.1
      have hfresh : missingSeqNum f ∉ d.seqNums := hseq ▸ hd.missing f hmem p hp hnone
      refine ⟨hfresh, fun d' hd' => ?_⟩
      obtain rfl := Option.some.inj (hwith.symm.trans hd')
      exact recoverAlong_fresh hsorted (h.2 _ hwith)

theorem insertAlong_fresh : ∀ (received : List ReceivedPacket) (d : Decoder),
    InsertAlong Fresh received d
  | [], _ => trivial
  | _ :: received, _ => ⟨trivial, fun d' _ => insertAlong_fresh received d'⟩

theorem callAlong_fresh {d : Decoder} (hd : SortedList d)
    (hlen : d.recoveredPacketList.length ≤ kMaxMediaPackets) (h : CallAlong Fits received d) :
    CallAlong Fresh received d := by
  refine ⟨trivial, fun d₁ hreset => ⟨insertAlong_fresh received d₁, fun d₂ hins => ?_⟩⟩
  obtain ⟨hinsert, hrecover⟩ := h.2 d₁ hreset
  obtain ⟨d₁', hreset', hd₁⟩ := keeps_sortedList.reset ⟨hd, hlen⟩ h.1
  obtain rfl := Option.some.inj (hreset.symm.trans hreset')
  obtain ⟨d₃, hfrom, hd₃⟩ := keeps_sortedList.insertPacketsFrom hd₁ (fun _ _ => trivial) hinsert
  have hall : d₁.insertPackets received = some d₃.discardOldPackets := by
    rw [insertPackets, hfrom]
    rfl
  obtain rfl := Option.some.inj (hall.symm.trans hins)
  exact recoverAlong_fresh hd₃.discardOldPackets (hrecover _ hall)

/-- Only the flags change. -/
theorem sendRecovered_seqNum : ∀ (l : List RecoveredPacket) (answers : Nat → Bool),
    (sendRecovered l answers).2.2.map (·.seqNum) = l.map (·.seqNum)
  | [], _ => rfl
  | r :: l, answers => by
    rw [sendRecovered]
    split
    · simp only [List.map_cons, sendRecovered_seqNum l]
    · split
      · simp only [List.map_cons, sendRecovered_seqNum l]
      · rfl

theorem sortedList_return (hd : SortedList s.decoder) (answers : Nat → Bool) :
    SortedList (s.returnRecovered answers).2.2.decoder := by
  have hseq := sendRecovered_seqNum s.decoder.recoveredPacketList answers
  refine ⟨List.pairwise_map.mp ?_, hd.masks, fun f hf p hp hnone => ?_⟩
  · show ((sendRecovered s.decoder.recoveredPacketList answers).2.2.map (·.seqNum)).Pairwise Precedes
    rw [hseq]
    exact List.pairwise_map.mpr hd.sorted
  · show p.seqNum ∉ (sendRecovered s.decoder.recoveredPacketList answers).2.2.map (·.seqNum)
    rw [hseq]
    exact hd.missing f hf p hp hnone

theorem step_sortedList {op : Op} (h : s.step op = some s') (hd : SortedList s.decoder)
    (hlen : s.decoder.recoveredPacketList.length ≤ kMaxMediaPackets)
    (halong : ∀ answers, op = .processReceivedFEC answers → Decodes answers s →
      CallAlong Fits s.receivedPacketList s.decoder) :
    SortedList s'.decoder ∧ s'.decoder.recoveredPacketList.length ≤ kMaxMediaPackets := by
  have hreturn : ∀ (s₁ : ReceiverFEC) (answers : Nat → Bool),
      (s₁.returnRecovered answers).2.2.decoder.recoveredPacketList.length =
        s₁.decoder.recoveredPacketList.length := by
    intro s₁ answers
    have hseq := congrArg List.length (sendRecovered_seqNum s₁.decoder.recoveredPacketList answers)
    rwa [List.length_map, List.length_map] at hseq
  cases op with
  | setPayloadTypeFEC payloadType =>
    obtain rfl := Option.some.inj h
    exact ⟨hd, hlen⟩
  | addReceivedFECPacket uninit rtpHeader incoming payloadDataLength =>
    obtain ⟨result, hadd, rfl⟩ := Option.map_eq_some_iff.mp h
    obtain ⟨new, heq⟩ := addReceivedFECPacket_append hadd
    rw [heq]
    exact ⟨hd, hlen⟩
  | processReceivedFEC answers =>
    obtain ⟨⟨ret, deliveries, s''⟩, hproc, rfl⟩ := Option.map_eq_some_iff.mp h
    rcases processReceivedFEC_cases hproc with ⟨-, heq⟩ | ⟨-, pkt, heq⟩ |
      ⟨hdecodes, s₁, front, answers', hdec, -, hs, -⟩
    · obtain rfl : s'' = _ := congrArg (·.2.2) heq
      exact ⟨sortedList_return hd answers, (hreturn s answers).trans_le hlen⟩
    · obtain rfl : s'' = s := congrArg (·.2.2) heq
      exact ⟨hd, hlen⟩
    · simp only at hs
      obtain ⟨d, hdec', rfl⟩ := Option.map_eq_some_iff.mp hdec
      obtain ⟨d', hdec'', hd', hlen'⟩ := keeps_sortedList.decodeFEC ⟨hd, hlen⟩ (fun _ _ => trivial)
        (halong answers rfl hdecodes)
      obtain rfl := Option.some.inj (hdec'.symm.trans hdec'')
      rw [hs]
      exact ⟨sortedList_return hd' answers', (hreturn _ answers').trans_le hlen'⟩

theorem alongDecode_fresh : ∀ {ops : List Op} {s : ReceiverFEC}, SortedList s.decoder →
    s.decoder.recoveredPacketList.length ≤ kMaxMediaPackets → AlongDecode Fits ops s →
    AlongDecode Fresh ops s
  | [], _, _, _, _ => trivial
  | op :: ops, s, hd, hlen, ⟨hop, hrest⟩ => by
    refine ⟨fun answers e hdecodes => callAlong_fresh hd hlen (hop answers e hdecodes),
      fun s' hstep => ?_⟩
    obtain ⟨hd', hlen'⟩ := step_sortedList hstep hd hlen hop
    exact alongDecode_fresh hd' hlen' (hrest s' hstep)

/-! ## Runs -/

/-- What a run from the initial state delivers. -/
structure Delivers (ops : List Op) (s : ReceiverFEC) : Prop where
  /-- The packets that are recovered are those that the callback has taken,
  those that were dropped before, and those that wait. -/
  recovered : ((log ops init).filterMap recovered?).Perm
    ((log ops init).filterMap sent? ++
      ((log ops init).filterMap dropped? ++ pending s.decoder.recoveredPacketList))
  /-- Nothing waits unless the callback refused a packet. -/
  settled : (∀ entry ∈ log ops init, entry.isRefused = false) →
    pending s.decoder.recoveredPacketList = []
  /-- A media packet is taken once at most for each time it was queued. -/
  media : ((log ops init).filterMap sentMedia?).Sublist ((log ops init).filterMap queuedMedia?)
  /-- While the numbers fit, no number is recovered that is in the list. -/
  fresh : AlongDecode Fits ops init → AlongDecode Fresh ops init

theorem run_delivers {ops : List Op} {s : ReceiverFEC} (h : run ops init = some s) :
    Delivers ops s := by
  obtain ⟨haccounts, hmedia⟩ := run_tally h
  exact ⟨haccounts, run_settled h rfl, (List.sublist_append_left _ _).trans hmedia,
    alongDecode_fresh SortedList.init (Nat.zero_le _)⟩

/-- A media packet without payload, in a RED packet. -/
def addMedia (seqNum : BitVec 16) : Op :=
  .addReceivedFECPacket 0 ⟨12, seqNum⟩ (redPacket [0x60]) 1

/-- An FEC packet for the media packet `base`. -/
def addFec (seqNum : BitVec 16) (base : Byte) : Op :=
  .addReceivedFECPacket 0 ⟨12, seqNum⟩
    (redPacket [0x61, 0, 0, 0, base, 0, 0, 0, 0, 0, 0, 0, 0, 0x80, 0]) 15

def process : Op := .processReceivedFEC fun _ => true

/-- Packet 8 is recovered and delivered. -/
def recoverOne : List Op := [.setPayloadTypeFEC 97, addMedia 7, process, addFec 9 8, process]

theorem recoverOne_isSome : (run recoverOne init).isSome = true := by decide +kernel

theorem run_delivers_one : Delivers recoverOne ((run recoverOne init).get recoverOne_isSome) :=
  run_delivers (Option.some_get _).symm

/-- Packet 1 is recovered when 48 later ones are in the list. -/
def recoverOld : List Op :=
  .setPayloadTypeFEC 97 :: (List.range 48).map (fun n => addMedia (BitVec.ofNat 16 (n + 2))) ++
    [process, addFec 50 1, process]

/-- The same packet is received twice. -/
def receiveTwice : List Op := [.setPayloadTypeFEC 97, addMedia 7, process, addMedia 7, process]

/-- With a callback that takes every packet, packet 1 is recovered and not
delivered, and packet 7 is delivered twice. -/
theorem run_not_delivers :
    (¬ ∀ ops s, run ops init = some s → (∀ entry ∈ log ops init, entry.isRefused = false) →
      ((log ops init).filterMap recovered?).Perm ((log ops init).filterMap sent?)) ∧
    ¬ ∀ ops s, run ops init = some s → (∀ entry ∈ log ops init, entry.isRefused = false) →
      (((log ops init).filterMap sentMedia?).map fun pkt => be16 pkt.data 2).Nodup := by
  refine ⟨fun h => ?_, fun h => ?_⟩
  · have hsome : (run recoverOld init).isSome = true := by decide +kernel
    have hperm := h recoverOld _ (Option.some_get hsome).symm (by decide +kernel)
    have hrecovered : ((log recoverOld init).filterMap recovered?).length = 1 := by decide +kernel
    have hsent : ((log recoverOld init).filterMap sent?).length = 0 := by decide +kernel
    have hlength := hperm.length_eq
    omega
  · have hsome : (run receiveTwice init).isSome = true := by decide +kernel
    have hnodup := h receiveTwice _ (Option.some_get hsome).symm (by decide +kernel)
    revert hnodup
    decide +kernel

end ReceiverFEC

end PerchWebrtc.Fec
