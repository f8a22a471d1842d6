import PerchWebrtc.Fec.Packet

/-!
# The FEC decoder

`ForwardErrorCorrection::DecodeFEC` and what it calls
(`forward_error_correction.cc`). The lists are sorted by
`SortablePacket::LessThan`, which is `Precedes` (`lessThan_iff`). A step that
runs over the end of a list or of a packet's buffer has no result (`none`).

* `Along`: a predicate holds at every step of a run, in the state before it.
-/

namespace PerchWebrtc.Fec

open Circular

structure ReceivedPacket where
  seqNum : BitVec 16
  ssrc : BitVec 32
  isFec : Bool
  pkt : Packet

/-- `length_recovery` is not set for a packet that was received. -/
structure RecoveredPacket where
  seqNum : BitVec 16
  wasRecovered : Bool
  returned : Bool
  lengthRecovery : BitVec 16
  pkt : Packet

structure ProtectedPacket where
  seqNum : BitVec 16
  pkt : Option Packet

structure FecPacket where
  seqNum : BitVec 16
  protectedPktList : List ProtectedPacket
  ssrc : BitVec 32
  pkt : Packet

/-- The decoder's FEC packets, and the list of recovered packets that the
caller hands to every call. -/
structure Decoder where
  fecPacketList : List FecPacket
  recoveredPacketList : List RecoveredPacket

namespace Decoder

def init : Decoder := ⟨[], []⟩

def resetState (_ : Decoder) : Decoder := init

/-- The sequence numbers of the recovered packets. -/
def seqNums (d : Decoder) : List (BitVec 16) := d.recoveredPacketList.map (·.seqNum)

/-! ## Links from FEC packets to media packets -/

/-- `lower_bound` finds the first protected packet that is not less than
`packet`; it is linked if it has the same number. -/
def linkProtected (packet : RecoveredPacket) (l : List ProtectedPacket) : List ProtectedPacket :=
  let less := fun p : ProtectedPacket => lessThan p.seqNum packet.seqNum
  match l.dropWhile less with
  | [] => l
  | p :: rest =>
    if p.seqNum = packet.seqNum then
      l.takeWhile less ++ { p with pkt := some packet.pkt } :: rest
    else l

def updateCoveringFECPackets (packet : RecoveredPacket) (l : List FecPacket) : List FecPacket :=
  l.map fun f => { f with protectedPktList := linkProtected packet f.protectedPktList }

/-- The search for the recovered packet `r`: the packets that are passed over,
and the rest from the one with its number on, which is linked. -/
def searchFrom (r : RecoveredPacket) :
    List ProtectedPacket → Option (List ProtectedPacket × List ProtectedPacket)
  | [] => none
  | p :: l =>
    if p.seqNum = r.seqNum then some ([], { p with pkt := some r.pkt } :: l)
    else (searchFrom r l).map fun found => (p :: found.1, found.2)

/-- The second loop of `AssignRecoveredPackets`. Each search begins where the
one before ended. -/
def assignFrom : List RecoveredPacket → List ProtectedPacket → Option (List ProtectedPacket)
  | [], notRecovered => some notRecovered
  | r :: alreadyRecovered, notRecovered =>
    (searchFrom r notRecovered).bind fun found =>
      (assignFrom alreadyRecovered found.2).map (found.1 ++ ·)

def assignRecoveredPackets (f : FecPacket) (recovered : List RecoveredPacket) : Option FecPacket :=
  let notRecovered := f.protectedPktList
  let alreadyRecovered := setIntersection (·.seqNum) (·.seqNum) recovered notRecovered
  (assignFrom alreadyRecovered notRecovered).map fun l => { f with protectedPktList := l }

/-! ## Insertion -/

/-- The packets are dropped from the front until `kMaxMediaPackets` are left. -/
def discardOldPackets (d : Decoder) : Decoder :=
  { d with
    recoveredPacketList :=
      d.recoveredPacketList.drop (d.recoveredPacketList.length - kMaxMediaPackets) }

/-- A packet is appended to the recovered packets, they are sorted, and the
FEC packets that cover it are linked to it. -/
def addRecovered (packet : RecoveredPacket) (d : Decoder) : Decoder :=
  { recoveredPacketList := sort (·.seqNum) (d.recoveredPacketList ++ [packet])
    fecPacketList := updateCoveringFECPackets packet d.fecPacketList }

def insertMediaPacket (rx : ReceivedPacket) (d : Decoder) : Decoder :=
  if rx.seqNum ∈ d.seqNums then d
  else
    d.addRecovered
      { seqNum := rx.seqNum, wasRecovered := false, returned := true, lengthRecovery := 0,
        pkt := rx.pkt }

/-- The FEC packet with the numbers of its mask, none of them linked yet. -/
def newFecPacket (rx : ReceivedPacket) : FecPacket where
  seqNum := rx.seqNum
  protectedPktList := rx.pkt.maskSeqNums.map fun n => ⟨n, none⟩
  ssrc := rx.ssrc
  pkt := rx.pkt

/-- An FEC packet is put into the sorted list, from which the first is
discarded if it is too long. -/
def pushFecPacket (f : FecPacket) (d : Decoder) : Decoder :=
  let l := sort (·.seqNum) (d.fecPacketList ++ [f])
  { d with fecPacketList := if l.length > kMaxFecPackets then l.tail else l }

def insertFECPacket (rx : ReceivedPacket) (d : Decoder) : Option Decoder :=
  if rx.seqNum ∈ d.fecPacketList.map (·.seqNum) then some d
  else if (newFecPacket rx).protectedPktList.isEmpty then some d
  else (assignRecoveredPackets (newFecPacket rx) d.recoveredPacketList).map d.pushFecPacket

/-- One round of the loop of `InsertPackets`. -/
def insertPacket (rx : ReceivedPacket) (d : Decoder) : Option Decoder :=
  if rx.isFec then d.insertFECPacket rx else some (d.insertMediaPacket rx)

def insertPacketsFrom : List ReceivedPacket → Decoder → Option Decoder
  | [], d => some d
  | rx :: received, d => (d.insertPacket rx).bind (insertPacketsFrom received)

def insertPackets (received : List ReceivedPacket) (d : Decoder) : Option Decoder :=
  (insertPacketsFrom received d).map discardOldPackets

/-! ## Recovery -/

/-- The copy of the FEC payload has to lie in both buffers. -/
def initRecovery (f : FecPacket) : Option RecoveredPacket :=
  let n := f.pkt.protectionLength
  if f.pkt.payloadStart + n ≤ IP_PACKET_SIZE ∧ kRtpHeaderSize + n ≤ IP_PACKET_SIZE then
    let payload := Mem.copy (fun _ => 0) kRtpHeaderSize f.pkt.data f.pkt.payloadStart n
    let header := (payload.copy 0 f.pkt.data 0 2).copy 4 f.pkt.data 4 4
    some
      { seqNum := 0, wasRecovered := true, returned := false
        lengthRecovery := be16 f.pkt.data 8
        pkt := ⟨0, set32 header 8 f.ssrc⟩ }
  else none

/-- The loop over the payload has to lie in the buffers. -/
def xorPackets (src : Packet) (dst : RecoveredPacket) : Option RecoveredPacket :=
  if src.length.toNat ≤ IP_PACKET_SIZE then
    let header := (dst.pkt.data.xor 0 src.data 0 2).xor 4 src.data 4 4
    let payload :=
      header.xor kRtpHeaderSize src.data kRtpHeaderSize (src.length.toNat - kRtpHeaderSize)
    some
      { dst with
        lengthRecovery := dst.lengthRecovery ^^^ (src.length - 12)
        pkt := ⟨dst.pkt.length, payload⟩ }
  else none

/-- The packet that is not linked gives its number, the others are XORed. -/
def recoverFrom : List ProtectedPacket → RecoveredPacket → Option RecoveredPacket
  | [], r => some r
  | p :: l, r =>
    match p.pkt with
    | none => recoverFrom l { r with seqNum := p.seqNum }
    | some src => (xorPackets src r).bind (recoverFrom l)

/-- The version is set to 2, and the number and the length are filled in. -/
def finishRecovery (r : RecoveredPacket) : RecoveredPacket :=
  let version := r.pkt.data.set 0 ((r.pkt.data 0 ||| 0x80) &&& 0xbf)
  { r with pkt := ⟨r.lengthRecovery + 12, set16 version 2 r.seqNum⟩ }

def recoverPacket (f : FecPacket) : Option RecoveredPacket :=
  (initRecovery f).bind fun r => (recoverFrom f.protectedPktList r).map finishRecovery

/-- The packets that are not linked. The source stops counting at 2. -/
def numCoveredPacketsMissing (f : FecPacket) : Nat :=
  min 2 (f.protectedPktList.countP fun p => p.pkt.isNone)

/-- The loop of `AttemptRecover` up to a recovery: the FEC packets that are
left without the one to recover from, and that one. -/
def scan : List FecPacket → List FecPacket × Option FecPacket
  | [] => ([], none)
  | f :: l =>
    match numCoveredPacketsMissing f with
    | 0 => scan l
    | 1 => (l, some f)
    | _ => ((f :: (scan l).1), (scan l).2)

/-- A packet is recovered with `f`, of which the list of FEC packets is rid. -/
def recoverWith (f : FecPacket) (rest : List FecPacket) (d : Decoder) : Option Decoder :=
  (recoverPacket f).map fun r =>
    ({ d with fecPacketList := rest }.addRecovered r).discardOldPackets

/-- The loop of `AttemptRecover`, restarted `n` times at most. -/
def attemptRecoverFrom : Nat → Decoder → Option Decoder
  | 0, d => some d
  | n + 1, d =>
    match scan d.fecPacketList with
    | (rest, none) => some { d with fecPacketList := rest }
    | (rest, some f) => (d.recoverWith f rest).bind (attemptRecoverFrom n)

/-- Every restart takes an FEC packet out of the list. -/
def attemptRecover (d : Decoder) : Option Decoder :=
  attemptRecoverFrom d.fecPacketList.length d

/-! ## DecodeFEC -/

/-- The two numbers are more than `kMaxMediaPackets` apart. -/
def bigGap (a b : BitVec 16) : Bool := kMaxMediaPackets < ((a.toNat : Int) - b.toNat).natAbs

/-- The reset before the packets are inserted. With a full list of recovered
packets, there has to be a received packet. -/
def resetOnGap (received : List ReceivedPacket) (d : Decoder) : Option Decoder :=
  if d.recoveredPacketList.length = kMaxMediaPackets then
    match received.head?, d.recoveredPacketList.getLast? with
    | some rx, some last => some (if bigGap rx.seqNum last.seqNum then d.resetState else d)
    | _, _ => none
  else some d

def decodeFEC (received : List ReceivedPacket) (d : Decoder) : Option Decoder :=
  (d.resetOnGap received).bind fun d => (d.insertPackets received).bind attemptRecover

/-- The calls of `DecodeFEC`, one after the other. -/
def run : List (List ReceivedPacket) → Decoder → Option Decoder
  | [], d => some d
  | received :: calls, d => (d.decodeFEC received).bind (run calls)

/-! ## Runs -/

/-- What happens in a run: a call, a received packet inserted, a packet
recovered. -/
inductive Event where
  | call (received : List ReceivedPacket)
  | insert (rx : ReceivedPacket)
  | recover (f : FecPacket)

section Along

variable (P : Event → Decoder → Prop)

def InsertAlong : List ReceivedPacket → Decoder → Prop
  | [], _ => True
  | rx :: received, d =>
    P (.insert rx) d ∧ ∀ d', d.insertPacket rx = some d' → InsertAlong received d'

def RecoverAlong : Nat → Decoder → Prop
  | 0, _ => True
  | n + 1, d =>
    match scan d.fecPacketList with
    | (_, none) => True
    | (rest, some f) =>
      P (.recover f) d ∧ ∀ d', d.recoverWith f rest = some d' → RecoverAlong n d'

def CallAlong (received : List ReceivedPacket) (d : Decoder) : Prop :=
  P (.call received) d ∧
    ∀ d₁, d.resetOnGap received = some d₁ →
      InsertAlong P received d₁ ∧
        ∀ d₂, d₁.insertPackets received = some d₂ → RecoverAlong P d₂.fecPacketList.length d₂

/-- `P` holds at every event of a run, in the state before it. -/
def Along : List (List ReceivedPacket) → Decoder → Prop
  | [], _ => True
  | received :: calls, d =>
    CallAlong P received d ∧ ∀ d', d.decodeFEC received = some d' → Along calls d'

section Decidable

variable [∀ e d, Decidable (P e d)]

instance (priority := low) {α : Type*} (o : Option α) (Q : α → Prop) [DecidablePred Q] :
    Decidable (∀ a, o = some a → Q a) :=
  inferInstanceAs (Decidable (∀ a ∈ o, Q a))

instance decidableInsertAlong :
    ∀ (received : List ReceivedPacket) (d : Decoder), Decidable (InsertAlong P received d)
  | [], _ => inferInstanceAs (Decidable True)
  | rx :: received, d =>
    have := decidableInsertAlong received
    inferInstanceAs (Decidable (P (.insert rx) d ∧ ∀ d', d.insertPacket rx = some d' →
      InsertAlong P received d'))

instance decidableRecoverAlong : ∀ (n : Nat) (d : Decoder), Decidable (RecoverAlong P n d)
  | 0, _ => inferInstanceAs (Decidable True)
  | n + 1, d =>
    have := decidableRecoverAlong n
    match h : scan d.fecPacketList with
    | (_, none) => isTrue (by rw [RecoverAlong, h]; trivial)
    | (rest, some f) =>
      decidable_of_iff
        (P (.recover f) d ∧ ∀ d', d.recoverWith f rest = some d' → RecoverAlong P n d')
        (by rw [RecoverAlong, h])

instance decidableCallAlong (received : List ReceivedPacket) (d : Decoder) :
    Decidable (CallAlong P received d) :=
  inferInstanceAs (Decidable (_ ∧ ∀ _, _ → _ ∧ ∀ _, _ → _))

instance decidableAlong :
    ∀ (calls : List (List ReceivedPacket)) (d : Decoder), Decidable (Along P calls d)
  | [], _ => inferInstanceAs (Decidable True)
  | received :: calls, d =>
    have := decidableAlong calls
    inferInstanceAs (Decidable (CallAlong P received d ∧ ∀ d', d.decodeFEC received = some d' →
      Along P calls d'))

end Decidable

variable {P}

theorem Along.take : ∀ {calls : List (List ReceivedPacket)} {d : Decoder},
    Along P calls d → ∀ n, Along P (calls.take n) d
  | [], _, _, n => by
    rw [List.take_nil]
    trivial
  | _ :: _, _, _, 0 => trivial
  | _ :: _, _, ⟨hcall, hrest⟩, n + 1 => ⟨hcall, fun d' h => (hrest d' h).take n⟩

end Along

/-- An invariant of every event is one of a run of packets with `Q`: one of
the insertions, and one of the recoveries that holds between the calls. -/
structure Keeps (P : Event → Decoder → Prop) (Q : ReceivedPacket → Prop)
    (Inv InvCall : Decoder → Prop) : Prop where
  reset : ∀ {received d}, InvCall d → P (.call received) d →
    ∃ d', d.resetOnGap received = some d' ∧ Inv d'
  insert : ∀ {rx d}, Inv d → Q rx → P (.insert rx) d → ∃ d', d.insertPacket rx = some d' ∧ Inv d'
  discard : ∀ {d}, Inv d → InvCall d.discardOldPackets
  recover : ∀ {d f rest}, InvCall d → scan d.fecPacketList = (rest, some f) → P (.recover f) d →
    ∃ d', d.recoverWith f rest = some d' ∧ InvCall d'
  scan : ∀ {d rest}, InvCall d → scan d.fecPacketList = (rest, none) →
    InvCall { d with fecPacketList := rest }

namespace Keeps

variable {P : Event → Decoder → Prop} {Q : ReceivedPacket → Prop} {Inv InvCall : Decoder → Prop}
  (h : Keeps P Q Inv InvCall)
include h

theorem insertPacketsFrom : ∀ {received : List ReceivedPacket} {d : Decoder}, Inv d →
    (∀ rx ∈ received, Q rx) → InsertAlong P received d →
    ∃ d', d.insertPacketsFrom received = some d' ∧ Inv d'
  | [], d, hd, _, _ => ⟨d, rfl, hd⟩
  | rx :: received, d, hd, hq, ⟨hrx, hrest⟩ => by
    obtain ⟨d₁, hins, hd₁⟩ := h.insert hd (hq rx List.mem_cons_self) hrx
    obtain ⟨d₂, hfrom, hd₂⟩ :=
      insertPacketsFrom hd₁ (fun rx hrx => hq rx (List.mem_cons_of_mem _ hrx)) (hrest d₁ hins)
    refine ⟨d₂, ?_, hd₂⟩
    rw [Decoder.insertPacketsFrom, hins]
    exact hfrom

theorem attemptRecoverFrom : ∀ {n : Nat} {d : Decoder}, InvCall d → RecoverAlong P n d →
    ∃ d', attemptRecoverFrom n d = some d' ∧ InvCall d'
  | 0, d, hd, _ => ⟨d, rfl, hd⟩
  | n + 1, d, hd, halong => by
    rw [RecoverAlong] at halong
    rw [Decoder.attemptRecoverFrom]
    split <;> rename_i heq <;> rw [heq] at halong
    · exact ⟨_, rfl, h.scan hd heq⟩
    · obtain ⟨d₁, hrec, hd₁⟩ := h.recover hd heq halong.1
      obtain ⟨d₂, hfrom, hd₂⟩ := attemptRecoverFrom hd₁ (halong.2 d₁ hrec)
      exact ⟨d₂, by rw [hrec]; exact hfrom, hd₂⟩

theorem decodeFEC {received : List ReceivedPacket} {d : Decoder} (hd : InvCall d)
    (hq : ∀ rx ∈ received, Q rx) (halong : CallAlong P received d) :
    ∃ d', d.decodeFEC received = some d' ∧ InvCall d' := by
  obtain ⟨hcall, hrest⟩ := halong
  obtain ⟨d₁, hreset, hd₁⟩ := h.reset hd hcall
  obtain ⟨hins, hrec⟩ := hrest d₁ hreset
  obtain ⟨d₂, hfrom, hd₂⟩ := h.insertPacketsFrom hd₁ hq hins
  have hall : d₁.insertPackets received = some d₂.discardOldPackets := by
    rw [insertPackets, hfrom]
    rfl
  obtain ⟨d₃, hattempt, hd₃⟩ := h.attemptRecoverFrom (h.discard hd₂) (hrec _ hall)
  refine ⟨d₃, ?_, hd₃⟩
  rw [Decoder.decodeFEC, hreset, Option.bind_some, hall]
  exact hattempt

theorem run : ∀ {calls : List (List ReceivedPacket)} {d : Decoder}, InvCall d →
    (∀ received ∈ calls, ∀ rx ∈ received, Q rx) → Along P calls d →
    ∃ d', run calls d = some d' ∧ InvCall d'
  | [], d, hd, _, _ => ⟨d, rfl, hd⟩
  | received :: calls, d, hd, hq, ⟨hcall, hrest⟩ => by
    obtain ⟨d₁, hdec, hd₁⟩ := h.decodeFEC hd (hq received List.mem_cons_self) hcall
    obtain ⟨d₂, hrun, hd₂⟩ :=
      run hd₁ (fun received hr => hq received (List.mem_cons_of_mem _ hr)) (hrest d₁ hdec)
    refine ⟨d₂, ?_, hd₂⟩
    rw [Decoder.run, hdec]
    exact hrun

end Keeps

end Decoder

end PerchWebrtc.Fec
