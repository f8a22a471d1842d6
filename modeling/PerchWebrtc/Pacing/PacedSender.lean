import PerchWebrtc.Framework.Int32
import PerchWebrtc.Framework.Machine

/-!
# The paced sender

`PacedSender` (`paced_sender.cc`): packets wait in one list for each priority, and `Process`
offers them to the callback while the budget of the interval lasts. The clock and the answers
of the callback are parameters; so is the product of a bitrate with the pace multiplier, which
the source computes with floating-point numbers.

* `processLoop_cases`: what a turn of the loop does;
* `account_process`, `account_sendPacket`: what the calls do to the packets that are queued and
  accepted;
* `processLoop_stops`, `process_offers`: where `Process` stops, and what it offers first;
* `run_serves`: how long a packet waits;
* `always_accounted_iff`: whole runs.
-/

namespace PerchWebrtc.Pacing

def kMinPacketLimitMs : Int := 5
def kMaxIntervalTimeMs : Int := 30
def kMaxQueueTimeWithoutSendingMs : Int := 30
def kMaxPaddingKbps : Int := 800

inductive Priority where
  | kHighPriority
  | kNormalPriority
  | kLowPriority
  deriving DecidableEq

/-- The priorities whose packets go first. -/
def Priority.above : Priority → List Priority
  | .kHighPriority => []
  | .kNormalPriority => [.kHighPriority]
  | .kLowPriority => [.kHighPriority, .kNormalPriority]

structure Packet where
  ssrc : BitVec 32
  sequenceNumber : BitVec 16
  captureTimeMs : Int
  bytes : Int
  deriving DecidableEq

/-- The set holds the sequence numbers of the packets in the list, each of them once. -/
structure PacketList where
  packetList : List Packet := []
  sequenceNumberSet : List (BitVec 16) := []
  agree : sequenceNumberSet = packetList.map (·.sequenceNumber) := by rfl
  nodup : sequenceNumberSet.Nodup := by exact List.nodup_nil

namespace PacketList

variable (l : PacketList)

def popFront : PacketList where
  packetList := l.packetList.tail
  sequenceNumberSet :=
    match l.packetList with
    | [] => l.sequenceNumberSet
    | packet :: _ => l.sequenceNumberSet.erase packet.sequenceNumber
  agree := by
    have h := l.agree
    cases hl : l.packetList <;> simp [h, hl]
  nodup := by
    have h := l.nodup
    split
    · exact h
    · exact h.erase _

local instance lawful_sequenceNumber : LawfulBEq (BitVec 16) := inferInstance

def pushBack (packet : Packet) : PacketList :=
  if h : packet.sequenceNumber ∈ l.sequenceNumberSet then l
  else
    { packetList := l.packetList ++ [packet]
      sequenceNumberSet := l.sequenceNumberSet ++ [packet.sequenceNumber]
      agree := by rw [List.map_append, l.agree, List.map_singleton]
      nodup := List.nodup_append'.mpr
        ⟨l.nodup, List.nodup_singleton _, List.disjoint_singleton.mpr h⟩ }

@[simp] theorem popFront_packetList : l.popFront.packetList = l.packetList.tail := rfl

theorem mem_sequenceNumberSet {n : BitVec 16} :
    n ∈ l.sequenceNumberSet ↔ ∃ q ∈ l.packetList, q.sequenceNumber = n := by
  rw [l.agree, List.mem_map]

/-- A sequence number stands for one packet of the list. -/
theorem eq_of_sequenceNumber {q q' : Packet} (hq : q ∈ l.packetList) (hq' : q' ∈ l.packetList)
    (h : q.sequenceNumber = q'.sequenceNumber) : q = q' :=
  List.inj_on_of_nodup_map (l.agree ▸ l.nodup) hq hq' h

/-- A packet is left out if its sequence number is in the list. -/
theorem pushBack_packetList (packet : Packet) :
    (l.pushBack packet).packetList =
      if ∃ q ∈ l.packetList, q.sequenceNumber = packet.sequenceNumber then l.packetList
      else l.packetList ++ [packet] := by
  unfold pushBack
  by_cases h : packet.sequenceNumber ∈ l.sequenceNumberSet
  · rw [dif_pos h, if_pos (l.mem_sequenceNumberSet.mp h)]
  · rw [dif_neg h, if_neg fun h' => h (l.mem_sequenceNumberSet.mpr h')]

end PacketList

structure IntervalBudget where
  targetRateKbps : Int
  bytesRemaining : Int := 0

namespace IntervalBudget

def increaseBudget (deltaTimeMs : Int) (b : IntervalBudget) : IntervalBudget :=
  let bytes := (int32 (b.targetRateKbps * deltaTimeMs)).tdiv 8
  { b with
    bytesRemaining :=
      if b.bytesRemaining < 0 then int32 (b.bytesRemaining + bytes) else bytes }

def useBudget (bytes : Int) (b : IntervalBudget) : IntervalBudget :=
  { b with
    bytesRemaining :=
      max (int32 (b.bytesRemaining - bytes)) ((int32 (-100 * b.targetRateKbps)).tdiv 8) }

end IntervalBudget

/-- What the sender does not control: the readings of the clock, what `TimeToSendPacket` and
`TimeToSendPadding` return at each call, and the product with the pace multiplier. -/
structure Env where
  now : Nat → Int
  timeToSendPacket : Nat → Bool
  timeToSendPadding : Nat → Int
  pace : Int → Int

structure PacedSender where
  enabled : Bool := false
  paused : Bool := false
  mediaBudget : IntervalBudget
  paddingBudget : IntervalBudget := { targetRateKbps := kMaxPaddingKbps }
  padUpToBitrateBudget : IntervalBudget := { targetRateKbps := 0 }
  timeLastUpdate : Int
  timeLastSend : Int := 0
  captureTimeMsLastQueued : Int := 0
  captureTimeMsLastSent : Int := 0
  highPriorityPackets : PacketList := {}
  normalPriorityPackets : PacketList := {}
  lowPriorityPackets : PacketList := {}
  /-- How often the clock has been read. -/
  nowCalls : Nat := 0
  /-- The packets that were offered to the callback, and its answers. -/
  offers : List (Priority × Packet × Bool) := []
  paddings : Nat := 0

namespace PacedSender

variable (env : Env) (s : PacedSender)

def now : Int × PacedSender := (env.now s.nowCalls, { s with nowCalls := s.nowCalls + 1 })

def updateBytesPerInterval (deltaTimeMs : Int) : PacedSender :=
  { s with
    mediaBudget := s.mediaBudget.increaseBudget deltaTimeMs
    paddingBudget := s.paddingBudget.increaseBudget deltaTimeMs
    padUpToBitrateBudget := s.padUpToBitrateBudget.increaseBudget deltaTimeMs }

def create (targetBitrateKbps : Int) : PacedSender :=
  { mediaBudget := { targetRateKbps := env.pace targetBitrateKbps }
    timeLastUpdate := env.now 0
    nowCalls := 1 : PacedSender }.updateBytesPerInterval kMinPacketLimitMs

def packets : Priority → PacketList
  | .kHighPriority => s.highPriorityPackets
  | .kNormalPriority => s.normalPriorityPackets
  | .kLowPriority => s.lowPriorityPackets

def setPackets (l : PacketList) : Priority → PacedSender
  | .kHighPriority => { s with highPriorityPackets := l }
  | .kNormalPriority => { s with normalPriorityPackets := l }
  | .kLowPriority => { s with lowPriorityPackets := l }

def pause : PacedSender := { s with paused := true }

def resume : PacedSender := { s with paused := false }

def setStatus (enable : Bool) : PacedSender := { s with enabled := enable }

def updateBitrate (targetBitrateKbps padUpToBitrateKbps : Int) : PacedSender :=
  { s with
    mediaBudget := { s.mediaBudget with targetRateKbps := env.pace targetBitrateKbps }
    padUpToBitrateBudget := { s.padUpToBitrateBudget with targetRateKbps := padUpToBitrateKbps } }

/-- The packet that `SendPacket` makes of its arguments, and the state once it has. -/
def makePacket (priority : Priority) (ssrc : BitVec 32) (sequenceNumber : BitVec 16)
    (captureTimeMs bytes : Int) : Packet × PacedSender :=
  let (captureTimeMs, s) := if captureTimeMs < 0 then s.now env else (captureTimeMs, s)
  (⟨ssrc, sequenceNumber, captureTimeMs, bytes⟩,
    if priority ≠ .kHighPriority ∧ s.captureTimeMsLastQueued < captureTimeMs then
      { s with captureTimeMsLastQueued := captureTimeMs }
    else s)

def sendPacket (priority : Priority) (ssrc : BitVec 32) (sequenceNumber : BitVec 16)
    (captureTimeMs bytes : Int) : Bool × PacedSender :=
  if !s.enabled then (true, s)
  else
    let (packet, s) := s.makePacket env priority ssrc sequenceNumber captureTimeMs bytes
    (false, s.setPackets ((s.packets priority).pushBack packet) priority)

/-- The first list that is not empty, of those that may be sent from. -/
def firstList (low : Bool) : Option Priority :=
  if s.highPriorityPackets.packetList ≠ [] then some .kHighPriority
  else if s.normalPriorityPackets.packetList ≠ [] then some .kNormalPriority
  else if low ∧ s.lowPriorityPackets.packetList ≠ [] then some .kLowPriority
  else none

def shouldSendNextPacket : Option Priority × PacedSender :=
  if s.mediaBudget.bytesRemaining ≤ 0 then
    let (now, s) := s.now env
    (if kMaxQueueTimeWithoutSendingMs < now - s.timeLastSend then s.firstList false else none, s)
  else (s.firstList true, s)

def updateMediaBytesSent (numBytes : Int) : PacedSender :=
  let (now, s) := s.now env
  { s with
    timeLastSend := now
    mediaBudget := s.mediaBudget.useBudget numBytes
    padUpToBitrateBudget := s.padUpToBitrateBudget.useBudget numBytes }

/-- The call of `TimeToSendPacket`. -/
def offer (priority : Priority) (packet : Packet) : Bool × PacedSender :=
  let success := env.timeToSendPacket s.offers.length
  (success, { s with offers := s.offers ++ [(priority, packet, success)] })

/-- What follows a packet that was accepted. -/
def accept (priority : Priority) (packet : Packet) : PacedSender :=
  let s := s.setPackets (s.packets priority).popFront priority
  if priority ≠ .kHighPriority ∧ s.captureTimeMsLastSent < packet.captureTimeMs then
    { s with captureTimeMsLastSent := packet.captureTimeMs }
  else s

/-- The loop of `Process`: whether a packet was refused. Every iteration but the last takes a
packet from a list. -/
def processLoop : Nat → PacedSender → Bool × PacedSender
  | 0, s => (false, s)
  | fuel + 1, s =>
    let (list, s) := s.shouldSendNextPacket env
    match list with
    | none => (false, s)
    | some priority =>
      match (s.packets priority).packetList with
      | [] => (false, s)
      | packet :: _ =>
        let (success, s) := (s.updateMediaBytesSent env packet.bytes).offer env priority packet
        if !success then (true, s) else processLoop fuel (s.accept priority packet)

def queued : Nat :=
  s.highPriorityPackets.packetList.length + s.normalPriorityPackets.packetList.length +
    s.lowPriorityPackets.packetList.length

def sendPadding : PacedSender :=
  if s.queued = 0 ∧ 0 < s.paddingBudget.bytesRemaining ∧
      0 < s.padUpToBitrateBudget.bytesRemaining then
    let bytesSent := env.timeToSendPadding s.paddings
    { s with
      paddings := s.paddings + 1
      mediaBudget := s.mediaBudget.useBudget bytesSent
      paddingBudget := s.paddingBudget.useBudget bytesSent
      padUpToBitrateBudget := s.padUpToBitrateBudget.useBudget bytesSent }
  else s

/-- `Process` up to its loop; the flag is whether the loop is entered. -/
def startProcess : Bool × PacedSender :=
  let (now, s) := s.now env
  let elapsedTimeMs := int32 (now - s.timeLastUpdate)
  let s := { s with timeLastUpdate := now }
  if !s.enabled ∨ s.paused then (false, s)
  else if 0 < elapsedTimeMs then
    (true, s.updateBytesPerInterval (min kMaxIntervalTimeMs elapsedTimeMs))
  else (true, s)

def process : PacedSender :=
  match s.startProcess env with
  | (false, s) => s
  | (true, s) =>
    match processLoop env (s.queued + 1) s with
    | (true, s) => s
    | (false, s) => s.sendPadding env

/-! ## A turn of the loop -/

section Turn

variable {s}

/-- The list may be sent from: the budget lasts, or nothing was sent for too long, which is of
no use to low priority. -/
def Open (env : Env) (s : PacedSender) (priority : Priority) : Prop :=
  0 < s.mediaBudget.bytesRemaining ∨ priority ≠ .kLowPriority ∧
    kMaxQueueTimeWithoutSendingMs < env.now s.nowCalls - s.timeLastSend

theorem shouldSendNextPacket_eq : ∃ calls, s.nowCalls ≤ calls ∧
    (s.shouldSendNextPacket env).2 = { s with nowCalls := calls } := by
  unfold shouldSendNextPacket
  split
  · exact ⟨s.nowCalls + 1, Nat.le_succ _, rfl⟩
  · exact ⟨s.nowCalls, le_refl _, rfl⟩

/-- The list that is sent from next. -/
theorem shouldSendNextPacket_iff {priority : Priority} :
    (s.shouldSendNextPacket env).1 = some priority ↔ (s.packets priority).packetList ≠ [] ∧
      (∀ p ∈ priority.above, (s.packets p).packetList = []) ∧ s.Open env priority := by
  unfold shouldSendNextPacket firstList Open
  dsimp only [now]
  have habove : (∀ p ∈ priority.above, (s.packets p).packetList = []) ↔
      (priority ≠ .kHighPriority → s.highPriorityPackets.packetList = []) ∧
        (priority = .kLowPriority → s.normalPriorityPackets.packetList = []) := by
    cases priority <;> simp [Priority.above, packets]
  rw [habove]
  clear habove
  cases priority <;> simp only [packets] <;> split_ifs <;> grind

theorem shouldSendNextPacket_eq_none (h : (s.shouldSendNextPacket env).1 = none)
    {priority : Priority} (hlist : (s.packets priority).packetList ≠ []) :
    ¬ s.Open env priority := by
  unfold shouldSendNextPacket firstList at h
  unfold Open
  dsimp only [now] at h
  cases priority <;> simp only [packets] at hlist <;> split_ifs at h <;> grind

/-- The packet at the front of the list that is sent from next was offered. -/
structure Offered (env : Env) (s : PacedSender) (priority : Priority) (packet : Packet)
    (s' : PacedSender) : Prop where
  front : ∃ rest, (s.packets priority).packetList = packet :: rest
  above : ∀ p ∈ priority.above, (s.packets p).packetList = []
  isOpen : s.Open env priority
  offers : s'.offers = s.offers ++ [(priority, packet, env.timeToSendPacket s.offers.length)]
  packets : ∀ p, s'.packets p = s.packets p

/-- The loop ends where no list with packets may be sent from, or it offers a packet, which ends it
if it is refused. -/
theorem processLoop_cases (fuel : Nat) (s : PacedSender) :
    (∃ calls, processLoop env (fuel + 1) s = (false, { s with nowCalls := calls }) ∧
      ∀ priority, (s.packets priority).packetList ≠ [] → ¬ s.Open env priority) ∨
    ∃ priority packet s', Offered env s priority packet s' ∧
      processLoop env (fuel + 1) s =
        if env.timeToSendPacket s.offers.length = true then
          processLoop env fuel (s'.accept priority packet)
        else (true, s') := by
  have hnone := @shouldSendNextPacket_eq_none env s
  have hsome := fun p => (@shouldSendNextPacket_iff env s p).mp
  obtain ⟨calls, -, hshould⟩ := shouldSendNextPacket_eq env (s := s)
  rw [processLoop]
  generalize s.shouldSendNextPacket env = next at hnone hsome hshould
  obtain ⟨_ | priority, s₁⟩ := next
  · exact .inl ⟨calls, congrArg (Prod.mk false) hshould, fun priority => hnone rfl⟩
  · dsimp only at hshould
    have hpackets : ∀ p, s₁.packets p = s.packets p := by
      rw [hshould]
      rintro (_ | _ | _) <;> rfl
    have hoffers : s₁.offers = s.offers := by rw [hshould]
    obtain ⟨hne, habove, hopen⟩ := hsome priority rfl
    obtain ⟨packet, rest, hlist⟩ := List.exists_cons_of_ne_nil hne
    dsimp only
    rw [hpackets, hlist]
    have hoffered : Offered env s priority packet
        ((s₁.updateMediaBytesSent env packet.bytes).offer env priority packet).2 := by
      refine ⟨⟨rest, hlist⟩, habove, hopen, ?_, fun p => ?_⟩
      · rw [← hoffers]
        rfl
      · rw [← hpackets]
        cases p <;> rfl
    have hsuccess : ((s₁.updateMediaBytesSent env packet.bytes).offer env priority packet).1 =
        env.timeToSendPacket s.offers.length := by
      rw [← hoffers]
      rfl
    refine .inr ⟨priority, packet, _, hoffered, ?_⟩
    dsimp only
    rw [hsuccess]
    cases env.timeToSendPacket s.offers.length <;> rfl

end Turn

/-! ## What becomes of the packets -/

/-- The packets of a priority that were accepted, in their order. -/
def accepted (priority : Priority) : List Packet :=
  (s.offers.filter fun o => o.1 = priority ∧ o.2.2).map (·.2.1)

/-- The packets of a priority that were accepted or wait. -/
def account (priority : Priority) : List Packet :=
  s.accepted priority ++ (s.packets priority).packetList

variable {s}

section Account

variable {priority : Priority} {packet : Packet} {s' : PacedSender}

@[simp] theorem packets_setPackets_self (l : PacketList) :
    (s.setPackets l priority).packets priority = l := by cases priority <;> rfl

theorem packets_setPackets_of_ne (l : PacketList) {other : Priority} (h : other ≠ priority) :
    (s.setPackets l priority).packets other = s.packets other := by
  cases priority <;> cases other <;> first | rfl | exact absurd rfl h

@[simp] theorem offers_setPackets (l : PacketList) : (s.setPackets l priority).offers = s.offers := by
  cases priority <;> rfl

theorem account_congr (hoffers : s'.offers = s.offers)
    (hpackets : ∀ p, s'.packets p = s.packets p) : s'.account = s.account := by
  funext p
  rw [account, account, accepted, accepted, hoffers, hpackets]

/-- The state apart from what no decision about the lists changes. -/
theorem account_startProcess : (s.startProcess env).2.account = s.account := by
  unfold startProcess
  dsimp only [now]
  split
  · exact account_congr rfl (by rintro (_ | _ | _) <;> rfl)
  · split <;> exact account_congr rfl (by rintro (_ | _ | _) <;> rfl)

theorem account_sendPadding : (s.sendPadding env).account = s.account := by
  unfold sendPadding
  split <;> exact account_congr rfl (by rintro (_ | _ | _) <;> rfl)

theorem Offered.account_refused (h : Offered env s priority packet s')
    (hrefused : env.timeToSendPacket s.offers.length = false) : s'.account = s.account := by
  funext p
  rw [account, account, accepted, accepted, h.offers, h.packets, hrefused]
  simp

/-- A packet that is accepted is taken from the front of its list. -/
theorem Offered.account_accept (h : Offered env s priority packet s')
    (haccepted : env.timeToSendPacket s.offers.length = true) :
    (s'.accept priority packet).account = s.account := by
  obtain ⟨rest, hfront⟩ := h.front
  have haccept : (s'.accept priority packet).account =
      (s'.setPackets (s'.packets priority).popFront priority).account := by
    unfold accept
    dsimp only
    split
    · exact account_congr rfl (by rintro (_ | _ | _) <;> rfl)
    · rfl
  funext p
  rw [haccept, account, account, accepted, accepted, offers_setPackets, h.offers, haccepted]
  by_cases hp : p = priority
  · subst hp
    rw [packets_setPackets_self, PacketList.popFront_packetList, h.packets, hfront]
    simp
  · rw [packets_setPackets_of_ne _ hp, h.packets]
    simp [Ne.symm hp]

/-- The loop takes nothing but what is accepted. -/
theorem account_processLoop : ∀ (fuel : Nat) (s : PacedSender),
    (processLoop env fuel s).2.account = s.account
  | 0, _ => rfl
  | fuel + 1, s => by
    obtain ⟨calls, hloop, -⟩ | ⟨priority, packet, s', hoffered, hloop⟩ :=
      processLoop_cases env fuel s
    · rw [hloop]
      exact account_congr rfl (by rintro (_ | _ | _) <;> rfl)
    · rw [hloop]
      split
      · rename_i haccepted
        exact (account_processLoop fuel _).trans (hoffered.account_accept env haccepted)
      · rename_i hrefused
        exact hoffered.account_refused env (Bool.eq_false_of_not_eq_true hrefused)

theorem account_process : (s.process env).account = s.account := by
  have hstart := account_startProcess env (s := s)
  unfold process
  generalize s.startProcess env = started at hstart
  obtain ⟨_ | _, s₁⟩ := started
  · exact hstart
  · have hloop := account_processLoop env (s₁.queued + 1) s₁
    dsimp only at hstart ⊢
    generalize processLoop env (s₁.queued + 1) s₁ = looped at hloop
    obtain ⟨_ | _, s₂⟩ := looped
    · exact (account_sendPadding env).trans (hloop.trans hstart)
    · exact hloop.trans hstart

theorem makePacket_eq (priority : Priority) (ssrc : BitVec 32) (sequenceNumber : BitVec 16)
    (captureTimeMs bytes : Int) :
    (s.makePacket env priority ssrc sequenceNumber captureTimeMs bytes).1.bytes = bytes ∧
      (s.makePacket env priority ssrc sequenceNumber captureTimeMs bytes).2.mediaBudget =
        s.mediaBudget ∧
      (s.makePacket env priority ssrc sequenceNumber captureTimeMs bytes).2.timeLastUpdate =
        s.timeLastUpdate ∧
      s.nowCalls ≤ (s.makePacket env priority ssrc sequenceNumber captureTimeMs bytes).2.nowCalls ∧
      (s.makePacket env priority ssrc sequenceNumber captureTimeMs bytes).2.offers = s.offers ∧
      ∀ p, (s.makePacket env priority ssrc sequenceNumber captureTimeMs bytes).2.packets p =
        s.packets p := by
  unfold makePacket
  dsimp only [now]
  split <;> split
  all_goals
    dsimp only
    exact ⟨rfl, rfl, rfl, by omega, rfl, by rintro (_ | _ | _) <;> rfl⟩

/-- A packet that is queued goes to the end of its list, unless its sequence number is in it. -/
theorem account_sendPacket (priority : Priority) (ssrc : BitVec 32) (sequenceNumber : BitVec 16)
    (captureTimeMs bytes : Int) (h : s.enabled = true) :
    (s.sendPacket env priority ssrc sequenceNumber captureTimeMs bytes).2.account =
      if ∃ q ∈ (s.packets priority).packetList, q.sequenceNumber = sequenceNumber then s.account
      else Function.update s.account priority (s.account priority ++
        [(s.makePacket env priority ssrc sequenceNumber captureTimeMs bytes).1]) := by
  have hmade := makePacket_eq env (s := s) priority ssrc sequenceNumber captureTimeMs bytes
  have hnumber : (s.makePacket env priority ssrc sequenceNumber captureTimeMs bytes).1.sequenceNumber =
      sequenceNumber := rfl
  unfold sendPacket
  rw [if_neg (by simp [h])]
  generalize s.makePacket env priority ssrc sequenceNumber captureTimeMs bytes = made
    at hmade hnumber
  obtain ⟨packet, s₁⟩ := made
  obtain ⟨-, -, -, -, hoffers, hpackets⟩ := hmade
  dsimp only at hoffers hpackets hnumber ⊢
  have hpushed := (s.packets priority).pushBack_packetList packet
  rw [hnumber] at hpushed
  have hother : ∀ p, p ≠ priority → (s₁.setPackets ((s₁.packets priority).pushBack packet)
      priority).account p = s.account p := fun p hp => by
    rw [account, account, accepted, accepted, offers_setPackets, packets_setPackets_of_ne _ hp,
      hoffers, hpackets]
  have hself : (s₁.setPackets ((s₁.packets priority).pushBack packet) priority).account priority =
      s.accepted priority ++ ((s.packets priority).pushBack packet).packetList := by
    rw [account, accepted, accepted, offers_setPackets, packets_setPackets_self, hoffers, hpackets]
  funext p
  by_cases hp : p = priority
  · subst hp
    rw [hself, hpushed]
    split
    · rfl
    · rw [Function.update_self, account, List.append_assoc]
  · rw [hother p hp]
    split
    · rfl
    · rw [Function.update_of_ne hp]

end Account

/-! ## Where `Process` stops -/

section Stops

theorem startProcess_eq :
    (s.startProcess env).1 = decide (s.enabled = true ∧ s.paused = false) ∧
      (s.startProcess env).2.timeLastUpdate = env.now s.nowCalls ∧
      (s.startProcess env).2.nowCalls = s.nowCalls + 1 ∧
      (s.startProcess env).2.timeLastSend = s.timeLastSend ∧
      (s.startProcess env).2.offers = s.offers ∧
      (∀ p, (s.startProcess env).2.packets p = s.packets p) ∧
      (s.startProcess env).2.mediaBudget =
        if (s.enabled = true ∧ s.paused = false) ∧
            0 < int32 (env.now s.nowCalls - s.timeLastUpdate) then
          s.mediaBudget.increaseBudget
            (min kMaxIntervalTimeMs (int32 (env.now s.nowCalls - s.timeLastUpdate)))
        else s.mediaBudget := by
  unfold startProcess
  dsimp only [now]
  by_cases hgo : s.enabled = true ∧ s.paused = false
  · rw [if_neg (by simp [hgo])]
    by_cases hpast : 0 < int32 (env.now s.nowCalls - s.timeLastUpdate)
    · rw [if_pos hpast, if_pos ⟨hgo, hpast⟩]
      exact ⟨(decide_eq_true hgo).symm, rfl, rfl, rfl, rfl, by rintro (_ | _ | _) <;> rfl, rfl⟩
    · rw [if_neg hpast, if_neg fun h => hpast h.2]
      exact ⟨(decide_eq_true hgo).symm, rfl, rfl, rfl, rfl, by rintro (_ | _ | _) <;> rfl, rfl⟩
  · have hheld : (!s.enabled) = true ∨ s.paused = true := by
      cases henabled : s.enabled <;> cases hpaused : s.paused <;> simp_all
    rw [if_pos hheld, if_neg fun h => hgo h.1]
    exact ⟨(decide_eq_false hgo).symm, rfl, rfl, rfl, rfl, by rintro (_ | _ | _) <;> rfl, rfl⟩

/-- `Process` stops at a packet that is refused, which is then at the front of its list, or
where no list with packets may be sent from. -/
inductive Stopped (env : Env) : Bool × PacedSender → Prop
  | refused {s : PacedSender} {priority : Priority} {packet : Packet} :
    s.offers.getLast? = some (priority, packet, false) →
    (s.packets priority).packetList.head? = some packet → Stopped env (true, s)
  | exhausted {s : PacedSender} {calls : Nat} :
    (∀ priority, (s.packets priority).packetList ≠ [] → ¬ s.Open env priority) →
    Stopped env (false, { s with nowCalls := calls })

theorem Offered.queued_accept {priority : Priority} {packet : Packet} {s' : PacedSender}
    (h : Offered env s priority packet s') : (s'.accept priority packet).queued + 1 = s.queued := by
  obtain ⟨rest, hfront⟩ := h.front
  have hset : (s'.accept priority packet).queued =
      (s'.setPackets (s.packets priority).popFront priority).queued := by
    rw [← h.packets]
    unfold accept
    dsimp only
    split <;> rfl
  have hhigh : s'.highPriorityPackets = s.highPriorityPackets := h.packets .kHighPriority
  have hnormal : s'.normalPriorityPackets = s.normalPriorityPackets := h.packets .kNormalPriority
  have hlow : s'.lowPriorityPackets = s.lowPriorityPackets := h.packets .kLowPriority
  rw [hset]
  cases priority <;> simp only [PacedSender.packets] at hfront <;>
    simp [queued, setPackets, PacedSender.packets, hfront, hhigh, hnormal, hlow] <;> omega

theorem processLoop_stops : ∀ (fuel : Nat) (s : PacedSender), s.queued < fuel →
    Stopped env (processLoop env fuel s)
  | 0, _, h => absurd h (Nat.not_lt_zero _)
  | fuel + 1, s, h => by
    obtain ⟨calls, hloop, hclosed⟩ | ⟨priority, packet, s', hoffered, hloop⟩ :=
      processLoop_cases env fuel s
    · rw [hloop]
      exact .exhausted hclosed
    · rw [hloop]
      split
      · have haccept := hoffered.queued_accept env
        exact processLoop_stops fuel _ (by omega)
      · rename_i hrefused
        obtain ⟨rest, hfront⟩ := hoffered.front
        have hlast : s'.offers.getLast? = some (priority, packet, false) := by
          rw [hoffered.offers, List.getLast?_concat, Bool.eq_false_of_not_eq_true hrefused]
        exact .refused hlast (by rw [hoffered.packets, hfront, List.head?_cons])

/-- Every call of `Process` that is not held back. -/
theorem process_stops (h : s.enabled = true) (hpaused : s.paused = false) :
    (s.startProcess env).1 = true ∧
      Stopped env (processLoop env ((s.startProcess env).2.queued + 1) (s.startProcess env).2) := by
  refine ⟨?_, processLoop_stops env _ _ (Nat.lt_succ_self _)⟩
  unfold startProcess
  dsimp only [now]
  rw [if_neg (by simp [h, hpaused])]
  split <;> rfl

end Stops

/-! ## When packets are offered -/

section Offers

variable {priority : Priority} {packet : Packet} {front back : List Packet}

/-- The budget that the loop of `Process` begins with. -/
def budgetOfProcess (env : Env) (s : PacedSender) : IntervalBudget :=
  let elapsedTimeMs := int32 (env.now s.nowCalls - s.timeLastUpdate)
  if 0 < elapsedTimeMs then s.mediaBudget.increaseBudget (min kMaxIntervalTimeMs elapsedTimeMs)
  else s.mediaBudget

/-- `Process` is not held back, and may send from the list when it begins. -/
def Serves (env : Env) (s : PacedSender) (priority : Priority) : Prop :=
  (s.enabled = true ∧ s.paused = false) ∧
    (0 < (s.budgetOfProcess env).bytesRemaining ∨ priority ≠ .kLowPriority ∧
      kMaxQueueTimeWithoutSendingMs < env.now (s.nowCalls + 1) - s.timeLastSend)

instance decidableOpen : Decidable (s.Open env priority) := inferInstanceAs (Decidable (_ ∨ _))

instance decidableServes : Decidable (s.Serves env priority) :=
  inferInstanceAs (Decidable (_ ∧ _))

theorem startProcess_open (hgo : s.enabled = true ∧ s.paused = false) :
    (s.startProcess env).2.Open env priority ↔ s.Serves env priority := by
  obtain ⟨-, -, hnow, hsend, -, -, hbudget⟩ := startProcess_eq env (s := s)
  simp only [hgo, true_and] at hbudget
  unfold Open Serves budgetOfProcess
  rw [hnow, hsend, hbudget, and_iff_right hgo]

theorem offers_accept : (s.accept priority packet).offers = s.offers := by
  unfold accept
  dsimp only
  split <;> exact offers_setPackets _

theorem offers_processLoop : ∀ (fuel : Nat) (s : PacedSender),
    s.offers <+: (processLoop env fuel s).2.offers
  | 0, _ => List.prefix_refl _
  | fuel + 1, s => by
    obtain ⟨calls, hloop, -⟩ | ⟨priority, packet, s', hoffered, hloop⟩ :=
      processLoop_cases env fuel s
    · rw [hloop]
    · have hoffer : s.offers <+: s'.offers := hoffered.offers ▸ List.prefix_append _ _
      rw [hloop]
      split
      · have hrest := offers_processLoop fuel (s'.accept priority packet)
        rw [offers_accept] at hrest
        exact hoffer.trans hrest
      · exact hoffer

theorem offers_sendPadding : (s.sendPadding env).offers = s.offers := by
  unfold sendPadding
  split <;> rfl

theorem offers_process : (s.process env).offers =
    if s.enabled = true ∧ s.paused = false then
      (processLoop env ((s.startProcess env).2.queued + 1) (s.startProcess env).2).2.offers
    else s.offers := by
  obtain ⟨hflag, -, -, -, hoffers, -⟩ := startProcess_eq env (s := s)
  unfold process
  generalize s.startProcess env = started at hflag hoffers
  obtain ⟨_ | _, s₁⟩ := started
  · rw [if_neg (of_decide_eq_false hflag.symm)]
    exact hoffers
  · rw [if_pos (of_decide_eq_true hflag.symm)]
    dsimp only
    generalize processLoop env (s₁.queued + 1) s₁ = looped
    obtain ⟨_ | _, s₂⟩ := looped
    · exact offers_sendPadding env
    · rfl

/-- The first turn of the loop, where no list goes before one that is not empty. -/
theorem processLoop_first {rest : List Packet} {fuel : Nat}
    (hlist : (s.packets priority).packetList = packet :: rest)
    (habove : ∀ p ∈ priority.above, (s.packets p).packetList = []) :
    if s.Open env priority then
      s.offers ++ [(priority, packet, env.timeToSendPacket s.offers.length)] <+:
        (processLoop env (fuel + 1) s).2.offers
    else (processLoop env (fuel + 1) s).2.offers = s.offers := by
  obtain ⟨calls, hloop, hclosed⟩ | ⟨p, q, s', hoffered, hloop⟩ := processLoop_cases env fuel s
  · rw [if_neg (hclosed priority (by rw [hlist]; exact List.cons_ne_nil _ _)), hloop]
  · obtain ⟨rest', hfront⟩ := hoffered.front
    have horder : p = priority ∨ p ∈ priority.above ∨ priority ∈ p.above := by
      cases p <;> cases priority <;> decide
    obtain rfl | hp | hp := horder
    · obtain ⟨rfl, -⟩ := List.cons.inj (hlist.symm.trans hfront)
      rw [if_pos hoffered.isOpen, ← hoffered.offers, hloop]
      split
      · have hrest := offers_processLoop env fuel (s'.accept p packet)
        rwa [offers_accept] at hrest
      · exact List.prefix_refl _
    · exact absurd ((habove p hp).symm.trans hfront) (List.cons_ne_nil _ _).symm
    · exact absurd ((hoffered.above priority hp).symm.trans hlist) (List.cons_ne_nil _ _).symm

/-- `Process` offers the packet at the front of the first list that is not empty if it serves
that list, and offers nothing if it does not. -/
theorem process_offers {rest : List Packet}
    (hlist : (s.packets priority).packetList = packet :: rest)
    (habove : ∀ p ∈ priority.above, (s.packets p).packetList = []) :
    if s.Serves env priority then
      s.offers ++ [(priority, packet, env.timeToSendPacket s.offers.length)] <+:
        (s.process env).offers
    else (s.process env).offers = s.offers := by
  obtain ⟨-, -, -, -, hoffers, hpackets, -⟩ := startProcess_eq env (s := s)
  rw [offers_process]
  by_cases hgo : s.enabled = true ∧ s.paused = false
  · have hfirst := @processLoop_first env (s.startProcess env).2 priority packet rest
      (s.startProcess env).2.queued (by rw [hpackets]; exact hlist)
      (fun p hp => by rw [hpackets]; exact habove p hp)
    simp only [startProcess_open env hgo, hoffers] at hfirst
    rwa [if_pos hgo]
  · rw [if_neg hgo, if_neg fun h => hgo h.1]

end Offers

/-! ## Runs -/

inductive Call where
  | sendPacket (priority : Priority) (ssrc : BitVec 32) (sequenceNumber : BitVec 16)
    (captureTimeMs bytes : Int)
  | setStatus (enable : Bool)
  | pause
  | resume
  | updateBitrate (targetBitrateKbps padUpToBitrateKbps : Int)
  | process

def call (env : Env) (s : PacedSender) : Call → PacedSender
  | .sendPacket priority ssrc sequenceNumber captureTimeMs bytes =>
    (s.sendPacket env priority ssrc sequenceNumber captureTimeMs bytes).2
  | .setStatus enable => s.setStatus enable
  | .pause => s.pause
  | .resume => s.resume
  | .updateBitrate target padUpTo => s.updateBitrate env target padUpTo
  | .process => s.process env

/-! ## How long a packet waits -/

section Waits

variable {priority : Priority} {packet : Packet} {front back : List Packet} {c : Call}

/-- The packets that go before those of a priority. -/
def ahead (s : PacedSender) (priority : Priority) : Nat :=
  (priority.above.map fun p => (s.packets p).packetList.length).sum

/-- A `Process` that serves the list, and whose first packet is accepted. -/
def Served (env : Env) (priority : Priority) (s : PacedSender) : Call → Prop
  | .process => s.Serves env priority ∧ env.timeToSendPacket s.offers.length = true
  | _ => False

instance decidableServed : Decidable (s.Served env priority c) :=
  match c with
  | .process => inferInstanceAs (Decidable (_ ∧ _))
  | .sendPacket .. | .setStatus _ | .pause | .resume | .updateBitrate .. => isFalse id

/-- How many calls serve the list. -/
def timesServed (env : Env) (priority : Priority) : PacedSender → List Call → Nat
  | _, [] => 0
  | s, c :: calls =>
    (if s.Served env priority c then 1 else 0) + timesServed env priority (s.call env c) calls

theorem offers_process_mono : s.offers <+: (s.process env).offers := by
  obtain ⟨-, -, -, -, hoffers, -⟩ := startProcess_eq env (s := s)
  rw [offers_process]
  split
  · rw [← hoffers]
    exact offers_processLoop env _ _
  · exact List.prefix_refl _

theorem accepted_mono {s' : PacedSender} (h : s.offers <+: s'.offers) (p : Priority) :
    s.accepted p <+: s'.accepted p := (h.filter _).map _

/-- What `Process` takes from a list is accepted. -/
theorem process_takes (p : Priority) : ∃ taken,
    (s.process env).accepted p = s.accepted p ++ taken ∧
      (s.packets p).packetList = taken ++ ((s.process env).packets p).packetList := by
  obtain ⟨taken, htaken⟩ := accepted_mono (offers_process_mono env (s := s)) p
  have haccount := congrFun (account_process env (s := s)) p
  rw [account, account, ← htaken, List.append_assoc] at haccount
  exact ⟨taken, htaken.symm, (List.append_cancel_left haccount).symm⟩

/-- A call that serves a list takes a packet from it, or from one that goes before. -/
theorem process_served (hserved : s.Served env priority .process)
    (hlist : (s.packets priority).packetList ≠ []) :
    ∃ p, (p = priority ∨ p ∈ priority.above) ∧
      (s.process env).accepted p ≠ s.accepted p := by
  obtain ⟨hserves, haccepts⟩ := hserved
  have hfirst : ∃ p, (p = priority ∨ p ∈ priority.above) ∧ (s.packets p).packetList ≠ [] ∧
      ∀ p' ∈ p.above, (s.packets p').packetList = [] := by
    by_cases hhigh : (s.packets .kHighPriority).packetList = []
    · by_cases hnormal : (s.packets .kNormalPriority).packetList = []
      · refine ⟨priority, .inl rfl, hlist, ?_⟩
        cases priority <;> simp [Priority.above, hhigh, hnormal]
      · refine ⟨.kNormalPriority, ?_, hnormal, by simp [Priority.above, hhigh]⟩
        cases priority <;> simp_all [Priority.above]
    · refine ⟨.kHighPriority, ?_, hhigh, by simp [Priority.above]⟩
      cases priority <;> simp [Priority.above]
  obtain ⟨p, hp, hne, habove⟩ := hfirst
  have hserves' : s.Serves env p := by
    refine ⟨hserves.1, hserves.2.imp_right fun h => ⟨?_, h.2⟩⟩
    obtain rfl | hp := hp
    · exact h.1
    · rintro rfl
      cases priority <;> simp [Priority.above] at hp
  obtain ⟨q, rest, hq⟩ := List.exists_cons_of_ne_nil hne
  have hoffer := process_offers env hq habove
  rw [if_pos hserves', haccepts] at hoffer
  refine ⟨p, hp, fun hsame => ?_⟩
  have hlength := (accepted_mono (s := { s with offers := s.offers ++ [(p, q, true)] }) hoffer
    p).length_le
  rw [hsame] at hlength
  simp [accepted] at hlength

theorem offers_sendPacket (priority : Priority) (ssrc : BitVec 32) (sequenceNumber : BitVec 16)
    (captureTimeMs bytes : Int) :
    (s.sendPacket env priority ssrc sequenceNumber captureTimeMs bytes).2.offers = s.offers := by
  have hmade := makePacket_eq env (s := s) priority ssrc sequenceNumber captureTimeMs bytes
  unfold sendPacket
  split
  · rfl
  · exact (offers_setPackets _).trans hmade.2.2.2.2.1

theorem sendPacket_adds (priority : Priority) (ssrc : BitVec 32) (sequenceNumber : BitVec 16)
    (captureTimeMs bytes : Int) (p : Priority) :
    ∃ new, ((s.sendPacket env priority ssrc sequenceNumber captureTimeMs bytes).2.packets
        p).packetList = (s.packets p).packetList ++ new ∧ (p ≠ priority → new = []) := by
  have hpackets := (makePacket_eq env (s := s) priority ssrc sequenceNumber captureTimeMs
    bytes).2.2.2.2.2
  unfold sendPacket
  split
  · exact ⟨[], (List.append_nil _).symm, fun _ => rfl⟩
  · dsimp only
    by_cases hp : p = priority
    · subst hp
      rw [packets_setPackets_self, PacketList.pushBack_packetList, hpackets]
      split
      · exact ⟨[], (List.append_nil _).symm, fun _ => rfl⟩
      · exact ⟨[_], rfl, fun hne => absurd rfl hne⟩
    · rw [packets_setPackets_of_ne _ hp, hpackets]
      exact ⟨[], (List.append_nil _).symm, fun _ => rfl⟩

/-- A packet keeps its place while no packets come in before it, and moves up with each call that
serves its list. -/
theorem call_waits (hwaits : (s.packets priority).packetList = front ++ packet :: back)
    (hc : ∀ p ∈ priority.above, ∀ ssrc sequenceNumber captureTimeMs bytes,
      c ≠ .sendPacket p ssrc sequenceNumber captureTimeMs bytes) :
    packet ∈ (s.call env c).accepted priority ∨
      ∃ front' back', ((s.call env c).packets priority).packetList = front' ++ packet :: back' ∧
        (s.call env c).ahead priority + front'.length +
          (if s.Served env priority c then 1 else 0) ≤ s.ahead priority + front.length := by
  cases c with
  | setStatus enable => exact .inr ⟨front, back, hwaits, le_refl _⟩
  | pause => exact .inr ⟨front, back, hwaits, le_refl _⟩
  | resume => exact .inr ⟨front, back, hwaits, le_refl _⟩
  | updateBitrate target padUpTo => exact .inr ⟨front, back, hwaits, le_refl _⟩
  | sendPacket p ssrc sequenceNumber captureTimeMs bytes =>
    have hadds := sendPacket_adds env (s := s) p ssrc sequenceNumber captureTimeMs bytes
    obtain ⟨new, hnew, -⟩ := hadds priority
    refine .inr ⟨front, back ++ new, ?_, ?_⟩
    · refine hnew.trans ?_
      rw [hwaits, List.append_assoc, List.cons_append]
    · have hahead : (s.sendPacket env p ssrc sequenceNumber captureTimeMs bytes).2.ahead priority =
          s.ahead priority := by
        refine congrArg List.sum (List.map_congr_left fun p' hp' => ?_)
        obtain ⟨new, hnew, hnil⟩ := hadds p'
        rw [hnew, hnil fun heq => hc p (heq ▸ hp') _ _ _ _ rfl, List.append_nil]
      exact le_of_eq (congrArg (· + front.length) hahead)
  | process =>
    choose taken haccepted htaken using process_takes env (s := s)
    have hserved : (if s.Served env priority .process then 1 else 0) ≤ (taken priority).length +
        (priority.above.map fun p => (taken p).length).sum := by
      split
      · rename_i hserved
        obtain ⟨p, hp, hne⟩ := process_served env hserved (by rw [hwaits]; simp)
        have hpos : 0 < (taken p).length := by
          refine List.length_pos_iff.mpr fun hnil => hne ?_
          rw [haccepted, hnil, List.append_nil]
        obtain rfl | hp := hp
        · omega
        · have hle := List.single_le_sum (fun _ _ => Nat.zero_le _) _
            (List.mem_map_of_mem (f := fun p => (taken p).length) hp)
          omega
      · exact Nat.zero_le _
    have hahead : s.ahead priority = (priority.above.map fun p => (taken p).length).sum +
        (s.process env).ahead priority := by
      rw [ahead, ahead, ← List.sum_map_add]
      refine congrArg List.sum (List.map_congr_left fun p _ => ?_)
      rw [htaken p, List.length_append]
    have hsplit := htaken priority
    rw [hwaits] at hsplit
    -- Those that were taken are the first of the front, or the packet is one of them.
    obtain ⟨front', hfront, hrest⟩ | ⟨_ | ⟨q, mid⟩, hmid, hrest⟩ :=
      List.append_eq_append_iff.mp hsplit.symm
    · have hlength := congrArg List.length hfront
      rw [List.length_append] at hlength
      exact .inr ⟨front', back, hrest, by show (s.process env).ahead priority + _ + _ ≤ _; omega⟩
    · rw [List.append_nil] at hmid
      exact .inr ⟨[], back, hrest.symm, by
        show (s.process env).ahead priority + 0 + _ ≤ _
        rw [hmid] at hserved
        omega⟩
    · refine .inl ?_
      obtain ⟨rfl, -⟩ := List.cons.inj hrest
      show packet ∈ (s.process env).accepted priority
      rw [haccepted, hmid]
      simp

theorem offers_call (c : Call) : s.offers <+: (s.call env c).offers := by
  cases c with
  | process => exact offers_process_mono env
  | sendPacket p ssrc sequenceNumber captureTimeMs bytes =>
    refine (congrArg (s.offers <+: ·) ?_).mpr (List.prefix_refl _)
    exact offers_sendPacket env p ssrc sequenceNumber captureTimeMs bytes
  | setStatus enable => exact List.prefix_refl _
  | pause => exact List.prefix_refl _
  | resume => exact List.prefix_refl _
  | updateBitrate target padUpTo => exact List.prefix_refl _

theorem accepted_run {calls : List Call} (h : packet ∈ s.accepted priority) :
    packet ∈ (Machine.run (call env) s calls).accepted priority := by
  induction calls generalizing s with
  | nil => exact h
  | cons c calls ih => exact ih ((accepted_mono (offers_call env c) priority).subset h)

/-- A packet that waits is accepted once more calls have served its list than packets went
before it. -/
theorem run_serves {calls : List Call}
    (hwaits : (s.packets priority).packetList = front ++ packet :: back)
    (hcalls : ∀ p ∈ priority.above, ∀ ssrc sequenceNumber captureTimeMs bytes,
      .sendPacket p ssrc sequenceNumber captureTimeMs bytes ∉ calls)
    (htimes : s.ahead priority + front.length < timesServed env priority s calls) :
    packet ∈ (Machine.run (call env) s calls).accepted priority := by
  induction calls generalizing s front back with
  | nil => exact absurd htimes (Nat.not_lt_zero _)
  | cons c calls ih =>
    have hstep := call_waits env (c := c) hwaits fun p hp ssrc sequenceNumber captureTimeMs bytes
      heq => hcalls p hp ssrc sequenceNumber captureTimeMs bytes (heq ▸ List.mem_cons_self)
    obtain haccepted | ⟨front', back', hwaits', hle⟩ := hstep
    · exact accepted_run env (s := s.call env c) haccepted
    · rw [timesServed] at htimes
      refine ih hwaits' (fun p hp _ _ _ _ hmem => hcalls p hp _ _ _ _ (List.mem_cons_of_mem _ hmem)) ?_
      omega

end Waits

/-- A packet of the stream with the same sequence number waits. -/
def Repeats (s : PacedSender) (priority : Priority) (ssrc : BitVec 32)
    (sequenceNumber : BitVec 16) : Prop :=
  ∃ q ∈ (s.packets priority).packetList, q.ssrc = ssrc ∧ q.sequenceNumber = sequenceNumber

instance decidableRepeats (priority : Priority) (ssrc : BitVec 32) (sequenceNumber : BitVec 16) :
    Decidable (s.Repeats priority ssrc sequenceNumber) :=
  inferInstanceAs (Decidable (∃ q ∈ _, _ ∧ _))

/-- No other stream has a packet with the same sequence number in the list. -/
def Separate (s : PacedSender) : Call → Prop
  | .sendPacket priority ssrc sequenceNumber _ _ => s.enabled = true →
    ∀ q ∈ (s.packets priority).packetList, q.sequenceNumber = sequenceNumber → q.ssrc = ssrc
  | _ => True

end PacedSender

/-- A sender, and the packets for which `SendPacket` returned false and which do not repeat
one that waits. -/
structure Trace where
  sender : PacedSender
  queued : Priority → List Packet

namespace Trace

open Machine PacedSender

variable (env : Env)

def step (t : Trace) (c : Call) : Trace where
  sender := t.sender.call env c
  queued :=
    match c with
    | .sendPacket priority ssrc sequenceNumber captureTimeMs bytes =>
      if t.sender.enabled = true ∧ ¬ t.sender.Repeats priority ssrc sequenceNumber then
        Function.update t.queued priority (t.queued priority ++
          [(t.sender.makePacket env priority ssrc sequenceNumber captureTimeMs bytes).1])
      else t.queued
    | _ => t.queued

/-- Each packet was accepted once, or waits, in the order of its priority. -/
def Accounted (t : Trace) : Prop := t.queued = t.sender.account

def start (targetBitrateKbps : Int) : Trace where
  sender := create env targetBitrateKbps
  queued _ := []

theorem step_accounted_iff (t : Trace) (c : Call) (h : t.Accounted) :
    (t.step env c).Accounted ↔ t.sender.Separate c := by
  unfold Accounted at h
  cases c with
  | setStatus enable => exact iff_of_true (h.trans (account_congr rfl fun _ => rfl)) trivial
  | pause => exact iff_of_true h trivial
  | resume => exact iff_of_true h trivial
  | updateBitrate target padUpTo => exact iff_of_true h trivial
  | process => exact iff_of_true (h.trans (account_process env).symm) trivial
  | sendPacket priority ssrc sequenceNumber captureTimeMs bytes =>
    by_cases henabled : t.sender.enabled = true
    · have hsent := account_sendPacket env priority ssrc sequenceNumber captureTimeMs bytes henabled
      unfold Accounted step PacedSender.call Separate
      dsimp only
      rw [hsent, h]
      by_cases hnumber : ∃ q ∈ (t.sender.packets priority).packetList,
          q.sequenceNumber = sequenceNumber
      · rw [if_pos hnumber]
        obtain ⟨q, hq, hsame⟩ := hnumber
        by_cases hrepeats : t.sender.Repeats priority ssrc sequenceNumber
        · rw [if_neg fun hnew => hnew.2 hrepeats]
          obtain ⟨q', hq', hssrc, hsame'⟩ := hrepeats
          refine iff_of_true rfl fun _ r hr hnumber => ?_
          rw [(t.sender.packets priority).eq_of_sequenceNumber hr hq' (hnumber.trans hsame'.symm)]
          exact hssrc
        · -- The packet is lost: its number belongs to another stream.
          rw [if_pos ⟨henabled, hrepeats⟩]
          refine iff_of_false (fun hlost => ?_) fun hseparate => hrepeats
            ⟨q, hq, hseparate henabled q hq hsame, hsame⟩
          have hlength := congrArg List.length (congrFun hlost priority)
          simp at hlength
      · have hnew : ¬ t.sender.Repeats priority ssrc sequenceNumber := fun ⟨q, hq, _, hsame⟩ =>
          hnumber ⟨q, hq, hsame⟩
        rw [if_neg hnumber, if_pos ⟨henabled, hnew⟩]
        exact iff_of_true rfl fun _ q hq hsame => absurd ⟨q, hq, hsame⟩ hnumber
    · have hsame : (t.sender.sendPacket env priority ssrc sequenceNumber captureTimeMs bytes).2 =
          t.sender := by
        simp [sendPacket, henabled]
      unfold Accounted step PacedSender.call
      dsimp only
      rw [hsame, if_neg fun hnew => henabled hnew.1]
      exact iff_of_true h fun henabled' => absurd henabled' henabled

theorem start_accounted (targetBitrateKbps : Int) : (start env targetBitrateKbps).Accounted := by
  funext priority
  cases priority <;> rfl

theorem run_sender (t : Trace) (calls : List Call) :
    (run (step env) t calls).sender = run (PacedSender.call env) t.sender calls := by
  induction calls generalizing t with
  | nil => rfl
  | cons c calls ih => exact ih (t.step env c)

/-- What `Process` does in a state: it offers the packet at the front of the first list that is
not empty exactly if it serves that list, and it stops at a packet that is refused or where no
list may be sent from. -/
structure Progresses (env : Env) (s : PacedSender) : Prop where
  offers : ∀ priority packet rest, (s.packets priority).packetList = packet :: rest →
    (∀ p ∈ priority.above, (s.packets p).packetList = []) →
    if s.Serves env priority then
      s.offers ++ [(priority, packet, env.timeToSendPacket s.offers.length)] <+:
        (s.process env).offers
    else (s.process env).offers = s.offers
  stops : s.enabled = true → s.paused = false → (s.startProcess env).1 = true ∧
    Stopped env (processLoop env ((s.startProcess env).2.queued + 1) (s.startProcess env).2)

/-- Whatever the clock, the answers of the callback and the calls: every packet that was queued
was accepted once or waits, in the order of its priority, if and only if no two streams had the
same sequence number in a list; `Process` progresses in every state; and a packet that waits is
accepted once more calls have served its list than packets went before it, unless packets of a
priority that goes first come in. -/
theorem always_accounted_iff (targetBitrateKbps : Int) (calls : List Call) :
    (Always (step env) Accounted (start env targetBitrateKbps) calls ↔
      Along (step env) (fun t c => t.sender.Separate c) (start env targetBitrateKbps) calls) ∧
    Always (step env) (fun t => Progresses env t.sender) (start env targetBitrateKbps) calls ∧
    ∀ before after, calls = before ++ after → ∀ priority front packet back,
      let s := (run (step env) (start env targetBitrateKbps) before).sender
      (s.packets priority).packetList = front ++ packet :: back →
      (∀ p ∈ priority.above, ∀ ssrc sequenceNumber captureTimeMs bytes,
        .sendPacket p ssrc sequenceNumber captureTimeMs bytes ∉ after) →
      s.ahead priority + front.length < timesServed env priority s after →
      packet ∈ (run (step env) (start env targetBitrateKbps) calls).sender.accepted priority := by
  refine ⟨?_, always_of_forall (fun t => ⟨fun priority packet rest => process_offers env,
    t.sender.process_stops env⟩) _ _, ?_⟩
  · exact always_iff_along (I := fun _ => True) (fun _ _ _ => trivial)
      (fun t c _ h => step_accounted_iff env t c h) trivial (start_accounted env _)
  · intro before after hcalls priority front packet back s hwaits habove htimes
    have hrun := run_serves env hwaits habove htimes
    rwa [hcalls, run, List.foldl_append, ← run, ← run, run_sender]

/-- A clock that stands still, and a callback that takes everything. -/
def idleEnv : Env where
  now := fun _ => 0
  timeToSendPacket := fun _ => true
  timeToSendPadding := fun _ => 0
  pace := id

/-- Two streams whose packets have the same sequence number: the second packet is neither
offered nor kept. -/
theorem not_always_accounted :
    let calls := [.setStatus true, .sendPacket .kNormalPriority 1 7 0 100,
      .sendPacket .kNormalPriority 2 7 0 100, .process]
    ¬ Always (step idleEnv) Accounted (start idleEnv 1000) calls ∧
      (run (step idleEnv) (start idleEnv 1000) calls).sender.offers =
        [(.kNormalPriority, ⟨1, 7, 0, 100⟩, true)] ∧
      (run (step idleEnv) (start idleEnv 1000) calls).sender.queued = 0 := by
  refine ⟨fun h => ?_, by decide +kernel, by decide +kernel⟩
  have hlast := congrFun (h.run_take 3) .kNormalPriority
  exact absurd hlast (by decide +kernel)

end Trace

end PerchWebrtc.Pacing
