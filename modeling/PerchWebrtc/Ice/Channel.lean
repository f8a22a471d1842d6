import PerchWebrtc.Framework.Machine
import PerchWebrtc.Ice.RoleConflict

/-!
# Connections of a transport channel

`P2PTransportChannel` (`p2ptransportchannel.cc`): the connections of a channel, and the
pointers to the best one and to the one that is to be the best. Connections are pointers,
of any type; what they point at is looked up in the state.

* `changeState_valid`, `sortConnections_valid`, `removeConnection_valid`: calls that
  keep the pointers among the connections;
* `step_valid_iff`: what one call keeps;
* `always_valid_iff`: in every run the pointers are among the connections if and only if
  no `Reset` finds a pending connection and only connections of the channel are nominated
  or destroyed.
-/

namespace PerchWebrtc.Ice

inductive IceProtocolType where
  | ICEPROTO_GOOGLE
  | ICEPROTO_HYBRID
  | ICEPROTO_RFC5245
  deriving DecidableEq

inductive WriteState where
  | STATE_WRITABLE
  | STATE_WRITE_UNRELIABLE
  | STATE_WRITE_INIT
  | STATE_WRITE_TIMEOUT
  deriving DecidableEq

def WriteState.value : WriteState → Nat
  | STATE_WRITABLE => 0
  | STATE_WRITE_UNRELIABLE => 1
  | STATE_WRITE_INIT => 2
  | STATE_WRITE_TIMEOUT => 3

inductive ReadState where
  | STATE_READ_INIT
  | STATE_READABLE
  | STATE_READ_TIMEOUT
  deriving DecidableEq

/-! ## Connections -/

structure Connection where
  writeState : WriteState := .STATE_WRITE_INIT
  readState : ReadState := .STATE_READ_INIT
  pruned : Bool := false
  priority : BitVec 64 := 0
  remoteGeneration : BitVec 32 := 0
  portGeneration : BitVec 32 := 0
  rtt : BitVec 32 := 3000
  /-- The address of the network of the port. -/
  network : Nat := 0

def Connection.writable (c : Connection) : Bool := c.writeState = .STATE_WRITABLE

/-- The difference of the generations is a `uint32` that is returned as an `int`. -/
def compareConnectionCandidates (a b : Connection) : Int :=
  if a.priority > b.priority then 1
  else if a.priority < b.priority then -1
  else
    (a.remoteGeneration + a.portGeneration - (b.remoteGeneration + b.portGeneration)).toInt

def compareConnections (a b : Connection) : Int :=
  if a.writeState.value < b.writeState.value then 1
  else if a.writeState.value > b.writeState.value then -1
  else compareConnectionCandidates a b

/-- `ConnectionCompare`. -/
def connectionCompare (a b : Connection) : Bool :=
  let cmp := compareConnections a b
  if cmp > 0 then true
  else if cmp < 0 then false
  else a.rtt < b.rtt

/-- What `set_write_state` or `set_read_state` is called with. -/
inductive StateChange where
  | write (value : WriteState)
  | read (value : ReadState)
  deriving DecidableEq

def StateChange.apply : StateChange → Connection → Connection
  | .write value, c => { c with writeState := value }
  | .read value, c => { c with readState := value }

/-- The value is the old one. -/
def StateChange.isOld : StateChange → Connection → Bool
  | .write value, c => value = c.writeState
  | .read value, c => value = c.readState

/-! ## The channel -/

/-- The connections are pointers, and `object` is what they point at. -/
structure P2PTransportChannel (α : Type*) where
  object : α → Connection
  connections : List α := []
  bestConnection : Option α := none
  pendingBestConnection : Option α := none
  sortDirty : Bool := false
  wasWritable : Bool := false
  writable : Bool := false
  readable : Bool := false
  protocolType : IceProtocolType := .ICEPROTO_GOOGLE
  iceRole : IceRole := .ICEROLE_UNKNOWN

namespace P2PTransportChannel

variable {α : Type*} [DecidableEq α]

def setObject (conn : α) (c : Connection) (s : P2PTransportChannel α) : P2PTransportChannel α :=
  { s with object := Function.update s.object conn c }

def requestSort (s : P2PTransportChannel α) : P2PTransportChannel α := { s with sortDirty := true }

def switchBestConnectionTo (conn : Option α) (s : P2PTransportChannel α) :
    P2PTransportChannel α :=
  { s with bestConnection := conn }

/-- A connection that `CreateConnection` of a port has made. -/
def addConnection (conn : α) (c : Connection) (s : P2PTransportChannel α) :
    P2PTransportChannel α :=
  { s.setObject conn c with connections := s.connections ++ [conn] }

def onUseCandidate (conn : α) (s : P2PTransportChannel α) : P2PTransportChannel α :=
  if (s.object conn).writable then
    if s.bestConnection ≠ some conn then
      ({ s with pendingBestConnection := none }.switchBestConnectionTo (some conn)).requestSort
    else s
  else { s with pendingBestConnection := some conn }

def onConnectionStateChange (conn : α) (s : P2PTransportChannel α) : P2PTransportChannel α :=
  let s :=
    if s.protocolType = .ICEPROTO_RFC5245 ∧ s.iceRole = .ICEROLE_CONTROLLED then
      if some conn = s.pendingBestConnection ∧ (s.object conn).writable then
        { s with pendingBestConnection := none }.switchBestConnectionTo (some conn)
      else s
    else s
  s.requestSort

/-- `SignalStateChange` is emitted where the value changes. -/
def changeState (conn : α) (change : StateChange) (s : P2PTransportChannel α) :
    P2PTransportChannel α :=
  if change.isOld (s.object conn) then s
  else (s.setObject conn (change.apply (s.object conn))).onConnectionStateChange conn

/-- `UpdateState` of each connection, given the changes that each makes at this time. -/
def updateConnectionStates (changes : α → List StateChange) (s : P2PTransportChannel α) :
    P2PTransportChannel α :=
  s.connections.foldl
    (fun s conn => (changes conn).foldl (fun s change => s.changeState conn change) s) s

/-- `Prune` of a connection. -/
def prune (conn : α) (s : P2PTransportChannel α) : P2PTransportChannel α :=
  if (s.object conn).pruned then s
  else
    (s.setObject conn { s.object conn with pruned := true }).changeState conn
      (.write .STATE_WRITE_TIMEOUT)

/-! ## Sorting -/

/-- The minimum improvement in RTT that justifies a switch. -/
def kMinImprovement : Nat := 10

def shouldSwitch (a b : Option α) (s : P2PTransportChannel α) : Bool :=
  if a = b then false
  else
    match a, b with
    | some a, some b =>
      let prefsCmp := compareConnections (s.object a) (s.object b)
      if prefsCmp < 0 then true
      else if prefsCmp > 0 then false
      else (s.object b).rtt.toNat ≤ (s.object a).rtt.toNat + kMinImprovement
    | _, _ => true

/-- The stable sort of the connections. -/
def sort (s : P2PTransportChannel α) : P2PTransportChannel α :=
  { s with
    connections := s.connections.insertionSort fun a b =>
      connectionCompare (s.object b) (s.object a) = false }

/-- The networks in use, in the order of a set of pointers. -/
def networks (s : P2PTransportChannel α) : List Nat :=
  (s.connections.map fun conn => (s.object conn).network).dedup.insertionSort (· ≤ ·)

/-- The switch to the first of the sorted connections, if it is to be made here. -/
def switchToTop (s : P2PTransportChannel α) : P2PTransportChannel α :=
  let topConnection := s.connections.head?
  if s.protocolType ≠ .ICEPROTO_RFC5245 ∨ s.iceRole = .ICEROLE_CONTROLLING then
    if s.shouldSwitch s.bestConnection topConnection then s.switchBestConnectionTo topConnection
    else s
  else s

def getBestConnectionOnNetwork (network : Nat) (s : P2PTransportChannel α) : Option α :=
  match s.bestConnection.filter fun conn => (s.object conn).network = network with
  | some conn => some conn
  | none => s.connections.find? fun conn => (s.object conn).network = network

/-- The connections of a network that are no better than the one in use are pruned. -/
def pruneNetwork (network : Nat) (s : P2PTransportChannel α) : P2PTransportChannel α :=
  match s.getBestConnectionOnNetwork network with
  | none => s
  | some primier =>
    if ¬ (s.object primier).writable then s
    else
      s.connections.foldl
        (fun s conn =>
          if conn ≠ primier ∧ (s.object conn).network = network ∧
            compareConnectionCandidates (s.object primier) (s.object conn) ≥ 0 then s.prune conn
          else s) s

def handleWritable (s : P2PTransportChannel α) : P2PTransportChannel α :=
  { s with wasWritable := true, writable := true }

/-- Also where all connections have timed out. -/
def handleNotWritable (s : P2PTransportChannel α) : P2PTransportChannel α :=
  if s.wasWritable then { s with wasWritable := false, writable := false } else s

def updateChannelState (s : P2PTransportChannel α) : P2PTransportChannel α :=
  { s with readable := s.connections.any fun conn => (s.object conn).readState = .STATE_READABLE }

def sortConnections (changes : α → List StateChange) (s : P2PTransportChannel α) :
    P2PTransportChannel α :=
  let s := { s.updateConnectionStates changes with sortDirty := false }
  let networks := s.networks
  let s := networks.foldl (fun s network => s.pruneNetwork network) s.sort.switchToTop
  let s :=
    if s.bestConnection.any fun conn => (s.object conn).writable then s.handleWritable
    else s.handleNotWritable
  s.updateChannelState

/-! ## Destruction -/

/-- The part of `OnConnectionDestroyed` behind the `find`, for a connection that is found. -/
def removeConnection (conn : α) (s : P2PTransportChannel α) : P2PTransportChannel α :=
  let s := { s with connections := s.connections.erase conn }
  let s :=
    if s.pendingBestConnection = some conn then { s with pendingBestConnection := none } else s
  if s.bestConnection = some conn then (s.switchBestConnectionTo none).requestSort else s

/-- For a connection that is not found, the end of the vector would be erased: there is no
result. -/
def onConnectionDestroyed (conn : α) (s : P2PTransportChannel α) :
    Option (P2PTransportChannel α) :=
  if conn ∈ s.connections then some (s.removeConnection conn) else none

/-- The allocator sessions are deleted with their ports and the connections of these, which
emit no signal. -/
def reset (s : P2PTransportChannel α) : P2PTransportChannel α :=
  { s with
    connections := []
    bestConnection := none
    readable := false
    writable := false
    sortDirty := false }

/-! ## Runs -/

inductive Event (α : Type*) where
  | addConnection (conn : α) (c : Connection)
  | useCandidate (conn : α)
  | changeState (conn : α) (change : StateChange)
  /-- A change of the local candidate. -/
  | stateChange (conn : α)
  /-- A change of what is compared, without a signal. -/
  | measured (conn : α) (priority : BitVec 64) (rtt : BitVec 32)
  | destroyed (conn : α)
  /-- The connections are sorted: for a new port, a candidate, or on request. -/
  | sort (changes : α → List StateChange)
  | ping (changes : α → List StateChange)
  | setIceRole (iceRole : IceRole)
  | setIceProtocolType (protocolType : IceProtocolType)
  | reset

def step (s : P2PTransportChannel α) : Event α → Option (P2PTransportChannel α)
  | .addConnection conn c => some (s.addConnection conn c)
  | .useCandidate conn => some (s.onUseCandidate conn)
  | .changeState conn change => some (s.changeState conn change)
  | .stateChange conn => some (s.onConnectionStateChange conn)
  | .measured conn priority rtt =>
    some (s.setObject conn { s.object conn with priority := priority, rtt := rtt })
  | .destroyed conn => s.onConnectionDestroyed conn
  | .sort changes => some (s.sortConnections changes)
  | .ping changes => some (s.updateConnectionStates changes)
  | .setIceRole iceRole => some { s with iceRole := iceRole }
  | .setIceProtocolType protocolType => some { s with protocolType := protocolType }
  | .reset => some s.reset

/-- Each of the two pointers is null or points at a connection of the channel. -/
structure Valid (s : P2PTransportChannel α) : Prop where
  best : ∀ conn, s.bestConnection = some conn → conn ∈ s.connections
  pending : ∀ conn, s.pendingBestConnection = some conn → conn ∈ s.connections

/-- `Reset` finds no pending connection, and a connection that is nominated or destroyed is
one of the channel. -/
def Keeps (s : P2PTransportChannel α) : Event α → Prop
  | .useCandidate conn | .destroyed conn => conn ∈ s.connections
  | .reset => s.pendingBestConnection = none
  | _ => True

section Pointers

omit [DecidableEq α]

variable {s : P2PTransportChannel α}

theorem Valid.of_noPending (hbest : ∀ conn, s.bestConnection = some conn → conn ∈ s.connections)
    (hpending : s.pendingBestConnection = none) : s.Valid where
  best := hbest
  pending := fun conn hconn => by
    rw [hpending] at hconn
    cases hconn

theorem Valid.foldl {β : Type*} {f : P2PTransportChannel α → β → P2PTransportChannel α}
    (hf : ∀ s x, s.Valid → (f s x).Valid) (l : List β) (hs : s.Valid) : (l.foldl f s).Valid := by
  induction l generalizing s with
  | nil => exact hs
  | cons x l ih => exact ih (hf s x hs)

theorem sort_valid (hs : s.Valid) : s.sort.Valid where
  best := fun conn hconn => (List.mem_insertionSort _).mpr (hs.best conn hconn)
  pending := fun conn hconn => (List.mem_insertionSort _).mpr (hs.pending conn hconn)

theorem reset_valid_iff : s.reset.Valid ↔ s.pendingBestConnection = none := by
  constructor
  · intro h
    cases hpending : s.pendingBestConnection with
    | none => rfl
    | some conn => exact absurd (h.pending conn hpending) List.not_mem_nil
  · exact fun hpending => Valid.of_noPending (fun conn hconn => by cases hconn) hpending

end Pointers

section Calls

variable {s : P2PTransportChannel α} {conn : α}

theorem setObject_valid (hs : s.Valid) (conn : α) (c : Connection) : (s.setObject conn c).Valid :=
  ⟨hs.best, hs.pending⟩

theorem onConnectionStateChange_valid (hs : s.Valid) (conn : α) :
    (s.onConnectionStateChange conn).Valid := by
  unfold onConnectionStateChange
  dsimp only
  split
  · split
    · rename_i hpending
      refine Valid.of_noPending (fun other hother => ?_) rfl
      cases hother
      exact hs.pending conn hpending.1.symm
    · exact ⟨hs.best, hs.pending⟩
  · exact ⟨hs.best, hs.pending⟩

theorem changeState_valid (hs : s.Valid) (conn : α) (change : StateChange) :
    (s.changeState conn change).Valid := by
  unfold changeState
  split
  · exact hs
  · exact onConnectionStateChange_valid (setObject_valid hs conn _) conn

theorem updateConnectionStates_valid (hs : s.Valid) (changes : α → List StateChange) :
    (s.updateConnectionStates changes).Valid :=
  Valid.foldl
    (fun _ conn hs =>
      Valid.foldl (fun _ change hs => changeState_valid hs conn change) (changes conn) hs)
    s.connections hs

theorem prune_valid (hs : s.Valid) (conn : α) : (s.prune conn).Valid := by
  unfold prune
  split
  · exact hs
  · exact changeState_valid (setObject_valid hs conn _) conn _

theorem switchToTop_valid (hs : s.Valid) : s.switchToTop.Valid := by
  unfold switchToTop
  dsimp only
  split
  · split
    · exact ⟨fun conn hconn => List.mem_of_head? hconn, hs.pending⟩
    · exact hs
  · exact hs

theorem pruneNetwork_valid (hs : s.Valid) (network : Nat) : (s.pruneNetwork network).Valid := by
  unfold pruneNetwork
  split
  · exact hs
  · split
    · exact hs
    · refine Valid.foldl (fun s conn hs => ?_) s.connections hs
      split
      · exact prune_valid hs conn
      · exact hs

theorem sortConnections_valid (hs : s.Valid) (changes : α → List StateChange) :
    (s.sortConnections changes).Valid := by
  have hupdated := updateConnectionStates_valid hs changes
  have hpruned : ∀ (networks : List Nat) {s : P2PTransportChannel α}, s.Valid →
      (networks.foldl (fun s network => s.pruneNetwork network) s).Valid := fun networks _ hs =>
    Valid.foldl (fun _ network hs => pruneNetwork_valid hs network) networks hs
  unfold sortConnections handleNotWritable
  dsimp only
  have hs' := hpruned
    ({ s.updateConnectionStates changes with sortDirty := false } : P2PTransportChannel α).networks
    (switchToTop_valid (sort_valid
      (s := { s.updateConnectionStates changes with sortDirty := false })
      ⟨hupdated.best, hupdated.pending⟩))
  split
  · exact ⟨hs'.best, hs'.pending⟩
  · split
    · exact ⟨hs'.best, hs'.pending⟩
    · exact ⟨hs'.best, hs'.pending⟩

theorem removeConnection_valid (hs : s.Valid) (conn : α) : (s.removeConnection conn).Valid := by
  have hkeep : ∀ {pointer : Option α}, (∀ other, pointer = some other → other ∈ s.connections) →
      pointer ≠ some conn → ∀ other, pointer = some other → other ∈ s.connections.erase conn :=
    fun hmem hne other hother => by
      refine (List.mem_erase_of_ne fun heq => hne ?_).mpr (hmem other hother)
      rw [hother, heq]
  unfold removeConnection
  dsimp only
  by_cases hpending : s.pendingBestConnection = some conn
  · rw [if_pos hpending]
    split
    · exact Valid.of_noPending (fun other hother => by cases hother) rfl
    · rename_i hbest
      exact Valid.of_noPending (hkeep hs.best hbest) rfl
  · rw [if_neg hpending]
    split
    · exact ⟨fun other hother => (by cases hother), hkeep hs.pending hpending⟩
    · rename_i hbest
      exact ⟨hkeep hs.best hbest, hkeep hs.pending hpending⟩

/-- The erased connection has to be one of the channel. -/
theorem onConnectionDestroyed_valid_iff (hs : s.Valid) :
    Machine.Holding Valid (s.onConnectionDestroyed conn) ↔ conn ∈ s.connections := by
  unfold onConnectionDestroyed
  split
  · rename_i hmem
    exact iff_of_true ⟨_, rfl, removeConnection_valid hs conn⟩ hmem
  · rename_i hmem
    refine iff_of_false (fun h => ?_) hmem
    obtain ⟨_, hnone, -⟩ := h
    cases hnone

theorem onUseCandidate_valid_iff (hs : s.Valid) :
    (s.onUseCandidate conn).Valid ↔ conn ∈ s.connections := by
  unfold onUseCandidate
  split
  · split
    · constructor
      · exact fun h => h.best conn rfl
      · intro hmem
        refine Valid.of_noPending (fun other hother => ?_) rfl
        cases hother
        exact hmem
    · rename_i hbest
      exact iff_of_true hs (hs.best conn (not_not.mp hbest))
  · constructor
    · exact fun h => h.pending conn rfl
    · intro hmem
      refine ⟨hs.best, fun other hother => ?_⟩
      cases hother
      exact hmem

theorem step_valid_iff (hs : s.Valid) (event : Event α) :
    Machine.Holding Valid (s.step event) ↔ s.Keeps event := by
  have hkeeps : ∀ {s' : P2PTransportChannel α}, s'.Valid →
      (Machine.Holding Valid (some s') ↔ True) := fun h =>
    iff_of_true (Machine.holding_some.mpr h) trivial
  cases event with
  | addConnection conn c =>
    refine hkeeps ⟨fun other hother => ?_, fun other hother => ?_⟩
    · exact List.mem_append_left _ (hs.best other hother)
    · exact List.mem_append_left _ (hs.pending other hother)
  | useCandidate conn => exact Machine.holding_some.trans (onUseCandidate_valid_iff hs)
  | changeState conn change => exact hkeeps (changeState_valid hs conn change)
  | stateChange conn => exact hkeeps (onConnectionStateChange_valid hs conn)
  | measured conn priority rtt => exact hkeeps (setObject_valid hs conn _)
  | destroyed conn => exact onConnectionDestroyed_valid_iff hs
  | sort changes => exact hkeeps (sortConnections_valid hs changes)
  | ping changes => exact hkeeps (updateConnectionStates_valid hs changes)
  | setIceRole iceRole => exact hkeeps ⟨hs.best, hs.pending⟩
  | setIceProtocolType protocolType => exact hkeeps ⟨hs.best, hs.pending⟩
  | reset => exact Machine.holding_some.trans reset_valid_iff

end Calls

/-- As the constructor leaves it. -/
def start (object : α → Connection) : P2PTransportChannel α where
  object := object

/-- In every run of a channel, whatever its connections are and do, every call has a result
and both pointers are always among the connections, if and only if each step keeps them. -/
theorem always_valid_iff (object : α → Connection) (events : List (Event α)) :
    Machine.Always (Machine.attempt step) (Machine.Holding Valid) (some (start object)) events ↔
      Machine.Along (Machine.attempt step) (Machine.Running Keeps) (some (start object)) events :=
  Machine.always_attempt_iff (fun _ event hs => step_valid_iff hs event)
    (Valid.of_noPending (fun conn hconn => by cases hconn) rfl)

/-- The signals of a run come from connections of the channel. -/
def FromConnections (s : P2PTransportChannel α) : Event α → Prop
  | .useCandidate conn | .changeState conn _ | .stateChange conn | .destroyed conn =>
    conn ∈ s.connections
  | _ => True

/-- A connection that is not writable yet is nominated, and the channel is reset. -/
theorem not_always_valid_reset : ¬ ∀ (object : Nat → Connection) (events : List (Event Nat)),
    Machine.Along (Machine.attempt step) (Machine.Running FromConnections) (some (start object))
      events →
      Machine.Always (Machine.attempt step) (Machine.Holding Valid) (some (start object))
        events := by
  intro h
  have hvalid := h (fun _ => {})
    [.setIceProtocolType .ICEPROTO_RFC5245, .setIceRole .ICEROLE_CONTROLLED,
      .addConnection 1 {}, .useCandidate 1, .reset]
    (Machine.along_attempt_cons rfl trivial <| Machine.along_attempt_cons rfl trivial <|
      Machine.along_attempt_cons rfl trivial <|
      Machine.along_attempt_cons rfl (List.mem_singleton_self 1) <|
      Machine.along_attempt_cons rfl trivial trivial)
  obtain ⟨_, hreset, hlast⟩ := hvalid.2.2.2.2.2
  cases hreset
  have hmem := hlast.pending 1 rfl
  cases hmem

end P2PTransportChannel

end PerchWebrtc.Ice
