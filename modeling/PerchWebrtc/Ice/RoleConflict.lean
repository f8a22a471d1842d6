import PerchWebrtc.Stun.Message

/-!
# Role conflicts of two ICE sessions

The roles of `BaseSession` (`session.cc`), and how ports notice that both sides
have the same one (`MaybeIceRoleConflict`, `OnConnectionRequestErrorResponse` in
`port.cc`). A transport sets the role of its channels and their ports in one
message of the worker thread, so that a role is that of a transport. What was sent
once may arrive at any time, any number of times, or never.
-/

namespace PerchWebrtc.Ice

open Stun (StunMessage StunAttribute)

def STUN_BINDING_REQUEST : BitVec 16 := 0x0001

def STUN_ERROR_ROLE_CONFLICT : Nat := 487

inductive IceRole where
  | ICEROLE_CONTROLLING
  | ICEROLE_CONTROLLED
  | ICEROLE_UNKNOWN
  deriving DecidableEq

/-! ## Ports -/

structure Port where
  usernameFragment : List Byte
  iceRole : IceRole
  tiebreaker : BitVec 64

inductive PortAction where
  | signalRoleConflict
  | sendBindingErrorResponse (errorCode : Nat)
  deriving DecidableEq

namespace Port

variable (p : Port)

/-- The role and the tiebreaker in a request. -/
def remoteRole (stunMsg : StunMessage) : IceRole × BitVec 64 :=
  match stunMsg.getUInt64 Stun.STUN_ATTR_ICE_CONTROLLED with
  | some tiebreaker => (.ICEROLE_CONTROLLED, tiebreaker)
  | none =>
    match stunMsg.getUInt64 Stun.STUN_ATTR_ICE_CONTROLLING with
    | some tiebreaker => (.ICEROLE_CONTROLLING, tiebreaker)
    | none => (.ICEROLE_UNKNOWN, 0)

/-- A call to oneself. -/
def isLoopback (stunMsg : StunMessage) (remoteUfrag : List Byte) : Bool :=
  decide (p.usernameFragment = remoteUfrag) &&
    decide (stunMsg.getUInt64 Stun.STUN_ATTR_ICE_CONTROLLING = some p.tiebreaker)

/-- Whether to go on with the request, and what is done. -/
def maybeIceRoleConflict (stunMsg : StunMessage) (remoteUfrag : List Byte) :
    Bool × Option PortAction :=
  if p.isLoopback stunMsg remoteUfrag then (true, none)
  else
    let (remoteIceRole, remoteTiebreaker) := remoteRole stunMsg
    match p.iceRole with
    | .ICEROLE_CONTROLLING =>
      if remoteIceRole = .ICEROLE_CONTROLLING then
        if remoteTiebreaker ≥ p.tiebreaker then (true, some .signalRoleConflict)
        else (false, some (.sendBindingErrorResponse STUN_ERROR_ROLE_CONFLICT))
      else (true, none)
    | .ICEROLE_CONTROLLED =>
      if remoteIceRole = .ICEROLE_CONTROLLED then
        if remoteTiebreaker < p.tiebreaker then (true, some .signalRoleConflict)
        else (false, some (.sendBindingErrorResponse STUN_ERROR_ROLE_CONFLICT))
      else (true, none)
    | .ICEROLE_UNKNOWN => (true, none)

/-- What `OnConnectionRequestErrorResponse` makes of an error code. -/
def onConnectionRequestErrorResponse (errorCode : Nat) : Option PortAction :=
  if errorCode = STUN_ERROR_ROLE_CONFLICT then some .signalRoleConflict else none

end Port

/-- What else a connection puts into its requests. -/
structure RequestOptions where
  username : List Byte
  retransmitCount : Option (BitVec 32)
  useCandidate : Bool
  priority : BitVec 32

/-- The attribute for a role. -/
def roleAttributes (iceRole : IceRole) (tiebreaker : BitVec 64) (useCandidate : Bool) :
    List StunAttribute :=
  match iceRole with
  | .ICEROLE_CONTROLLING =>
    ⟨Stun.STUN_ATTR_ICE_CONTROLLING, .uint64 tiebreaker⟩ ::
      if useCandidate then [⟨Stun.STUN_ATTR_USE_CANDIDATE, .byteString []⟩] else []
  | .ICEROLE_CONTROLLED => [⟨Stun.STUN_ATTR_ICE_CONTROLLED, .uint64 tiebreaker⟩]
  | .ICEROLE_UNKNOWN => []

/-- `ConnectionRequest::Prepare`, up to the message integrity. -/
def prepare (iceRole : IceRole) (tiebreaker : BitVec 64) (options : RequestOptions) : StunMessage :=
  ({ cls := .ice, type := STUN_BINDING_REQUEST } : StunMessage).addAttributes
    ([⟨Stun.STUN_ATTR_USERNAME, .byteString options.username⟩] ++
      (options.retransmitCount.toList.map fun count =>
        ⟨Stun.STUN_ATTR_RETRANSMIT_COUNT, .uint32 count⟩) ++
      roleAttributes iceRole tiebreaker options.useCandidate ++
      [⟨Stun.STUN_ATTR_PRIORITY, .uint32 options.priority⟩])

/-! ## Sessions -/

/-- A transport, and whether it was made after its session had switched. -/
structure Transport where
  iceRole : IceRole
  late : Bool := false
  deriving DecidableEq

/-- A session with the conflicts that are posted to it, the transports that it
has still to switch, and how often it switched. -/
structure Session where
  initiator : Bool
  iceTiebreaker : BitVec 64
  roleSwitch : Bool := false
  transports : List Transport := []
  posted : Nat := 0
  pending : List Nat := []
  switches : Nat := 0

namespace Session

variable (s : Session)

/-- The role that new transports get. -/
def initialRole : IceRole := if s.initiator then .ICEROLE_CONTROLLING else .ICEROLE_CONTROLLED

/-- The role that transports get when the role is switched. -/
def switchedRole : IceRole := if s.initiator then .ICEROLE_CONTROLLED else .ICEROLE_CONTROLLING

/-- The role of a session. -/
def role : IceRole := if s.roleSwitch then s.switchedRole else s.initialRole

def createTransport : Session :=
  { s with transports := s.transports ++ [⟨s.initialRole, s.roleSwitch⟩] }

/-- `Transport::OnRoleConflict`, for a signal. -/
def onPortAction : Option PortAction → Session
  | some .signalRoleConflict => { s with posted := s.posted + 1 }
  | _ => s

/-- `OnRoleConflict` for one that is posted, up to the loop over the transports. -/
def onRoleConflict : Session :=
  if s.roleSwitch then { s with posted := s.posted - 1 }
  else
    { s with
      posted := s.posted - 1
      roleSwitch := true
      pending := List.range s.transports.length
      switches := s.switches + 1 }

/-- One turn of the loop, which waits for the worker thread. -/
def setIceRole : Session :=
  match s.pending with
  | [] => s
  | n :: rest =>
    { s with
      transports := s.transports.modify n fun t => { t with iceRole := s.switchedRole }
      pending := rest }

end Session

/-! ## Two sessions -/

inductive Side where
  | left
  | right
  deriving DecidableEq

def Side.other : Side → Side
  | .left => .right
  | .right => .left

/-- Two sessions, the requests that each has sent, and the codes of the error
responses that have been sent to each. -/
structure World where
  session : Side → Session
  requests : Side → List StunMessage
  errors : Side → List Nat

inductive Event where
  | createTransport (i : Side)
  | ping (i : Side) (n : Nat) (options : RequestOptions)
  | request (i : Side) (n : Nat) (usernameFragment remoteUfrag : List Byte) (stunMsg : StunMessage)
  | errorResponse (i : Side) (errorCode : Nat)
  | roleConflict (i : Side)
  | setIceRole (i : Side)

namespace World

variable (w : World)

def setSession (i : Side) (s : Session) : World :=
  { w with session := Function.update w.session i s }

/-- What arrives has been sent; what is handled has been posted. -/
def Enabled : Event → Prop
  | .request i _ _ _ stunMsg => stunMsg ∈ w.requests i.other
  | .errorResponse i errorCode => errorCode ∈ w.errors i
  | .roleConflict i => 0 < (w.session i).posted
  | _ => True

/-- A request from a port of a transport. -/
def ping (i : Side) (n : Nat) (options : RequestOptions) : World :=
  match (w.session i).transports[n]? with
  | none => w
  | some t =>
    { w with
      requests := Function.update w.requests i
        (prepare t.iceRole (w.session i).iceTiebreaker options :: w.requests i) }

/-- The error response that a port sends to the other side. -/
def sendError (i : Side) : Option PortAction → World
  | some (.sendBindingErrorResponse errorCode) =>
    { w with errors := Function.update w.errors i.other (errorCode :: w.errors i.other) }
  | _ => w

/-- A request arrives at a port of a transport. -/
def onRequest (i : Side) (n : Nat) (usernameFragment remoteUfrag : List Byte)
    (stunMsg : StunMessage) : World :=
  match (w.session i).transports[n]? with
  | none => w
  | some t =>
    let port : Port := ⟨usernameFragment, t.iceRole, (w.session i).iceTiebreaker⟩
    let action := (port.maybeIceRoleConflict stunMsg remoteUfrag).2
    (w.setSession i ((w.session i).onPortAction action)).sendError i action

def step : Event → World
  | .createTransport i => w.setSession i (w.session i).createTransport
  | .ping i n options => w.ping i n options
  | .request i n usernameFragment remoteUfrag stunMsg =>
    w.onRequest i n usernameFragment remoteUfrag stunMsg
  | .errorResponse i errorCode =>
    w.setSession i ((w.session i).onPortAction (Port.onConnectionRequestErrorResponse errorCode))
  | .roleConflict i => w.setSession i (w.session i).onRoleConflict
  | .setIceRole i => w.setSession i (w.session i).setIceRole

/-- One event. -/
def Next (w w' : World) : Prop := ∃ event, w.Enabled event ∧ w' = w.step event

/-- Two sessions before anything was sent. -/
def start (initiator : Side → Bool) (tiebreaker : Side → BitVec 64) : World where
  session := fun i => { initiator := initiator i, iceTiebreaker := tiebreaker i }
  requests := fun _ => []
  errors := fun _ => []

end World

end PerchWebrtc.Ice
