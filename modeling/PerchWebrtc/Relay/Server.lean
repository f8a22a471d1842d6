import PerchWebrtc.Stun.Message

/-!
# A relay server

`RelayServer` (`relayserver.cc`): bindings of clients by their names, and one map
of the connections of all bindings by their addresses. A connection is given by a
number, its pointer. The connections of the server are kept in one list, in the
order of their creation, and each names its binding.
-/

namespace PerchWebrtc.Relay

open Net (SocketAddress SocketAddressPair)
open Stun (StunMessage)

def STUN_ALLOCATE_REQUEST : BitVec 16 := 0x0003
def STUN_SEND_REQUEST : BitVec 16 := 0x0004

def TURN_MAGIC_COOKIE_VALUE : List Byte := [0x72, 0xC6, 0x4B, 0xC6]

def MAX_LIFETIME : BitVec 32 := 15 * 60 * 1000

def USERNAME_LENGTH : Nat := 16

structure RelayServerConnection where
  id : Nat
  binding : List Byte
  addrPair : SocketAddressPair
  /-- In its binding's list of internal connections, or else of external ones. -/
  internal : Bool
  locked : Bool := false
  defaultDest : SocketAddress := {}
  deriving DecidableEq

/-- A binding; it has expired once it was handed to the thread to be deleted. -/
structure RelayServerBinding where
  username : List Byte
  lifetime : BitVec 32
  lastUsed : BitVec 32
  expired : Bool := false
  deriving DecidableEq

/-- What the server sends, by the connection, and what it does to the map of
connections: the entry that was replaced, and the one that was erased. -/
inductive ServerAction where
  | added (addrPair : SocketAddressPair) (id : Nat) (replaced : Option Nat)
  | removed (addrPair : SocketAddressPair) (id : Nat) (erased : Option Nat)
  | send (id : Nat) (data : List Byte)
  | dataIndication (id : Nat) (fromAddr : SocketAddress) (data : List Byte)
  | stunError (remoteAddr : SocketAddress) (errorCode : Nat) (errorDesc : String)
  | allocateResponse (id : Nat) (lifetime : BitVec 32)
  | sendResponse (id : Nat)
  deriving DecidableEq

/-- The server, the local address of its first external socket, and a log, the
last action first. -/
structure RelayServer where
  externalSocket : SocketAddress
  bindings : List RelayServerBinding := []
  connections : List (SocketAddressPair × Nat) := []
  conns : List RelayServerConnection := []
  nextId : Nat := 0
  log : List ServerAction := []

namespace RelayServer

variable (s : RelayServer)

def logged (a : ServerAction) : RelayServer := { s with log := a :: s.log }

/-- The entry of the map for a pair of addresses. -/
def lookup (ap : SocketAddressPair) : Option Nat :=
  (s.connections.find? fun e => e.1.equal ap).map Prod.snd

/-- A connection by its pointer. -/
def connection (id : Nat) : Option RelayServerConnection :=
  s.conns.find? fun c => decide (c.id = id)

def findBinding (username : List Byte) : Option RelayServerBinding :=
  s.bindings.find? fun b => decide (b.username = username)

def internalConnections (username : List Byte) : List RelayServerConnection :=
  s.conns.filter fun c => decide (c.binding = username) && c.internal

def externalConnections (username : List Byte) : List RelayServerConnection :=
  s.conns.filter fun c => decide (c.binding = username) && !c.internal

/-! ## Bindings -/

def noteUsed (username : List Byte) (now : BitVec 32) : RelayServer :=
  { s with
    bindings := s.bindings.map fun b =>
      if b.username = username then { b with lastUsed := now } else b }

/-- An internal connection that is locked to an address, or the first one. -/
def getInternalConnection (username : List Byte) (extAddr : SocketAddress) :
    Option RelayServerConnection :=
  ((s.internalConnections username).find? fun c => c.locked && extAddr.equal c.defaultDest).or
    (s.internalConnections username).head?

def getExternalConnection (username : List Byte) (extAddr : SocketAddress) :
    Option RelayServerConnection :=
  (s.externalConnections username).find? fun c => extAddr.equal c.addrPair.source

def hasMagicCookie (bytes : List Byte) : Bool :=
  if bytes.length < 24 + TURN_MAGIC_COOKIE_VALUE.length then false
  else decide ((bytes.drop 24).take TURN_MAGIC_COOKIE_VALUE.length = TURN_MAGIC_COOKIE_VALUE)

/-! ## Connections -/

def updateConnection (id : Nat) (f : RelayServerConnection → RelayServerConnection) : RelayServer :=
  { s with conns := s.conns.map fun c => if c.id = id then f c else c }

def lock (id : Nat) : RelayServer := s.updateConnection id fun c => { c with locked := true }

def addConnection (conn : RelayServerConnection) : RelayServer :=
  let replaced := s.lookup conn.addrPair
  let connections :=
    if replaced.isSome then
      s.connections.map fun e => if e.1.equal conn.addrPair then (e.1, conn.id) else e
    else (conn.addrPair, conn.id) :: s.connections
  ({ s with connections } : RelayServer).logged (.added conn.addrPair conn.id replaced)

/-- Without an entry, what is erased is behind the end of the map. -/
def removeConnection (conn : RelayServerConnection) : RelayServer :=
  ({ s with connections := s.connections.eraseP fun e => e.1.equal conn.addrPair } :
    RelayServer).logged (.removed conn.addrPair conn.id (s.lookup conn.addrPair))

/-- A new connection, which uses its binding, is added to the binding's list and
to the map. -/
def newConnection (now : BitVec 32) (username : List Byte) (ap : SocketAddressPair)
    (internal : Bool) : RelayServer × RelayServerConnection :=
  let conn : RelayServerConnection :=
    { id := s.nextId, binding := username, addrPair := ap, internal }
  let s := s.noteUsed username now
  (({ s with conns := s.conns ++ [conn], nextId := s.nextId + 1 } : RelayServer).addConnection conn,
    conn)

def deleteConnection (conn : RelayServerConnection) : RelayServer :=
  { s.removeConnection conn with conns := s.conns.filter fun c => decide (c.id ≠ conn.id) }

/-- `Send`. -/
def send (now : BitVec 32) (conn : RelayServerConnection) (data : List Byte) : RelayServer :=
  (s.noteUsed conn.binding now).logged (.send conn.id data)

/-- `Send` with the address that the data is from. -/
def sendFrom (now : BitVec 32) (conn : RelayServerConnection) (data : List Byte)
    (fromAddr : SocketAddress) : RelayServer :=
  if conn.locked && fromAddr.equal conn.defaultDest then s.send now conn data
  else
    (s.noteUsed conn.binding now).logged
      (.dataIndication conn.id fromAddr (data.take (data.length % 2 ^ 16)))

def sendStunError (remoteAddr : SocketAddress) (errorCode : Nat) (errorDesc : String) : RelayServer :=
  s.logged (.stunError remoteAddr errorCode errorDesc)

/-! ## Packets -/

/-- `HandleStun` of a packet from an address: the user name and the message. -/
def handleStunPacket (bytes : List Byte) (remoteAddr : SocketAddress) :
    RelayServer × Option (List Byte × StunMessage) :=
  match StunMessage.read .relay bytes with
  | none => (s, none)
  | some reading =>
    match reading.message.getByteString Stun.STUN_ATTR_USERNAME with
    | none => (s.sendStunError remoteAddr 432 "Missing Username", none)
    | some username => (s, some (username, reading.message))

/-- `HandleStunAllocate` for a connection. -/
def handleStunAllocate (now : BitVec 32) (intConn : RelayServerConnection) : RelayServer :=
  let lifetime := ((s.findBinding intConn.binding).map fun b => b.lifetime / 1000).getD 0
  (s.noteUsed intConn.binding now).logged (.allocateResponse intConn.id lifetime)

/-- The lifetime of a binding that an allocate request creates. -/
def lifetimeOf (request : StunMessage) : BitVec 32 :=
  match request.getUInt32 Stun.STUN_ATTR_LIFETIME with
  | none => MAX_LIFETIME
  | some value => if value * 1000 < MAX_LIFETIME then value * 1000 else MAX_LIFETIME

/-- The server with a binding for a user name. -/
def findOrCreateBinding (now : BitVec 32) (username : List Byte) (request : StunMessage) :
    RelayServer :=
  if (s.findBinding username).isSome then s
  else
    { s with
      bindings := s.bindings ++ [{ username, lifetime := lifetimeOf request, lastUsed := now }] }

/-- `HandleStunAllocate` for a pair of addresses without a connection. -/
def handleStunAllocatePacket (now : BitVec 32) (bytes : List Byte) (ap : SocketAddressPair) :
    RelayServer :=
  match s.handleStunPacket bytes ap.source with
  | (s, none) => s
  | (s, some (username, request)) =>
    if request.type ≠ STUN_ALLOCATE_REQUEST then
      s.sendStunError ap.source 600 "Operation Not Supported"
    else
      let r := (s.findOrCreateBinding now username request).newConnection now username ap true
      r.1.handleStunAllocate now r.2

/-- The answer to a request whose options ask for it. -/
def handleSendOptions (now : BitVec 32) (intConn : RelayServerConnection) (extAddr : SocketAddress)
    (request : StunMessage) : RelayServer :=
  match request.getUInt32 Stun.STUN_ATTR_OPTIONS with
  | none => s
  | some options =>
    if options &&& 0x01 ≠ 0 then
      let s := s.updateConnection intConn.id fun c =>
        { c with defaultDest := extAddr, locked := true }
      (s.noteUsed intConn.binding now).logged (.sendResponse intConn.id)
    else s

def handleStunSend (now : BitVec 32) (intConn : RelayServerConnection) (request : StunMessage) :
    RelayServer :=
  match request.getAddress Stun.STUN_ATTR_DESTINATION_ADDRESS with
  | none => s.sendStunError intConn.addrPair.source 400 "Bad Request"
  | some addr =>
    match request.getByteString Stun.STUN_ATTR_DATA with
    | none => s.sendStunError intConn.addrPair.source 400 "Bad Request"
    | some data =>
      let extAddr : SocketAddress := { ip := addr.ip, port := addr.port }
      let r :=
        match s.getExternalConnection intConn.binding extAddr with
        | some extConn => (s, extConn)
        | none => s.newConnection now intConn.binding ⟨extAddr, s.externalSocket⟩ false
      let s := if r.2.locked then r.1.send now r.2 data else r.1
      s.handleSendOptions now intConn extAddr request

/-- `HandleStun` for a connection. -/
def handleStun (now : BitVec 32) (intConn : RelayServerConnection) (bytes : List Byte) :
    RelayServer :=
  match s.handleStunPacket bytes intConn.addrPair.source with
  | (s, none) => s
  | (s, some (username, request)) =>
    if username ≠ intConn.binding then
      s.sendStunError intConn.addrPair.source 430 "Stale Credentials"
    else if request.type = STUN_SEND_REQUEST then s.handleStunSend now intConn request
    else if request.type = STUN_ALLOCATE_REQUEST then s.handleStunAllocate now intConn
    else s.sendStunError intConn.addrPair.source 600 "Operation Not Supported"

/-- The pointers of the map lead to connections. -/
def onInternalPacket (now : BitVec 32) (bytes : List Byte) (ap : SocketAddressPair) : RelayServer :=
  match s.lookup ap with
  | none => s.handleStunAllocatePacket now bytes ap
  | some id =>
    match s.connection id with
    | none => s
    | some intConn =>
      if hasMagicCookie bytes then s.handleStun now intConn bytes
      else if !intConn.locked then s
      else
        match s.getExternalConnection intConn.binding intConn.defaultDest with
        | none => s
        | some extConn => if extConn.locked then s.send now extConn bytes else s

/-- The first packet from an external address, to the binding that it names. -/
def handleFirstPacket (now : BitVec 32) (bytes : List Byte) (ap : SocketAddressPair) :
    RelayServer :=
  match StunMessage.read .relay bytes with
  | none => s
  | some reading =>
    match reading.message.getByteString Stun.STUN_ATTR_USERNAME with
    | none => s
    | some attr =>
      match s.findBinding (attr.take USERNAME_LENGTH) with
      | none => s
      | some binding =>
        let r := s.newConnection now binding.username ap false
        let s := r.1.lock r.2.id
        match s.getInternalConnection binding.username ap.source with
        | none => s
        | some intConn => s.sendFrom now intConn bytes ap.source

/-- A binding has an internal connection. -/
def onExternalPacket (now : BitVec 32) (bytes : List Byte) (ap : SocketAddressPair) : RelayServer :=
  match s.lookup ap with
  | none => s.handleFirstPacket now bytes ap
  | some id =>
    match s.connection id with
    | none => s
    | some extConn =>
      match s.getInternalConnection extConn.binding extConn.addrPair.source with
      | none => s
      | some intConn => (s.sendFrom now intConn bytes extConn.addrPair.source).lock extConn.id

/-! ## Expiry -/

/-- `OnMessage` of a binding, at its lifetime timer. -/
def onLifetimeTimer (now : BitVec 32) (username : List Byte) : RelayServer :=
  { s with
    bindings := s.bindings.map fun b =>
      if b.username = username ∧ now ≥ b.lastUsed + b.lifetime then { b with expired := true }
      else b }

def removeBinding (username : List Byte) : RelayServer :=
  { s with bindings := s.bindings.eraseP fun b => decide (b.username = username) }

/-- The destructor of a binding. -/
def deleteBinding (username : List Byte) : RelayServer :=
  ((s.internalConnections username ++ s.externalConnections username).foldl deleteConnection
    s).removeBinding username

end RelayServer

/-! ## Runs -/

inductive Event where
  | internalPacket (now : BitVec 32) (bytes : List Byte) (ap : SocketAddressPair)
  | externalPacket (now : BitVec 32) (bytes : List Byte) (ap : SocketAddressPair)
  | lifetimeTimer (now : BitVec 32) (username : List Byte)
  | dispose (username : List Byte)

namespace RelayServer

/-- A binding's timer runs until it has expired, and then it is deleted. -/
def Enabled (s : RelayServer) : Event → Prop
  | .internalPacket .. => True
  | .externalPacket .. => True
  | .lifetimeTimer _ username => ∃ b ∈ s.bindings, b.username = username ∧ b.expired = false
  | .dispose username => ∃ b ∈ s.bindings, b.username = username ∧ b.expired = true

def step (s : RelayServer) : Event → RelayServer
  | .internalPacket now bytes ap => s.onInternalPacket now bytes ap
  | .externalPacket now bytes ap => s.onExternalPacket now bytes ap
  | .lifetimeTimer now username => s.onLifetimeTimer now username
  | .dispose username => s.deleteBinding username

end RelayServer

/-- The runs of a server with an external socket, with the events and the states
before them, the last event first. -/
inductive Run (externalSocket : SocketAddress) : List (RelayServer × Event) → RelayServer → Prop
  | start : Run externalSocket [] { externalSocket }
  | step {trace : List (RelayServer × Event)} {s : RelayServer} (h : Run externalSocket trace s)
    (event : Event) (henabled : s.Enabled event) :
    Run externalSocket ((s, event) :: trace) (s.step event)

end PerchWebrtc.Relay
