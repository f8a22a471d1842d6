import PerchWebrtc.Framework.Machine
import PerchWebrtc.Turn.Permissions

/-!
# The client of a TURN server

`TurnPort` (`turnport.cc`) sends requests and handles the responses by the transaction that
they answer. A handler that uses an attribute which the response lacks, without a check,
fails in the model.

* `Malformed`: the responses that lack an attribute which their handler needs;
* `robust_iff`: a response is handled exactly if it has an error code where its handler
  needs one;
* `along_robust_iff`: and so is every response of every run.
-/

namespace PerchWebrtc.Turn

open Net (SocketAddress)
open Stun (StunMessage)

def STUN_ALLOCATE_REQUEST : BitVec 16 := 0x0003
def TURN_REFRESH_REQUEST : BitVec 16 := 0x0004

def STUN_ERROR_UNAUTHORIZED : ℕ := 401
def STUN_ERROR_STALE_NONCE : ℕ := 438

def TURN_CHANNEL_NUMBER_START : ℕ := 0x4000
def TURN_PERMISSION_TIMEOUT : ℤ := 5 * 60 * 1000

/-- `GetErrorCode`, and the `code` of the attribute. -/
def getErrorCode (response : StunMessage) : Option ℕ :=
  (response.getAttribute Stun.STUN_ATTR_ERROR_CODE).bind fun attr =>
    match attr.value with
    | .errorCode eclass number _ => some (eclass.toNat * 100 + number.toNat)
    | _ => none

/-- `GetStunSuccessResponseType` of a request type. -/
def getStunSuccessResponseType (reqType : BitVec 16) : BitVec 16 := reqType ||| 0x100

def getStunErrorResponseType (reqType : BitVec 16) : BitVec 16 := reqType ||| 0x110

/-! ## Requests and entries -/

inductive BindState where
  | unbound
  | binding
  | bound
  deriving DecidableEq

structure TurnEntry where
  channelId : ℕ
  extAddr : SocketAddress
  state : BindState := .unbound
  deriving DecidableEq

/-- The requests of a port. Those of an entry hold its channel and its address, until the entry
is destroyed. -/
inductive RequestKind where
  | allocate
  | refresh
  | createPermission (entry : Option (ℕ × SocketAddress))
  | channelBind (entry : Option (ℕ × SocketAddress))
  deriving DecidableEq

namespace RequestKind

def type : RequestKind → BitVec 16
  | allocate => STUN_ALLOCATE_REQUEST
  | refresh => TURN_REFRESH_REQUEST
  | createPermission _ => TURN_CREATE_PERMISSION_REQUEST
  | channelBind _ => TURN_CHANNEL_BIND_REQUEST

/-- `OnEntryDestroyed`. -/
def entryDestroyed (channelId : ℕ) : RequestKind → RequestKind
  | createPermission entry => createPermission (entry.filter (·.1 ≠ channelId))
  | channelBind entry => channelBind (entry.filter (·.1 ≠ channelId))
  | kind => kind

end RequestKind

structure StunRequest where
  id : List Byte
  kind : RequestKind
  delay : ℤ
  deriving DecidableEq

/-! ## The port -/

/-- What a port takes from elsewhere: the transaction ids that are drawn, and the hash of its
credentials with a realm. -/
structure PortEnv where
  createRandomString : ℕ → List Byte
  computeStunCredentialHash : List Byte → List Byte

/-- The state of a port, with the candidates, errors and permission results that it has
signalled, the number of ids that it has drawn and the warnings that it has logged. -/
structure TurnPort where
  realm : List Byte := []
  nonce : List Byte := []
  hash : List Byte := []
  relatedAddress : Option SocketAddress := none
  connected : Bool := false
  requests : List StunRequest := []
  entries : List TurnEntry := []
  nextChannelNumber : ℕ := TURN_CHANNEL_NUMBER_START
  candidates : List SocketAddress := []
  portErrors : ℕ := 0
  permissionResults : List (SocketAddress × ℕ) := []
  drawn : ℕ := 0
  log : List String := []

namespace TurnPort

variable (env : PortEnv) (p : TurnPort)

def warn (message : String) : TurnPort := { p with log := p.log ++ [message] }

/-- `SendRequest`: the requests are a map by their transaction ids. -/
def sendRequest (kind : RequestKind) (delay : ℤ) : TurnPort :=
  let id := env.createRandomString p.drawn
  { p with
    requests := p.requests.filter (·.id ≠ id) ++ [⟨id, kind, delay⟩]
    drawn := p.drawn + 1 }

def setRealm (realm : List Byte) : TurnPort :=
  if realm ≠ p.realm then { p with realm, hash := env.computeStunCredentialHash realm } else p

def onAllocateError : TurnPort := { p with portErrors := p.portErrors + 1 }

def onStunAddress (address : SocketAddress) : TurnPort := { p with relatedAddress := some address }

def onAllocateSuccess (address : SocketAddress) : TurnPort :=
  { p with connected := true, candidates := p.candidates ++ [address] }

/-- One minute before the lifetime ends, as signed 32-bit numbers. -/
def scheduleRefresh (lifetime : BitVec 32) : TurnPort :=
  if lifetime.toInt < 2 * 60 then
    p.warn ("Received response with lifetime that was too short, lifetime=" ++
      toString lifetime.toInt)
  else p.sendRequest env .refresh ((lifetime - 60) * 1000).toInt

/-- `UpdateNonce`. -/
def updateNonce (response : StunMessage) : Bool × TurnPort :=
  match response.getByteString Stun.STUN_ATTR_REALM with
  | none => (false, p.warn "Missing STUN_ATTR_REALM attribute in stale nonce error response.")
  | some realm =>
    let p := p.setRealm env realm
    match response.getByteString Stun.STUN_ATTR_NONCE with
    | none => (false, p.warn "Missing STUN_ATTR_NONCE attribute in stale nonce error response.")
    | some nonce => (true, { p with nonce })

/-! ## Allocate -/

def allocateOnResponse (response : StunMessage) : TurnPort :=
  match response.getAddress Stun.STUN_ATTR_XOR_MAPPED_ADDRESS with
  | none =>
    p.warn "Missing STUN_ATTR_XOR_MAPPED_ADDRESS attribute in allocate success response"
  | some mapped =>
    let p := p.onStunAddress mapped
    match response.getAddress Stun.STUN_ATTR_XOR_RELAYED_ADDRESS with
    | none =>
      p.warn "Missing STUN_ATTR_XOR_RELAYED_ADDRESS attribute in allocate success response"
    | some relayed =>
      match response.getUInt32 Stun.STUN_ATTR_TURN_LIFETIME with
      | none => p.warn "Missing STUN_ATTR_TURN_LIFETIME attribute in allocate success response"
      | some lifetime => (p.onAllocateSuccess relayed).scheduleRefresh env lifetime

def onAuthChallenge (response : StunMessage) (code : ℕ) : TurnPort :=
  if code = STUN_ERROR_UNAUTHORIZED ∧ p.hash ≠ [] then
    (p.warn "Failed to authenticate with the server after challenge.").onAllocateError
  else
    match response.getByteString Stun.STUN_ATTR_REALM with
    | none => p.warn "Missing STUN_ATTR_REALM attribute in allocate unauthorized response."
    | some realm =>
      let p := p.setRealm env realm
      match response.getByteString Stun.STUN_ATTR_NONCE with
      | none => p.warn "Missing STUN_ATTR_NONCE attribute in allocate unauthorized response."
      | some nonce => { p with nonce }.sendRequest env .allocate 0

def allocateOnErrorResponse (response : StunMessage) : Option TurnPort := do
  let code ← getErrorCode response
  if code = STUN_ERROR_UNAUTHORIZED then some (p.onAuthChallenge env response code)
  else some (p.warn ("Allocate response error, code=" ++ toString code)).onAllocateError

def allocateOnTimeout : TurnPort := (p.warn "Allocate request timeout").onAllocateError

/-! ## Refresh -/

def refreshOnResponse (response : StunMessage) : TurnPort :=
  match response.getUInt32 Stun.STUN_ATTR_TURN_LIFETIME with
  | none => p.warn "Missing STUN_ATTR_TURN_LIFETIME attribute in refresh success response."
  | some lifetime => p.scheduleRefresh env lifetime

/-- After a stale nonce, the request is sent again with the new one. -/
def onError (response : StunMessage) (code : ℕ) (message : String) (kind : RequestKind)
    (other : TurnPort → TurnPort) : TurnPort :=
  let p := p.warn (message ++ toString code)
  if code = STUN_ERROR_STALE_NONCE then
    let (updated, p) := p.updateNonce env response
    if updated then p.sendRequest env kind 0 else p
  else other p

def refreshOnErrorResponse (response : StunMessage) : Option TurnPort := do
  let code ← getErrorCode response
  some (p.onError env response code "Refresh response error, code=" .refresh id)

/-! ## Permissions and channels -/

def createPermissionOnResponse (entry : Option (ℕ × SocketAddress)) : TurnPort :=
  match entry with
  | some (_, extAddr) => { p with permissionResults := p.permissionResults ++ [(extAddr, 0)] }
  | none => p

def createPermissionOnErrorResponse (entry : Option (ℕ × SocketAddress)) (response : StunMessage) :
    Option TurnPort :=
  match entry with
  | some (channelId, extAddr) => do
    let code ← getErrorCode response
    some (p.onError env response code "Create permission failed, code="
      (.createPermission (some (channelId, extAddr)))
      fun p => { p with permissionResults := p.permissionResults ++ [(extAddr, code)] })
  | none => some p

def setState (channelId : ℕ) (state : BindState) : TurnPort :=
  { p with entries := p.entries.map fun e => if e.channelId = channelId then { e with state } else e }

def channelBindOnResponse (entry : Option (ℕ × SocketAddress)) : TurnPort :=
  match entry with
  | some (channelId, extAddr) =>
    (p.setState channelId .bound).sendRequest env (.channelBind (some (channelId, extAddr)))
      (TURN_PERMISSION_TIMEOUT - 60 * 1000)
  | none => p

def channelBindOnErrorResponse (entry : Option (ℕ × SocketAddress)) (response : StunMessage) :
    Option TurnPort :=
  match entry with
  | some (channelId, extAddr) => do
    let code ← getErrorCode response
    some (p.onError env response code "Channel bind failed, code="
      (.channelBind (some (channelId, extAddr))) id)
  | none => some p

/-! ## Responses -/

def onResponse (response : StunMessage) : RequestKind → TurnPort
  | .allocate => p.allocateOnResponse env response
  | .refresh => p.refreshOnResponse env response
  | .createPermission entry => p.createPermissionOnResponse entry
  | .channelBind entry => p.channelBindOnResponse env entry

def onErrorResponse (response : StunMessage) : RequestKind → Option TurnPort
  | .allocate => p.allocateOnErrorResponse env response
  | .refresh => p.refreshOnErrorResponse env response
  | .createPermission entry => p.createPermissionOnErrorResponse env entry response
  | .channelBind entry => p.channelBindOnErrorResponse env entry response

/-- `requests_.find`. -/
def findRequest (id : List Byte) : Option StunRequest := p.requests.find? (·.id = id)

def removeRequest (id : List Byte) : TurnPort :=
  { p with requests := p.requests.filter (·.id ≠ id) }

/-- `CheckResponse`: the request of the transaction handles the response, and is deleted. -/
def checkResponse (msg : StunMessage) : Option TurnPort :=
  match p.findRequest msg.transactionId with
  | none => some p
  | some request =>
    if msg.type = getStunSuccessResponseType request.kind.type then
      some ((p.onResponse env msg request.kind).removeRequest request.id)
    else if msg.type = getStunErrorResponseType request.kind.type then do
      let p ← p.onErrorResponse env msg request.kind
      some (p.removeRequest request.id)
    else some (p.warn "Received response with wrong type")

/-! ## The other events -/

def createEntry (addr : SocketAddress) : TurnPort :=
  let id := p.nextChannelNumber
  let entry : TurnEntry := { channelId := id, extAddr := addr }
  let p := { p with entries := p.entries ++ [entry], nextChannelNumber := id + 1 }
  p.sendRequest env (.createPermission (some (id, addr))) 0

/-- `DestroyEntry`: the requests of the entry forget it. -/
def destroyEntry (addr : SocketAddress) : TurnPort :=
  match p.entries.find? (·.extAddr.equal addr) with
  | none => p
  | some entry =>
    { p with
      entries := p.entries.filter (·.channelId ≠ entry.channelId)
      requests := p.requests.map fun r =>
        { r with kind := r.kind.entryDestroyed entry.channelId } }

/-- What `SendTo` does beside the packet: the first payload binds a channel. -/
def sendTo (addr : SocketAddress) (payload : Bool) : TurnPort :=
  match p.entries.find? (·.extAddr.equal addr) with
  | none => p
  | some entry =>
    if p.connected ∧ entry.state = .unbound ∧ payload then
      (p.sendRequest env (.channelBind (some (entry.channelId, entry.extAddr))) 0).setState
        entry.channelId .binding
    else p

/-- A request is given up. -/
def onTimeout (id : List Byte) : TurnPort :=
  match p.findRequest id with
  | none => p
  | some request =>
    match request.kind with
    | .allocate => p.allocateOnTimeout.removeRequest id
    | .refresh => p.removeRequest id
    | .createPermission _ => (p.warn "Create permission timeout").removeRequest id
    | .channelBind _ => (p.warn "Channel bind timeout").removeRequest id

end TurnPort

inductive PortEvent where
  | connect
  | response (msg : StunMessage)
  | createConnection (addr : SocketAddress)
  | destroyConnection (addr : SocketAddress)
  | sendTo (addr : SocketAddress) (payload : Bool)
  | timeout (id : List Byte)

/-- A step fails if a handler uses an attribute that is missing. -/
def TurnPort.step (env : PortEnv) (p : TurnPort) : PortEvent → Option TurnPort
  | .connect => some (p.sendRequest env .allocate 0)
  | .response msg => p.checkResponse env msg
  | .createConnection addr => some (p.createEntry env addr)
  | .destroyConnection addr => some (p.destroyEntry addr)
  | .sendTo addr payload => some (p.sendTo env addr payload)
  | .timeout id => some (p.onTimeout id)

/-! ## Responses that lack attributes -/

/-- The handler of an error response looks at its code. -/
def RequestKind.live : RequestKind → Bool
  | allocate => true
  | refresh => true
  | createPermission entry => entry.isSome
  | channelBind entry => entry.isSome

/-- The error asks for another realm and nonce. -/
def Challenges (p : TurnPort) (kind : RequestKind) (code : ℕ) : Prop :=
  if kind = .allocate then code = STUN_ERROR_UNAUTHORIZED ∧ p.hash = []
  else code = STUN_ERROR_STALE_NONCE

/-- A response to a request of the port that lacks an attribute which it must have. -/
def Malformed (p : TurnPort) (kind : RequestKind) (msg : StunMessage) : Prop :=
  (msg.type = getStunSuccessResponseType kind.type ∧
    (kind = .allocate ∧ (msg.getAddress Stun.STUN_ATTR_XOR_MAPPED_ADDRESS = none ∨
      msg.getAddress Stun.STUN_ATTR_XOR_RELAYED_ADDRESS = none) ∨
    (kind = .allocate ∨ kind = .refresh) ∧ msg.getUInt32 Stun.STUN_ATTR_TURN_LIFETIME = none)) ∨
  msg.type = getStunErrorResponseType kind.type ∧ kind.live = true ∧
    ∀ code, getErrorCode msg = some code → Challenges p kind code ∧
      (msg.getByteString Stun.STUN_ATTR_REALM = none ∨
        msg.getByteString Stun.STUN_ATTR_NONCE = none)

/-- A warning is logged, and nothing is sent or gained. -/
structure EndsInError (p p' : TurnPort) : Prop where
  warned : p.log.length < p'.log.length
  requests : p'.requests ⊆ p.requests
  connected : p'.connected = p.connected
  candidates : p'.candidates = p.candidates
  entries : p'.entries = p.entries
  permissionResults : p'.permissionResults = p.permissionResults

/-- The step does not use an attribute that is missing, and a malformed response ends in an
error. -/
def Robust (env : PortEnv) (p : TurnPort) (e : PortEvent) : Prop :=
  ∃ p', p.step env e = some p' ∧
    ∀ msg request, e = .response msg → p.findRequest msg.transactionId = some request →
      Malformed p request.kind msg → EndsInError p p'

/-- An error response has an error code if its handler looks at it. -/
def HasErrorCode (p : TurnPort) (e : PortEvent) : Prop :=
  ∀ msg request, e = .response msg → p.findRequest msg.transactionId = some request →
    msg.type = getStunErrorResponseType request.kind.type → request.kind.live = true →
      ∃ code, getErrorCode msg = some code

namespace TurnPort

variable {env : PortEnv} {p q : TurnPort}

theorem endsInError_warn (message : String) : EndsInError p (p.warn message) where
  warned := by simp [warn]
  requests := List.Subset.refl _
  connected := rfl
  candidates := rfl
  entries := rfl
  permissionResults := rfl

theorem endsInError_trans {r : TurnPort} (h : EndsInError p q) (h' : EndsInError q r) :
    EndsInError p r where
  warned := h.warned.trans h'.warned
  requests := fun _ hr => h.requests (h'.requests hr)
  connected := h'.connected.trans h.connected
  candidates := h'.candidates.trans h.candidates
  entries := h'.entries.trans h.entries
  permissionResults := h'.permissionResults.trans h.permissionResults

theorem endsInError_removeRequest (h : EndsInError p q) (id : List Byte) :
    EndsInError p (q.removeRequest id) :=
  { h with requests := fun _ hr => h.requests (List.mem_filter.mp hr).1 }

theorem endsInError_onStunAddress (address : SocketAddress) (message : String) :
    EndsInError p ((p.onStunAddress address).warn message) :=
  { endsInError_warn message with }

theorem endsInError_setRealm (realm : List Byte) (message : String) :
    EndsInError p ((p.setRealm env realm).warn message) := by
  rw [setRealm]
  split
  · exact { endsInError_warn message with }
  · exact endsInError_warn message

/-! ## What the handlers do without an attribute -/

section Handlers

variable {msg : StunMessage}

theorem allocateOnResponse_malformed
    (h : (msg.getAddress Stun.STUN_ATTR_XOR_MAPPED_ADDRESS = none ∨
      msg.getAddress Stun.STUN_ATTR_XOR_RELAYED_ADDRESS = none) ∨
      msg.getUInt32 Stun.STUN_ATTR_TURN_LIFETIME = none) :
    EndsInError p (p.allocateOnResponse env msg) := by
  rw [allocateOnResponse]
  cases hmapped : msg.getAddress Stun.STUN_ATTR_XOR_MAPPED_ADDRESS with
  | none => exact endsInError_warn _
  | some mapped =>
    simp only []
    cases hrelayed : msg.getAddress Stun.STUN_ATTR_XOR_RELAYED_ADDRESS with
    | none => exact endsInError_onStunAddress mapped _
    | some relayed =>
      have hlifetime : msg.getUInt32 Stun.STUN_ATTR_TURN_LIFETIME = none := by
        simpa [hmapped, hrelayed] using h
      rw [hlifetime]
      exact endsInError_onStunAddress mapped _

theorem refreshOnResponse_malformed (h : msg.getUInt32 Stun.STUN_ATTR_TURN_LIFETIME = none) :
    EndsInError p (p.refreshOnResponse env msg) := by
  rw [refreshOnResponse, h]
  exact endsInError_warn _

variable (hmissing : msg.getByteString Stun.STUN_ATTR_REALM = none ∨
  msg.getByteString Stun.STUN_ATTR_NONCE = none)
include hmissing

theorem onAuthChallenge_malformed (hhash : p.hash = []) (code : ℕ) :
    EndsInError p (p.onAuthChallenge env msg code) := by
  rw [onAuthChallenge, if_neg (by simp [hhash])]
  cases hrealm : msg.getByteString Stun.STUN_ATTR_REALM with
  | none => exact endsInError_warn _
  | some realm =>
    have hnonce : msg.getByteString Stun.STUN_ATTR_NONCE = none := by simpa [hrealm] using hmissing
    simp only [hnonce]
    exact endsInError_setRealm realm _

theorem updateNonce_malformed :
    (p.updateNonce env msg).1 = false ∧ EndsInError p (p.updateNonce env msg).2 := by
  rw [updateNonce]
  cases hrealm : msg.getByteString Stun.STUN_ATTR_REALM with
  | none => exact ⟨rfl, endsInError_warn _⟩
  | some realm =>
    have hnonce : msg.getByteString Stun.STUN_ATTR_NONCE = none := by simpa [hrealm] using hmissing
    simp only [hnonce, true_and]
    exact endsInError_setRealm realm _

theorem onError_malformed (message : String) (kind : RequestKind) (other : TurnPort → TurnPort) :
    EndsInError p (p.onError env msg STUN_ERROR_STALE_NONCE message kind other) := by
  obtain ⟨hupdated, hend⟩ := @updateNonce_malformed env
    (p.warn (message ++ toString STUN_ERROR_STALE_NONCE)) msg hmissing
  simp only [onError, if_true, hupdated, Bool.false_eq_true, if_false]
  exact endsInError_trans (endsInError_warn _) hend

/-- A challenge without a realm or a nonce ends in an error. -/
theorem onErrorResponse_malformed {kind : RequestKind} (hlive : kind.live = true) {code : ℕ}
    (hcode : getErrorCode msg = some code) (hchallenges : Challenges p kind code) :
    ∃ p', p.onErrorResponse env msg kind = some p' ∧ EndsInError p p' := by
  cases kind with
  | allocate =>
    obtain ⟨rfl, hhash⟩ := hchallenges
    rw [onErrorResponse, allocateOnErrorResponse, hcode]
    exact ⟨_, rfl, onAuthChallenge_malformed hmissing hhash _⟩
  | refresh =>
    obtain rfl : code = STUN_ERROR_STALE_NONCE := hchallenges
    rw [onErrorResponse, refreshOnErrorResponse, hcode]
    exact ⟨_, rfl, onError_malformed hmissing _ _ _⟩
  | createPermission entry =>
    obtain ⟨⟨channelId, extAddr⟩, rfl⟩ := Option.isSome_iff_exists.mp hlive
    obtain rfl : code = STUN_ERROR_STALE_NONCE := hchallenges
    rw [onErrorResponse, createPermissionOnErrorResponse, hcode]
    exact ⟨_, rfl, onError_malformed hmissing _ _ _⟩
  | channelBind entry =>
    obtain ⟨⟨channelId, extAddr⟩, rfl⟩ := Option.isSome_iff_exists.mp hlive
    obtain rfl : code = STUN_ERROR_STALE_NONCE := hchallenges
    rw [onErrorResponse, channelBindOnErrorResponse, hcode]
    exact ⟨_, rfl, onError_malformed hmissing _ _ _⟩

end Handlers

/-- An error response is not handled if its handler looks at a code that is missing. -/
theorem onErrorResponse_eq_none_iff (msg : StunMessage) (kind : RequestKind) :
    p.onErrorResponse env msg kind = none ↔ kind.live = true ∧ getErrorCode msg = none := by
  cases kind with
  | allocate =>
    rw [onErrorResponse, allocateOnErrorResponse]
    cases getErrorCode msg with
    | none => simp [RequestKind.live]
    | some code =>
      simp only [Option.bind_eq_bind, Option.bind_some, reduceCtorEq, and_false, iff_false]
      split
      · exact Option.some_ne_none _
      · exact Option.some_ne_none _
  | refresh =>
    rw [onErrorResponse, refreshOnErrorResponse]
    cases getErrorCode msg with
    | none => simp [RequestKind.live]
    | some code => simp
  | createPermission entry =>
    cases entry with
    | none => simp [onErrorResponse, createPermissionOnErrorResponse, RequestKind.live]
    | some entry =>
      rw [onErrorResponse, createPermissionOnErrorResponse]
      cases getErrorCode msg <;> simp [RequestKind.live]
  | channelBind entry =>
    cases entry with
    | none => simp [onErrorResponse, channelBindOnErrorResponse, RequestKind.live]
    | some entry =>
      rw [onErrorResponse, channelBindOnErrorResponse]
      cases getErrorCode msg <;> simp [RequestKind.live]

theorem successType_ne_errorType (kind : RequestKind) :
    getStunSuccessResponseType kind.type ≠ getStunErrorResponseType kind.type := by
  cases kind with
  | allocate => decide
  | refresh => decide
  | createPermission entry =>
    show getStunSuccessResponseType TURN_CREATE_PERMISSION_REQUEST ≠
      getStunErrorResponseType TURN_CREATE_PERMISSION_REQUEST
    decide
  | channelBind entry =>
    show getStunSuccessResponseType TURN_CHANNEL_BIND_REQUEST ≠
      getStunErrorResponseType TURN_CHANNEL_BIND_REQUEST
    decide

/-- A success response without its attributes ends in an error. -/
theorem onResponse_malformed {msg : StunMessage} {kind : RequestKind}
    (h : kind = .allocate ∧ (msg.getAddress Stun.STUN_ATTR_XOR_MAPPED_ADDRESS = none ∨
        msg.getAddress Stun.STUN_ATTR_XOR_RELAYED_ADDRESS = none) ∨
      (kind = .allocate ∨ kind = .refresh) ∧
        msg.getUInt32 Stun.STUN_ATTR_TURN_LIFETIME = none) :
    EndsInError p (p.onResponse env msg kind) := by
  obtain ⟨rfl, h⟩ | ⟨rfl | rfl, h⟩ := h
  · exact allocateOnResponse_malformed (.inl h)
  · exact allocateOnResponse_malformed (.inr h)
  · exact refreshOnResponse_malformed h

end TurnPort

/-! ## Every response, and every run -/

open TurnPort

section

variable {env : PortEnv} {p : TurnPort}

/-- A response to a request of the port, of its success type. -/
theorem robust_success {msg : StunMessage} {request : StunRequest}
    (hfind : p.findRequest msg.transactionId = some request)
    (htype : msg.type = getStunSuccessResponseType request.kind.type) :
    Robust env p (.response msg) := by
  refine ⟨(p.onResponse env msg request.kind).removeRequest request.id, ?_, ?_⟩
  · rw [TurnPort.step, checkResponse, hfind]
    exact if_pos htype
  · rintro _ request' ⟨⟩ hfind' hmalformed
    obtain rfl := Option.some.inj (hfind.symm.trans hfind')
    obtain ⟨-, h⟩ | ⟨herror, -⟩ := hmalformed
    · exact endsInError_removeRequest (onResponse_malformed h) _
    · exact absurd (htype.symm.trans herror) (successType_ne_errorType request.kind)

/-- A response of its error type. -/
theorem robust_error {msg : StunMessage} {request : StunRequest}
    (hfind : p.findRequest msg.transactionId = some request)
    (htype : msg.type = getStunErrorResponseType request.kind.type)
    (hcode : request.kind.live = true → ∃ code, getErrorCode msg = some code) :
    Robust env p (.response msg) := by
  have hne := successType_ne_errorType request.kind
  obtain ⟨p', hp'⟩ : ∃ p', p.onErrorResponse env msg request.kind = some p' := by
    rw [← Option.ne_none_iff_exists', Ne, onErrorResponse_eq_none_iff]
    rintro ⟨hlive, hnone⟩
    obtain ⟨code, hsome⟩ := hcode hlive
    exact Option.some_ne_none code (hsome.symm.trans hnone)
  refine ⟨p'.removeRequest request.id, ?_, ?_⟩
  · rw [TurnPort.step, checkResponse, hfind]
    simp only [htype, if_neg hne.symm, if_true, hp']
    rfl
  · rintro _ request' ⟨⟩ hfind' hmalformed
    obtain rfl := Option.some.inj (hfind.symm.trans hfind')
    obtain ⟨hsuccess, -⟩ | ⟨-, hlive, h⟩ := hmalformed
    · exact absurd (hsuccess.symm.trans htype) hne
    · obtain ⟨code, hcode⟩ := hcode hlive
      obtain ⟨hchallenges, hmissing⟩ := h code hcode
      obtain ⟨p'', hp'', hend⟩ : ∃ p'', p.onErrorResponse env msg request.kind = some p'' ∧
          EndsInError p p'' := onErrorResponse_malformed hmissing hlive hcode hchallenges
      obtain rfl := Option.some.inj (hp'.symm.trans hp'')
      exact endsInError_removeRequest hend _

end

theorem robust_iff (env : PortEnv) (p : TurnPort) (e : PortEvent) :
    Robust env p e ↔ HasErrorCode p e := by
  constructor
  · rintro ⟨p', hstep, -⟩ msg request rfl hfind herror hlive
    rw [← Option.ne_none_iff_exists']
    intro hcode
    have hfails : p.onErrorResponse env msg request.kind = none :=
      (onErrorResponse_eq_none_iff msg request.kind).mpr ⟨hlive, hcode⟩
    have hne := (successType_ne_errorType request.kind).symm
    rw [TurnPort.step, checkResponse, hfind] at hstep
    simp only [herror, if_neg hne, if_true, hfails] at hstep
    cases hstep
  · intro hcode
    cases e with
    | response msg =>
      cases hfind : p.findRequest msg.transactionId with
      | none =>
        refine ⟨p, by rw [TurnPort.step, checkResponse, hfind], ?_⟩
        rintro _ request ⟨⟩ hsome
        cases hfind.symm.trans hsome
      | some request =>
        by_cases hsuccess : msg.type = getStunSuccessResponseType request.kind.type
        · exact robust_success hfind hsuccess
        by_cases herror : msg.type = getStunErrorResponseType request.kind.type
        · exact robust_error hfind herror (hcode msg request rfl hfind herror)
        · refine ⟨p.warn "Received response with wrong type", ?_, ?_⟩
          · rw [TurnPort.step, checkResponse, hfind]
            simp only [if_neg hsuccess, if_neg herror]
          · rintro _ request' ⟨⟩ hfind' hmalformed
            obtain rfl := Option.some.inj (hfind.symm.trans hfind')
            exact hmalformed.elim (fun h => absurd h.1 hsuccess) fun h => absurd h.1 herror
    | connect => exact ⟨_, rfl, by simp⟩
    | createConnection addr => exact ⟨_, rfl, by simp⟩
    | destroyConnection addr => exact ⟨_, rfl, by simp⟩
    | sendTo addr payload => exact ⟨_, rfl, by simp⟩
    | timeout id => exact ⟨_, rfl, by simp⟩

/-- A port handles every response of a run if and only if each has the error code that its handler
looks at. -/
theorem along_robust_iff (env : PortEnv) (p : TurnPort) (events : List PortEvent) :
    Machine.Along (Machine.attempt (TurnPort.step env)) (Machine.Running (Robust env)) (some p) events ↔
      Machine.Along (Machine.attempt (TurnPort.step env)) (Machine.Running HasErrorCode) (some p)
        events :=
  Machine.along_congr fun _ e => forall_congr' fun q => imp_congr_right fun _ => robust_iff env q e

/-- An error response without an error code, to the first allocate request. -/
theorem not_along_robust :
    ¬ ∀ (env : PortEnv) (p : TurnPort) (events : List PortEvent),
      Machine.Along (Machine.attempt (TurnPort.step env)) (Machine.Running (Robust env)) (some p)
        events := by
  intro h
  have hrun := h ⟨fun _ => [], id⟩ {}
    [.connect, .response { cls := .turn, type := 0x0113, transactionId := [] }]
  obtain ⟨code, hcode⟩ := (robust_iff _ _ _).mp (hrun.2.1 _ rfl) _ _ rfl rfl rfl rfl
  cases hcode

end PerchWebrtc.Turn
