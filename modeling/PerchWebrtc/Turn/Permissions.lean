import PerchWebrtc.Stun.Message

/-!
# Permissions and channels of a TURN allocation

What `TurnServer::Allocation` (`turnserver.cc`) relays between its client and the
peers. A permission lasts five minutes, a channel ten; what goes through a channel
is relayed without a look at the permissions. The allocation's own timer ends a
run.

* `Run.covered`: a permission lasts five minutes from the last message that gives
  it;
* `Run.forwards_permitted`: the runs in which all that is forwarded has a
  permission;
* `permitted_iff_fresh`: and when a channel is used without one.
-/

namespace PerchWebrtc.Turn

open Net (IPAddress SocketAddress)
open Stun (StunMessage)

def TURN_SEND_INDICATION : BitVec 16 := 0x0016
def TURN_CREATE_PERMISSION_REQUEST : BitVec 16 := 0x0008
def TURN_CHANNEL_BIND_REQUEST : BitVec 16 := 0x0009

/-- Times are in milliseconds. -/
def kPermissionTimeout : ℕ := 5 * 60 * 1000

def kChannelTimeout : ℕ := 10 * 60 * 1000

def kMinChannelNumber : ℕ := 0x4000
def kMaxChannelNumber : ℕ := 0x7FFF

def TURN_CHANNEL_HEADER_SIZE : ℕ := 4

/-- A permission, and the time from which on its timer may expire. -/
structure Permission where
  peer : IPAddress
  timeout : ℕ
  deriving DecidableEq

structure Channel where
  id : ℕ
  peer : SocketAddress
  timeout : ℕ
  deriving DecidableEq

def Permission.refresh (perm : Permission) (now : ℕ) : Permission :=
  { perm with timeout := now + kPermissionTimeout }

def Channel.refresh (channel : Channel) (now : ℕ) : Channel :=
  { channel with timeout := now + kChannelTimeout }

/-- What an allocation sends. A channel message and a data indication come with
the address of the peer whose packet they carry. -/
inductive Sent where
  | external (data : List Byte) (peer : SocketAddress)
  | channelMessage (addr : SocketAddress) (buf : List Byte)
  | dataIndication (addr : SocketAddress) (data : List Byte)
  | response
  | badRequest
  deriving DecidableEq

/-- The peer that data is forwarded to or from. -/
def Sent.peer : Sent → Option SocketAddress
  | .external _ peer => some peer
  | .channelMessage addr _ => some addr
  | .dataIndication addr _ => some addr
  | .response => none
  | .badRequest => none

structure AllocationState where
  perms : List Permission := []
  channels : List Channel := []
  deriving DecidableEq

namespace AllocationState

variable (s : AllocationState) (now : ℕ)

def findPermission (addr : IPAddress) : Option Permission :=
  s.perms.find? fun perm => decide (perm.peer = addr)

def hasPermission (addr : IPAddress) : Bool := (s.findPermission addr).isSome

def addPermission (addr : IPAddress) : AllocationState :=
  match s.findPermission addr with
  | none => { s with perms := s.perms ++ [⟨addr, now + kPermissionTimeout⟩] }
  | some perm => { s with perms := s.perms.replace perm (perm.refresh now) }

def findChannel (channelId : ℕ) : Option Channel :=
  s.channels.find? fun channel => decide (channel.id = channelId)

/-- `FindChannel` by the address of a peer. -/
def findChannelOf (addr : SocketAddress) : Option Channel :=
  s.channels.find? fun channel => channel.peer.equal addr

def handleSendIndication (msg : StunMessage) : List Sent :=
  match msg.getByteString Stun.STUN_ATTR_DATA, msg.getAddress Stun.STUN_ATTR_XOR_PEER_ADDRESS with
  | some data, some peer => if s.hasPermission peer.ip then [.external data peer] else []
  | _, _ => []

def handleCreatePermissionRequest (msg : StunMessage) : AllocationState × List Sent :=
  match msg.getAddress Stun.STUN_ATTR_XOR_PEER_ADDRESS with
  | none => (s, [.badRequest])
  | some peer => (s.addPermission now peer.ip, [.response])

/-- The number and the peer of a channel that may be bound, by the checks of
`HandleChannelBindRequest`: neither is bound otherwise. -/
def checkChannelBind (msg : StunMessage) : Option (ℕ × SocketAddress) := do
  let value ← msg.getUInt32 Stun.STUN_ATTR_CHANNEL_NUMBER
  let peer ← msg.getAddress Stun.STUN_ATTR_XOR_PEER_ADDRESS
  let channelId := (value >>> 16).toNat
  if channelId < kMinChannelNumber ∨ channelId > kMaxChannelNumber then none
  else if s.findChannel channelId ≠ s.findChannelOf peer then none
  else some (channelId, peer)

def handleChannelBindRequest (msg : StunMessage) : AllocationState × List Sent :=
  match s.checkChannelBind msg with
  | none => (s, [.badRequest])
  | some (channelId, peer) =>
    let channels :=
      match s.findChannel channelId with
      | none => s.channels ++ [⟨channelId, peer, now + kChannelTimeout⟩]
      | some channel => s.channels.replace channel (channel.refresh now)
    (({ s with channels } : AllocationState).addPermission now peer.ip, [.response])

/-- `HandleTurnMessage`, where allocate and refresh requests set the timer of the
allocation. -/
def handleTurnMessage (msg : StunMessage) : AllocationState × List Sent :=
  if msg.type = TURN_SEND_INDICATION then (s, s.handleSendIndication msg)
  else if msg.type = TURN_CREATE_PERMISSION_REQUEST then s.handleCreatePermissionRequest now msg
  else if msg.type = TURN_CHANNEL_BIND_REQUEST then s.handleChannelBindRequest now msg
  else (s, [])

def channelIdOf (data : List Byte) : ℕ := (be16 (Mem.ofList data) 0).toNat

def handleChannelData (data : List Byte) : List Sent :=
  match s.findChannel (channelIdOf data) with
  | some channel => [.external (data.drop TURN_CHANNEL_HEADER_SIZE) channel.peer]
  | none => []

def onExternalPacket (data : List Byte) (addr : SocketAddress) : List Sent :=
  match s.findChannelOf addr with
  | some channel =>
    [.channelMessage addr
      (bytes16 (BitVec.ofNat 16 channel.id) ++ bytes16 (BitVec.ofNat 16 data.length) ++ data)]
  | none => if s.hasPermission addr.ip then [.dataIndication addr data] else []

def onPermissionDestroyed (perm : Permission) : AllocationState :=
  { s with perms := s.perms.erase perm }

def onChannelDestroyed (channel : Channel) : AllocationState :=
  { s with channels := s.channels.erase channel }

end AllocationState

/-! ## Runs -/

inductive Event where
  | turnMessage (msg : StunMessage)
  | channelData (data : List Byte)
  | externalPacket (data : List Byte) (addr : SocketAddress)
  | permissionTimeout (perm : Permission)
  | channelTimeout (channel : Channel)

namespace AllocationState

/-- The server passes no data without a channel header on; timers may be late. -/
def Enabled (s : AllocationState) (now : ℕ) : Event → Prop
  | .turnMessage _ => True
  | .channelData data => TURN_CHANNEL_HEADER_SIZE ≤ data.length
  | .externalPacket _ _ => True
  | .permissionTimeout perm => perm ∈ s.perms ∧ perm.timeout ≤ now
  | .channelTimeout channel => channel ∈ s.channels ∧ channel.timeout ≤ now

def step (s : AllocationState) (now : ℕ) : Event → AllocationState × List Sent
  | .turnMessage msg => s.handleTurnMessage now msg
  | .channelData data => (s, s.handleChannelData data)
  | .externalPacket data addr => (s, s.onExternalPacket data addr)
  | .permissionTimeout perm => (s.onPermissionDestroyed perm, [])
  | .channelTimeout channel => (s.onChannelDestroyed channel, [])

/-- The channel through which an event has data forwarded. -/
def usedChannel (s : AllocationState) : Event → Option Channel
  | .channelData data => s.findChannel (channelIdOf data)
  | .externalPacket _ addr => s.findChannelOf addr
  | _ => none

/-- The address that a message gives a permission. -/
def grants (s : AllocationState) : Event → Option IPAddress
  | .turnMessage msg =>
    if msg.type = TURN_CREATE_PERMISSION_REQUEST then
      (msg.getAddress Stun.STUN_ATTR_XOR_PEER_ADDRESS).map fun peer => peer.ip
    else if msg.type = TURN_CHANNEL_BIND_REQUEST then
      (s.checkChannelBind msg).map fun channel => channel.2.ip
    else none
  | _ => none

end AllocationState

/-- An event of a run, with its time and the state before it. -/
structure Record where
  time : ℕ
  before : AllocationState
  event : Event

def Record.sent (r : Record) : List Sent := (r.before.step r.time r.event).2

/-- All that is forwarded has a permission. -/
def Record.Permitted (r : Record) : Prop :=
  ∀ out ∈ r.sent, ∀ peer, out.peer = some peer → r.before.hasPermission peer.ip = true

/-- The runs of an allocation, the last event first, whose events meet a
condition on what was before. -/
inductive Run (admits : List Record → Record → Prop) : List Record → AllocationState → Prop
  | start : Run admits [] {}
  | step {trace : List Record} {s : AllocationState} (h : Run admits trace s) (now : ℕ)
    (event : Event) (htime : ∀ r ∈ trace, r.time ≤ now) (henabled : s.Enabled now event)
    (hadmits : admits trace ⟨now, s, event⟩) :
    Run admits (⟨now, s, event⟩ :: trace) (s.step now event).1

/-- An address was given a permission less than five minutes ago. -/
def Fresh (trace : List Record) (now : ℕ) (addr : IPAddress) : Prop :=
  ∃ r ∈ trace, r.before.grants r.event = some addr ∧ now < r.time + kPermissionTimeout

/-- A channel is used only with a peer whose address was given a permission less
than five minutes ago. -/
def UsesFresh (trace : List Record) (r : Record) : Prop :=
  ∀ channel, r.before.usedChannel r.event = some channel → Fresh trace r.time channel.peer.ip

/-! ## The list of permissions -/

section Replace

variable {α : Type*} [DecidableEq α] {l : List α} {a b x : α}

theorem mem_of_mem_replace (h : x ∈ l.replace a b) : x ∈ l ∨ x = b := by
  induction l with
  | nil => exact absurd h List.not_mem_nil
  | cons y l ih =>
    rw [List.replace_cons] at h
    split at h
    · rcases List.mem_cons.mp h with rfl | h
      · exact Or.inr rfl
      · exact Or.inl (List.mem_cons_of_mem _ h)
    · rcases List.mem_cons.mp h with rfl | h
      · exact Or.inl List.mem_cons_self
      · exact (ih h).imp_left (List.mem_cons_of_mem _)

theorem mem_replace_self (h : a ∈ l) : b ∈ l.replace a b := by
  induction l with
  | nil => exact absurd h List.not_mem_nil
  | cons y l ih =>
    rw [List.replace_cons]
    split
    · exact List.mem_cons_self
    · rename_i hne
      rcases List.mem_cons.mp h with rfl | h
      · rw [beq_self_eq_true] at hne
        cases hne
      · exact List.mem_cons_of_mem _ (ih h)

theorem mem_replace_of_ne (h : x ∈ l) (hne : x ≠ a) : x ∈ l.replace a b := by
  induction l with
  | nil => exact absurd h List.not_mem_nil
  | cons y l ih =>
    rw [List.replace_cons]
    split
    · rename_i heq
      rcases List.mem_cons.mp h with rfl | h
      · exact absurd (beq_iff_eq.mp heq).symm hne
      · exact List.mem_cons_of_mem _ h
    · rcases List.mem_cons.mp h with rfl | h
      · exact List.mem_cons_self
      · exact List.mem_cons_of_mem _ (ih h)

end Replace

namespace AllocationState

variable {s : AllocationState} {now : ℕ} {addr : IPAddress} {perm : Permission}

theorem hasPermission_iff : s.hasPermission addr = true ↔ ∃ perm ∈ s.perms, perm.peer = addr := by
  unfold hasPermission findPermission
  rw [List.find?_isSome]
  exact exists_congr fun perm => and_congr_right fun _ => decide_eq_true_iff

theorem findPermission_some (h : s.findPermission addr = some perm) :
    perm ∈ s.perms ∧ perm.peer = addr :=
  ⟨List.mem_of_find?_eq_some h,
    of_decide_eq_true (List.find?_some (p := fun perm : Permission => decide (perm.peer = addr)) h)⟩

theorem perms_addPermission_channels (channels : List Channel) :
    (({ s with channels } : AllocationState).addPermission now addr).perms =
      (s.addPermission now addr).perms := by
  unfold addPermission findPermission
  dsimp only
  cases s.perms.find? fun perm => decide (perm.peer = addr) <;> rfl

theorem mem_addPermission (h : perm ∈ (s.addPermission now addr).perms) :
    perm ∈ s.perms ∨ perm = ⟨addr, now + kPermissionTimeout⟩ := by
  unfold addPermission at h
  cases hfind : s.findPermission addr with
  | none =>
    rw [hfind] at h
    exact (List.mem_append.mp h).imp_right List.mem_singleton.mp
  | some found =>
    rw [hfind] at h
    have hpeer : found.peer = addr := (findPermission_some hfind).2
    refine (mem_of_mem_replace h).imp_right fun hperm => ?_
    rw [hperm, Permission.refresh, hpeer]

theorem addPermission_self :
    (⟨addr, now + kPermissionTimeout⟩ : Permission) ∈ (s.addPermission now addr).perms := by
  unfold addPermission
  cases hfind : s.findPermission addr with
  | none => exact List.mem_append_right _ (List.mem_singleton.mpr rfl)
  | some found =>
    have hpeer : found.peer = addr := (findPermission_some hfind).2
    have hself : found.refresh now ∈ s.perms.replace found (found.refresh now) :=
      mem_replace_self (findPermission_some hfind).1
    have heq : found.refresh now = ⟨addr, now + kPermissionTimeout⟩ := by
      rw [Permission.refresh, hpeer]
    exact heq ▸ hself

theorem addPermission_of_ne (h : perm ∈ s.perms) (hne : perm.peer ≠ addr) :
    perm ∈ (s.addPermission now addr).perms := by
  unfold addPermission
  cases hfind : s.findPermission addr with
  | none => exact List.mem_append_left _ h
  | some found =>
    have hpeer : found.peer = addr := (findPermission_some hfind).2
    refine mem_replace_of_ne h fun heq => hne ?_
    rw [heq, hpeer]

/-! ## Steps -/

/-- What an event does to the permissions. -/
theorem perms_step (s : AllocationState) (now : ℕ) (event : Event) :
    (∃ addr, s.grants event = some addr ∧
        (s.step now event).1.perms = (s.addPermission now addr).perms) ∨
      s.grants event = none ∧ ((s.step now event).1.perms = s.perms ∨
        ∃ perm, event = .permissionTimeout perm ∧
          (s.step now event).1.perms = s.perms.erase perm) := by
  cases event with
  | turnMessage msg =>
    unfold step handleTurnMessage grants
    dsimp only
    by_cases hcreate : msg.type = TURN_CREATE_PERMISSION_REQUEST
    · have hsend : msg.type ≠ TURN_SEND_INDICATION := hcreate ▸ by decide
      rw [if_pos hcreate, if_pos hcreate, if_neg hsend, handleCreatePermissionRequest]
      cases msg.getAddress Stun.STUN_ATTR_XOR_PEER_ADDRESS with
      | none => exact Or.inr ⟨rfl, Or.inl rfl⟩
      | some peer => exact Or.inl ⟨peer.ip, rfl, rfl⟩
    · rw [if_neg hcreate, if_neg hcreate]
      by_cases hbind : msg.type = TURN_CHANNEL_BIND_REQUEST
      · have hsend : msg.type ≠ TURN_SEND_INDICATION := hbind ▸ by decide
        rw [if_pos hbind, if_pos hbind, if_neg hsend, handleChannelBindRequest]
        cases s.checkChannelBind msg with
        | none => exact Or.inr ⟨rfl, Or.inl rfl⟩
        | some channel => exact Or.inl ⟨channel.2.ip, rfl, perms_addPermission_channels _⟩
      · rw [if_neg hbind, if_neg hbind]
        exact Or.inr ⟨rfl, Or.inl (by split <;> rfl)⟩
  | channelData data => exact Or.inr ⟨rfl, Or.inl rfl⟩
  | externalPacket data addr => exact Or.inr ⟨rfl, Or.inl rfl⟩
  | permissionTimeout perm => exact Or.inr ⟨rfl, Or.inr ⟨perm, rfl, rfl⟩⟩
  | channelTimeout channel => exact Or.inr ⟨rfl, Or.inl rfl⟩

end AllocationState

theorem ip_eq_of_equal {a b : SocketAddress} (h : a.equal b = true) : a.ip = b.ip := by
  unfold SocketAddress.equal SocketAddress.equalIPs at h
  rw [Bool.and_eq_true, Bool.and_eq_true, decide_eq_true_eq] at h
  exact h.1.1

namespace AllocationState

variable {s : AllocationState} {now : ℕ}

/-- An indication is sent on under a permission. -/
theorem handleSendIndication_permitted {msg : StunMessage} {out : Sent} {peer : SocketAddress}
    (h : out ∈ s.handleSendIndication msg) (hpeer : out.peer = some peer) :
    s.hasPermission peer.ip = true := by
  unfold handleSendIndication at h
  split at h
  · split at h
    · rename_i hperm
      rw [List.mem_singleton.mp h] at hpeer
      rw [← Option.some.inj hpeer]
      exact hperm
    · exact absurd h List.not_mem_nil
  · exact absurd h List.not_mem_nil

/-- A message that is no indication is answered, if at all. -/
theorem handleTurnMessage_permitted {msg : StunMessage} {out : Sent} {peer : SocketAddress}
    (h : out ∈ (s.handleTurnMessage now msg).2) (hpeer : out.peer = some peer) :
    s.hasPermission peer.ip = true := by
  have hanswer : ∀ answer : Sent, answer.peer = none → out ≠ answer := by
    intro answer hnone heq
    rw [heq, hnone] at hpeer
    cases hpeer
  unfold handleTurnMessage at h
  split at h
  · exact handleSendIndication_permitted h hpeer
  · split at h
    · unfold handleCreatePermissionRequest at h
      split at h <;> exact absurd (List.mem_singleton.mp h) (hanswer _ rfl)
    · split at h
      · unfold handleChannelBindRequest at h
        split at h <;> exact absurd (List.mem_singleton.mp h) (hanswer _ rfl)
      · exact absurd h List.not_mem_nil

end AllocationState

/-- All that an event has forwarded has a permission, if the peer of the channel
that is used has one. -/
theorem permitted_iff (r : Record) :
    r.Permitted ↔ ∀ channel, r.before.usedChannel r.event = some channel →
      r.before.hasPermission channel.peer.ip = true := by
  obtain ⟨now, s, event⟩ := r
  unfold Record.Permitted Record.sent
  cases event with
  | turnMessage msg =>
    refine iff_of_true (fun out h peer hpeer => ?_) fun channel hchannel => (by cases hchannel)
    exact AllocationState.handleTurnMessage_permitted h hpeer
  | channelData data =>
    unfold AllocationState.step AllocationState.handleChannelData AllocationState.usedChannel
    dsimp only
    cases s.findChannel (AllocationState.channelIdOf data) with
    | none => simp
    | some channel => simp [Sent.peer]
  | externalPacket data addr =>
    unfold AllocationState.step AllocationState.onExternalPacket AllocationState.usedChannel
    dsimp only
    cases hfind : s.findChannelOf addr with
    | none => simp [Sent.peer]
    | some channel =>
      have hip : channel.peer.ip = addr.ip := ip_eq_of_equal
        (List.find?_some (p := fun channel : Channel => channel.peer.equal addr) hfind)
      simp [Sent.peer, hip]
  | permissionTimeout perm =>
    exact iff_of_true (fun out h => absurd h List.not_mem_nil) fun channel h => (by cases h)
  | channelTimeout channel =>
    exact iff_of_true (fun out h => absurd h List.not_mem_nil) fun channel h => (by cases h)

/-! ## Runs of an allocation -/

section Runs

variable {admits : List Record → Record → Prop} {trace : List Record} {s : AllocationState}
  {now : ℕ} {addr : IPAddress}

/-- A permission lasts five minutes from the message that gives it. -/
theorem Run.covered (h : Run admits trace s) {r : Record} (hr : r ∈ trace)
    (hgrants : r.before.grants r.event = some addr) :
    (∃ perm ∈ s.perms, perm.peer = addr ∧ r.time + kPermissionTimeout ≤ perm.timeout) ∨
      ∃ later ∈ trace, r.time + kPermissionTimeout ≤ later.time := by
  induction h with
  | start => exact absurd hr List.not_mem_nil
  | @step trace s _ now event htime henabled _ ih =>
    rcases List.mem_cons.mp hr with rfl | hr
    · rcases s.perms_step now event with ⟨given, hgiven, hperms⟩ | ⟨hnone, -⟩
      · rw [hgiven] at hgrants
        cases hgrants
        refine Or.inl ⟨⟨addr, now + kPermissionTimeout⟩, ?_, rfl, le_refl _⟩
        rw [hperms]
        exact AllocationState.addPermission_self
      · rw [hnone] at hgrants
        cases hgrants
    · rcases ih hr with ⟨perm, hmem, hpeer, htimeout⟩ | ⟨later, hlater, htimeout⟩
      · rcases s.perms_step now event with ⟨given, -, hperms⟩ | ⟨-, hperms | ⟨gone, hevent, hperms⟩⟩
        · by_cases hsame : perm.peer = given
          · -- the permission that is refreshed lasts longer
            refine Or.inl ⟨⟨given, now + kPermissionTimeout⟩, ?_, hsame.symm.trans hpeer, ?_⟩
            · rw [hperms]
              exact AllocationState.addPermission_self
            · exact Nat.add_le_add_right (htime r hr) _
          · refine Or.inl ⟨perm, ?_, hpeer, htimeout⟩
            rw [hperms]
            exact AllocationState.addPermission_of_ne hmem hsame
        · exact Or.inl ⟨perm, hperms ▸ hmem, hpeer, htimeout⟩
        · by_cases hsame : perm = gone
          · subst hsame hevent
            exact Or.inr ⟨_, List.mem_cons_self, htimeout.trans henabled.2⟩
          · refine Or.inl ⟨perm, ?_, hpeer, htimeout⟩
            rw [hperms]
            exact (List.mem_erase_of_ne hsame).mpr hmem
      · exact Or.inr ⟨later, List.mem_cons_of_mem _ hlater, htimeout⟩

/-- Each permission was given by a message, five minutes before its timer expires. -/
theorem Run.granted (h : Run admits trace s) {perm : Permission} (hperm : perm ∈ s.perms) :
    ∃ r ∈ trace, r.before.grants r.event = some perm.peer ∧
      perm.timeout = r.time + kPermissionTimeout := by
  induction h with
  | start => exact absurd hperm List.not_mem_nil
  | @step trace s _ now event _ _ _ ih =>
    have hold : perm ∈ s.perms → ∃ r ∈ (⟨now, s, event⟩ : Record) :: trace,
        r.before.grants r.event = some perm.peer ∧ perm.timeout = r.time + kPermissionTimeout := by
      intro hmem
      obtain ⟨r, hr, hgrants⟩ := ih hmem
      exact ⟨r, List.mem_cons_of_mem _ hr, hgrants⟩
    rcases s.perms_step now event with ⟨given, hgiven, hperms⟩ | ⟨-, hperms | ⟨gone, -, hperms⟩⟩
    · rw [hperms] at hperm
      rcases AllocationState.mem_addPermission hperm with hmem | rfl
      · exact hold hmem
      · exact ⟨_, List.mem_cons_self, hgiven, rfl⟩
    · exact hold (hperms ▸ hperm)
    · rw [hperms] at hperm
      exact hold (List.mem_of_mem_erase hperm)

theorem Run.hasPermission_of_fresh (h : Run admits trace s) (htime : ∀ r ∈ trace, r.time ≤ now)
    (hfresh : Fresh trace now addr) : s.hasPermission addr = true := by
  obtain ⟨r, hr, hgrants, hlasts⟩ := hfresh
  rcases h.covered hr hgrants with ⟨perm, hmem, hpeer, -⟩ | ⟨later, hlater, hover⟩
  · exact AllocationState.hasPermission_iff.mpr ⟨perm, hmem, hpeer⟩
  · have hnow := htime later hlater
    omega

/-- Where no timer of a permission is late, an address has a permission if it was
given one less than five minutes ago. -/
theorem Run.hasPermission_iff_fresh (h : Run admits trace s) (htime : ∀ r ∈ trace, r.time ≤ now)
    (hpunctual : ∀ perm ∈ s.perms, now < perm.timeout) :
    s.hasPermission addr = true ↔ Fresh trace now addr := by
  refine ⟨fun hperm => ?_, h.hasPermission_of_fresh htime⟩
  obtain ⟨perm, hmem, rfl⟩ := AllocationState.hasPermission_iff.mp hperm
  obtain ⟨r, hr, hgrants, htimeout⟩ := h.granted hmem
  exact ⟨r, hr, hgrants, htimeout ▸ hpunctual perm hmem⟩

/-- Where no timer is late, what an event has forwarded has a permission exactly
if the channel that it uses is fresh. -/
theorem Run.permitted_iff_fresh (h : Run admits trace s) (htime : ∀ r ∈ trace, r.time ≤ now)
    (hpunctual : ∀ perm ∈ s.perms, now < perm.timeout) (event : Event) :
    Record.Permitted ⟨now, s, event⟩ ↔ UsesFresh trace ⟨now, s, event⟩ := by
  rw [permitted_iff]
  exact forall₂_congr fun channel _ => h.hasPermission_iff_fresh htime hpunctual

end Runs

/-- All that an allocation forwards has a permission, in the runs in which
channels are only used with peers whose addresses were given a permission less
than five minutes ago. -/
theorem forwards_permitted (trace : List Record) (s : AllocationState) (h : Run UsesFresh trace s) :
    ∀ r ∈ trace, r.Permitted := by
  induction h with
  | start => exact fun r hr => absurd hr List.not_mem_nil
  | step hrun now event htime _ hadmits ih =>
    intro r hr
    rcases List.mem_cons.mp hr with rfl | hr
    · refine (permitted_iff _).mpr fun channel hchannel => ?_
      exact hrun.hasPermission_of_fresh htime (hadmits channel hchannel)
    · exact ih r hr

def channelPeer : SocketAddress := { ip := .v4 0x0A000009, port := 5000 }

/-- A request to bind the first channel. -/
def channelBind : StunMessage where
  cls := .turn
  type := TURN_CHANNEL_BIND_REQUEST
  attrs := [⟨Stun.STUN_ATTR_CHANNEL_NUMBER, .uint32 0x40000000⟩,
    ⟨Stun.STUN_ATTR_XOR_PEER_ADDRESS, .xorAddress channelPeer⟩]

/-- A channel message of one byte. -/
def channelData : List Byte := [0x40, 0x00, 0x00, 0x01, 0xAA]

theorem channelData_enabled : TURN_CHANNEL_HEADER_SIZE ≤ channelData.length := by decide

/-- The state after the request at time 0. -/
def boundState : AllocationState where
  perms := [⟨.v4 0x0A000009, 300000⟩]
  channels := [⟨0x4000, channelPeer, 600000⟩]

theorem step_channelBind :
    (AllocationState.step {} 0 (.turnMessage channelBind)).1 = boundState := by
  decide

/-- Data on a channel that was bound a second ago. -/
theorem forwards_permitted_bound :
    Record.Permitted ⟨1000, boundState, .channelData channelData⟩ := by
  have hbind : Run UsesFresh [⟨0, {}, .turnMessage channelBind⟩] boundState := by
    rw [← step_channelBind]
    exact Run.start.step 0 _ (fun r hr => absurd hr List.not_mem_nil) trivial
      fun channel hchannel => (by cases hchannel)
  have hdata := hbind.step 1000 (.channelData channelData)
    (fun r hr => List.mem_singleton.mp hr ▸ Nat.zero_le _) channelData_enabled
    fun channel hchannel => by
      have hchannel : channel = ⟨0x4000, channelPeer, 600000⟩ := by
        have hfound : boundState.usedChannel (.channelData channelData) =
            some ⟨0x4000, channelPeer, 600000⟩ := by decide
        exact Option.some.inj (hchannel.symm.trans hfound)
      rw [hchannel]
      exact ⟨_, List.mem_singleton.mpr rfl, by decide, by decide⟩
  exact forwards_permitted _ _ hdata _ List.mem_cons_self

/-- The permission expires after five minutes, and the channel is still relayed. -/
theorem not_permitted_after_timeout :
    ∃ trace s, Run (fun _ _ => True) trace s ∧
      ∃ r ∈ trace, r.before.perms = [] ∧ r.sent = [.external [0xAA] channelPeer] ∧
        ¬ r.Permitted := by
  have hbind : Run (fun _ _ => True) [⟨0, {}, .turnMessage channelBind⟩] boundState := by
    rw [← step_channelBind]
    exact Run.start.step 0 _ (fun r hr => absurd hr List.not_mem_nil) trivial trivial
  have htimeout := hbind.step 300000 (.permissionTimeout ⟨.v4 0x0A000009, 300000⟩)
    (fun r hr => List.mem_singleton.mp hr ▸ Nat.zero_le _) ⟨by decide, by decide⟩ trivial
  have hdata := htimeout.step 300001 (.channelData channelData) (fun r hr => by
      rcases List.mem_cons.mp hr with rfl | hr
      · exact Nat.le_succ _
      · exact List.mem_singleton.mp hr ▸ Nat.zero_le _) channelData_enabled trivial
  refine ⟨_, _, hdata, _, List.mem_cons_self, by decide, by decide, fun hpermitted => ?_⟩
  have hperm := hpermitted (.external [0xAA] channelPeer) (by decide) channelPeer rfl
  revert hperm
  decide

end PerchWebrtc.Turn
