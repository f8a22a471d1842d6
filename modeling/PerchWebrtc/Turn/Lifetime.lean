import PerchWebrtc.Framework.Machine
import PerchWebrtc.Turn.Port

/-!
# The lifetime of a TURN allocation

The timer of `TurnServer::Allocation` (`turnserver.cc`), for the authorized requests of one
connection. A refresh clears the timer before it starts a new one; an allocate request starts a new
one only, also where it is a retransmission. The thread of the server is punctual: time does not
pass over a timer.

* `Sound`: the first timer is the one that the last success response states;
* `step_sound`, `timely_of_sound`: one event;
* `early_of_hasty`: a retransmission that finds an earlier timer, and what becomes of it;
* `destroyed_timely`: runs.
-/

namespace PerchWebrtc.Turn

open Stun (StunMessage)

def STUN_ERROR_BAD_REQUEST : ℕ := 400
def STUN_ERROR_ALLOCATION_MISMATCH : ℕ := 437
def STUN_ERROR_WRONG_CREDENTIALS : ℕ := 441
def STUN_ERROR_UNSUPPORTED_PROTOCOL : ℕ := 442
def STUN_ERROR_SERVER_ERROR : ℕ := 500

def IPPROTO_UDP : BitVec 32 := 17

/-- Times are in milliseconds. -/
def kDefaultAllocationTimeout : ℕ := 10 * 60 * 1000

def isStunRequestType (msgType : BitVec 16) : Bool := msgType &&& 0x0110 = 0

/-- A success with the lifetime it states, in seconds, or an error. -/
inductive Answer where
  | success (lifetime : ℕ)
  | error (code : ℕ)
  deriving DecidableEq

/-- An allocation, and the times at which its `MSG_TIMEOUT` messages are due. -/
structure TimedAllocation where
  transactionId : List Byte := []
  username : List Byte := []
  timeouts : List ℕ := []
  deriving DecidableEq

/-- The smaller one of the default lifetime and the requested lifetime, in seconds. -/
def computeLifetime (msg : StunMessage) : ℕ :=
  let lifetime := kDefaultAllocationTimeout / 1000
  match msg.getUInt32 Stun.STUN_ATTR_LIFETIME with
  | some value => if value.toNat < lifetime then value.toNat else lifetime
  | none => lifetime

namespace TimedAllocation

variable (a : TimedAllocation) (now : ℕ) (msg : StunMessage)

def postDelayed (delay : ℕ) : TimedAllocation := { a with timeouts := a.timeouts ++ [now + delay] }

def clear : TimedAllocation := { a with timeouts := [] }

/-- The user name of an authorized request is there. -/
def handleAllocateRequest : TimedAllocation × Option Answer :=
  let a := { a with
    transactionId := msg.transactionId
    username := (msg.getByteString Stun.STUN_ATTR_USERNAME).getD [] }
  let lifetimeSecs := computeLifetime msg
  (a.postDelayed now (lifetimeSecs * 1000), some (.success lifetimeSecs))

def handleRefreshRequest : TimedAllocation × Option Answer :=
  let lifetimeSecs := computeLifetime msg
  (a.clear.postDelayed now (lifetimeSecs * 1000), some (.success lifetimeSecs))

/-- The other messages are about permissions, channels and data, and leave the timer; nothing that
is sent for them states a lifetime. -/
def handleTurnMessage : TimedAllocation × Option Answer :=
  if msg.type = STUN_ALLOCATE_REQUEST then a.handleAllocateRequest now msg
  else if msg.type = TURN_REFRESH_REQUEST then a.handleRefreshRequest now msg
  else (a, none)

end TimedAllocation

/-- `HandleAllocateRequest` of the server; the socket for the peers may not be there. -/
def handleAllocateRequest (now : ℕ) (msg : StunMessage) (socket : Bool) :
    Option TimedAllocation × Option Answer :=
  match msg.getUInt32 Stun.STUN_ATTR_REQUESTED_TRANSPORT with
  | none => (none, some (.error STUN_ERROR_BAD_REQUEST))
  | some transport =>
    if transport >>> 24 ≠ IPPROTO_UDP then (none, some (.error STUN_ERROR_UNSUPPORTED_PROTOCOL))
    else if socket then
      let (a, answer) := ({} : TimedAllocation).handleTurnMessage now msg
      (some a, answer)
    else (none, some (.error STUN_ERROR_SERVER_ERROR))

/-- The end of `HandleStunMessage`, for a message that is authorized. -/
def handleStunMessage (now : ℕ) (msg : StunMessage) (socket : Bool) :
    Option TimedAllocation → Option TimedAllocation × Option Answer
  | none =>
    if msg.type = STUN_ALLOCATE_REQUEST then handleAllocateRequest now msg socket
    else (none, some (.error STUN_ERROR_ALLOCATION_MISMATCH))
  | some a =>
    if msg.type ≠ STUN_ALLOCATE_REQUEST ∨ msg.transactionId = a.transactionId then
      if isStunRequestType msg.type ∧
          msg.getByteString Stun.STUN_ATTR_USERNAME ≠ some a.username then
        (some a, some (.error STUN_ERROR_WRONG_CREDENTIALS))
      else
        let (a, answer) := a.handleTurnMessage now msg
        (some a, answer)
    else (some a, some (.error STUN_ERROR_ALLOCATION_MISMATCH))

/-! ## Runs -/

/-- What happens on the connection of a client, and when the lifetime ends that was stated last. -/
structure Lifetime where
  now : ℕ := 0
  allocation : Option TimedAllocation := none
  stated : ℕ := 0
  deriving DecidableEq

namespace Lifetime

/-- When the lifetime ends that was stated last, after an answer. -/
def statedBy (now stated : ℕ) : Option Answer → ℕ
  | some (.success lifetime) => now + lifetime * 1000
  | some (.error _) => stated
  | none => stated

inductive Event where
  | message (msg : StunMessage) (socket : Bool)
  | wait (ms : ℕ)
  /-- The thread delivers a message that is due. -/
  | timeout

/-- The messages that are pending. -/
def timeouts (s : Lifetime) : List ℕ := s.allocation.elim [] TimedAllocation.timeouts

def step (s : Lifetime) : Event → Lifetime
  | .message msg socket =>
    let (allocation, answer) := handleStunMessage s.now msg socket s.allocation
    { s with
      allocation := allocation
      stated := statedBy s.now s.stated answer }
  | .wait ms => if ∀ t ∈ s.timeouts, s.now + ms ≤ t then { s with now := s.now + ms } else s
  | .timeout => if ∃ t ∈ s.timeouts, t ≤ s.now then { s with allocation := none } else s

/-- An allocation is destroyed when the lifetime ends that was stated last, and not kept for
longer. -/
def Timely (s : Lifetime) (e : Event) : Prop :=
  s.allocation.isSome →
    ((s.step e).allocation = none → s.now = s.stated) ∧
      ((s.step e).allocation.isSome → (s.step e).now ≤ (s.step e).stated)

instance (s : Lifetime) (e : Event) : Decidable (s.Timely e) := by
  unfold Timely
  infer_instance

/-- The retransmission of an allocate request finds no timer that is due before its own. -/
def Keeps (s : Lifetime) : Event → Prop
  | .message msg _ => ∀ a, s.allocation = some a → msg.type = STUN_ALLOCATE_REQUEST →
      msg.transactionId = a.transactionId →
      msg.getByteString Stun.STUN_ATTR_USERNAME = some a.username →
      ∀ t ∈ a.timeouts, s.now + computeLifetime msg * 1000 ≤ t
  | .wait _ => True
  | .timeout => True

/-- The first timer is that of the last success response. -/
structure Sound (s : Lifetime) : Prop where
  mem : s.allocation.isSome → s.stated ∈ s.timeouts
  first : ∀ t ∈ s.timeouts, s.stated ≤ t
  now : s.allocation.isSome → s.now ≤ s.stated

end Lifetime

/-- What a message does: nothing to the timer, or one timer is set instead of all, or a further one
by a retransmission. -/
theorem handleStunMessage_cases (now : ℕ) (msg : StunMessage) (socket : Bool)
    (allocation : Option TimedAllocation) :
    let r := handleStunMessage now msg socket allocation
    let ends := now + computeLifetime msg * 1000
    (r.1 = allocation ∧ ∀ stated, Lifetime.statedBy now stated r.2 = stated) ∨
      (∃ a', r = (some a', some (.success (computeLifetime msg))) ∧ a'.timeouts = [ends]) ∨
      ∃ a a', allocation = some a ∧ msg.type = STUN_ALLOCATE_REQUEST ∧
        msg.transactionId = a.transactionId ∧
        msg.getByteString Stun.STUN_ATTR_USERNAME = some a.username ∧
        r = (some a', some (.success (computeLifetime msg))) ∧ a'.timeouts = a.timeouts ++ [ends] := by
  intro r ends
  cases allocation with
  | none =>
    by_cases htype : msg.type = STUN_ALLOCATE_REQUEST
    · have hr : r = handleAllocateRequest now msg socket := if_pos htype
      rw [handleAllocateRequest] at hr
      cases htransport : msg.getUInt32 Stun.STUN_ATTR_REQUESTED_TRANSPORT with
      | none =>
        rw [htransport] at hr
        exact .inl ⟨by rw [hr], fun _ => by rw [hr]; rfl⟩
      | some transport =>
        rw [htransport] at hr
        dsimp only at hr
        split_ifs at hr
        · exact .inl ⟨by rw [hr], fun _ => by rw [hr]; rfl⟩
        · refine .inr (.inl ?_)
          rw [TimedAllocation.handleTurnMessage, if_pos htype] at hr
          exact ⟨_, hr, rfl⟩
        · exact .inl ⟨by rw [hr], fun _ => by rw [hr]; rfl⟩
    · have hr : r = (none, some (.error STUN_ERROR_ALLOCATION_MISMATCH)) := if_neg htype
      exact .inl ⟨by rw [hr], fun _ => by rw [hr]; rfl⟩
  | some a =>
    have hr : r = handleStunMessage now msg socket (some a) := rfl
    rw [handleStunMessage] at hr
    by_cases hown : msg.type ≠ STUN_ALLOCATE_REQUEST ∨ msg.transactionId = a.transactionId
    · rw [if_pos hown] at hr
      by_cases huser : isStunRequestType msg.type ∧
          msg.getByteString Stun.STUN_ATTR_USERNAME ≠ some a.username
      · rw [if_pos huser] at hr
        exact .inl ⟨by rw [hr], fun _ => by rw [hr]; rfl⟩
      · rw [if_neg huser, TimedAllocation.handleTurnMessage] at hr
        split_ifs at hr with hallocate hrefresh
        · have hrequest : isStunRequestType msg.type = true := by
            rw [hallocate]
            decide
          exact .inr (.inr ⟨a, _, rfl, hallocate, hown.resolve_left (not_not.mpr hallocate),
            not_not.mp fun h => huser ⟨hrequest, h⟩, hr, rfl⟩)
        · exact .inr (.inl ⟨_, hr, rfl⟩)
        · exact .inl ⟨by rw [hr], fun _ => by rw [hr]; rfl⟩
    · rw [if_neg hown] at hr
      exact .inl ⟨by rw [hr], fun _ => by rw [hr]; rfl⟩

/-- A retransmission sets a further timer. -/
theorem handleStunMessage_retransmitted (now : ℕ) {msg : StunMessage} (socket : Bool)
    {a : TimedAllocation} (htype : msg.type = STUN_ALLOCATE_REQUEST)
    (hid : msg.transactionId = a.transactionId)
    (huser : msg.getByteString Stun.STUN_ATTR_USERNAME = some a.username) :
    ∃ a', handleStunMessage now msg socket (some a) =
        (some a', some (.success (computeLifetime msg))) ∧
      a'.timeouts = a.timeouts ++ [now + computeLifetime msg * 1000] := by
  rw [handleStunMessage, if_pos (.inr hid), if_neg fun h => h.2 huser,
    TimedAllocation.handleTurnMessage, if_pos htype]
  exact ⟨_, rfl, rfl⟩

namespace Lifetime

variable {s : Lifetime}

theorem start_sound : ({} : Lifetime).Sound :=
  ⟨nofun, fun _ ht => absurd ht List.not_mem_nil, nofun⟩

/-- One event, if a retransmission finds no earlier timer. -/
theorem step_sound (hs : s.Sound) {e : Event} (he : s.Keeps e) : (s.step e).Sound := by
  cases e with
  | message msg socket =>
    rw [step]
    rcases handleStunMessage_cases s.now msg socket s.allocation with
      ⟨hkept, hstated⟩ | ⟨a', hr, htimeouts⟩ | ⟨a, a', ha, htype, hid, huser, hr, htimeouts⟩
    · generalize handleStunMessage s.now msg socket s.allocation = r at *
      dsimp only
      rw [hkept, hstated]
      exact hs
    · rw [hr]
      refine ⟨fun _ => ?_, fun t ht => ?_, fun _ => Nat.le_add_right _ _⟩
      · show s.now + computeLifetime msg * 1000 ∈ a'.timeouts
        rw [htimeouts]
        exact List.mem_singleton_self _
      · have ht' : t ∈ a'.timeouts := ht
        rw [htimeouts] at ht'
        exact (List.mem_singleton.mp ht').ge
    · have hlater := he a ha htype hid huser
      rw [hr]
      refine ⟨fun _ => ?_, fun t ht => ?_, fun _ => Nat.le_add_right _ _⟩
      · show s.now + computeLifetime msg * 1000 ∈ a'.timeouts
        rw [htimeouts]
        exact List.mem_append_right _ (List.mem_singleton_self _)
      · have ht' : t ∈ a'.timeouts := ht
        rw [htimeouts] at ht'
        rcases List.mem_append.mp ht' with hold | hnew
        · exact hlater t hold
        · exact (List.mem_singleton.mp hnew).ge
  | wait ms =>
    rw [step]
    split_ifs with hwait
    · exact ⟨hs.mem, hs.first, fun hsome => hwait _ (hs.mem hsome)⟩
    · exact hs
  | timeout =>
    rw [step]
    split_ifs
    · exact ⟨nofun, fun _ ht => absurd ht List.not_mem_nil, nofun⟩
    · exact hs

/-- The first timer that is due is the one that was stated. -/
theorem timely_of_sound (hs : s.Sound) {e : Event} (hnext : (s.step e).Sound) : s.Timely e := by
  refine fun hsome => ⟨fun hnone => ?_, hnext.now⟩
  cases e with
  | message msg socket =>
    have hkeeps : (s.step (.message msg socket)).allocation.isSome := by
      rw [step]
      rcases handleStunMessage_cases s.now msg socket s.allocation with
        ⟨hkept, -⟩ | ⟨a', hr, -⟩ | ⟨a, a', -, -, -, -, hr, -⟩
      · generalize handleStunMessage s.now msg socket s.allocation = r at hkept
        dsimp only
        rwa [hkept]
      · rw [hr]
        rfl
      · rw [hr]
        rfl
    rw [hnone] at hkeeps
    exact absurd hkeeps (by decide)
  | wait ms =>
    have hkeeps : (s.step (.wait ms)).allocation = s.allocation := by
      rw [step]
      split_ifs <;> rfl
    rw [← hkeeps, hnone] at hsome
    exact absurd hsome (by decide)
  | timeout =>
    rw [step] at hnone
    split_ifs at hnone with hdue
    · obtain ⟨t, ht, hle⟩ := hdue
      exact Nat.le_antisymm (hs.now hsome) ((hs.first t ht).trans hle)
    · rw [hnone] at hsome
      exact absurd hsome (by decide)

/-- A retransmission that finds an earlier timer states a lifetime at whose end the allocation has
been destroyed, if nothing else comes. -/
theorem early_of_hasty (hs : s.Sound) {e : Event} (he : ¬s.Keeps e) :
    ∃ ms, ¬((s.step e).step (.wait ms)).Timely .timeout := by
  cases e with
  | wait ms => exact absurd trivial he
  | timeout => exact absurd trivial he
  | message msg socket =>
    simp only [Keeps, not_forall, not_le] at he
    obtain ⟨a, ha, htype, hid, huser, t, ht, hearlier⟩ := he
    obtain ⟨a', hr, htimeouts⟩ := handleStunMessage_retransmitted s.now socket htype hid huser
    have hpending : s.timeouts = a.timeouts := by rw [timeouts, ha]; rfl
    have hmem : s.stated ∈ a.timeouts := hpending ▸ hs.mem (by rw [ha]; rfl)
    have hfirst : ∀ t ∈ a.timeouts, s.stated ≤ t := hpending ▸ hs.first
    have hnow : s.now ≤ s.stated := hs.now (by rw [ha]; rfl)
    have hstated : s.stated < s.now + computeLifetime msg * 1000 := (hfirst t ht).trans_lt hearlier
    have hmessage : s.step (.message msg socket) =
        ⟨s.now, some a', s.now + computeLifetime msg * 1000⟩ := by
      rw [step, ha, hr]
      rfl
    -- The time passes until the timer that was there before.
    have hwait : (s.step (.message msg socket)).step (.wait (s.stated - s.now)) =
        ⟨s.stated, some a', s.now + computeLifetime msg * 1000⟩ := by
      have hnone : ∀ t ∈ a'.timeouts, s.now + (s.stated - s.now) ≤ t := by
        intro t ht
        rw [htimeouts, List.mem_append, List.mem_singleton] at ht
        rcases ht with hold | rfl
        · have := hfirst t hold
          omega
        · omega
      rw [hmessage]
      refine (if_pos hnone).trans ?_
      show (⟨s.now + (s.stated - s.now), some a', s.now + computeLifetime msg * 1000⟩ : Lifetime) = _
      rw [Nat.add_sub_of_le hnow]
    refine ⟨s.stated - s.now, fun htimely => ?_⟩
    rw [hwait] at htimely
    have hdue : ∃ t ∈ a'.timeouts, t ≤ s.stated :=
      ⟨s.stated, htimeouts ▸ List.mem_append_left _ hmem, le_refl _⟩
    exact hstated.ne ((htimely rfl).1 (congrArg allocation (if_pos hdue)))

/-- An allocation is destroyed exactly when the lifetime ends that was stated last, if no
retransmission finds an earlier timer; one that does may have it destroyed before that. -/
theorem destroyed_timely (events : List Event) :
    (Machine.Along step Keeps {} events → Machine.Along step Timely {} events) ∧
      ∀ e, Machine.Along step Keeps {} events → ¬(Machine.run step {} events).Keeps e →
        ∃ ms, ¬Machine.Along step Timely {} (events ++ [e, .wait ms, .timeout]) := by
  constructor
  · refine fun h => Machine.along_of_along (fun s e hs he => ?_) start_sound h
    exact ⟨step_sound hs he, timely_of_sound hs (step_sound hs he)⟩
  · intro e h he
    have hs : (Machine.run step {} events).Sound := by
      have halways := Machine.always_of_along (I := Sound) (P := Keeps)
        (fun s e hs he => step_sound hs he) start_sound h
      simpa using halways.run_take events.length
    obtain ⟨ms, hearly⟩ := early_of_hasty hs he
    refine ⟨ms, fun h => hearly ?_⟩
    have hlast := Machine.along_iff_forall.mp h (events ++ [e, .wait ms]) .timeout [] (by simp)
    rwa [Machine.run_append_cons] at hlast

/-- A request for the default lifetime. -/
def allocateRequest : StunMessage where
  cls := .turn
  type := STUN_ALLOCATE_REQUEST
  attrs := [⟨Stun.STUN_ATTR_USERNAME, .byteString [0x41]⟩,
    ⟨Stun.STUN_ATTR_REQUESTED_TRANSPORT, .uint32 0x11000000⟩]

/-- A request for five minutes. -/
def refreshRequest : StunMessage where
  cls := .turn
  type := TURN_REFRESH_REQUEST
  attrs := [⟨Stun.STUN_ATTR_USERNAME, .byteString [0x41]⟩, ⟨Stun.STUN_ATTR_LIFETIME, .uint32 300⟩]

/-- An allocation that is refreshed after five minutes. -/
theorem destroyed_timely_refreshed :
    Machine.Along step Timely {} [.message allocateRequest true, .wait 300000,
      .message refreshRequest true, .wait 300000, .timeout] :=
  (destroyed_timely _).1 ⟨fun _ ha => (by cases ha), trivial,
    fun _ _ htype => absurd htype (by decide), trivial, trivial, trivial⟩

/-- The request is sent again after five seconds. -/
theorem not_destroyed_timely :
    ¬Machine.Along step Timely {} [.message allocateRequest true, .wait 5000,
      .message allocateRequest true, .wait 595000, .timeout] := by
  decide +kernel

end Lifetime

end PerchWebrtc.Turn
