import PerchWebrtc.Ice.RoleConflict

/-!
# Role conflicts are resolved

Of two sessions with the same role and different tiebreakers, one yields: the one
with the smaller tiebreaker if both are controlling, with the larger one if both
are controlled.

* `Session.Consistent`: what holds of each session by itself;
* `Resolved`: a session that does not yield is told of no conflict;
* `role_conflict_resolved`: only one session switches, and only once.
-/

namespace PerchWebrtc.Ice

open Stun (StunMessage)

/-! ## Requests -/

/-- A request with a role and a tiebreaker. -/
def Stamped (stunMsg : StunMessage) (iceRole : IceRole) (tiebreaker : BitVec 64) : Prop :=
  Port.remoteRole stunMsg = (iceRole, tiebreaker)

def IceRole.Known : IceRole → Prop
  | .ICEROLE_UNKNOWN => False
  | _ => True

theorem prepare_stamped {iceRole : IceRole} (hknown : iceRole.Known) (tiebreaker : BitVec 64)
    (options : RequestOptions) : Stamped (prepare iceRole tiebreaker options) iceRole tiebreaker := by
  obtain ⟨username, retransmitCount, useCandidate, priority⟩ := options
  unfold Stamped
  cases iceRole with
  | ICEROLE_CONTROLLING => cases retransmitCount <;> cases useCandidate <;> rfl
  | ICEROLE_CONTROLLED => cases retransmitCount <;> cases useCandidate <;> rfl
  | ICEROLE_UNKNOWN => exact hknown.elim

/-- One of two agents with the same role gives it up: the one that has the smaller
tiebreaker and controls, or has the larger one and does not. -/
def YieldsTo (iceRole : IceRole) (tiebreaker remote : BitVec 64) : Prop :=
  match iceRole with
  | .ICEROLE_CONTROLLING => tiebreaker ≤ remote
  | .ICEROLE_CONTROLLED => remote < tiebreaker
  | .ICEROLE_UNKNOWN => False

theorem yieldsTo_of_not {iceRole : IceRole} {tiebreaker remote : BitVec 64} (hknown : iceRole.Known)
    (hne : tiebreaker ≠ remote) (h : ¬ YieldsTo iceRole tiebreaker remote) :
    YieldsTo iceRole remote tiebreaker := by
  cases iceRole with
  | ICEROLE_CONTROLLING => exact BitVec.le_of_lt (BitVec.not_le.mp h)
  | ICEROLE_CONTROLLED => exact BitVec.lt_of_le_ne (BitVec.not_lt.mp h) hne
  | ICEROLE_UNKNOWN => exact hknown.elim

theorem YieldsTo.asymm {iceRole : IceRole} {tiebreaker remote : BitVec 64}
    (hne : tiebreaker ≠ remote) (h : YieldsTo iceRole tiebreaker remote) :
    ¬ YieldsTo iceRole remote tiebreaker := by
  intro h'
  cases iceRole with
  | ICEROLE_CONTROLLING => exact hne (BitVec.le_antisymm h h')
  | ICEROLE_CONTROLLED => exact BitVec.lt_asymm h h'
  | ICEROLE_UNKNOWN => exact h

/-- A port does something only about its own role in a request: it gives it up or
has the other side do so. -/
theorem Port.action_cases (p : Port) (remoteUfrag : List Byte) {stunMsg : StunMessage}
    {remoteIceRole : IceRole} {remoteTiebreaker : BitVec 64}
    (hstamped : Stamped stunMsg remoteIceRole remoteTiebreaker) :
    (p.maybeIceRoleConflict stunMsg remoteUfrag).2 = none ∨
      p.iceRole = remoteIceRole ∧ p.iceRole.Known ∧
        ((p.maybeIceRoleConflict stunMsg remoteUfrag).2 = some .signalRoleConflict ∧
            YieldsTo p.iceRole p.tiebreaker remoteTiebreaker ∨
          (p.maybeIceRoleConflict stunMsg remoteUfrag).2 =
              some (.sendBindingErrorResponse STUN_ERROR_ROLE_CONFLICT) ∧
            ¬ YieldsTo p.iceRole p.tiebreaker remoteTiebreaker) := by
  unfold Port.maybeIceRoleConflict
  rw [hstamped]
  split
  · exact Or.inl rfl
  · cases hrole : p.iceRole with
    | ICEROLE_CONTROLLING =>
      dsimp only
      by_cases hsame : remoteIceRole = .ICEROLE_CONTROLLING
      · rw [if_pos hsame]
        refine Or.inr ⟨hsame.symm, trivial, ?_⟩
        by_cases hyields : remoteTiebreaker ≥ p.tiebreaker
        · exact Or.inl ⟨by rw [if_pos hyields], hyields⟩
        · exact Or.inr ⟨by rw [if_neg hyields], hyields⟩
      · exact Or.inl (by rw [if_neg hsame])
    | ICEROLE_CONTROLLED =>
      dsimp only
      by_cases hsame : remoteIceRole = .ICEROLE_CONTROLLED
      · rw [if_pos hsame]
        refine Or.inr ⟨hsame.symm, trivial, ?_⟩
        by_cases hyields : remoteTiebreaker < p.tiebreaker
        · exact Or.inl ⟨by rw [if_pos hyields], hyields⟩
        · exact Or.inr ⟨by rw [if_neg hyields], hyields⟩
      · exact Or.inl (by rw [if_neg hsame])
    | ICEROLE_UNKNOWN => exact Or.inl rfl

/-! ## One session -/

/-- A transport that a session has, which was not made after the switch, and is
not among those that the session has still to switch. -/
def Session.Settled (s : Session) (t : Transport) : Prop :=
  t.late = false ∧ ∃ n, s.transports[n]? = some t ∧ n ∉ s.pending

structure Session.Consistent (s : Session) : Prop where
  switches : s.switches = if s.roleSwitch then 1 else 0
  roles : ∀ t ∈ s.transports, t.iceRole = s.initialRole ∨
    t.iceRole = s.switchedRole ∧ s.roleSwitch = true
  settled : ∀ t, s.Settled t → t.iceRole = s.role
  unswitched : s.roleSwitch = false → s.pending = []

section Session

variable {s : Session}

theorem Session.initialRole_known (s : Session) : s.initialRole.Known := by
  unfold initialRole
  split <;> trivial

theorem Session.switchedRole_known (s : Session) : s.switchedRole.Known := by
  unfold switchedRole
  split <;> trivial

theorem Session.Consistent.createTransport (h : s.Consistent) : s.createTransport.Consistent where
  switches := h.switches
  roles := fun t ht => by
    rcases List.mem_append.mp ht with ht | ht
    · exact h.roles t ht
    · rw [List.mem_singleton.mp ht]
      exact Or.inl rfl
  settled := fun t ht => by
    obtain ⟨hlate, n, hget, hpending⟩ := ht
    unfold Session.createTransport at hget
    dsimp only at hget
    rw [List.getElem?_append] at hget
    split at hget
    · exact h.settled t ⟨hlate, n, hget, hpending⟩
    · have ht := List.mem_singleton.mp (List.mem_of_getElem? hget)
      rw [ht] at hlate ⊢
      exact (if_neg (Bool.eq_false_iff.mp hlate)).symm
  unswitched := h.unswitched

theorem Session.Consistent.onRoleConflict (h : s.Consistent) : s.onRoleConflict.Consistent := by
  unfold Session.onRoleConflict
  by_cases hswitch : s.roleSwitch = true
  · rw [if_pos hswitch]
    exact ⟨h.switches, h.roles, h.settled, h.unswitched⟩
  · have hswitches := h.switches
    rw [if_neg hswitch] at hswitches
    rw [if_neg hswitch]
    refine ⟨?_, fun t ht => ?_, fun t ht => ?_, fun hfalse => (by cases hfalse)⟩
    · dsimp only
      rw [hswitches, if_pos rfl]
    · rcases h.roles t ht with hrole | ⟨-, htrue⟩
      · exact Or.inl hrole
      · exact absurd htrue hswitch
    · -- all transports are still to be switched
      obtain ⟨-, n, hget, hpending⟩ := ht
      exact absurd (List.mem_range.mpr (List.getElem?_eq_some_iff.mp hget).1) hpending

theorem Session.Consistent.setIceRole (h : s.Consistent) : s.setIceRole.Consistent := by
  unfold Session.setIceRole
  cases hpending : s.pending with
  | nil => exact h
  | cons n rest =>
    have hswitch : s.roleSwitch = true := by
      by_contra hfalse
      have hnil := h.unswitched (Bool.eq_false_iff.mpr hfalse)
      rw [hpending] at hnil
      cases hnil
    have hget : ∀ m t,
        (s.transports.modify n fun t => { t with iceRole := s.switchedRole })[m]? = some t →
        ∃ u, s.transports[m]? = some u ∧
          t = if n = m then { u with iceRole := s.switchedRole } else u := by
      intro m t ht
      rw [List.getElem?_modify] at ht
      obtain ⟨u, hu, rfl⟩ := Option.map_eq_some_iff.mp ht
      exact ⟨u, hu, by split <;> rfl⟩
    refine ⟨h.switches, fun t ht => ?_, fun t ht => ?_, fun hfalse => ?_⟩
    · obtain ⟨m, hm⟩ := List.mem_iff_getElem?.mp ht
      obtain ⟨u, hu, rfl⟩ := hget m t hm
      split
      · exact Or.inr ⟨rfl, hswitch⟩
      · exact h.roles u (List.mem_of_getElem? hu)
    · obtain ⟨hlate, m, hm, hrest⟩ := ht
      obtain ⟨u, hu, rfl⟩ := hget m t hm
      have hrole : s.role = s.switchedRole := if_pos hswitch
      by_cases hn : n = m
      · rw [if_pos hn]
        exact hrole.symm
      · rw [if_neg hn] at hlate ⊢
        refine h.settled u ⟨hlate, m, hu, fun hmem => ?_⟩
        rw [hpending] at hmem
        rcases List.mem_cons.mp hmem with hm | hmem
        · exact hn hm.symm
        · exact hrest hmem
    · exact absurd hswitch (Bool.eq_false_iff.mp hfalse)

theorem Session.Consistent.onPortAction (h : s.Consistent) (action : Option PortAction) :
    (s.onPortAction action).Consistent := by
  unfold Session.onPortAction
  split
  · exact ⟨h.switches, h.roles, h.settled, h.unswitched⟩
  · exact h

theorem Session.onPortAction_same (s : Session) (action : Option PortAction) :
    (s.onPortAction action).initiator = s.initiator ∧
      (s.onPortAction action).iceTiebreaker = s.iceTiebreaker ∧
      (s.onPortAction action).switches = s.switches := by
  unfold Session.onPortAction
  split <;> exact ⟨rfl, rfl, rfl⟩

theorem Session.onRoleConflict_same (s : Session) :
    s.onRoleConflict.initiator = s.initiator ∧ s.onRoleConflict.iceTiebreaker = s.iceTiebreaker ∧
      s.switches ≤ s.onRoleConflict.switches := by
  unfold Session.onRoleConflict
  split
  · exact ⟨rfl, rfl, le_refl _⟩
  · exact ⟨rfl, rfl, Nat.le_succ _⟩

theorem Session.setIceRole_same (s : Session) :
    s.setIceRole.initiator = s.initiator ∧ s.setIceRole.iceTiebreaker = s.iceTiebreaker ∧
      s.setIceRole.posted = s.posted ∧ s.setIceRole.roleSwitch = s.roleSwitch ∧
      s.setIceRole.switches = s.switches := by
  unfold Session.setIceRole
  split <;> exact ⟨rfl, rfl, rfl, rfl, rfl⟩

end Session

/-! ## Two sessions -/

/-- The role of an initiator, or of its peer. -/
def roleOf (initiator : Bool) : IceRole := if initiator then .ICEROLE_CONTROLLING else .ICEROLE_CONTROLLED

theorem roleOf_injective : Function.Injective roleOf := by decide

theorem Side.other_other (i : Side) : i.other.other = i := by
  cases i <;> rfl

section World

variable {initiator : Side → Bool} {tiebreaker : Side → BitVec 64} {w : World} {i : Side}

/-- The session that is to switch: both sides have the same role, and it gives it up. -/
def Yields (initiator : Side → Bool) (tiebreaker : Side → BitVec 64) (i : Side) : Prop :=
  initiator i = initiator i.other ∧
    YieldsTo (roleOf (initiator i)) (tiebreaker i) (tiebreaker i.other)

theorem Yields.asymm (hdistinct : ∀ i : Side, tiebreaker i ≠ tiebreaker i.other)
    (h : Yields initiator tiebreaker i) : ¬ Yields initiator tiebreaker i.other := by
  intro h'
  have hother := h'.2
  rw [i.other_other, ← h.1] at hother
  exact h.2.asymm (hdistinct i) hother

/-- What holds in every world: a session that does not yield keeps its role, and
nothing tells it of a conflict. -/
structure Resolved (initiator : Side → Bool) (tiebreaker : Side → BitVec 64) (w : World) : Prop where
  same : ∀ i, (w.session i).initiator = initiator i ∧ (w.session i).iceTiebreaker = tiebreaker i
  consistent : ∀ i, (w.session i).Consistent
  requests : ∀ i, ∀ stunMsg ∈ w.requests i, ∃ iceRole : IceRole,
    Stamped stunMsg iceRole (tiebreaker i) ∧
      (¬ Yields initiator tiebreaker i → iceRole = roleOf (initiator i))
  stays : ∀ i, ¬ Yields initiator tiebreaker i →
    (w.session i).posted = 0 ∧ (w.session i).roleSwitch = false
  errors : ∀ i, ¬ Yields initiator tiebreaker i → STUN_ERROR_ROLE_CONFLICT ∉ w.errors i

theorem resolved_start : Resolved initiator tiebreaker (World.start initiator tiebreaker) where
  same := fun i => ⟨rfl, rfl⟩
  consistent := fun i =>
    ⟨rfl, fun t ht => absurd ht List.not_mem_nil,
      fun t ht => ht.2.elim fun n hget => (by cases hget.1), fun _ => rfl⟩
  requests := fun i stunMsg h => absurd h List.not_mem_nil
  stays := fun i _ => ⟨rfl, rfl⟩
  errors := fun i _ => List.not_mem_nil

theorem Resolved.role_of_stays (h : Resolved initiator tiebreaker w)
    (hstays : ¬ Yields initiator tiebreaker i) {t : Transport} (ht : t ∈ (w.session i).transports) :
    t.iceRole = roleOf (initiator i) := by
  rcases (h.consistent i).roles t ht with hrole | ⟨-, hswitch⟩
  · rw [hrole, ← (h.same i).1]
    rfl
  · rw [(h.stays i hstays).2] at hswitch
    cases hswitch

theorem Resolved.role_known (h : Resolved initiator tiebreaker w) {t : Transport}
    (ht : t ∈ (w.session i).transports) : t.iceRole.Known := by
  rcases (h.consistent i).roles t ht with hrole | ⟨hrole, -⟩
  · exact hrole ▸ Session.initialRole_known _
  · exact hrole ▸ Session.switchedRole_known _

theorem Resolved.setSession (h : Resolved initiator tiebreaker w) {s : Session}
    (hinitiator : s.initiator = (w.session i).initiator)
    (htiebreaker : s.iceTiebreaker = (w.session i).iceTiebreaker) (hconsistent : s.Consistent)
    (hstays : ¬ Yields initiator tiebreaker i → s.posted = 0 ∧ s.roleSwitch = false) :
    Resolved initiator tiebreaker (w.setSession i s) := by
  have hsession : ∀ {P : Side → Session → Prop}, P i s → (∀ j, P j (w.session j)) →
      ∀ j, P j ((w.setSession i s).session j) := by
    intro P hi hall j
    unfold World.setSession
    dsimp only
    by_cases hj : j = i
    · subst hj
      rwa [Function.update_self]
    · rw [Function.update_of_ne hj]
      exact hall j
  exact ⟨hsession (P := fun j s => s.initiator = initiator j ∧ s.iceTiebreaker = tiebreaker j)
      ⟨hinitiator.trans (h.same i).1, htiebreaker.trans (h.same i).2⟩ h.same,
    hsession (P := fun _ s => s.Consistent) hconsistent h.consistent, h.requests,
    hsession (P := fun j s => ¬ Yields initiator tiebreaker j → s.posted = 0 ∧ s.roleSwitch = false)
      hstays h.stays, h.errors⟩

theorem Resolved.addError (h : Resolved initiator tiebreaker w) {errorCode : Nat}
    (hyields : ¬ Yields initiator tiebreaker i → STUN_ERROR_ROLE_CONFLICT ≠ errorCode) :
    Resolved initiator tiebreaker
      { w with errors := Function.update w.errors i (errorCode :: w.errors i) } := by
  refine ⟨h.same, h.consistent, h.requests, h.stays, fun j hstays => ?_⟩
  dsimp only
  by_cases hj : j = i
  · subst hj
    rw [Function.update_self]
    exact List.not_mem_cons_of_ne_of_not_mem (hyields hstays) (h.errors j hstays)
  · rw [Function.update_of_ne hj]
    exact h.errors j hstays

theorem Resolved.ping (h : Resolved initiator tiebreaker w) (i : Side) (n : Nat)
    (options : RequestOptions) : Resolved initiator tiebreaker (w.ping i n options) := by
  unfold World.ping
  split
  · exact h
  · rename_i t hget
    have ht : t ∈ (w.session i).transports := List.mem_of_getElem? hget
    refine ⟨h.same, h.consistent, fun j stunMsg hmsg => ?_, h.stays, h.errors⟩
    dsimp only at hmsg
    by_cases hj : j = i
    · subst hj
      rw [Function.update_self] at hmsg
      rcases List.mem_cons.mp hmsg with rfl | hmsg
      · rw [(h.same j).2]
        exact ⟨t.iceRole, prepare_stamped (h.role_known ht) _ options,
          fun hstays => h.role_of_stays hstays ht⟩
      · exact h.requests j stunMsg hmsg
    · rw [Function.update_of_ne hj] at hmsg
      exact h.requests j stunMsg hmsg

/-- A request that arrives tells of a conflict only a session that yields. -/
theorem Resolved.onRequest (h : Resolved initiator tiebreaker w)
    (hdistinct : ∀ i : Side, tiebreaker i ≠ tiebreaker i.other) (i : Side) (n : Nat)
    (usernameFragment remoteUfrag : List Byte) {stunMsg : StunMessage}
    (hmsg : stunMsg ∈ w.requests i.other) :
    Resolved initiator tiebreaker (w.onRequest i n usernameFragment remoteUfrag stunMsg) := by
  unfold World.onRequest
  split
  · exact h
  · rename_i t hget
    have ht : t ∈ (w.session i).transports := List.mem_of_getElem? hget
    obtain ⟨iceRole, hstamped, hrole⟩ := h.requests i.other stunMsg hmsg
    have hcases := Port.action_cases ⟨usernameFragment, t.iceRole, (w.session i).iceTiebreaker⟩
      remoteUfrag hstamped
    dsimp only at hcases ⊢
    rw [(h.same i).2] at hcases ⊢
    rcases hcases with hnone | ⟨hsame, hknown, hcases⟩
    · rw [hnone]
      exact h.setSession rfl rfl (h.consistent i) (h.stays i)
    · -- the sides have the same role from the start
      have hinitiator : initiator i = initiator i.other := by
        by_cases hi : Yields initiator tiebreaker i
        · exact hi.1
        by_cases hother : Yields initiator tiebreaker i.other
        · have hback := hother.1
          rw [i.other_other] at hback
          exact hback.symm
        exact roleOf_injective ((h.role_of_stays hi ht).symm.trans (hsame.trans (hrole hother)))
      rcases hcases with ⟨hsignal, hyields⟩ | ⟨herror, hyields⟩
      · rw [hsignal]
        refine h.setSession rfl rfl ((h.consistent i).onPortAction _) fun hstays => ?_
        rw [h.role_of_stays hstays ht] at hyields
        exact absurd ⟨hinitiator, hyields⟩ hstays
      · rw [herror]
        have hkept : Resolved initiator tiebreaker (w.setSession i (w.session i)) :=
          h.setSession rfl rfl (h.consistent i) (h.stays i)
        refine hkept.addError fun hstays => ?_
        have hback := yieldsTo_of_not hknown (hdistinct i) hyields
        rw [hsame, hrole hstays] at hback
        refine absurd ⟨?_, ?_⟩ hstays
        · rw [i.other_other]
          exact hinitiator.symm
        · rw [i.other_other]
          exact hback

theorem Resolved.next (h : Resolved initiator tiebreaker w)
    (hdistinct : ∀ i : Side, tiebreaker i ≠ tiebreaker i.other) {w' : World} (hnext : w.Next w') :
    Resolved initiator tiebreaker w' := by
  obtain ⟨event, henabled, rfl⟩ := hnext
  cases event with
  | createTransport i =>
    exact h.setSession rfl rfl (h.consistent i).createTransport (h.stays i)
  | ping i n options => exact h.ping i n options
  | request i n usernameFragment remoteUfrag stunMsg =>
    exact h.onRequest hdistinct i n usernameFragment remoteUfrag henabled
  | errorResponse i errorCode =>
    have hsame := (w.session i).onPortAction_same (Port.onConnectionRequestErrorResponse errorCode)
    refine h.setSession hsame.1 hsame.2.1 ((h.consistent i).onPortAction _) fun hstays => ?_
    have hother : errorCode ≠ STUN_ERROR_ROLE_CONFLICT :=
      fun heq => h.errors i hstays (heq ▸ henabled)
    unfold Port.onConnectionRequestErrorResponse
    rw [if_neg hother]
    exact h.stays i hstays
  | roleConflict i =>
    have hsame := (w.session i).onRoleConflict_same
    refine h.setSession hsame.1 hsame.2.1 (h.consistent i).onRoleConflict fun hstays => ?_
    -- no conflict is posted to a session that does not yield
    exact absurd (h.stays i hstays).1 (Nat.ne_of_gt henabled)
  | setIceRole i =>
    obtain ⟨hinitiator, htiebreaker, hposted, hswitch, -⟩ := (w.session i).setIceRole_same
    refine h.setSession hinitiator htiebreaker (h.consistent i).setIceRole fun hstays => ?_
    rw [hposted, hswitch]
    exact h.stays i hstays

theorem setSession_switches_le {s : Session} (hle : (w.session i).switches ≤ s.switches)
    (j : Side) : (w.session j).switches ≤ ((w.setSession i s).session j).switches := by
  unfold World.setSession
  dsimp only
  by_cases hj : j = i
  · subst hj
    rwa [Function.update_self]
  · rw [Function.update_of_ne hj]

/-- A session that has switched has switched forever. -/
theorem World.Next.switches_le {w' : World} (hnext : w.Next w') (j : Side) :
    (w.session j).switches ≤ (w'.session j).switches := by
  obtain ⟨event, -, rfl⟩ := hnext
  cases event with
  | createTransport i =>
    have hle : (w.session i).switches ≤ (w.session i).createTransport.switches := le_refl _
    exact setSession_switches_le hle j
  | ping i n options =>
    unfold World.step World.ping
    dsimp only
    split <;> exact le_refl _
  | request i n usernameFragment remoteUfrag stunMsg =>
    unfold World.step World.onRequest
    dsimp only
    split
    · exact le_refl _
    · have hle : ∀ action, (w.session j).switches ≤
          ((w.setSession i ((w.session i).onPortAction action)).session j).switches :=
        fun action => setSession_switches_le
          (Nat.le_of_eq ((w.session i).onPortAction_same action).2.2.symm) j
      unfold World.sendError
      split <;> exact hle _
  | errorResponse i errorCode =>
    exact setSession_switches_le (Nat.le_of_eq ((w.session i).onPortAction_same _).2.2.symm) j
  | roleConflict i => exact setSession_switches_le (w.session i).onRoleConflict_same.2.2 j
  | setIceRole i =>
    exact setSession_switches_le (Nat.le_of_eq (w.session i).setIceRole_same.2.2.2.2.symm) j

/-! ## Runs -/

theorem resolved_of_run (hdistinct : ∀ i : Side, tiebreaker i ≠ tiebreaker i.other)
    (h : Relation.ReflTransGen World.Next (World.start initiator tiebreaker) w) :
    Resolved initiator tiebreaker w := by
  induction h with
  | refl => exact resolved_start
  | tail _ hnext ih => exact ih.next hdistinct hnext

theorem switches_le_of_run {w' : World} (h : Relation.ReflTransGen World.Next w w') (j : Side) :
    (w.session j).switches ≤ (w'.session j).switches := by
  induction h with
  | refl => exact le_refl _
  | tail _ hnext ih => exact ih.trans (hnext.switches_le j)

theorem Resolved.yields_of_switched (h : Resolved initiator tiebreaker w)
    (hswitched : 0 < (w.session i).switches) :
    (w.session i).roleSwitch = true ∧ Yields initiator tiebreaker i := by
  have hswitches := (h.consistent i).switches
  by_cases hswitch : (w.session i).roleSwitch = true
  · refine ⟨hswitch, ?_⟩
    by_contra hstays
    rw [(h.stays i hstays).2] at hswitch
    cases hswitch
  · rw [if_neg hswitch] at hswitches
    omega

/-- Once one session has switched, it has the role that the other one does not have. -/
theorem Resolved.opposite (h : Resolved initiator tiebreaker w)
    (hdistinct : ∀ i : Side, tiebreaker i ≠ tiebreaker i.other)
    (hswitched : 0 < (w.session i).switches) : (w.session i).role ≠ (w.session i.other).role := by
  obtain ⟨hswitch, hyields⟩ := h.yields_of_switched hswitched
  have hother := (h.stays i.other (hyields.asymm hdistinct)).2
  have hinitiator : (w.session i.other).initiator = (w.session i).initiator := by
    rw [(h.same i).1, (h.same i.other).1, hyields.1]
  unfold Session.role Session.switchedRole Session.initialRole
  rw [if_pos hswitch, hother, if_neg Bool.false_ne_true, hinitiator]
  cases (w.session i).initiator <;> decide

end World

/-- Two sessions with different tiebreakers, after any events: not both have
switched their roles, none has more than once, and none at all if the roles were
opposite in the beginning. From the moment on at which one has switched, the roles
of the two are opposite, and so are those of the transports that were there and
have been told. -/
theorem role_conflict_resolved (initiator : Side → Bool) (tiebreaker : Side → BitVec 64)
    (hdistinct : tiebreaker .left ≠ tiebreaker .right) (w : World)
    (h : Relation.ReflTransGen World.Next (World.start initiator tiebreaker) w) :
    ¬ (0 < (w.session .left).switches ∧ 0 < (w.session .right).switches) ∧
      (∀ i, (w.session i).switches ≤ 1) ∧
      (initiator .left ≠ initiator .right → ∀ i, (w.session i).switches = 0) ∧
      ∀ i, 0 < (w.session i).switches → ∀ w', Relation.ReflTransGen World.Next w w' →
        (w'.session .left).role ≠ (w'.session .right).role ∧
          ∀ t t', (w'.session .left).Settled t → (w'.session .right).Settled t' →
            t.iceRole ≠ t'.iceRole := by
  have hne : ∀ i : Side, tiebreaker i ≠ tiebreaker i.other := by
    intro i
    cases i with
    | left => exact hdistinct
    | right => exact hdistinct.symm
  have hw := resolved_of_run hne h
  refine ⟨?_, fun i => ?_, fun hopposite i => ?_, fun i hswitched w' hrun => ?_⟩
  · rintro ⟨hleft, hright⟩
    exact (hw.yields_of_switched hleft).2.asymm hne (hw.yields_of_switched hright).2
  · rw [(hw.consistent i).switches]
    split <;> omega
  · by_contra hswitched
    have hyields := (hw.yields_of_switched (Nat.pos_of_ne_zero hswitched)).2
    cases i with
    | left => exact hopposite hyields.1
    | right => exact hopposite hyields.1.symm
  · have hw' := resolved_of_run hne (h.trans hrun)
    have hroles : (w'.session .left).role ≠ (w'.session .right).role := by
      have hlater := hw'.opposite hne (hswitched.trans_le (switches_le_of_run hrun i))
      cases i with
      | left => exact hlater
      | right => exact hlater.symm
    refine ⟨hroles, fun t t' ht ht' => ?_⟩
    rw [(hw'.consistent .left).settled t ht, (hw'.consistent .right).settled t' ht']
    exact hroles

/-- Two initiators with a transport each, the left one with the smaller tiebreaker. -/
def twoInitiators : World :=
  ((World.start (fun _ => true) fun i => if i = .left then 1 else 2).step
    (.createTransport .left)).step (.createTransport .right)

def pingOptions : RequestOptions := ⟨[0x61, 0x3A, 0x62], none, true, 1⟩

/-- The left one after a request of the right one has arrived. -/
def switchedWorld : World :=
  (((twoInitiators.step (.ping .right 0 pingOptions)).step
    (.request .left 0 [0x61] [0x62] (prepare .ICEROLE_CONTROLLING 2 pingOptions))).step
      (.roleConflict .left)).step (.setIceRole .left)

theorem switchedWorld_run : Relation.ReflTransGen World.Next
    (World.start (fun _ => true) fun i => if i = .left then 1 else 2) switchedWorld := by
  refine (((((Relation.ReflTransGen.refl.tail ⟨.createTransport .left, trivial, rfl⟩).tail
    ⟨.createTransport .right, trivial, rfl⟩).tail ⟨.ping .right 0 pingOptions, trivial, rfl⟩).tail
    ⟨.request .left 0 [0x61] [0x62] (prepare .ICEROLE_CONTROLLING 2 pingOptions), ?_, rfl⟩).tail
    ⟨.roleConflict .left, ?_, rfl⟩).tail ⟨.setIceRole .left, trivial, rfl⟩
  · exact List.mem_cons_self
  · exact Nat.zero_lt_one

/-- The left one has switched; whatever happens then, the roles are opposite. -/
theorem role_conflict_resolved_initiators :
    (switchedWorld.session .left).transports = [⟨.ICEROLE_CONTROLLED, false⟩] ∧
      ∀ w', Relation.ReflTransGen World.Next switchedWorld w' →
        (w'.session .left).role ≠ (w'.session .right).role := by
  refine ⟨by decide, fun w' hrun => ?_⟩
  exact ((role_conflict_resolved _ _ (by decide) switchedWorld switchedWorld_run).2.2.2 .left
    (by decide) w' hrun).1

end PerchWebrtc.Ice
