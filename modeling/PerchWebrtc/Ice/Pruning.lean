import PerchWebrtc.Ice.Channel

/-!
# Pruning the connections of a channel

What `SortConnections` (`p2ptransportchannel.cc`) prunes, for every set of connections.

* `prune_object`: one connection; the pointers stay;
* `getBestConnectionOnNetwork_congr`, `foldl_pruneNetwork_prunes`: while the networks are looked
  at, the connection in use on each of them stays what it was;
* `sortConnections_prunes`: the whole call.
-/

namespace PerchWebrtc.Ice

/-- What `Prune` makes of a connection. -/
def Connection.prune (c : Connection) : Connection :=
  { c with pruned := true, writeState := .STATE_WRITE_TIMEOUT }

/-- What is compared, and the network. -/
theorem compareConnectionCandidates_prune (a b : Connection) :
    compareConnectionCandidates a b.prune = compareConnectionCandidates a b := rfl

theorem StateChange.apply_of_isOld {change : StateChange} {c : Connection}
    (h : change.isOld c = true) : change.apply c = c := by
  cases change with
  | write value =>
    obtain rfl : value = c.writeState := by simpa [isOld] using h
    rfl
  | read value =>
    obtain rfl : value = c.readState := by simpa [isOld] using h
    rfl

theorem StateChange.apply_pruned (change : StateChange) (c : Connection) :
    (change.apply c).pruned = c.pruned := by
  cases change <;> rfl

namespace P2PTransportChannel

variable {α : Type*} {s t : P2PTransportChannel α}

/-! ## The connection in use on a network -/

theorem getBestConnectionOnNetwork_network {network : Nat} {primier : α}
    (h : s.getBestConnectionOnNetwork network = some primier) :
    (s.object primier).network = network := by
  rw [getBestConnectionOnNetwork] at h
  cases hbest : s.bestConnection.filter fun conn => (s.object conn).network = network with
  | none =>
    rw [hbest] at h
    simpa using List.find?_some h
  | some conn =>
    rw [hbest] at h
    obtain rfl : conn = primier := Option.some.inj h
    simpa using (Option.filter_eq_some_iff.mp hbest).2

/-- The best connection wins on its network. -/
theorem getBestConnectionOnNetwork_best {conn : α} (h : s.bestConnection = some conn) :
    s.getBestConnectionOnNetwork (s.object conn).network = some conn := by
  rw [getBestConnectionOnNetwork, h, Option.filter_some, if_pos (by simp)]

theorem getBestConnectionOnNetwork_mem {network : Nat} {primier : α}
    (h : s.getBestConnectionOnNetwork network = some primier) :
    s.bestConnection = some primier ∨ primier ∈ s.connections := by
  rw [getBestConnectionOnNetwork] at h
  cases hbest : s.bestConnection.filter fun conn => (s.object conn).network = network with
  | none =>
    rw [hbest] at h
    exact .inr (List.mem_of_find?_eq_some h)
  | some conn =>
    rw [hbest] at h
    obtain rfl : conn = primier := Option.some.inj h
    exact .inl (Option.filter_eq_some_iff.mp hbest).1

theorem getBestConnectionOnNetwork_congr (hbest : s.bestConnection = t.bestConnection)
    (hconnections : s.connections = t.connections)
    (hnetwork : ∀ conn, (s.object conn).network = (t.object conn).network) (network : Nat) :
    s.getBestConnectionOnNetwork network = t.getBestConnectionOnNetwork network := by
  simp only [getBestConnectionOnNetwork, hbest, hconnections, hnetwork]

/-- A writable connection is in use on the network, and compares at least as high. -/
def Yields (t : P2PTransportChannel α) (conn : α) : Prop :=
  ∃ primier, t.getBestConnectionOnNetwork (t.object conn).network = some primier ∧
    primier ≠ conn ∧ (t.object primier).writable ∧
    0 ≤ compareConnectionCandidates (t.object primier) (t.object conn)

/-- The later channel is the earlier one, with some of those that yield pruned. -/
structure Prunes (t s : P2PTransportChannel α) : Prop where
  best : s.bestConnection = t.bestConnection
  connections : s.connections = t.connections
  object : ∀ conn, s.object conn = t.object conn ∨
    t.Yields conn ∧ s.object conn = (t.object conn).prune

theorem Prunes.network (h : Prunes t s) (conn : α) :
    (s.object conn).network = (t.object conn).network := by
  rcases h.object conn with heq | ⟨-, heq⟩
  · rw [heq]
  · rw [heq]
    rfl

/-- The connection in use on a network does not yield. -/
theorem Prunes.primier (h : Prunes t s) {network : Nat} {primier : α}
    (hp : t.getBestConnectionOnNetwork network = some primier) :
    s.object primier = t.object primier := by
  refine (h.object primier).resolve_right fun hyields => ?_
  obtain ⟨⟨other, hother, hne, -⟩, -⟩ := hyields
  rw [getBestConnectionOnNetwork_network hp, hp] at hother
  exact hne (Option.some.inj hother).symm

theorem Prunes.compare (h : Prunes t s) (a : Connection) (conn : α) :
    compareConnectionCandidates a (s.object conn) =
      compareConnectionCandidates a (t.object conn) := by
  rcases h.object conn with heq | ⟨-, heq⟩
  · rw [heq]
  · rw [heq, compareConnectionCandidates_prune]

variable [DecidableEq α]

/-! ## One connection -/

theorem changeState_object (conn : α) (change : StateChange) (s : P2PTransportChannel α) :
    (s.changeState conn change).object =
      Function.update s.object conn (change.apply (s.object conn)) := by
  rw [changeState]
  by_cases hold : change.isOld (s.object conn)
  · rw [if_pos hold, StateChange.apply_of_isOld hold]
    exact (Function.update_eq_self conn s.object).symm
  · rw [if_neg hold, onConnectionStateChange]
    split_ifs <;> rfl

/-- A connection that is not writable is not the one that is waited for. -/
theorem changeState_pointers (conn : α) (value : WriteState) (s : P2PTransportChannel α)
    (h : value ≠ .STATE_WRITABLE) :
    (s.changeState conn (.write value)).bestConnection = s.bestConnection ∧
      (s.changeState conn (.write value)).connections = s.connections := by
  rw [changeState]
  split_ifs
  · exact ⟨rfl, rfl⟩
  · rw [onConnectionStateChange]
    have hnot : ¬(some conn = (s.setObject conn
        ((StateChange.write value).apply (s.object conn))).pendingBestConnection ∧
        ((s.setObject conn ((StateChange.write value).apply (s.object conn))).object conn).writable) := by
      simp [setObject, StateChange.apply, Connection.writable, h]
    rw [if_neg hnot]
    split_ifs <;> exact ⟨rfl, rfl⟩

theorem prune_object (conn : α) (s : P2PTransportChannel α) :
    (s.prune conn).object =
      if (s.object conn).pruned then s.object
      else Function.update s.object conn (s.object conn).prune := by
  rw [prune]
  split_ifs
  · rfl
  · rw [changeState_object]
    simp [setObject, StateChange.apply, Connection.prune]

theorem prune_pointers (conn : α) (s : P2PTransportChannel α) :
    (s.prune conn).bestConnection = s.bestConnection ∧
      (s.prune conn).connections = s.connections := by
  rw [prune]
  split_ifs
  · exact ⟨rfl, rfl⟩
  · exact changeState_pointers conn .STATE_WRITE_TIMEOUT _ (by decide)

/-! ## The networks -/

theorem Prunes.prune (h : Prunes t s) {conn : α} (hconn : t.Yields conn) :
    Prunes t (s.prune conn) := by
  obtain ⟨hbest, hconnections⟩ := prune_pointers conn s
  refine ⟨hbest.trans h.best, hconnections.trans h.connections, fun other => ?_⟩
  rw [prune_object]
  split_ifs with hpruned
  · exact h.object other
  · by_cases heq : other = conn
    · subst heq
      rw [Function.update_self]
      rcases h.object other with hsame | ⟨-, hdone⟩
      · exact .inr ⟨hconn, by rw [hsame]⟩
      · exact absurd (by rw [hdone]; rfl) hpruned
    · rw [Function.update_of_ne heq]
      exact h.object other

theorem Prunes.pruneNetwork (h : Prunes t s) (network : Nat) :
    Prunes t (s.pruneNetwork network) := by
  rw [P2PTransportChannel.pruneNetwork]
  have hprimier : s.getBestConnectionOnNetwork network = t.getBestConnectionOnNetwork network :=
    getBestConnectionOnNetwork_congr h.best h.connections h.network network
  cases hp : t.getBestConnectionOnNetwork network with
  | none =>
    rw [hprimier, hp]
    exact h
  | some primier =>
    rw [hprimier, hp]
    dsimp only
    by_cases hwritable : (s.object primier).writable
    · rw [if_neg (not_not.mpr hwritable)]
      -- Each connection of the network that is pruned yields.
      rw [h.primier hp] at hwritable
      have hfold : ∀ (conns : List α) {s : P2PTransportChannel α}, Prunes t s →
          Prunes t (conns.foldl (fun s conn =>
            if conn ≠ primier ∧ (s.object conn).network = network ∧
              compareConnectionCandidates (s.object primier) (s.object conn) ≥ 0 then s.prune conn
            else s) s) := by
        intro conns
        induction conns with
        | nil => exact fun h => h
        | cons conn conns ih =>
          intro s h
          rw [List.foldl_cons]
          refine ih ?_
          split_ifs with hprune
          · obtain ⟨hne, hnetwork, hcompare⟩ := hprune
            rw [h.network] at hnetwork
            rw [h.primier hp, h.compare] at hcompare
            exact h.prune ⟨primier, hnetwork ▸ hp, hne.symm, hwritable, hcompare⟩
          · exact h
      exact hfold s.connections h
    · rw [if_pos hwritable]
      exact h

theorem foldl_pruneNetwork_prunes (t : P2PTransportChannel α) (networks : List Nat) :
    Prunes t (networks.foldl (fun s network => s.pruneNetwork network) t) := by
  have hfold : ∀ (networks : List Nat) {s : P2PTransportChannel α}, Prunes t s →
      Prunes t (networks.foldl (fun s network => s.pruneNetwork network) s) := by
    intro networks
    induction networks with
    | nil => exact fun h => h
    | cons network networks ih =>
      intro s h
      exact ih (h.pruneNetwork network)
  exact hfold networks ⟨rfl, rfl, fun _ => .inl rfl⟩

/-! ## Sorting -/

theorem changeState_pruned (conn : α) (change : StateChange) (s : P2PTransportChannel α)
    (other : α) : ((s.changeState conn change).object other).pruned = (s.object other).pruned := by
  rw [changeState_object]
  by_cases heq : other = conn
  · subst heq
    rw [Function.update_self, StateChange.apply_pruned]
  · rw [Function.update_of_ne heq]

/-- An update of the states prunes nothing. -/
theorem updateConnectionStates_pruned (changes : α → List StateChange) (s : P2PTransportChannel α)
    (other : α) :
    ((s.updateConnectionStates changes).object other).pruned = (s.object other).pruned := by
  have hone : ∀ (conn : α) (l : List StateChange) (s : P2PTransportChannel α),
      ((l.foldl (fun s change => s.changeState conn change) s).object other).pruned =
        (s.object other).pruned := by
    intro conn l
    induction l with
    | nil => exact fun _ => rfl
    | cons change l ih => exact fun s => (ih _).trans (changeState_pruned conn change s other)
  have hall : ∀ (conns : List α) (s : P2PTransportChannel α),
      ((conns.foldl (fun s conn =>
        (changes conn).foldl (fun s change => s.changeState conn change) s) s).object other).pruned =
          (s.object other).pruned := by
    intro conns
    induction conns with
    | nil => exact fun _ => rfl
    | cons conn conns ih => exact fun s => (ih _).trans (hone conn (changes conn) s)
  exact hall s.connections s

theorem switchToTop_object (s : P2PTransportChannel α) : s.switchToTop.object = s.object := by
  rw [switchToTop]
  split_ifs <;> rfl

/-- The channel once its connections are sorted, and the same with some of them pruned. -/
theorem sortConnections_spec (changes : α → List StateChange) (s : P2PTransportChannel α) :
    ∃ t, (∀ conn, (t.object conn).pruned = (s.object conn).pruned) ∧
      Prunes t (s.sortConnections changes) := by
  refine ⟨({ s.updateConnectionStates changes with sortDirty := false } :
    P2PTransportChannel α).sort.switchToTop, fun conn => ?_, ?_⟩
  · rw [switchToTop_object]
    exact updateConnectionStates_pruned changes s conn
  · have h := foldl_pruneNetwork_prunes
      ({ s.updateConnectionStates changes with sortDirty := false } :
        P2PTransportChannel α).sort.switchToTop
      ({ s.updateConnectionStates changes with sortDirty := false } :
        P2PTransportChannel α).networks
    rw [sortConnections]
    dsimp only
    split_ifs
    · exact ⟨h.best, h.connections, h.object⟩
    · rw [handleNotWritable]
      split_ifs <;> exact ⟨h.best, h.connections, h.object⟩

/-- The best connection is not pruned, and what is pruned shares its network with a writable
connection that is not, and that compares at least as high. -/
theorem sortConnections_prunes (changes : α → List StateChange) (s : P2PTransportChannel α) :
    let s' := s.sortConnections changes
    (∀ conn, s'.bestConnection = some conn →
      (s'.object conn).pruned = (s.object conn).pruned) ∧
    ∀ conn, (s.object conn).pruned = false → (s'.object conn).pruned = true →
      ∃ other, (s'.bestConnection = some other ∨ other ∈ s'.connections) ∧
        (s'.object other).network = (s'.object conn).network ∧
        (s'.object other).writable ∧ (s'.object other).pruned = (s.object other).pruned ∧
        0 ≤ compareConnectionCandidates (s'.object other) (s'.object conn) := by
  intro s'
  obtain ⟨t, hpruned, h⟩ := sortConnections_spec changes s
  refine ⟨fun conn hbest => ?_, fun conn hbefore hafter => ?_⟩
  · rw [h.best] at hbest
    rw [h.primier (getBestConnectionOnNetwork_best hbest), hpruned]
  · rcases h.object conn with heq | ⟨⟨other, hother, -, hwritable, hcompare⟩, -⟩
    · rw [heq, hpruned, hbefore] at hafter
      exact absurd hafter (by decide)
    · have hkept : s'.object other = t.object other := h.primier hother
      refine ⟨other, ?_, ?_, ?_, ?_, ?_⟩
      · rw [h.best, h.connections]
        exact getBestConnectionOnNetwork_mem hother
      · rw [hkept, getBestConnectionOnNetwork_network hother, h.network]
      · rw [hkept]
        exact hwritable
      · rw [hkept, hpruned]
      · rw [hkept, h.compare]
        exact hcompare

/-- The better of two connections becomes unreliable, while the one that was pruned for it answers
a ping; a third one is then pruned for that. -/
theorem not_sortConnections_prunes :
    let none : Nat → List StateChange := fun _ => []
    ∃ s ∈ Machine.run (Machine.attempt step) (some (start fun _ => ({} : Connection)))
        [.addConnection 1 { priority := 5 }, .addConnection 2 { priority := 9 },
          .changeState 2 (.write .STATE_WRITABLE), .sort none,
          .changeState 2 (.write .STATE_WRITE_UNRELIABLE), .changeState 1 (.write .STATE_WRITABLE),
          .addConnection 3 { priority := 4 }],
      let s' := s.sortConnections none
      (s.object 3).pruned = false ∧ (s'.object 3).pruned = true ∧ s'.bestConnection = some 1 ∧
        s'.connections = [1, 2, 3] ∧
        ∀ other ∈ s'.connections, (s'.object other).writable → (s'.object other).pruned = true := by
  decide +kernel

end P2PTransportChannel

end PerchWebrtc.Ice
