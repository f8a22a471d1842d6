import PerchWebrtc.Relay.Server

/-!
# The map of connections of a relay server

`connections_` has one entry for each connection of each binding, until a client
asks to send to an external address where another binding has a connection.

* `Frame`: what leaves the map and the connections alone;
* `Exact`: each connection has an entry, and there are no others;
* `exact_iff`: the runs in which no entry is replaced and no entry is missing.
-/

namespace PerchWebrtc.Relay

open Net (SocketAddress SocketAddressPair)
open Stun (StunMessage)

/-- No entry is replaced, and the entry that is erased is the connection's own. -/
def ServerAction.Clean : ServerAction → Prop
  | .added _ _ replaced => replaced = none
  | .removed _ id erased => erased = some id
  | _ => True

def RelayServer.Clean (s : RelayServer) : Prop := ∀ a ∈ s.log, a.Clean

/-- The map contains the connections of all bindings, each under its own pair of
addresses. -/
structure Exact (s : RelayServer) : Prop where
  entries : s.connections.Perm (s.conns.map fun c => (c.addrPair, c.id))
  pairs : (s.conns.map fun c => c.addrPair.key).Nodup
  ids : (s.conns.map fun c => c.id).Nodup
  fresh : ∀ c ∈ s.conns, c.id < s.nextId
  owned : ∀ c ∈ s.conns, c.binding ∈ s.bindings.map fun b => b.username

/-! ## Steps that leave the map alone -/

/-- What does not change about a connection. -/
def RelayServerConnection.identity (c : RelayServerConnection) :
    Nat × SocketAddressPair × List Byte := (c.id, c.addrPair, c.binding)

structure Frame (s s' : RelayServer) : Prop where
  connections : s'.connections = s.connections
  conns : s'.conns.map RelayServerConnection.identity = s.conns.map RelayServerConnection.identity
  bindings : s'.bindings.map (fun b => b.username) = s.bindings.map fun b => b.username
  nextId : s'.nextId = s.nextId
  clean : s'.Clean ↔ s.Clean

section Frame

variable {s s' s'' : RelayServer}

theorem Frame.refl (s : RelayServer) : Frame s s := ⟨rfl, rfl, rfl, rfl, Iff.rfl⟩

theorem Frame.trans (h : Frame s s') (h' : Frame s' s'') : Frame s s'' where
  connections := h'.connections.trans h.connections
  conns := h'.conns.trans h.conns
  bindings := h'.bindings.trans h.bindings
  nextId := h'.nextId.trans h.nextId
  clean := h'.clean.trans h.clean

theorem Frame.lookup (h : Frame s s') (ap : SocketAddressPair) : s'.lookup ap = s.lookup ap := by
  rw [RelayServer.lookup, RelayServer.lookup, h.connections]

theorem Frame.map_conns (h : Frame s s') {β : Type} (f : Nat × SocketAddressPair × List Byte → β) :
    s'.conns.map (fun c => f c.identity) = s.conns.map fun c => f c.identity := by
  have hmap := congrArg (List.map f) h.conns
  rw [List.map_map, List.map_map] at hmap
  exact hmap

theorem Frame.exists_conn (h : Frame s s') {c : RelayServerConnection} (hc : c ∈ s'.conns) :
    ∃ d ∈ s.conns, d.identity = c.identity := by
  have hmem : c.identity ∈ s'.conns.map RelayServerConnection.identity := List.mem_map_of_mem hc
  rw [h.conns] at hmem
  exact List.mem_map.mp hmem

theorem Frame.exact (h : Frame s s') (hs : Exact s) : Exact s' where
  entries := by
    rw [h.connections]
    exact hs.entries.trans (List.Perm.of_eq (h.map_conns fun i => (i.2.1, i.1)).symm)
  pairs := (h.map_conns fun i => i.2.1.key) ▸ hs.pairs
  ids := (h.map_conns fun i => i.1) ▸ hs.ids
  fresh := fun c hc => by
    obtain ⟨d, hd, hidentity⟩ := h.exists_conn hc
    have hid : d.id = c.id := congrArg Prod.fst hidentity
    rw [h.nextId, ← hid]
    exact hs.fresh d hd
  owned := fun c hc => by
    obtain ⟨d, hd, hidentity⟩ := h.exists_conn hc
    have hbinding : d.binding = c.binding := congrArg (fun i => i.2.2) hidentity
    rw [h.bindings, ← hbinding]
    exact hs.owned d hd

theorem frame_logged (s : RelayServer) {a : ServerAction} (ha : a.Clean) : Frame s (s.logged a) where
  connections := rfl
  conns := rfl
  bindings := rfl
  nextId := rfl
  clean := by
    constructor
    · exact fun h b hb => h b (List.mem_cons_of_mem _ hb)
    · intro h b hb
      rcases List.mem_cons.mp hb with rfl | hb
      · exact ha
      · exact h b hb

theorem frame_bindings (s : RelayServer) {f : RelayServerBinding → RelayServerBinding}
    (hf : ∀ b, (f b).username = b.username) : Frame s { s with bindings := s.bindings.map f } where
  connections := rfl
  conns := rfl
  bindings := by
    dsimp only
    rw [List.map_map]
    exact List.map_congr_left fun b _ => hf b
  nextId := rfl
  clean := Iff.rfl

theorem frame_noteUsed (s : RelayServer) (username : List Byte) (now : BitVec 32) :
    Frame s (s.noteUsed username now) :=
  frame_bindings s fun b => by split <;> rfl

theorem frame_onLifetimeTimer (s : RelayServer) (now : BitVec 32) (username : List Byte) :
    Frame s (s.onLifetimeTimer now username) :=
  frame_bindings s fun b => by split <;> rfl

theorem frame_updateConnection (s : RelayServer) (id : Nat)
    {f : RelayServerConnection → RelayServerConnection} (hf : ∀ c, (f c).identity = c.identity) :
    Frame s (s.updateConnection id f) where
  connections := rfl
  conns := by
    unfold RelayServer.updateConnection
    dsimp only
    rw [List.map_map]
    refine List.map_congr_left fun c _ => ?_
    dsimp only [Function.comp]
    split
    · exact hf c
    · rfl
  bindings := rfl
  nextId := rfl
  clean := Iff.rfl

theorem frame_lock (s : RelayServer) (id : Nat) : Frame s (s.lock id) :=
  frame_updateConnection s id fun _ => rfl

theorem frame_send (s : RelayServer) (now : BitVec 32) (conn : RelayServerConnection)
    (data : List Byte) : Frame s (s.send now conn data) :=
  (frame_noteUsed s conn.binding now).trans (frame_logged _ trivial)

theorem frame_sendFrom (s : RelayServer) (now : BitVec 32) (conn : RelayServerConnection)
    (data : List Byte) (fromAddr : SocketAddress) : Frame s (s.sendFrom now conn data fromAddr) := by
  unfold RelayServer.sendFrom
  split
  · exact frame_send s now conn data
  · exact (frame_noteUsed s conn.binding now).trans (frame_logged _ trivial)

theorem frame_sendStunError (s : RelayServer) (remoteAddr : SocketAddress) (errorCode : Nat)
    (errorDesc : String) : Frame s (s.sendStunError remoteAddr errorCode errorDesc) :=
  frame_logged s trivial

theorem frame_handleStunPacket (s : RelayServer) (bytes : List Byte) (remoteAddr : SocketAddress) :
    Frame s (s.handleStunPacket bytes remoteAddr).1 := by
  unfold RelayServer.handleStunPacket
  split
  · exact Frame.refl s
  · split
    · exact frame_sendStunError s remoteAddr _ _
    · exact Frame.refl s

theorem frame_handleStunAllocate (s : RelayServer) (now : BitVec 32)
    (intConn : RelayServerConnection) : Frame s (s.handleStunAllocate now intConn) :=
  (frame_noteUsed s intConn.binding now).trans (frame_logged _ trivial)

theorem frame_handleSendOptions (s : RelayServer) (now : BitVec 32)
    (intConn : RelayServerConnection) (extAddr : SocketAddress) (request : StunMessage) :
    Frame s (s.handleSendOptions now intConn extAddr request) := by
  unfold RelayServer.handleSendOptions
  split
  · exact Frame.refl s
  · split
    · exact (frame_updateConnection s intConn.id
        (f := fun c => { c with defaultDest := extAddr, locked := true }) fun _ => rfl).trans
        ((frame_noteUsed _ intConn.binding now).trans (frame_logged _ trivial))
    · exact Frame.refl s

end Frame

/-! ## Entries of the map -/

section Entries

variable {s : RelayServer} {ap : SocketAddressPair} {c : RelayServerConnection}

theorem equal_self (ap : SocketAddressPair) : ap.equal ap = true :=
  (SocketAddressPair.equal_iff ap ap).mpr rfl

theorem Exact.mem_connections (hs : Exact s) {e : SocketAddressPair × Nat} :
    e ∈ s.connections ↔ ∃ c ∈ s.conns, (c.addrPair, c.id) = e := by
  rw [hs.entries.mem_iff, List.mem_map]

theorem Exact.lookup_none_iff (hs : Exact s) :
    s.lookup ap = none ↔ ∀ c ∈ s.conns, c.addrPair.key ≠ ap.key := by
  rw [RelayServer.lookup, Option.map_eq_none_iff, List.find?_eq_none]
  constructor
  · intro h c hc hkey
    exact h _ (hs.mem_connections.mpr ⟨c, hc, rfl⟩)
      ((SocketAddressPair.equal_iff c.addrPair ap).mpr hkey)
  · intro h e he hequal
    obtain ⟨c, hc, rfl⟩ := hs.mem_connections.mp he
    exact h c hc ((SocketAddressPair.equal_iff c.addrPair ap).mp hequal)

/-- A connection is found under its own pair. -/
theorem Exact.lookup_own (hs : Exact s) (hc : c ∈ s.conns) : s.lookup c.addrPair = some c.id := by
  cases hlookup : s.lookup c.addrPair with
  | none => exact absurd rfl (hs.lookup_none_iff.mp hlookup c hc)
  | some id =>
    obtain ⟨e, hfind, rfl⟩ := Option.map_eq_some_iff.mp hlookup
    have hequal : e.1.equal c.addrPair = true :=
      List.find?_some (p := fun e : SocketAddressPair × Nat => e.1.equal c.addrPair) hfind
    obtain ⟨d, hd, rfl⟩ := hs.mem_connections.mp (List.mem_of_find?_eq_some hfind)
    have hsame : d = c := List.inj_on_of_nodup_map hs.pairs hd hc
      ((SocketAddressPair.equal_iff d.addrPair c.addrPair).mp hequal)
    rw [hsame]

end Entries

/-! ## Connections that are added and deleted -/

/-- A step that adds to the map only if a condition holds. -/
structure Adds (s s' : RelayServer) (P : Prop) : Prop where
  clean_iff : s'.Clean ↔ s.Clean ∧ P
  exact : P → Exact s'

section Steps

variable {s s' s'' : RelayServer} {P : Prop} {c : RelayServerConnection}

theorem Frame.adds (h : Frame s s') (hs : Exact s) (hP : P) : Adds s s' P where
  clean_iff := by rw [h.clean, and_iff_left hP]
  exact := fun _ => h.exact hs

theorem Adds.frame (h : Adds s s' P) (h' : Frame s' s'') : Adds s s'' P where
  clean_iff := h'.clean.trans h.clean_iff
  exact := fun hP => h'.exact (h.exact hP)

theorem Adds.congr {Q : Prop} (h : Adds s s' P) (hPQ : P ↔ Q) : Adds s s' Q where
  clean_iff := by rw [h.clean_iff, hPQ]
  exact := fun hQ => h.exact (hPQ.mpr hQ)

theorem Frame.trans_adds (h : Frame s s') (h' : Adds s' s'' P) : Adds s s'' P where
  clean_iff := by rw [h'.clean_iff, h.clean]
  exact := h'.exact

theorem clean_logged (s : RelayServer) (a : ServerAction) :
    (s.logged a).Clean ↔ s.Clean ∧ a.Clean := by
  unfold RelayServer.Clean RelayServer.logged
  rw [List.forall_mem_cons, and_comm]

/-- A connection with a new pointer, whose pair has no entry. -/
theorem Exact.append (hs : Exact s) (hid : c.id = s.nextId)
    (howner : c.binding ∈ s.bindings.map fun b => b.username)
    (hnone : s.lookup c.addrPair = none) (log : List ServerAction) :
    Exact { s with
      connections := (c.addrPair, c.id) :: s.connections
      conns := s.conns ++ [c]
      nextId := s.nextId + 1
      log := log } where
  entries := by
    rw [List.map_append]
    exact (hs.entries.cons _).trans (List.perm_append_singleton _ _).symm
  pairs := by
    rw [List.map_append, List.map_singleton, List.nodup_append]
    refine ⟨hs.pairs, List.nodup_singleton _, fun k hk k' hk' => ?_⟩
    obtain ⟨d, hd, rfl⟩ := List.mem_map.mp hk
    rw [List.mem_singleton.mp hk']
    exact hs.lookup_none_iff.mp hnone d hd
  ids := by
    rw [List.map_append, List.map_singleton, List.nodup_append]
    refine ⟨hs.ids, List.nodup_singleton _, fun k hk k' hk' => ?_⟩
    obtain ⟨d, hd, rfl⟩ := List.mem_map.mp hk
    rw [List.mem_singleton.mp hk', hid]
    exact Nat.ne_of_lt (hs.fresh d hd)
  fresh := fun d hd => by
    rcases List.mem_append.mp hd with hd | hd
    · exact Nat.lt_succ_of_lt (hs.fresh d hd)
    · rw [List.mem_singleton.mp hd, hid]
      exact Nat.lt_succ_self _
  owned := fun d hd => by
    rcases List.mem_append.mp hd with hd | hd
    · exact hs.owned d hd
    · rw [List.mem_singleton.mp hd]
      exact howner

theorem addConnection_of_none (hnone : s.lookup c.addrPair = none) :
    s.addConnection c = { s with
      connections := (c.addrPair, c.id) :: s.connections
      log := .added c.addrPair c.id none :: s.log } := by
  unfold RelayServer.addConnection
  rw [hnone]
  rfl

/-- A connection is added to the map where it has no entry for the pair. -/
theorem Exact.newConnection (hs : Exact s) (now : BitVec 32) {username : List Byte}
    (ap : SocketAddressPair) (internal : Bool)
    (howner : username ∈ s.bindings.map fun b => b.username) :
    Adds s (s.newConnection now username ap internal).1 (s.lookup ap = none) := by
  have hframe := frame_noteUsed s username now
  have hu := hframe.exact hs
  rw [← hframe.bindings] at howner
  rw [← hframe.lookup]
  unfold RelayServer.newConnection
  dsimp only
  have hnext : s.nextId = (s.noteUsed username now).nextId := hframe.nextId.symm
  rw [hnext]
  generalize s.noteUsed username now = u at hframe hu howner
  refine hframe.trans_adds ⟨?_, fun hnone => ?_⟩
  · unfold RelayServer.addConnection
    exact clean_logged _ _
  · rw [addConnection_of_none hnone]
    exact hu.append (c := ⟨u.nextId, username, ap, internal, false, {}⟩) rfl howner hnone _

/-- A connection that is deleted takes its own entry along. -/
theorem Exact.deleteConnection (hs : Exact s) (hc : c ∈ s.conns) :
    Adds s (s.deleteConnection c) True := by
  have hrest : s.conns.Perm (c :: s.conns.filter fun d => decide (d.id ≠ c.id)) := by
    have herase : s.conns.erase c = s.conns.filter fun d => decide (d.id ≠ c.id) := by
      rw [hs.ids.of_map.erase_eq_filter]
      refine List.filter_congr fun d hd => ?_
      have hsame : d = c ↔ d.id = c.id :=
        ⟨congrArg _, fun hid => List.inj_on_of_nodup_map hs.ids hd hc hid⟩
      rw [Bool.eq_iff_iff, bne_iff_ne, decide_eq_true_eq, Ne, hsame]
    exact herase ▸ List.perm_cons_erase hc
  have hsub : (s.conns.filter fun d => decide (d.id ≠ c.id)).Sublist s.conns :=
    List.filter_sublist
  constructor
  · rw [and_true]
    refine (clean_logged _ _).trans ?_
    exact and_iff_left (hs.lookup_own hc)
  · intro _
    refine ⟨?_, hs.pairs.sublist (hsub.map _), hs.ids.sublist (hsub.map _),
      fun d hd => hs.fresh d (hsub.subset hd), fun d hd => hs.owned d (hsub.subset hd)⟩
    have hkeys : s.connections.Pairwise fun e e' => e.1.equal c.addrPair = true →
        e'.1.equal c.addrPair = true → False := by
      have hnodup : (s.connections.map fun e => e.1.key).Nodup := by
        have hmap := hs.entries.map fun e => e.1.key
        rw [List.map_map] at hmap
        exact hmap.nodup_iff.mpr hs.pairs
      refine (List.pairwise_map.mp hnodup).imp fun hne he he' => hne ?_
      exact ((SocketAddressPair.equal_iff _ _).mp he).trans
        ((SocketAddressPair.equal_iff _ _).mp he').symm
    have hperm := (hs.entries.trans (hrest.map _)).eraseP _ hkeys
    rw [List.map_cons, List.eraseP_cons_of_pos] at hperm
    · exact hperm
    · exact equal_self _

theorem Exact.deleteConnections (hs : Exact s) {l : List RelayServerConnection}
    (hl : ∀ c ∈ l, c ∈ s.conns) (hids : (l.map fun c => c.id).Nodup) :
    Adds s (l.foldl RelayServer.deleteConnection s) True ∧
      (l.foldl RelayServer.deleteConnection s).bindings = s.bindings ∧
      ∀ d, d ∈ (l.foldl RelayServer.deleteConnection s).conns ↔
        d ∈ s.conns ∧ ∀ c ∈ l, d.id ≠ c.id := by
  induction l generalizing s with
  | nil =>
    refine ⟨(Frame.refl s).adds hs trivial, rfl, fun d => ?_⟩
    exact (and_iff_left fun c hc => absurd hc List.not_mem_nil).symm
  | cons c l ih =>
    obtain ⟨hne, hids⟩ := List.nodup_cons.mp hids
    have hdelete := hs.deleteConnection (hl c List.mem_cons_self)
    have hkept : ∀ d, d ∈ (s.deleteConnection c).conns ↔ d ∈ s.conns ∧ d.id ≠ c.id := by
      intro d
      exact List.mem_filter.trans (and_congr_right fun _ => decide_eq_true_iff)
    obtain ⟨hadds, hbindings, hconns⟩ := ih (s := s.deleteConnection c) (hdelete.exact trivial)
      (fun d hd => (hkept d).mpr ⟨hl d (List.mem_cons_of_mem _ hd), fun hid =>
        hne (List.mem_map.mpr ⟨d, hd, hid⟩)⟩) hids
    refine ⟨⟨?_, hadds.exact⟩, hbindings, fun d => ?_⟩
    · rw [List.foldl_cons, hadds.clean_iff, hdelete.clean_iff, and_true]
    · rw [List.foldl_cons, hconns, hkept, List.forall_mem_cons, and_assoc]

/-- A binding is deleted with its connections. -/
theorem Exact.deleteBinding (hs : Exact s) (username : List Byte) :
    Adds s (s.deleteBinding username) True := by
  have hmem : ∀ c, c ∈ s.internalConnections username ++ s.externalConnections username ↔
      c ∈ s.conns ∧ c.binding = username := by
    intro c
    unfold RelayServer.internalConnections RelayServer.externalConnections
    rw [List.mem_append, List.mem_filter, List.mem_filter]
    cases c.internal <;> simp
  have hids : ((s.internalConnections username ++ s.externalConnections username).map
      fun c => c.id).Nodup := by
    rw [List.map_append, List.nodup_append]
    refine ⟨hs.ids.sublist (List.filter_sublist.map _), hs.ids.sublist (List.filter_sublist.map _),
      fun i hi j hj hij => ?_⟩
    obtain ⟨c, hc, rfl⟩ := List.mem_map.mp hi
    obtain ⟨d, hd, rfl⟩ := List.mem_map.mp hj
    obtain ⟨hc, hinternal⟩ := List.mem_filter.mp hc
    obtain ⟨hd, hexternal⟩ := List.mem_filter.mp hd
    rw [List.inj_on_of_nodup_map hs.ids hc hd hij] at hinternal
    simp_all
  obtain ⟨hadds, hbindings, hconns⟩ := hs.deleteConnections (fun c hc => ((hmem c).mp hc).1) hids
  have hexact := hadds.exact trivial
  refine ⟨hadds.clean_iff, fun _ => ⟨hexact.entries, hexact.pairs, hexact.ids, hexact.fresh, ?_⟩⟩
  intro c hc
  obtain ⟨b, hb, hname⟩ := List.mem_map.mp (hexact.owned c hc)
  have hother : b.username ≠ username := by
    intro hsame
    obtain ⟨hlive, hnot⟩ := (hconns c).mp hc
    exact hnot c ((hmem c).mpr ⟨hlive, hname.symm.trans hsame⟩) rfl
  refine List.mem_map.mpr ⟨b, (List.mem_eraseP_of_neg ?_).mpr hb, hname⟩
  simpa using hother

end Steps

/-! ## Packets -/

/-- The address that a request of a connection asks to send to. -/
def sendDestination (intConn : RelayServerConnection) (bytes : List Byte) :
    Option SocketAddress := do
  let reading ← StunMessage.read .relay bytes
  let username ← reading.message.getByteString Stun.STUN_ATTR_USERNAME
  if username = intConn.binding ∧ reading.message.type = STUN_SEND_REQUEST then
    let addr ← reading.message.getAddress Stun.STUN_ATTR_DESTINATION_ADDRESS
    let _ ← reading.message.getByteString Stun.STUN_ATTR_DATA
    some { ip := addr.ip, port := addr.port }
  else none

/-- The binding and the address of a send request on an internal socket. -/
def RelayServer.sendRequest (s : RelayServer) (bytes : List Byte) (ap : SocketAddressPair) :
    Option (List Byte × SocketAddress) :=
  match s.lookup ap with
  | none => none
  | some id =>
    match s.connection id with
    | none => none
    | some intConn =>
      if hasMagicCookie bytes then
        (sendDestination intConn bytes).map fun extAddr => (intConn.binding, extAddr)
      else none

/-- A client asks to send to an external address only where its own binding has a
connection for it, or no binding has. -/
def RelayServer.OwnOrNew (s : RelayServer) : Event → Prop
  | .internalPacket _ bytes ap => ∀ username extAddr,
    s.sendRequest bytes ap = some (username, extAddr) →
      s.getExternalConnection username extAddr = none → s.lookup ⟨extAddr, s.externalSocket⟩ = none
  | _ => True

section Packets

variable {s : RelayServer}

theorem Exact.handleStunSend (hs : Exact s) (now : BitVec 32) {intConn : RelayServerConnection}
    (hconn : intConn ∈ s.conns) (request : StunMessage) :
    Adds s (s.handleStunSend now intConn request)
      (∀ addr, request.getAddress Stun.STUN_ATTR_DESTINATION_ADDRESS = some addr →
        (request.getByteString Stun.STUN_ATTR_DATA).isSome = true →
        s.getExternalConnection intConn.binding { ip := addr.ip, port := addr.port } = none →
        s.lookup ⟨{ ip := addr.ip, port := addr.port }, s.externalSocket⟩ = none) := by
  unfold RelayServer.handleStunSend
  cases request.getAddress Stun.STUN_ATTR_DESTINATION_ADDRESS with
  | none => exact (frame_sendStunError s _ _ _).adds hs fun addr h => (by cases h)
  | some addr =>
    cases request.getByteString Stun.STUN_ATTR_DATA with
    | none => exact (frame_sendStunError s _ _ _).adds hs fun addr _ h => (by cases h)
    | some data =>
      dsimp only
      have hsend : ∀ (u : RelayServer) (extConn : RelayServerConnection),
          Frame u ((if extConn.locked = true then u.send now extConn data else u).handleSendOptions
            now intConn { ip := addr.ip, port := addr.port } request) := by
        intro u extConn
        refine Frame.trans ?_ (frame_handleSendOptions _ now intConn _ request)
        split
        · exact frame_send u now extConn data
        · exact Frame.refl u
      cases hext : s.getExternalConnection intConn.binding { ip := addr.ip, port := addr.port } with
      | some extConn =>
        refine (hsend s extConn).adds hs fun addr' haddr _ hnone => ?_
        rw [← Option.some.inj haddr, hext] at hnone
        cases hnone
      | none =>
        have hadds := hs.newConnection now ⟨{ ip := addr.ip, port := addr.port }, s.externalSocket⟩
          false (hs.owned intConn hconn)
        refine (hadds.frame (hsend _ _)).congr ⟨fun hnone addr' haddr _ _ => ?_, fun h => ?_⟩
        · rw [← Option.some.inj haddr]
          exact hnone
        · exact h addr rfl rfl hext

theorem Exact.handleStun (hs : Exact s) (now : BitVec 32) {intConn : RelayServerConnection}
    (hconn : intConn ∈ s.conns) (bytes : List Byte) :
    Adds s (s.handleStun now intConn bytes) (∀ extAddr, sendDestination intConn bytes = some extAddr →
      s.getExternalConnection intConn.binding extAddr = none →
      s.lookup ⟨extAddr, s.externalSocket⟩ = none) := by
  unfold RelayServer.handleStun RelayServer.handleStunPacket sendDestination
  cases StunMessage.read .relay bytes with
  | none => exact (Frame.refl s).adds hs fun extAddr h => (by cases h)
  | some reading =>
    dsimp only [Option.bind_eq_bind, Option.bind_some]
    cases reading.message.getByteString Stun.STUN_ATTR_USERNAME with
    | none => exact (frame_sendStunError s _ _ _).adds hs fun extAddr h => (by cases h)
    | some username =>
      dsimp only [Option.bind_some]
      by_cases hname : username = intConn.binding
      · rw [if_neg (not_not_intro hname)]
        by_cases hsend : reading.message.type = STUN_SEND_REQUEST
        · rw [if_pos hsend, if_pos ⟨hname, hsend⟩]
          refine (hs.handleStunSend now hconn reading.message).congr ?_
          cases reading.message.getAddress Stun.STUN_ATTR_DESTINATION_ADDRESS <;>
            cases reading.message.getByteString Stun.STUN_ATTR_DATA <;> simp
        · have hother : ¬ (username = intConn.binding ∧ reading.message.type = STUN_SEND_REQUEST) :=
            fun h => hsend h.2
          rw [if_neg hsend, if_neg hother]
          refine Frame.adds ?_ hs fun extAddr h => (by cases h)
          split
          · exact frame_handleStunAllocate s now intConn
          · exact frame_sendStunError s _ _ _
      · have hother : ¬ (username = intConn.binding ∧ reading.message.type = STUN_SEND_REQUEST) :=
          fun h => hname h.1
        rw [if_pos hname, if_neg hother]
        exact (frame_sendStunError s _ _ _).adds hs fun extAddr h => (by cases h)

theorem findBinding_isSome {username : List Byte} :
    (s.findBinding username).isSome = true ↔ username ∈ s.bindings.map fun b => b.username := by
  rw [RelayServer.findBinding, List.find?_isSome, List.mem_map]
  exact exists_congr fun b => and_congr_right fun _ => decide_eq_true_iff

theorem Exact.findOrCreateBinding (hs : Exact s) (now : BitVec 32) (username : List Byte)
    (request : StunMessage) :
    ((s.findOrCreateBinding now username request).Clean ↔ s.Clean) ∧
      Exact (s.findOrCreateBinding now username request) ∧
      username ∈ (s.findOrCreateBinding now username request).bindings.map (fun b => b.username) ∧
      ∀ ap, (s.findOrCreateBinding now username request).lookup ap = s.lookup ap := by
  unfold RelayServer.findOrCreateBinding
  split
  · rename_i hfound
    exact ⟨Iff.rfl, hs, findBinding_isSome.mp hfound, fun _ => rfl⟩
  · refine ⟨Iff.rfl, ⟨hs.entries, hs.pairs, hs.ids, hs.fresh, fun c hc => ?_⟩, ?_, fun _ => rfl⟩
    · dsimp only
      rw [List.map_append]
      exact List.mem_append_left _ (hs.owned c hc)
    · dsimp only
      rw [List.map_append]
      exact List.mem_append_right _ (List.mem_singleton.mpr rfl)

/-- An allocate request adds a connection for a pair without an entry. -/
theorem Exact.handleStunAllocatePacket (hs : Exact s) (now : BitVec 32) (bytes : List Byte)
    {ap : SocketAddressPair} (hnone : s.lookup ap = none) :
    Adds s (s.handleStunAllocatePacket now bytes ap) True := by
  unfold RelayServer.handleStunAllocatePacket
  have hpacket := frame_handleStunPacket s bytes ap.source
  revert hpacket
  rcases s.handleStunPacket bytes ap.source with ⟨u, _ | ⟨username, request⟩⟩
  · exact fun hpacket => hpacket.adds hs trivial
  · intro hpacket
    have hu := hpacket.exact hs
    have hnone : u.lookup ap = none := (hpacket.lookup ap).trans hnone
    refine hpacket.trans_adds ?_
    dsimp only
    split
    · exact (frame_sendStunError u _ _ _).adds hu trivial
    · obtain ⟨hclean, hexact, howner, hlookup⟩ := hu.findOrCreateBinding now username request
      have hadds := hexact.newConnection now ap true howner
      have hdone := hadds.frame (frame_handleStunAllocate _ now
        ((u.findOrCreateBinding now username request).newConnection now username ap true).2)
      rw [hlookup] at hdone
      exact ⟨by rw [hdone.clean_iff, hclean, and_iff_left hnone, and_true],
        fun _ => hdone.exact hnone⟩

theorem RelayServer.connection_mem {id : Nat} {c : RelayServerConnection}
    (h : s.connection id = some c) : c ∈ s.conns := List.mem_of_find?_eq_some h

/-- A packet on an internal socket adds a connection that the map has no entry
for, unless it asks to send to the address of another binding's connection. -/
theorem Exact.onInternalPacket (hs : Exact s) (now : BitVec 32) (bytes : List Byte)
    (ap : SocketAddressPair) :
    Adds s (s.onInternalPacket now bytes ap) (s.OwnOrNew (.internalPacket now bytes ap)) := by
  unfold RelayServer.onInternalPacket RelayServer.OwnOrNew RelayServer.sendRequest
  dsimp only
  cases hlookup : s.lookup ap with
  | none =>
    refine (hs.handleStunAllocatePacket now bytes hlookup).congr (iff_of_true trivial ?_)
    exact fun username extAddr h => (by cases h)
  | some id =>
    dsimp only
    cases hconn : s.connection id with
    | none => exact (Frame.refl s).adds hs fun username extAddr h => (by cases h)
    | some intConn =>
      dsimp only
      by_cases hmagic : RelayServer.hasMagicCookie bytes = true
      · rw [if_pos hmagic, if_pos hmagic]
        refine (hs.handleStun now (RelayServer.connection_mem hconn) bytes).congr ?_
        cases sendDestination intConn bytes <;> simp
      · rw [if_neg hmagic, if_neg hmagic]
        refine Frame.adds ?_ hs fun username extAddr h => (by cases h)
        split
        · exact Frame.refl s
        · split
          · exact Frame.refl s
          · split
            · exact frame_send s now _ bytes
            · exact Frame.refl s

/-- A packet on an external socket adds a connection that the map has no entry
for. -/
theorem Exact.onExternalPacket (hs : Exact s) (now : BitVec 32) (bytes : List Byte)
    (ap : SocketAddressPair) : Adds s (s.onExternalPacket now bytes ap) True := by
  unfold RelayServer.onExternalPacket
  cases hlookup : s.lookup ap with
  | none =>
    dsimp only
    unfold RelayServer.handleFirstPacket
    split
    · exact (Frame.refl s).adds hs trivial
    · split
      · exact (Frame.refl s).adds hs trivial
      · split
        · exact (Frame.refl s).adds hs trivial
        · rename_i binding hfind
          have howner : binding.username ∈ s.bindings.map fun b => b.username :=
            List.mem_map_of_mem (List.mem_of_find?_eq_some hfind)
          have hadds := (hs.newConnection now ap false howner).congr (iff_true_intro hlookup)
          refine hadds.frame (Frame.trans (frame_lock _ s.nextId) ?_)
          dsimp only
          split
          · exact Frame.refl _
          · exact frame_sendFrom _ now _ bytes ap.source
  | some id =>
    refine Frame.adds ?_ hs trivial
    dsimp only
    split
    · exact Frame.refl s
    · split
      · exact Frame.refl s
      · exact (frame_sendFrom s now _ bytes _).trans (frame_lock _ _)

/-- An event adds to the map and removes from it as it should exactly if it meets
the condition. -/
theorem Exact.step (hs : Exact s) (event : Event) : Adds s (s.step event) (s.OwnOrNew event) := by
  cases event with
  | internalPacket now bytes ap => exact hs.onInternalPacket now bytes ap
  | externalPacket now bytes ap => exact hs.onExternalPacket now bytes ap
  | lifetimeTimer now username =>
    exact (frame_onLifetimeTimer s now username).adds hs trivial
  | dispose username => exact hs.deleteBinding username

end Packets

/-! ## Runs of a server -/

/-- In every state of a run the map contains the connections of all bindings,
each entry was new when it was added and each connection was removed by its own
entry, exactly if each send request goes to an address for which the client's own
binding has a connection, or no binding. -/
theorem exact_iff {externalSocket : SocketAddress} {trace : List (RelayServer × Event)}
    {s : RelayServer} (h : Run externalSocket trace s) :
    (∀ u ∈ s :: trace.map Prod.fst, Exact u ∧ u.Clean) ↔ ∀ r ∈ trace, r.1.OwnOrNew r.2 := by
  induction h with
  | start =>
    refine iff_of_true (fun u hu => ?_) fun r hr => absurd hr List.not_mem_nil
    rw [List.mem_singleton.mp hu]
    exact ⟨⟨List.Perm.refl _, List.nodup_nil, List.nodup_nil,
      fun c hc => absurd hc List.not_mem_nil, fun c hc => absurd hc List.not_mem_nil⟩,
      fun a ha => absurd ha List.not_mem_nil⟩
  | @step trace s _ event _ ih =>
    rw [List.map_cons, List.forall_mem_cons, ih, List.forall_mem_cons, and_congr_left_iff]
    intro hrest
    obtain ⟨hs, hclean⟩ := ih.mpr hrest s List.mem_cons_self
    have hstep := hs.step event
    constructor
    · exact fun hnext => (hstep.clean_iff.mp hnext.2).2
    · exact fun howner => ⟨hstep.exact howner, hstep.clean_iff.mpr ⟨hclean, howner⟩⟩

/-- The header of a message with the attributes of all requests: the magic cookie
and a user name of one letter. -/
def requestBytes (type length : Byte) (username : Byte) (attributes : List Byte) : List Byte :=
  [0x00, type, 0x00, length, 0x21, 0x12, 0xA4, 0x42, 0, 0, 0, 0, 0, 0, 0, 0, 0, 0, 0, 1,
    0x00, 0x0F, 0x00, 0x04, 0x72, 0xC6, 0x4B, 0xC6,
    0x00, 0x06, 0x00, 0x01, username, 0, 0, 0] ++ attributes

def allocateBytes (username : Byte) : List Byte := requestBytes 0x03 16 username []

/-- A request to send a byte to 1.2.3.4:5000. -/
def sendBytes (username : Byte) : List Byte :=
  requestBytes 0x04 36 username
    [0x00, 0x11, 0x00, 0x08, 0x00, 0x01, 0x13, 0x88, 1, 2, 3, 4,
      0x00, 0x13, 0x00, 0x01, 0xAA, 0, 0, 0]

def externalAddress : SocketAddress := { ip := .v4 0x0A0000FF, port := 7000 }

def clientPair (ip : BitVec 32) : SocketAddressPair :=
  ⟨{ ip := .v4 ip, port := 1000 }, { ip := .v4 0x0A0000FF, port := 5000 }⟩

/-- One client with a binding, before it sends. -/
def allocatedServer : RelayServer :=
  RelayServer.step { externalSocket := externalAddress }
    (.internalPacket 0 (allocateBytes 0x41) (clientPair 0x0A000001))

theorem allocatedServer_run : Run externalAddress
    [({ externalSocket := externalAddress },
      .internalPacket 0 (allocateBytes 0x41) (clientPair 0x0A000001))] allocatedServer :=
  Run.start.step _ trivial

/-- A client that sends to an address of its own. -/
theorem exact_iff_one_client :
    Exact (allocatedServer.step (.internalPacket 1 (sendBytes 0x41) (clientPair 0x0A000001))) := by
  have hrun := allocatedServer_run.step
    (.internalPacket 1 (sendBytes 0x41) (clientPair 0x0A000001)) trivial
  refine ((exact_iff hrun).mpr ?_ _ List.mem_cons_self).1
  intro r hr
  rcases List.mem_cons.mp hr with rfl | hr
  · intro username extAddr hrequest _
    have hsend : allocatedServer.sendRequest (sendBytes 0x41) (clientPair 0x0A000001) =
        some ([0x41], { ip := .v4 0x01020304, port := 5000 }) := by decide +kernel
    rw [(Prod.mk.inj (Option.some.inj (hrequest.symm.trans hsend))).2]
    decide +kernel
  · rw [List.mem_singleton.mp hr]
    intro username extAddr hrequest
    cases hrequest

/-- Two clients, and one sends to the address that the other one has sent to. -/
theorem not_exact_two_clients :
    ∃ trace s, Run externalAddress trace s ∧
      s.log.head? = some (.added ⟨{ ip := .v4 0x01020304, port := 5000 }, externalAddress⟩ 3
        (some 2)) ∧
      ¬ ∀ u ∈ s :: trace.map Prod.fst, Exact u ∧ u.Clean := by
  have hrun := ((allocatedServer_run.step
    (.internalPacket 1 (allocateBytes 0x42) (clientPair 0x0A000002)) trivial).step
    (.internalPacket 2 (sendBytes 0x41) (clientPair 0x0A000001)) trivial).step
    (.internalPacket 3 (sendBytes 0x42) (clientPair 0x0A000002)) trivial
  have hhead : (((allocatedServer.step
      (.internalPacket 1 (allocateBytes 0x42) (clientPair 0x0A000002))).step
      (.internalPacket 2 (sendBytes 0x41) (clientPair 0x0A000001))).step
      (.internalPacket 3 (sendBytes 0x42) (clientPair 0x0A000002))).log.head? =
        some (.added ⟨{ ip := .v4 0x01020304, port := 5000 }, externalAddress⟩ 3 (some 2)) := by
    decide +kernel
  refine ⟨_, _, hrun, hhead, fun hall => ?_⟩
  have hreplaced := (hall _ List.mem_cons_self).2 _ (List.mem_of_head? hhead)
  cases hreplaced

end PerchWebrtc.Relay
