import PerchWebrtc.Framework.SearchTree
import PerchWebrtc.Net.SocketAddress

/-!
# The allocations of a TURN server

`TurnServer::allocations_` (`turnserver.cc`), a map from the connections of the
clients. Its comparison says that one connection is less than another if any of
the source, the destination and the protocol is.

* `Comparable`, `strictWeakOn_of_comparable`: connections on which this is an
  order;
* `Reachable.invariant`: the allocations of the map are those that live;
* `findAllocation_isolated`: a connection finds its own allocation or none;
* `not_isolated_of_not_comparable`: two connections that are not comparable miss
  theirs in some tree.
-/

namespace PerchWebrtc.Turn

open Net (SocketAddress)

inductive ProtocolType where
  | PROTO_UDP
  | PROTO_TCP
  | PROTO_SSLTCP
  deriving DecidableEq

def ProtocolType.toNat : ProtocolType → ℕ
  | .PROTO_UDP => 0
  | .PROTO_TCP => 1
  | .PROTO_SSLTCP => 2

/-- A client's connection; the destination is the remote address of the socket. -/
structure Connection where
  src : SocketAddress
  dst : SocketAddress
  proto : ProtocolType
  socket : Nat
  deriving DecidableEq

namespace Connection

/-- `operator==`. -/
def equal (c d : Connection) : Bool :=
  c.src.equal d.src && c.dst.equal d.dst && decide (c.proto = d.proto)

/-- `operator<`. -/
def lt (c d : Connection) : Bool :=
  c.src.lt d.src || c.dst.lt d.dst || decide (c.proto.toNat < d.proto.toNat)

end Connection

/-- An allocation with a copy of the connection that it was created for. -/
structure Allocation where
  conn : Connection
  id : Nat
  deriving DecidableEq

/-- An entry of the map. -/
abbrev Entry := Connection × Allocation

structure TurnServer where
  allocations : Tree Entry := .nil

namespace TurnServer

variable (lib : Tree.Shape Entry) (s : TurnServer)

def findAllocation (conn : Connection) : Option Allocation :=
  (s.allocations.find (fun c d => c.lt d = true) Prod.fst conn).map Prod.snd

/-- The assignment to `allocations_[*conn]` in `CreateAllocation`. -/
def createAllocation (conn : Connection) (id : Nat) : TurnServer :=
  let lt := fun c d : Connection => c.lt d = true
  let entry := (conn, Allocation.mk conn id)
  if (s.allocations.find lt Prod.fst conn).isSome then
    { s with allocations := s.allocations.setBound lt Prod.fst conn fun e => (e.1, entry.2) }
  else
    { s with allocations := lib.tree s.allocations (s.allocations.insertBefore lt Prod.fst entry) }

/-- An allocate request that is authorized and asks for UDP. -/
def handleAllocateRequest (conn : Connection) (id : Nat) : TurnServer :=
  match s.findAllocation conn with
  | none => s.createAllocation lib conn id
  | some _ => s

/-- The entry that is found for the connection of an allocation is erased. -/
def onAllocationDestroyed (allocation : Allocation) : TurnServer :=
  let lt := fun c d : Connection => c.lt d = true
  if (s.allocations.find lt Prod.fst allocation.conn).isSome then
    { s with
      allocations := lib.tree s.allocations (s.allocations.eraseBound lt Prod.fst allocation.conn) }
  else s

end TurnServer

/-- The states of a server with the allocations that live in them. A connection
that asks for an allocation is admitted by a condition on those. -/
inductive Reachable (lib : Tree.Shape Entry) (admits : List Allocation → Connection → Prop) :
    TurnServer → List Allocation → Prop
  | start : Reachable lib admits {} []
  | allocate {s : TurnServer} {live : List Allocation} (h : Reachable lib admits s live)
    (conn : Connection) (id : Nat) (hadmits : admits live conn) (hnew : ∀ a ∈ live, a.id ≠ id) :
    Reachable lib admits (s.handleAllocateRequest lib conn id)
      (if s.findAllocation conn = none then ⟨conn, id⟩ :: live else live)
  | destroy {s : TurnServer} {live : List Allocation} (h : Reachable lib admits s live)
    (a : Allocation) (hlive : a ∈ live) :
    Reachable lib admits (s.onAllocationDestroyed lib a) (live.erase a)

/-- A connection finds the allocation that was created for it, or none. -/
def Isolated (s : TurnServer) (live : List Allocation) (conn : Connection) : Prop :=
  ∀ a, s.findAllocation conn = some a ↔ a ∈ live ∧ a.conn.equal conn = true

/-! ## The order of connections -/

section AnyLess

variable {α β γ : Type*} [LinearOrder α] [LinearOrder β] [LinearOrder γ]

/-- One of the components is less. -/
def AnyLess (a b : α × β × γ) : Prop := a.1 < b.1 ∨ a.2.1 < b.2.1 ∨ a.2.2 < b.2.2

theorem not_anyLess {a b : α × β × γ} : ¬ AnyLess a b ↔ b ≤ a := by
  unfold AnyLess
  rw [not_or, not_or, not_lt, not_lt, not_lt, Prod.le_def, Prod.le_def]

theorem anyLess_iff {a b : α × β × γ} (h : a ≤ b ∨ b ≤ a) : AnyLess a b ↔ a < b := by
  rw [← not_iff_not, not_anyLess]
  constructor
  · exact fun hle hlt => absurd hle (not_le_of_gt hlt)
  · intro hnot
    rcases h with hab | hba
    · by_contra hba
      exact hnot (lt_of_le_not_ge hab hba)
    · exact hba

end AnyLess

namespace Connection

/-- The components that are compared. -/
def key (c : Connection) :
    ((ℕ ×ₗ List ℕ) ×ₗ (List ℕ ×ₗ ℕ)) × ((ℕ ×ₗ List ℕ) ×ₗ (List ℕ ×ₗ ℕ)) × ℕ :=
  (c.src.key, c.dst.key, c.proto.toNat)

theorem lt_iff (c d : Connection) : c.lt d = true ↔ AnyLess c.key d.key := by
  unfold lt AnyLess key
  rw [Bool.or_eq_true, Bool.or_eq_true, SocketAddress.lt_iff, SocketAddress.lt_iff,
    decide_eq_true_eq, or_assoc]

theorem equal_iff (c d : Connection) : c.equal d = true ↔ c.key = d.key := by
  have hproto : c.proto = d.proto ↔ c.proto.toNat = d.proto.toNat := by
    constructor
    · exact congrArg _
    · cases c.proto <;> cases d.proto <;> decide
  unfold equal key
  rw [Bool.and_eq_true, Bool.and_eq_true, SocketAddress.equal_iff, SocketAddress.equal_iff,
    decide_eq_true_eq, Prod.mk.injEq, Prod.mk.injEq, hproto, and_assoc]

end Connection

/-- Two connections whose sources, destinations and protocols are all in the
same order. -/
def Comparable (c d : Connection) : Prop := c.key ≤ d.key ∨ d.key ≤ c.key

section Order

variable {c d : Connection}

theorem Comparable.symm (h : Comparable c d) : Comparable d c := Or.symm h

theorem comparable_refl (c : Connection) : Comparable c c := Or.inl (le_refl _)

/-- Neither connection is less than the other if they are equal. -/
theorem not_lt_iff : ¬ c.lt d = true ∧ ¬ d.lt c = true ↔ c.equal d = true := by
  rw [Connection.lt_iff, Connection.lt_iff, not_anyLess, not_anyLess, Connection.equal_iff,
    le_antisymm_iff, and_comm]

/-- Connections are comparable if they are not both less than the other. -/
theorem comparable_iff : Comparable c d ↔ ¬ (c.lt d = true ∧ d.lt c = true) := by
  rw [Connection.lt_iff, Connection.lt_iff, not_and_or, not_anyLess, not_anyLess, or_comm]
  rfl

/-- On connections that are pairwise comparable, the comparison is an order. -/
theorem strictWeakOn_of_comparable {S : Connection → Prop}
    (h : ∀ c d, S c → S d → Comparable c d) :
    Tree.StrictWeakOn (fun c d : Connection => c.lt d = true) S where
  irrefl := fun c _ => by
    rw [Connection.lt_iff, not_anyLess]
  trans := fun c d e hc hd he hcd hde => by
    rw [Connection.lt_iff] at *
    rw [anyLess_iff (h c d hc hd)] at hcd
    rw [anyLess_iff (h d e hd he)] at hde
    rw [anyLess_iff (h c e hc he)]
    exact hcd.trans hde
  weak := fun c d e hc hd he hce => by
    rw [Connection.lt_iff] at *
    rw [Connection.lt_iff]
    by_cases hcd : AnyLess c.key d.key
    · exact Or.inl hcd
    · rw [anyLess_iff (h c e hc he)] at hce
      rw [anyLess_iff (h d e hd he)]
      exact Or.inr (lt_of_le_of_lt (not_anyLess.mp hcd) hce)

end Order

/-! ## The map -/

/-- The map of a server whose living allocations have comparable connections. -/
structure Invariant (s : TurnServer) (live : List Allocation) : Prop where
  comparable : ∀ a ∈ live, ∀ b ∈ live, Comparable a.conn b.conn
  sorted : Tree.Sorted (fun c d : Connection => c.lt d = true) Prod.fst s.allocations.toList
  entries : s.allocations.toList.Perm (live.map fun a => (a.conn, a))

section Map

variable {lib : Tree.Shape Entry} {s : TurnServer} {live : List Allocation} {conn : Connection}

/-- The keys of the map, and a connection that is comparable to them. -/
theorem Invariant.order (h : Invariant s live) (hconn : ∀ a ∈ live, Comparable a.conn conn) :
    Tree.StrictWeakOn (fun c d : Connection => c.lt d = true)
        (fun c => c = conn ∨ ∃ a ∈ live, a.conn = c) ∧
      ∀ e ∈ s.allocations.toList, e.1 = conn ∨ ∃ a ∈ live, a.conn = e.1 := by
  refine ⟨strictWeakOn_of_comparable ?_, fun e he => Or.inr ?_⟩
  · rintro c d (rfl | ⟨a, ha, rfl⟩) (rfl | ⟨b, hb, rfl⟩)
    · exact comparable_refl _
    · exact (hconn b hb).symm
    · exact hconn a ha
    · exact h.comparable a ha b hb
  · obtain ⟨a, ha, rfl⟩ := List.mem_map.mp (h.entries.mem_iff.mp he)
    exact ⟨a, ha, rfl⟩

theorem Invariant.find_iff (h : Invariant s live) (hconn : ∀ a ∈ live, Comparable a.conn conn)
    {e : Entry} :
    s.allocations.find (fun c d => c.lt d = true) Prod.fst conn = some e ↔
      e ∈ s.allocations.toList ∧ e.1.equal conn = true := by
  obtain ⟨horder, hkeys⟩ := h.order hconn
  rw [Tree.find_eq_some_iff horder h.sorted hkeys (Or.inl rfl), not_lt_iff]

theorem Invariant.isolated (h : Invariant s live) (hconn : ∀ a ∈ live, Comparable a.conn conn) :
    Isolated s live conn := by
  intro a
  rw [TurnServer.findAllocation, Option.map_eq_some_iff]
  constructor
  · rintro ⟨e, hfind, rfl⟩
    obtain ⟨hmem, hequal⟩ := (h.find_iff hconn).mp hfind
    obtain ⟨b, hb, rfl⟩ := List.mem_map.mp (h.entries.mem_iff.mp hmem)
    exact ⟨hb, hequal⟩
  · rintro ⟨hmem, hequal⟩
    exact ⟨(a.conn, a), (h.find_iff hconn).mpr
      ⟨h.entries.mem_iff.mpr (List.mem_map_of_mem hmem), hequal⟩, rfl⟩

theorem Invariant.handleAllocateRequest (h : Invariant s live)
    (hconn : ∀ a ∈ live, Comparable a.conn conn) (id : Nat) :
    Invariant (s.handleAllocateRequest lib conn id)
      (if s.findAllocation conn = none then ⟨conn, id⟩ :: live else live) := by
  unfold TurnServer.handleAllocateRequest
  cases hfound : s.findAllocation conn with
  | some a =>
    rw [if_neg (Option.some_ne_none a)]
    exact h
  | none =>
    have hfind : s.allocations.find (fun c d => c.lt d = true) Prod.fst conn = none :=
      Option.map_eq_none_iff.mp hfound
    obtain ⟨horder, hkeys⟩ := h.order hconn
    have hnew : ∀ e ∈ s.allocations.toList, e.1.lt conn = true ∨ conn.lt e.1 = true := by
      intro e he
      by_contra hneither
      obtain ⟨hbelow, habove⟩ := not_or.mp hneither
      have hsome := (h.find_iff hconn).mpr ⟨he, not_lt_iff.mp ⟨hbelow, habove⟩⟩
      rw [hfind] at hsome
      cases hsome
    obtain ⟨hsorted, hperm⟩ := h.sorted.insertBefore horder (b := (conn, ⟨conn, id⟩)) hkeys
      (Or.inl rfl) hnew
    rw [if_pos rfl]
    dsimp only
    rw [TurnServer.createAllocation, hfind, if_neg (by decide)]
    refine ⟨?_, ?_, ?_⟩
    · intro a ha b hb
      rcases List.mem_cons.mp ha with rfl | ha
      · rcases List.mem_cons.mp hb with rfl | hb
        · exact comparable_refl _
        · exact (hconn b hb).symm
      · rcases List.mem_cons.mp hb with rfl | hb
        · exact hconn a ha
        · exact h.comparable a ha b hb
    · dsimp only
      rw [lib.toList_tree]
      exact hsorted
    · dsimp only
      rw [lib.toList_tree]
      exact hperm.trans (h.entries.cons _)

theorem Invariant.onAllocationDestroyed (h : Invariant s live) {a : Allocation} (ha : a ∈ live) :
    Invariant (s.onAllocationDestroyed lib a) (live.erase a) := by
  have hconn : ∀ b ∈ live, Comparable b.conn a.conn := fun b hb => h.comparable b hb a ha
  obtain ⟨horder, hkeys⟩ := h.order hconn
  have hfind : s.allocations.find (fun c d => c.lt d = true) Prod.fst a.conn = some (a.conn, a) :=
    (h.find_iff hconn).mpr ⟨h.entries.mem_iff.mpr (List.mem_map_of_mem ha),
      (Connection.equal_iff _ _).mpr rfl⟩
  obtain ⟨hsorted, hperm⟩ := h.sorted.eraseBound horder hkeys (Or.inl rfl) hfind
  unfold TurnServer.onAllocationDestroyed
  dsimp only
  rw [hfind, Option.isSome_some, if_pos rfl]
  refine ⟨fun b hb c hc => ?_, ?_, ?_⟩
  · exact h.comparable b (List.mem_of_mem_erase hb) c (List.mem_of_mem_erase hc)
  · dsimp only
    rw [lib.toList_tree]
    exact hsorted
  · dsimp only
    rw [lib.toList_tree]
    have hlive : (live.map fun b => (b.conn, b)).Perm
        ((a.conn, a) :: (live.erase a).map fun b => (b.conn, b)) :=
      (List.perm_cons_erase ha).map _
    exact (List.Perm.cons_inv (hperm.trans (h.entries.trans hlive)))

end Map

/-- The allocations of a reachable state, where each new connection is
comparable to those that live. -/
theorem Reachable.invariant {lib : Tree.Shape Entry} {s : TurnServer} {live : List Allocation}
    (h : Reachable lib (fun live conn => ∀ a ∈ live, Comparable a.conn conn) s live) :
    Invariant s live := by
  induction h with
  | start =>
    exact ⟨fun a ha => absurd ha List.not_mem_nil, List.Pairwise.nil, List.Perm.refl _⟩
  | allocate _ conn id hadmits _ ih => exact ih.handleAllocateRequest hadmits id
  | destroy _ a hlive ih => exact ih.onAllocationDestroyed hlive

/-- However the library shapes its trees: as long as each connection that gets an
allocation is comparable to those that live, a connection that is comparable to
them finds the allocation that was created for it, or none if it has none. -/
theorem findAllocation_isolated (lib : Tree.Shape Entry) (s : TurnServer) (live : List Allocation)
    (h : Reachable lib (fun live conn => ∀ a ∈ live, Comparable a.conn conn) s live)
    (conn : Connection) (hconn : ∀ a ∈ live, Comparable a.conn conn) : Isolated s live conn :=
  h.invariant.isolated hconn

/-! ## Connections that are not comparable -/

/-- A sequence as a tree without left branches. -/
def rightSpine {α : Type*} (l : List α) : Tree α := l.foldr (fun a t => .node .nil a t) .nil

theorem toList_rightSpine {α : Type*} (l : List α) : (rightSpine l).toList = l := by
  induction l with
  | nil => rfl
  | cons a l ih => exact congrArg (a :: ·) ih

/-- The shape of a red-black tree with up to three elements that have been
inserted in sequence: the third one turns the tree. -/
def turned {α : Type*} : List α → Tree α
  | [a, b, c] => .node (.node .nil a .nil) b (.node .nil c .nil)
  | l => rightSpine l

def turnedShape : Tree.Shape Entry where
  tree := fun _ l => turned l
  toList_tree := fun _ l => by
    unfold turned
    split
    · rfl
    · exact toList_rightSpine _

/-- A client over UDP, whose connection has no destination. -/
def udpClient (ip : BitVec 32) (port : BitVec 16) : Connection :=
  ⟨{ ip := .v4 ip, port }, {}, .PROTO_UDP, 0⟩

/-- A client over TCP on a socket of its own. -/
def tcpClient (ip : BitVec 32) (port : BitVec 16) (socket : Nat) : Connection :=
  ⟨{ ip := .v4 ip, port }, { ip := .v4 ip, port }, .PROTO_TCP, socket⟩

/-- Two clients over UDP. -/
theorem findAllocation_isolated_udp :
    Isolated ((({} : TurnServer).handleAllocateRequest turnedShape
        (udpClient 0x0A000002 1000) 1).handleAllocateRequest turnedShape
          (udpClient 0x0A000001 1000) 2)
      [⟨udpClient 0x0A000001 1000, 2⟩, ⟨udpClient 0x0A000002 1000, 1⟩]
      (udpClient 0x0A000002 1000) := by
  have hcomparable : Comparable (udpClient 0x0A000002 1000) (udpClient 0x0A000001 1000) :=
    comparable_iff.mpr (by decide)
  refine findAllocation_isolated turnedShape _ _ ?_ _ ?_
  · have hfirst := (@Reachable.start turnedShape
      fun live conn => ∀ a ∈ live, Comparable a.conn conn).allocate
      (udpClient 0x0A000002 1000) 1 (fun a ha => absurd ha List.not_mem_nil)
      fun a ha => absurd ha List.not_mem_nil
    rw [if_pos (by decide)] at hfirst
    have hsecond := hfirst.allocate (udpClient 0x0A000001 1000) 2
      (fun a ha => List.mem_singleton.mp ha ▸ hcomparable)
      fun a ha => List.mem_singleton.mp ha ▸ by decide
    rw [if_pos (by decide)] at hsecond
    exact hsecond
  · intro a ha
    rcases List.mem_cons.mp ha with rfl | ha
    · exact hcomparable.symm
    · rw [List.mem_singleton.mp ha]
      exact comparable_refl _

/-- Three clients, and the first has lost its allocation: the root of the tree is
less than it, because its source is, and it is less than the root, because it has
no destination. -/
theorem not_isolated_udp_tcp :
    ∃ s live, Reachable turnedShape (fun _ _ => True) s live ∧
      live = [⟨tcpClient 0x0A000003 1000 2, 3⟩, ⟨tcpClient 0x0A000001 1000 1, 2⟩,
        ⟨udpClient 0x0A000002 1000, 1⟩] ∧
      s.findAllocation (udpClient 0x0A000002 1000) = none ∧
      ¬ Isolated s live (udpClient 0x0A000002 1000) := by
  have hfirst := (@Reachable.start turnedShape fun _ _ => True).allocate
    (udpClient 0x0A000002 1000) 1 trivial fun a ha => absurd ha List.not_mem_nil
  rw [if_pos (by decide)] at hfirst
  have hsecond := hfirst.allocate (tcpClient 0x0A000001 1000 1) 2 trivial (by decide)
  rw [if_pos (by decide)] at hsecond
  have hthird := hsecond.allocate (tcpClient 0x0A000003 1000 2) 3 trivial (by decide)
  rw [if_pos (by decide)] at hthird
  have hnone : ((((({} : TurnServer).handleAllocateRequest turnedShape
      (udpClient 0x0A000002 1000) 1).handleAllocateRequest turnedShape
      (tcpClient 0x0A000001 1000 1) 2).handleAllocateRequest turnedShape
      (tcpClient 0x0A000003 1000 2) 3)).findAllocation (udpClient 0x0A000002 1000) = none := by
    decide
  refine ⟨_, _, hthird, rfl, hnone, fun hisolated => ?_⟩
  have hsome := (hisolated ⟨udpClient 0x0A000002 1000, 1⟩).mpr ⟨by decide, by decide⟩
  rw [hnone] at hsome
  cases hsome

/-- The shape with the second of two elements at the root. -/
def secondAtRoot {α : Type*} : List α → Tree α
  | [a, b] => .node (.node .nil a .nil) b .nil
  | l => rightSpine l

def secondAtRootShape : Tree.Shape Entry where
  tree := fun _ l => secondAtRoot l
  toList_tree := fun _ l => by
    unfold secondAtRoot
    split
    · rfl
    · exact toList_rightSpine _

/-- The condition cannot be left out: of any two connections that are not
comparable, the first is missed in a tree with the second at the root. -/
theorem not_isolated_of_not_comparable {c d : Connection} (h : ¬ Comparable c d) :
    ((({} : TurnServer).handleAllocateRequest secondAtRootShape c 1).handleAllocateRequest
      secondAtRootShape d 2).findAllocation c = none := by
  obtain ⟨hcd, hdc⟩ := not_not.mp (mt comparable_iff.mpr h)
  have hfirst : ({} : TurnServer).handleAllocateRequest secondAtRootShape c 1 =
      ⟨.node .nil (c, ⟨c, 1⟩) .nil⟩ := rfl
  have hsecond : (TurnServer.mk (.node .nil (c, ⟨c, 1⟩) .nil)).handleAllocateRequest
      secondAtRootShape d 2 = ⟨.node (.node .nil (c, ⟨c, 1⟩) .nil) (d, ⟨d, 2⟩) .nil⟩ := by
    simp [TurnServer.handleAllocateRequest, TurnServer.findAllocation, TurnServer.createAllocation,
      Tree.find, Tree.lowerBound, Tree.insertBefore, Tree.toList, secondAtRootShape, secondAtRoot,
      hcd]
  rw [hfirst, hsecond]
  simp [TurnServer.findAllocation, Tree.find, Tree.lowerBound, hdc]

end PerchWebrtc.Turn
