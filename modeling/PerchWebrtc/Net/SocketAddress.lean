import PerchWebrtc.Framework.Buffer

/-!
# Internet addresses

`IPAddress`, `SocketAddress` and `SocketAddressPair` (`ipaddress.cc`,
`socketaddress.cc`, `socketaddresspair.cc`), with the comparisons that maps of
addresses use. Whether a host name is a literal and the scope are not used by them.

* `IPAddress.lt_iff`, `SocketAddress.lt_iff`, `SocketAddress.equal_iff`: the
  comparisons are those of a key in a linear order;
* `SocketAddressPair.strictWeakOrder`: a map from pairs has one entry for equal pairs.
-/

namespace PerchWebrtc.Net

/-- An IPv4 address is in host order, an IPv6 address in the order of its bytes. -/
inductive IPAddress where
  | unspec
  | v4 (ip : BitVec 32)
  | v6 (ip : Fin 16 → Byte)
  deriving DecidableEq

/-- The values of bytes, in whose order `memcmp` and `std::string` compare. -/
def byteValues (bs : List Byte) : List ℕ := bs.map BitVec.toNat

namespace IPAddress

/-- `operator<`; an IPv4 address is less than an IPv6 address. -/
def lt : IPAddress → IPAddress → Bool
  | .unspec, .unspec => false
  | .unspec, _ => true
  | .v4 _, .unspec => false
  | .v4 a, .v4 b => decide (a < b)
  | .v4 _, .v6 _ => true
  | .v6 a, .v6 b => decide (byteValues (List.ofFn a) < byteValues (List.ofFn b))
  | .v6 _, _ => false

/-- `IPIsAny`. -/
def isAny : IPAddress → Bool
  | .unspec => false
  | .v4 ip => decide (ip = 0)
  | .v6 ip => decide (ip = fun _ => 0)

end IPAddress

structure SocketAddress where
  hostname : List Byte := []
  ip : IPAddress := .unspec
  port : BitVec 16 := 0
  deriving DecidableEq

namespace SocketAddress

def isNil (a : SocketAddress) : Bool := decide (a.hostname = [] ∧ a.ip = .unspec ∧ a.port = 0)

/-- Host names are compared only where both addresses are 0. -/
def equalIPs (a b : SocketAddress) : Bool :=
  decide (a.ip = b.ip) && (!a.ip.isAny || decide (a.hostname = b.hostname))

/-- `operator==`. -/
def equal (a b : SocketAddress) : Bool := a.equalIPs b && decide (a.port = b.port)

/-- `operator<`. -/
def lt (a b : SocketAddress) : Bool :=
  if a.ip.lt b.ip then true
  else if b.ip.lt a.ip then false
  else if b.ip.isAny && decide (byteValues a.hostname < byteValues b.hostname) then true
  else if b.ip.isAny && decide (byteValues b.hostname < byteValues a.hostname) then false
  else decide (a.port < b.port)

end SocketAddress

structure SocketAddressPair where
  source : SocketAddress
  destination : SocketAddress
  deriving DecidableEq

namespace SocketAddressPair

/-- `operator==`. -/
def equal (p q : SocketAddressPair) : Bool :=
  p.source.equal q.source && p.destination.equal q.destination

/-- `operator<`. -/
def lt (p q : SocketAddressPair) : Bool :=
  if p.source.lt q.source then true
  else if q.source.lt p.source then false
  else if p.destination.lt q.destination then true
  else if q.destination.lt p.destination then false
  else false

end SocketAddressPair

/-! ## Keys -/

theorem byteValues_injective : Function.Injective byteValues :=
  List.map_injective_iff.mpr fun _ _ h => BitVec.eq_of_toNat_eq h

/-- The family and the bytes of an address. -/
def IPAddress.key : IPAddress → ℕ ×ₗ List ℕ
  | .unspec => toLex (0, [])
  | .v4 ip => toLex (1, [ip.toNat])
  | .v6 ip => toLex (2, byteValues (List.ofFn ip))

theorem IPAddress.lt_iff (a b : IPAddress) : a.lt b = true ↔ a.key < b.key := by
  have hsingle : ∀ m n : ℕ, [m] < [n] ↔ m < n := by
    intro m n
    rw [List.cons_lt_cons_iff]
    exact or_iff_left fun h => List.not_lt_nil _ h.2
  cases a with
  | unspec => cases b <;> simp [IPAddress.lt, IPAddress.key, Prod.Lex.toLex_lt_toLex]
  | v4 a =>
    cases b <;> simp [IPAddress.lt, IPAddress.key, Prod.Lex.toLex_lt_toLex, BitVec.lt_def, hsingle]
  | v6 a => cases b <;> simp [IPAddress.lt, IPAddress.key, Prod.Lex.toLex_lt_toLex]

theorem IPAddress.key_injective : Function.Injective IPAddress.key := by
  intro a b h
  obtain ⟨hfamily, hbytes⟩ := Prod.mk.inj (toLex.injective h)
  cases a with
  | unspec =>
    cases b with
    | unspec => rfl
    | v4 b => cases hfamily
    | v6 b => cases hfamily
  | v4 a =>
    cases b with
    | unspec => cases hfamily
    | v4 b => rw [BitVec.eq_of_toNat_eq (List.singleton_inj.mp hbytes)]
    | v6 b => cases hfamily
  | v6 a =>
    cases b with
    | unspec => cases hfamily
    | v4 b => cases hfamily
    | v6 b => rw [List.ofFn_injective (byteValues_injective hbytes)]

/-- An address, its host name where that is compared, and its port. -/
def SocketAddress.key (a : SocketAddress) : (ℕ ×ₗ List ℕ) ×ₗ (List ℕ ×ₗ ℕ) :=
  toLex (a.ip.key, toLex (if a.ip.isAny then byteValues a.hostname else [], a.port.toNat))

theorem SocketAddress.lt_iff (a b : SocketAddress) : a.lt b = true ↔ a.key < b.key := by
  unfold SocketAddress.lt SocketAddress.key
  rw [Prod.Lex.toLex_lt_toLex, ← IPAddress.lt_iff]
  dsimp only
  by_cases hless : a.ip.lt b.ip = true
  · rw [if_pos hless]
    exact iff_of_true rfl (Or.inl hless)
  rw [if_neg hless, or_iff_right hless]
  by_cases hgreater : b.ip.lt a.ip = true
  · have hne : a.ip.key ≠ b.ip.key := ne_of_gt ((IPAddress.lt_iff b.ip a.ip).mp hgreater)
    rw [if_pos hgreater]
    exact iff_of_false Bool.false_ne_true fun h => hne h.1
  have hkey : a.ip.key = b.ip.key :=
    le_antisymm (not_lt.mp (mt (IPAddress.lt_iff b.ip a.ip).mpr hgreater))
      (not_lt.mp (mt (IPAddress.lt_iff a.ip b.ip).mpr hless))
  rw [if_neg hgreater, and_iff_right hkey, IPAddress.key_injective hkey, Prod.Lex.toLex_lt_toLex]
  dsimp only
  by_cases hany : b.ip.isAny = true
  · rw [hany, Bool.true_and, Bool.true_and, if_pos rfl, if_pos rfl]
    by_cases hname : byteValues a.hostname < byteValues b.hostname
    · rw [if_pos (decide_eq_true hname)]
      exact iff_of_true rfl (Or.inl hname)
    rw [if_neg fun h => hname (of_decide_eq_true h), or_iff_right hname]
    by_cases hname' : byteValues b.hostname < byteValues a.hostname
    · rw [if_pos (decide_eq_true hname')]
      exact iff_of_false Bool.false_ne_true fun h => ne_of_gt hname' h.1
    rw [if_neg fun h => hname' (of_decide_eq_true h), decide_eq_true_eq,
      and_iff_right (le_antisymm (not_lt.mp hname') (not_lt.mp hname))]
    exact BitVec.lt_def
  · rw [Bool.not_eq_true] at hany
    rw [hany]
    simp only [Bool.false_and, Bool.false_eq_true, if_false, decide_eq_true_eq, lt_self_iff_false,
      true_and, false_or]
    exact BitVec.lt_def

theorem SocketAddress.equal_iff (a b : SocketAddress) : a.equal b = true ↔ a.key = b.key := by
  have hport : a.port = b.port ↔ a.port.toNat = b.port.toNat := BitVec.toNat_inj.symm
  have hip : a.ip = b.ip ↔ a.ip.key = b.ip.key := IPAddress.key_injective.eq_iff.symm
  unfold SocketAddress.equal SocketAddress.equalIPs SocketAddress.key
  simp only [Bool.and_eq_true, Bool.or_eq_true, decide_eq_true_eq, Bool.not_eq_true',
    EmbeddingLike.apply_eq_iff_eq,
    Prod.mk.injEq, ← hip, ← hport, and_assoc]
  refine and_congr_right fun heq => and_congr_left fun _ => ?_
  rw [heq]
  cases b.ip.isAny with
  | true => simp [byteValues_injective.eq_iff]
  | false => simp

namespace SocketAddressPair

def key (p : SocketAddressPair) :
    ((ℕ ×ₗ List ℕ) ×ₗ (List ℕ ×ₗ ℕ)) ×ₗ ((ℕ ×ₗ List ℕ) ×ₗ (List ℕ ×ₗ ℕ)) :=
  toLex (p.source.key, p.destination.key)

theorem lt_iff (p q : SocketAddressPair) : p.lt q = true ↔ p.key < q.key := by
  have hsource := SocketAddress.lt_iff p.source q.source
  have hsource' := SocketAddress.lt_iff q.source p.source
  have hdest := SocketAddress.lt_iff p.destination q.destination
  unfold lt key
  rw [Prod.Lex.toLex_lt_toLex]
  dsimp only
  split
  · rename_i hless
    exact iff_of_true rfl (Or.inl (hsource.mp hless))
  · rename_i hless
    rw [hsource] at hless
    split
    · rename_i hgreater
      rw [hsource'] at hgreater
      exact iff_of_false Bool.false_ne_true
        fun h => h.elim hless fun heq => ne_of_gt hgreater heq.1
    · rename_i hgreater
      rw [hsource'] at hgreater
      rw [or_iff_right hless, and_iff_right (le_antisymm (not_lt.mp hgreater) (not_lt.mp hless)),
        ← hdest]
      split
      · rename_i hbelow
        exact iff_of_true rfl hbelow
      · rename_i hbelow
        exact iff_of_false (by simp) hbelow

theorem equal_iff (p q : SocketAddressPair) : p.equal q = true ↔ p.key = q.key := by
  unfold equal key
  rw [Bool.and_eq_true, SocketAddress.equal_iff, SocketAddress.equal_iff,
    EmbeddingLike.apply_eq_iff_eq, Prod.mk.injEq]

/-- Neither pair is less than the other if they are equal. -/
theorem not_lt_iff (p q : SocketAddressPair) :
    ¬ p.lt q = true ∧ ¬ q.lt p = true ↔ p.equal q = true := by
  rw [lt_iff, lt_iff, not_lt, not_lt, equal_iff, le_antisymm_iff, and_comm]

/-- What a map with pairs for keys needs of their order. -/
theorem strictWeakOrder :
    (∀ p : SocketAddressPair, ¬ p.lt p = true) ∧
      (∀ p q r : SocketAddressPair, p.lt q = true → q.lt r = true → p.lt r = true) ∧
      ∀ p q : SocketAddressPair, ¬ p.lt q = true ∧ ¬ q.lt p = true ↔ p.equal q = true := by
  refine ⟨fun p => ?_, fun p q r => ?_, not_lt_iff⟩
  · rw [lt_iff]
    exact lt_irrefl _
  · rw [lt_iff, lt_iff, lt_iff]
    exact lt_trans

end SocketAddressPair

end PerchWebrtc.Net
