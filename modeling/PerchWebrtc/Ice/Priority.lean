import PerchWebrtc.Ice.Channel

/-!
# Priorities of candidate pairs

`priority` of a connection (`port.cc`), at both ends of a candidate pair, and the order by it
(`CompareConnectionCandidates` in `p2ptransportchannel.cc`).

* `priority_toNat`: the larger priority is doubled in 32 bits;
* `priority_iff`: both ends compute the same number, which is the one that is meant exactly if
  neither priority has its highest bit.
-/

namespace PerchWebrtc.Ice

namespace Connection

/-- `priority` of a connection, whose port has the role, and whose candidates have the
priorities. -/
def pairPriority (role : IceRole) (localPriority remotePriority : BitVec 32) : BitVec 64 :=
  if role ≠ .ICEROLE_UNKNOWN then
    let (g, d) :=
      if role = .ICEROLE_CONTROLLING then (localPriority, remotePriority)
      else (remotePriority, localPriority)
    let min := if g > d then d else g
    let max := if g < d then d else g
    (min.setWidth 64 <<< 32) + (2 * max + if g > d then 1 else 0).setWidth 64
  else 0

end Connection

/-- A candidate of each agent, with the generation it has at both ends. -/
structure CandidatePair where
  controlling : BitVec 32
  controlled : BitVec 32
  controllingGeneration : BitVec 32 := 0
  controlledGeneration : BitVec 32 := 0

namespace CandidatePair

variable (p : CandidatePair)

/-- The connection of the controlling agent. -/
def atControlling : Connection where
  priority := Connection.pairPriority .ICEROLE_CONTROLLING p.controlling p.controlled
  remoteGeneration := p.controlledGeneration
  portGeneration := p.controllingGeneration

/-- The connection of the controlled agent. -/
def atControlled : Connection where
  priority := Connection.pairPriority .ICEROLE_CONTROLLED p.controlled p.controlling
  remoteGeneration := p.controllingGeneration
  portGeneration := p.controlledGeneration

/-- What the comment of `priority` says, in exact arithmetic. -/
def exactPriority : Nat :=
  2 ^ 32 * min p.controlling.toNat p.controlled.toNat +
    2 * max p.controlling.toNat p.controlled.toNat +
    if p.controlled.toNat < p.controlling.toNat then 1 else 0

theorem priority_eq : p.atControlling.priority = p.atControlled.priority := rfl

/-- The upper half is the smaller priority, and the lower half is computed in 32 bits. -/
theorem toNat_halves (high low : BitVec 32) :
    ((high.setWidth 64 <<< 32) + low.setWidth 64).toNat = 2 ^ 32 * high.toNat + low.toNat := by
  have hhigh := high.isLt
  have hlow := low.isLt
  rw [BitVec.toNat_add, BitVec.toNat_shiftLeft, BitVec.toNat_setWidth, BitVec.toNat_setWidth,
    Nat.shiftLeft_eq]
  omega

theorem priority_toNat :
    p.atControlling.priority.toNat =
      2 ^ 32 * min p.controlling.toNat p.controlled.toNat +
        (2 * max p.controlling.toNat p.controlled.toNat % 2 ^ 32 +
          if p.controlled.toNat < p.controlling.toNat then 1 else 0) := by
  have hpriority : p.atControlling.priority =
      ((if p.controlled < p.controlling then p.controlled else p.controlling).setWidth 64 <<< 32) +
        (2 * (if p.controlling < p.controlled then p.controlled else p.controlling) +
          if p.controlled < p.controlling then 1 else 0).setWidth 64 := rfl
  have hdouble : ∀ x : BitVec 32, (2 * x).toNat = 2 * x.toNat % 2 ^ 32 := fun x =>
    BitVec.toNat_mul 2 x
  rw [hpriority, toNat_halves]
  simp only [BitVec.lt_def]
  by_cases hless : p.controlled.toNat < p.controlling.toNat
  · -- The last bit of a double is free.
    have hone : (2 * p.controlling + 1).toNat = 2 * p.controlling.toNat % 2 ^ 32 + 1 := by
      rw [BitVec.toNat_add, hdouble]
      show (2 * p.controlling.toNat % 2 ^ 32 + 1) % 2 ^ 32 = _
      omega
    rw [if_pos hless, if_neg (Nat.lt_asymm hless), if_pos hless, if_pos hless, hone,
      min_eq_right hless.le, max_eq_left hless.le]
  · have hle : p.controlling.toNat ≤ p.controlled.toNat := Nat.le_of_not_lt hless
    have hmax : (if p.controlling.toNat < p.controlled.toNat then p.controlled
        else p.controlling).toNat = p.controlled.toNat := by
      split_ifs <;> omega
    rw [if_neg hless, if_neg hless, if_neg hless, add_zero, hdouble, hmax,
      min_eq_left hle, max_eq_right hle, Nat.add_zero]

theorem priority_iff (p : CandidatePair) :
    (p.atControlling.priority = p.atControlled.priority ∧
        p.atControlling.priority.toNat = p.exactPriority ↔
      p.controlling.toNat < 2 ^ 31 ∧ p.controlled.toNat < 2 ^ 31) ∧
    ∀ q : CandidatePair, compareConnectionCandidates p.atControlling q.atControlling =
      compareConnectionCandidates p.atControlled q.atControlled := by
  refine ⟨?_, fun q => ?_⟩
  · rw [and_iff_right p.priority_eq, priority_toNat, exactPriority]
    have hg := p.controlling.isLt
    have hd := p.controlled.isLt
    omega
  · have hgeneration : ∀ p : CandidatePair,
        p.atControlling.remoteGeneration + p.atControlling.portGeneration =
          p.atControlled.remoteGeneration + p.atControlled.portGeneration :=
      fun p => BitVec.add_comm _ _
    rw [compareConnectionCandidates, compareConnectionCandidates, hgeneration, hgeneration,
      priority_eq, priority_eq]

/-- The controlling agent has the lowest priority with the highest bit. -/
theorem priority_not_exact :
    let p : CandidatePair := { controlling := 0x80000000, controlled := 0 }
    p.atControlling.priority.toNat = 1 ∧ p.exactPriority = 0x100000001 := by
  decide

end CandidatePair

end PerchWebrtc.Ice
