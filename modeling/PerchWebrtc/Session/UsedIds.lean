import Mathlib.Order.Interval.Finset.Nat
import Mathlib.Data.Int.Interval

/-!
# Payload types in use

`UsedIds` (`mediasession.cc`) hands out ids: one in its range that is in use is replaced by one
that is not, from the top of the range downwards. Ids outside the range stay as they are.

* `Valid`: what is above the next id is in use;
* `findAndSetIdUsed_spec`: an id that is handed out was not in use, and is the one asked for if
  that was not.
-/

namespace PerchWebrtc.Session

structure UsedIds where
  minAllowedId : Int
  maxAllowedId : Int
  nextId : Int
  idSet : Finset Int

namespace UsedIds

def new (minAllowedId maxAllowedId : Int) : UsedIds where
  minAllowedId := minAllowedId
  maxAllowedId := maxAllowedId
  nextId := maxAllowedId
  idSet := ∅

variable (u : UsedIds)

def isIdUsed (id : Int) : Bool := id ∈ u.idSet

def setIdUsed (id : Int) : UsedIds := { u with idSet := insert id u.idSet }

/-- The loop of `FindUnusedId`, which ends below the range at the latest. -/
def findUnusedLoop : Nat → Int → Int
  | 0, id => id
  | n + 1, id => if u.isIdUsed id && u.minAllowedId ≤ id then findUnusedLoop n (id - 1) else id

def findUnusedId : Int := u.findUnusedLoop (u.nextId - u.minAllowedId + 1).toNat u.nextId

/-- `FindAndSetIdUsed`, with the id that it sets. -/
def findAndSetIdUsed (id : Int) : UsedIds × Int :=
  if id > u.maxAllowedId || id < u.minAllowedId then (u, id)
  else if u.isIdUsed id then
    let newId := u.findUnusedId
    (({ u with nextId := newId }).setIdUsed newId, newId)
  else (u.setIdUsed id, id)

/-- An id that can be replaced. -/
def InRange (id : Int) : Prop := u.minAllowedId ≤ id ∧ id ≤ u.maxAllowedId

instance (id : Int) : Decidable (u.InRange id) := inferInstanceAs (Decidable (_ ∧ _))

structure Valid : Prop where
  inRange : ∀ id ∈ u.idSet, u.InRange id
  above : ∀ id, u.nextId < id → id ≤ u.maxAllowedId → id ∈ u.idSet
  next_le : u.nextId ≤ u.maxAllowedId

theorem new_valid (minAllowedId maxAllowedId : Int) : (new minAllowedId maxAllowedId).Valid where
  inRange := by simp [new]
  above id h h' := absurd h' (Int.not_le.mpr h)
  next_le := le_rfl

variable {u}

/-- The loop stops at the first id that is not in use. -/
theorem findUnusedLoop_spec {free : Int} (hfree : free ∉ u.idSet) (hmin : u.minAllowedId ≤ free) :
    ∀ (n : Nat) (id : Int), free ≤ id → id < free + n →
      u.findUnusedLoop n id ∉ u.idSet ∧ free ≤ u.findUnusedLoop n id ∧
        u.findUnusedLoop n id ≤ id ∧ ∀ j, u.findUnusedLoop n id < j → j ≤ id → j ∈ u.idSet
  | 0, id, hle, hlt => by omega
  | n + 1, id, hle, hlt => by
    rw [findUnusedLoop]
    by_cases hused : id ∈ u.idSet
    · have hne : free ≠ id := fun h => hfree (h ▸ hused)
      rw [if_pos (by simp [isIdUsed, hused]; omega)]
      obtain ⟨hnot, hfrom, hto, habove⟩ :=
        findUnusedLoop_spec hfree hmin n (id - 1) (by omega) (by omega)
      refine ⟨hnot, hfrom, by omega, fun j hj hj' => ?_⟩
      obtain rfl | hlt := eq_or_lt_of_le hj'
      · exact hused
      · exact habove j hj (by omega)
    · rw [if_neg (by simp [isIdUsed, hused])]
      exact ⟨hused, hle, le_rfl, fun j hj hj' => absurd hj' (Int.not_le.mpr hj)⟩

/-- Not all ids of the range are in use. -/
def HasRoom (u : UsedIds) : Prop := u.idSet.card < (u.maxAllowedId - u.minAllowedId + 1).toNat

theorem exists_free (hroom : u.HasRoom) : ∃ id, u.InRange id ∧ id ∉ u.idSet := by
  have hcard : u.idSet.card < (Finset.Icc u.minAllowedId u.maxAllowedId).card := by
    rw [Int.card_Icc]
    exact lt_of_lt_of_eq hroom (by congr 1; omega)
  obtain ⟨id, hid, hnot⟩ := Finset.exists_mem_notMem_of_card_lt_card hcard
  exact ⟨id, Finset.mem_Icc.mp hid, hnot⟩

theorem findUnusedId_spec (h : u.Valid) (hroom : u.HasRoom) :
    u.InRange u.findUnusedId ∧ u.findUnusedId ∉ u.idSet ∧ u.findUnusedId ≤ u.nextId ∧
      ∀ j, u.findUnusedId < j → j ≤ u.nextId → j ∈ u.idSet := by
  obtain ⟨free, ⟨hmin, hmax⟩, hfree⟩ := exists_free hroom
  have hle : free ≤ u.nextId := by
    by_contra hlt
    exact hfree (h.above free (by omega) hmax)
  obtain ⟨hnot, hfrom, hto, habove⟩ := findUnusedLoop_spec hfree hmin
    (u.nextId - u.minAllowedId + 1).toNat u.nextId hle (by omega)
  exact ⟨⟨hmin.trans hfrom, hto.trans h.next_le⟩, hnot, hto, habove⟩

/-- What handing out an id does. -/
structure HandsOut (u : UsedIds) (id : Int) (r : UsedIds × Int) : Prop where
  valid : r.1.Valid
  range : r.1.minAllowedId = u.minAllowedId ∧ r.1.maxAllowedId = u.maxAllowedId
  outside : ¬ u.InRange id → r.2 = id ∧ r.1.idSet = u.idSet
  inside : u.InRange id → u.InRange r.2 ∧ r.2 ∉ u.idSet ∧ r.1.idSet = insert r.2 u.idSet ∧
    (id ∉ u.idSet → r.2 = id)

section HandsOut

variable {id : Int} {r : UsedIds × Int} (h : HandsOut u id r)

include h

theorem HandsOut.inRange_iff : u.InRange r.2 ↔ u.InRange id := by
  by_cases hid : u.InRange id
  · exact iff_of_true (h.inside hid).1 hid
  · rw [(h.outside hid).1]

theorem HandsOut.subset : u.idSet ⊆ r.1.idSet := by
  by_cases hid : u.InRange id
  · rw [(h.inside hid).2.2.1]
    exact Finset.subset_insert ..
  · rw [(h.outside hid).2]

/-- An id stays as it is exactly if it was not in use. -/
theorem HandsOut.eq_iff (hu : u.Valid) : r.2 = id ↔ id ∉ u.idSet := by
  by_cases hid : u.InRange id
  · obtain ⟨-, hfresh, -, hkept⟩ := h.inside hid
    refine ⟨fun heq => heq ▸ hfresh, hkept⟩
  · exact iff_of_true (h.outside hid).1 fun hmem => hid (hu.inRange id hmem)

/-- Where it collides with an id that is known. -/
theorem HandsOut.mem_iff (ids : List Int) (hused : ∀ j ∈ ids, u.InRange j → j ∈ u.idSet) :
    r.2 ∈ ids ↔ ¬ u.InRange id ∧ id ∈ ids := by
  by_cases hid : u.InRange id
  · obtain ⟨hrange, hfresh, -⟩ := h.inside hid
    exact iff_of_false (fun hmem => hfresh (hused _ hmem hrange)) fun h => h.1 hid
  · rw [(h.outside hid).1]
    exact (and_iff_right hid).symm

theorem HandsOut.card_le : r.1.idSet.card ≤ u.idSet.card + if u.InRange id then 1 else 0 := by
  by_cases hid : u.InRange id
  · rw [(h.inside hid).2.2.1, if_pos hid]
    exact Finset.card_insert_le ..
  · rw [(h.outside hid).2, if_neg hid]
    exact le_rfl

end HandsOut

theorem findAndSetIdUsed_spec (h : u.Valid) {id : Int} (hroom : u.InRange id → u.HasRoom) :
    HandsOut u id (u.findAndSetIdUsed id) := by
  have hout : (id > u.maxAllowedId || id < u.minAllowedId) = true ↔ ¬ u.InRange id := by
    simp only [Bool.or_eq_true, decide_eq_true_eq, InRange]
    omega
  rw [findAndSetIdUsed]
  split
  · rename_i hif
    exact ⟨h, ⟨rfl, rfl⟩, fun _ => ⟨rfl, rfl⟩, fun hin => absurd hin (hout.mp hif)⟩
  · rename_i hif
    have hin : u.InRange id := by simpa only [hout, not_not] using hif
    split
    · rename_i hused
      obtain ⟨hrange, hnot, hle, habove⟩ := findUnusedId_spec h (hroom hin)
      refine ⟨⟨?_, ?_, hle.trans h.next_le⟩, ⟨rfl, rfl⟩, fun hout => absurd hin hout, fun _ =>
        ⟨hrange, hnot, rfl, fun hid => absurd (of_decide_eq_true hused) hid⟩⟩
      · intro j hj
        obtain rfl | hj := Finset.mem_insert.mp hj
        · exact hrange
        · exact h.inRange j hj
      · intro j hj hj'
        refine Finset.mem_insert_of_mem ?_
        by_cases hnext : j ≤ u.nextId
        · exact habove j hj hnext
        · exact h.above j (by omega) hj'
    · rename_i hused
      have hid : id ∉ u.idSet := fun hmem => hused (decide_eq_true hmem)
      refine ⟨⟨?_, fun j hj hj' => Finset.mem_insert_of_mem (h.above j hj hj'), h.next_le⟩,
        ⟨rfl, rfl⟩, fun hout => absurd hin hout, fun _ => ⟨hin, hid, rfl, fun _ => rfl⟩⟩
      intro j hj
      obtain rfl | hj := Finset.mem_insert.mp hj
      · exact hin
      · exact h.inRange j hj

end UsedIds

end PerchWebrtc.Session
