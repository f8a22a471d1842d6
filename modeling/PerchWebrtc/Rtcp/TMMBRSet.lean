import PerchWebrtc.Rtcp.Packet

/-!
# Sets of TMMBR tuples

`TMMBRSet` (`tmmbr_help.h`) and the set of a remote, with a time for each of
its entries, in `RTCPReceiveInformation` (`rtcp_receiver_help.h`).

* `entries_addEntry`, `entries_setEntry`, `entries_removeEntry`: the entries in
  use after an operation.
-/

namespace PerchWebrtc.Rtcp

def RTCP_INTERVAL_AUDIO_MS : Int := 5000

structure SetElement where
  tmmbr : BitVec 32 := 0
  packetOh : BitVec 32 := 0
  ssrc : BitVec 32 := 0
  deriving DecidableEq

/-- `_sizeOfSet` is the length of `_data` after every function of the class. -/
structure TMMBRSet where
  data : List SetElement
  lengthOfSet : Nat
  le : lengthOfSet ≤ data.length

namespace TMMBRSet

/-- The value of a place that was not set. -/
def unset : SetElement := {}

def empty : TMMBRSet := ⟨[], 0, Nat.le_refl 0⟩

variable (s : TMMBRSet)

def sizeOfSet : Nat := s.data.length

/-- The places in use. -/
def entries : List SetElement := s.data.take s.lengthOfSet

def verifyAndAllocateSet (minimumSize : Nat) : TMMBRSet :=
  ⟨List.replicate (max minimumSize s.sizeOfSet) unset, 0, Nat.zero_le _⟩

def verifyAndAllocateSetKeepingData (minimumSize : Nat) : TMMBRSet :=
  ⟨s.data ++ List.replicate (minimumSize - s.sizeOfSet) unset, s.lengthOfSet,
    s.le.trans (by rw [List.length_append]; exact Nat.le_add_right _ _)⟩

def clearSet : TMMBRSet := ⟨s.data, 0, Nat.zero_le _⟩

def setEntry (i : Nat) (e : SetElement) (h : i < s.sizeOfSet) : TMMBRSet :=
  ⟨s.data.set i e, if s.lengthOfSet ≤ i then i + 1 else s.lengthOfSet, by
    rw [List.length_set]
    split
    · exact h
    · exact s.le⟩

def addEntry (e : SetElement) (h : s.lengthOfSet < s.sizeOfSet) : TMMBRSet :=
  s.setEntry s.lengthOfSet e h

/-- The places behind move down, and the last one is a new one. -/
def removeEntry (sourceIdx : Nat) (h : sourceIdx < s.lengthOfSet) : TMMBRSet :=
  ⟨s.data.eraseIdx sourceIdx ++ [unset], s.lengthOfSet - 1, by
    have hle := s.le
    rw [List.length_append, List.length_eraseIdx_of_lt (by omega), List.length_singleton]
    omega⟩

section Entries

variable {s}

theorem length_entries : s.entries.length = s.lengthOfSet := by
  rw [entries, List.length_take, Nat.min_eq_left s.le]

theorem lengthOfSet_lt_size (n : Nat) (h : s.lengthOfSet < n) :
    (s.verifyAndAllocateSetKeepingData n).lengthOfSet <
      (s.verifyAndAllocateSetKeepingData n).sizeOfSet := by
  have hle := s.le
  simp only [verifyAndAllocateSetKeepingData, sizeOfSet, List.length_append, List.length_replicate]
  omega

theorem entries_verifyAndAllocateSetKeepingData (n : Nat) :
    (s.verifyAndAllocateSetKeepingData n).entries = s.entries :=
  List.take_append_of_le_length s.le

theorem entries_clearSet : s.clearSet.entries = [] := rfl

theorem entries_setEntry {i : Nat} (e : SetElement) (h : i < s.lengthOfSet)
    (hsize : i < s.sizeOfSet) : (s.setEntry i e hsize).entries = s.entries.set i e := by
  simp only [entries, setEntry, if_neg (Nat.not_le.mpr h), List.take_set]

theorem entries_addEntry (e : SetElement) (h : s.lengthOfSet < s.sizeOfSet) :
    (s.addEntry e h).entries = s.entries ++ [e] := by
  simp only [entries, addEntry, setEntry, le_refl, if_true]
  rw [List.take_succ_eq_append_getElem (by rw [List.length_set]; exact h), List.getElem_set_self,
    List.take_set_of_le (Nat.le_refl _)]

theorem entries_removeEntry {i : Nat} (h : i < s.lengthOfSet) :
    (s.removeEntry i h).entries = s.entries.eraseIdx i := by
  have hle := s.le
  have hlength : s.lengthOfSet - 1 ≤ (s.data.eraseIdx i).length := by
    rw [List.length_eraseIdx_of_lt (by omega)]
    omega
  simp only [entries, removeEntry, List.take_append_of_le_length hlength]
  refine List.ext_getElem? fun j => ?_
  simp only [List.getElem?_take, List.getElem?_eraseIdx]
  split_ifs <;> first | rfl | omega

end Entries

end TMMBRSet

end PerchWebrtc.Rtcp
