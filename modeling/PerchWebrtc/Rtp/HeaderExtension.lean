import Mathlib
import PerchWebrtc.Framework.Bytes

/-!
# The RTP header extension map

`rtp_header_extension.cc`: the extensions registered for a stream, by their
one-byte header id. `extensionMap_` is a `std::map` from ids, so it is kept
as the list of its entries in increasing id order; a map that breaks the
order or holds an id outside `1..14` cannot be built (`Register` refuses
such ids).
-/

namespace PerchWebrtc.Rtp

/-- `RTPExtensionType`, less `kRtpExtensionNone`: no extension has that type
(`HeaderExtension` asserts it), and `First` and `Next` return it for the end
of the map, which is `none` here. -/
inductive RTPExtensionType where
  | transmissionTimeOffset
  | audioLevel
  | absoluteSendTime
  deriving DecidableEq, Repr

def kRtpOneByteHeaderExtensionId : BitVec 16 := 0xBEDE
def kRtpOneByteHeaderLength : Nat := 4
def kTransmissionTimeOffsetLength : Nat := 4
def kAbsoluteSendTimeLength : Nat := 4

/-- `HeaderExtension::length`, fixed by the type at construction. The audio
level counts nothing: `RTPSenderAudio` writes it on its own. -/
def RTPExtensionType.length : RTPExtensionType → Nat
  | .transmissionTimeOffset => kTransmissionTimeOffsetLength
  | .absoluteSendTime => kAbsoluteSendTimeLength
  | .audioLevel => 0

abbrev Entry := Byte × RTPExtensionType

/-- `RtpHeaderExtensionMap`. -/
structure RtpHeaderExtensionMap where
  entries : List Entry
  sorted : entries.Pairwise fun a b => a.1 < b.1
  ids : ∀ e ∈ entries, 1 ≤ e.1 ∧ e.1 ≤ 14

namespace RtpHeaderExtensionMap

/-- Inserting a new key keeps the entries strictly increasing. -/
theorem pairwise_orderedInsert {l : List Entry} {e : Entry}
    (h : l.Pairwise fun a b => a.1 < b.1) (he : ∀ x ∈ l, x.1 ≠ e.1) :
    (l.orderedInsert (fun a b => a.1 ≤ b.1) e).Pairwise fun a b => a.1 < b.1 := by
  induction l with
  | nil => simp
  | cons x l ih =>
    rw [List.pairwise_cons] at h
    have hx := he x List.mem_cons_self
    rw [List.orderedInsert_cons]
    split
    · rename_i hle
      refine List.pairwise_cons.mpr ⟨fun y hy => ?_, List.pairwise_cons.mpr h⟩
      rcases List.mem_cons.mp hy with rfl | hy
      · bv_omega
      · have := h.1 y hy
        bv_omega
    · rename_i hle
      refine List.pairwise_cons.mpr ⟨fun y hy => ?_, ih h.2 fun y hy => he y (List.mem_cons_of_mem _ hy)⟩
      rcases (List.mem_orderedInsert _).mp hy with rfl | hy
      · bv_omega
      · exact h.1 y hy

def empty : RtpHeaderExtensionMap := ⟨[], List.Pairwise.nil, by simp⟩

/-- `Register`: 0 or -1, and the map. -/
def register (m : RtpHeaderExtensionMap) (type : RTPExtensionType) (id : Byte) :
    Int × RtpHeaderExtensionMap :=
  if hid : id < 1 ∨ id > 14 then (-1, m)
  else match hf : m.entries.find? (·.1 = id) with
    | some e => if e.2 ≠ type then (-1, m) else (0, m)
    | none => (0, {
        entries := m.entries.orderedInsert (fun a b => a.1 ≤ b.1) (id, type)
        sorted := pairwise_orderedInsert m.sorted fun x hx => by
          simpa using List.find?_eq_none.mp hf x hx
        ids := fun e he => by
          rcases (List.mem_orderedInsert _).mp he with rfl | he
          · simp only [not_or] at hid
            exact ⟨by bv_omega, by bv_omega⟩
          · exact m.ids e he })

/-- `GetType`. -/
def getType (m : RtpHeaderExtensionMap) (id : Byte) : Option RTPExtensionType :=
  (m.entries.find? (·.1 = id)).map Prod.snd

/-- `GetId`: the first id of the type. -/
def getId (m : RtpHeaderExtensionMap) (type : RTPExtensionType) : Option Byte :=
  (m.entries.find? (·.2 = type)).map Prod.fst

/-- `Deregister`. -/
def deregister (m : RtpHeaderExtensionMap) (type : RTPExtensionType) : RtpHeaderExtensionMap :=
  match m.getId type with
  | none => m
  | some id => {
      entries := m.entries.filter (·.1 ≠ id)
      sorted := m.sorted.filter _
      ids := fun e he => m.ids e (List.mem_of_mem_filter he) }

/-- `GetLengthUntilBlockStartInBytes`; `none` is the -1 of a type that is not
registered. -/
def getLengthUntilBlockStartInBytes (m : RtpHeaderExtensionMap) (type : RTPExtensionType) :
    Option Nat :=
  match m.getId type with
  | none => none
  | some _ => some (kRtpOneByteHeaderLength +
      ((m.entries.takeWhile (·.2 ≠ type)).map fun e => e.2.length).sum)

def size (m : RtpHeaderExtensionMap) : Nat := m.entries.length

/-- `First`. -/
def first (m : RtpHeaderExtensionMap) : Option RTPExtensionType := (m.entries.head?).map Prod.snd

/-- `Next`: the type after the first id of `type`. -/
def next (m : RtpHeaderExtensionMap) (type : RTPExtensionType) : Option RTPExtensionType :=
  match m.getId type with
  | none => none
  | some id => ((m.entries.dropWhile (·.1 ≠ id)).tail.head?).map Prod.snd

/-- The registered types, in the order of their ids. -/
def types (m : RtpHeaderExtensionMap) : List RTPExtensionType := m.entries.map Prod.snd

/-! ## Lookups by type

The first entry of a type, `e` with no entry of its type before it, decides
what `GetId`, `Next` and `GetLengthUntilBlockStartInBytes` return for it. -/

section Split

variable {m : RtpHeaderExtensionMap} {pre post : List Entry} {e : Entry}

theorem getType_split (h : m.entries = pre ++ e :: post) : m.getType e.1 = some e.2 := by
  have hpre : ∀ x ∈ pre, ¬ x.1 = e.1 := fun x hx => by
    have hs := m.sorted
    rw [h, List.pairwise_append] at hs
    have := hs.2.2 x hx e List.mem_cons_self
    bv_omega
  rw [getType, h, List.find?_append, List.find?_eq_none.mpr (by simpa using hpre)]
  simp

theorem getId_split (h : m.entries = pre ++ e :: post) (he : e.2 ∉ pre.map Prod.snd) :
    m.getId e.2 = some e.1 := by
  have hpre : ∀ x ∈ pre, ¬ x.2 = e.2 := fun x hx hxe => he (hxe ▸ List.mem_map_of_mem hx)
  rw [getId, h, List.find?_append, List.find?_eq_none.mpr (by simpa using hpre)]
  simp

theorem next_split (h : m.entries = pre ++ e :: post) (he : e.2 ∉ pre.map Prod.snd) :
    m.next e.2 = post.head?.map Prod.snd := by
  have hpre : ∀ x ∈ pre, x.1 ≠ e.1 := fun x hx => by
    have hs := m.sorted
    rw [h, List.pairwise_append] at hs
    have := hs.2.2 x hx e List.mem_cons_self
    bv_omega
  have hdrop : (pre ++ e :: post).dropWhile (fun x => decide (x.1 ≠ e.1)) = e :: post := by
    rw [List.dropWhile_append_of_pos (by simpa using hpre)]
    simp
  rw [next, getId_split h he, h]
  simp only [hdrop, List.tail_cons]

theorem getLengthUntilBlockStartInBytes_split (h : m.entries = pre ++ e :: post)
    (he : e.2 ∉ pre.map Prod.snd) : m.getLengthUntilBlockStartInBytes e.2 =
      some (kRtpOneByteHeaderLength + (pre.map fun x => x.2.length).sum) := by
  have hpre : ∀ x ∈ pre, x.2 ≠ e.2 := fun x hx hxe => he (hxe ▸ List.mem_map_of_mem hx)
  rw [getLengthUntilBlockStartInBytes, getId_split h he, h,
    List.takeWhile_append_of_pos (by simpa using hpre)]
  simp

end Split

/-- A registered type has a first entry. -/
theorem exists_split_of_mem {l : List Entry} {type : RTPExtensionType}
    (h : type ∈ l.map Prod.snd) :
    ∃ pre e post, l = pre ++ e :: post ∧ e.2 = type ∧ type ∉ pre.map Prod.snd := by
  induction l with
  | nil => simp at h
  | cons x l ih =>
    by_cases hx : x.2 = type
    · exact ⟨[], x, l, rfl, hx, by simp⟩
    · rw [List.map_cons, List.mem_cons, or_iff_right (Ne.symm hx)] at h
      obtain ⟨pre, e, post, rfl, he, hpre⟩ := ih h
      refine ⟨x :: pre, e, post, rfl, he, ?_⟩
      rw [List.map_cons, List.mem_cons]
      exact not_or.mpr ⟨Ne.symm hx, hpre⟩

theorem not_nodup_split {l : List RTPExtensionType} (h : ¬ l.Nodup) :
    ∃ p a q, l = p ++ a :: q ∧ a ∈ p := by
  induction l using List.reverseRecOn with
  | nil => exact absurd List.nodup_nil h
  | append_singleton l a ih =>
    by_cases hl : l.Nodup
    · refine ⟨l, a, [], rfl, ?_⟩
      by_contra ha
      exact h (List.nodup_append.mpr ⟨hl, List.nodup_singleton a, by grind⟩)
    · obtain ⟨p, b, q, rfl, hb⟩ := ih hl
      exact ⟨p, b, q ++ [a], by simp, hb⟩

/-- If a type is registered under two ids, `First` and `Next` never come to
the end: the types before the first repetition are closed under `Next`. -/
theorem next_closed_of_not_nodup {m : RtpHeaderExtensionMap} (h : ¬ m.types.Nodup) :
    ∃ p : List RTPExtensionType, (∃ t ∈ p, m.first = some t) ∧
      ∀ t ∈ p, ∃ t' ∈ p, m.next t = some t' := by
  obtain ⟨p, a, q, hpq, ha⟩ := not_nodup_split h
  obtain ⟨ep, eq, hent, rfl, heq⟩ := List.map_eq_append_iff.mp hpq
  obtain ⟨e, eq, rfl, rfl, rfl⟩ := List.map_eq_cons_iff.mp heq
  refine ⟨ep.map Prod.snd, ?_, fun t ht => ?_⟩
  · cases ep with
    | nil => simp at ha
    | cons x ep => exact ⟨x.2, by simp, by simp [first, hent]⟩
  · obtain ⟨pre, x, post, rfl, rfl, hx⟩ := exists_split_of_mem ht
    rw [next_split (by rw [hent, List.append_assoc, List.cons_append]) hx]
    cases post with
    | nil => exact ⟨e.2, ha, by simp⟩
    | cons y post => exact ⟨y.2, by simp, by simp⟩

end RtpHeaderExtensionMap

end PerchWebrtc.Rtp
