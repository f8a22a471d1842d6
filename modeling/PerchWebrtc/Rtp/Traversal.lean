import PerchWebrtc.Rtp.Sender

/-!
# The traversal of the header extensions

`First` and `Next` of `RtpHeaderExtensionMap` over runs of `Register` and
`Deregister`, and the loop of `BuildRTPHeaderExtension` that goes through them.

* `visit_eq`, `buildBlocks_some`: both loops end where no type has two ids.
* `reached_traversed_iff`: the runs of which every map is traversed.
-/

namespace PerchWebrtc.Rtp

open RtpHeaderExtensionMap

namespace RtpHeaderExtensionMap

/-! ## Runs -/

inductive Call where
  | register (type : RTPExtensionType) (id : Byte)
  | deregister (type : RTPExtensionType)

def Call.apply (m : RtpHeaderExtensionMap) : Call → RtpHeaderExtensionMap
  | .register type id => (m.register type id).2
  | .deregister type => m.deregister type

/-- The maps of a run, the first one and the one after each call. -/
def reached (m : RtpHeaderExtensionMap) : List Call → List RtpHeaderExtensionMap
  | [] => [m]
  | call :: calls => m :: reached (call.apply m) calls

/-- The call does not give a second id to a type: a type that is registered is
offered with an id out of range or in use, which changes nothing. -/
def Call.Fits (m : RtpHeaderExtensionMap) : Call → Prop
  | .register type id =>
    type ∉ m.types ∨ id < 1 ∨ id > 14 ∨ id ∈ m.entries.map Prod.fst
  | .deregister _ => True

def Along (m : RtpHeaderExtensionMap) : List Call → Prop
  | [] => True
  | call :: calls => call.Fits m ∧ Along (call.apply m) calls

section Calls

variable {m : RtpHeaderExtensionMap} {type : RTPExtensionType} {id : Byte}

theorem register_unchanged (h : id < 1 ∨ id > 14 ∨ id ∈ m.entries.map Prod.fst) :
    (m.register type id).2 = m := by
  unfold register
  split
  · rfl
  · rename_i hid
    have hmem : id ∈ m.entries.map Prod.fst := by
      rcases h with h | h | h
      · exact absurd (.inl h) hid
      · exact absurd (.inr h) hid
      · exact h
    obtain ⟨e, he, rfl⟩ := List.mem_map.mp hmem
    split
    · split <;> rfl
    · rename_i hnone
      exact absurd (decide_eq_true rfl) (List.find?_eq_none.mp hnone e he)

theorem register_types (hrange : ¬ (id < 1 ∨ id > 14)) (hnew : id ∉ m.entries.map Prod.fst) :
    (m.register type id).2.types.Perm (type :: m.types) := by
  have hnone : m.entries.find? (·.1 = id) = none := List.find?_eq_none.mpr fun e he heq =>
    hnew (of_decide_eq_true heq ▸ List.mem_map_of_mem he)
  unfold register
  rw [dif_neg hrange]
  split
  · rename_i hsome
    rw [hnone] at hsome
    cases hsome
  · exact (List.perm_orderedInsert _ (id, type) m.entries).map Prod.snd

theorem deregister_types : (m.deregister type).types.Sublist m.types := by
  unfold deregister
  split
  · exact List.Sublist.refl _
  · exact List.filter_sublist.map _

/-- A call that fits keeps every type under one id, and another does not. -/
theorem apply_nodup_iff (call : Call) (h : m.types.Nodup) :
    call.Fits m ↔ (call.apply m).types.Nodup := by
  cases call with
  | deregister type => exact iff_of_true trivial (h.sublist deregister_types)
  | register type id =>
    by_cases hsame : id < 1 ∨ id > 14 ∨ id ∈ m.entries.map Prod.fst
    · refine iff_of_true (.inr hsame) ?_
      rw [Call.apply, register_unchanged hsame]
      exact h
    · have hrange : ¬ (id < 1 ∨ id > 14) := fun e => hsame (e.imp_right .inl)
      have hnew : id ∉ m.entries.map Prod.fst := fun e => hsame (.inr (.inr e))
      rw [Call.apply, (register_types hrange hnew).nodup_iff, List.nodup_cons, Call.Fits,
        or_iff_left hsame, and_iff_left h]

end Calls

/-! ## The traversal -/

variable {m : RtpHeaderExtensionMap}

/-- The ids of the types that `Next` comes through, from a type on, in so many
steps at most. -/
def visit (m : RtpHeaderExtensionMap) : Nat → Option RTPExtensionType → Option (List Byte)
  | _, none => some []
  | 0, some _ => none
  | steps + 1, some type =>
    (m.getId type).bind fun id => (m.visit steps (m.next type)).map (id :: ·)

/-- The traversal from `First` ends, and it meets every id that is registered
once, in increasing order. -/
def Traversed (m : RtpHeaderExtensionMap) : Prop :=
  ∃ steps ids, m.visit steps m.first = some ids ∧ ids.Pairwise (· < ·) ∧
    ∀ id, id ∈ ids ↔ (m.getType id).isSome

theorem isSome_getType_iff (id : Byte) :
    (m.getType id).isSome ↔ id ∈ m.entries.map Prod.fst := by
  rw [getType, Option.isSome_map, List.find?_isSome, List.mem_map]
  simp only [decide_eq_true_eq]

/-- In a map where no type has two ids, the type of an entry does not stand
before the entry. -/
theorem notMem_of_nodup {pre post : List Entry} {e : Entry} (hnd : m.types.Nodup)
    (hentries : m.entries = pre ++ e :: post) : e.2 ∉ pre.map Prod.snd := fun hmem => by
  rw [types, hentries, List.map_append, List.map_cons] at hnd
  exact (List.nodup_append.mp hnd).2.2 _ hmem _ List.mem_cons_self rfl

/-- From an entry on, `Next` comes through the entries that are left. -/
theorem visit_eq (hnd : m.types.Nodup) (post : List Entry) :
    ∀ pre, m.entries = pre ++ post →
      m.visit post.length (post.head?.map Prod.snd) = some (post.map Prod.fst) := by
  induction post with
  | nil => exact fun _ _ => rfl
  | cons e post ih =>
    intro pre hentries
    have he := notMem_of_nodup hnd hentries
    rw [List.head?_cons, Option.map_some, List.length_cons, visit, getId_split hentries he,
      next_split hentries he, Option.bind_some, ih (pre ++ [e]) (by simpa using hentries)]
    rfl

theorem visit_none_of_closed {p : List RTPExtensionType}
    (hp : ∀ t ∈ p, ∃ t' ∈ p, m.next t = some t') :
    ∀ (steps : Nat) {t : RTPExtensionType}, t ∈ p → m.visit steps (some t) = none
  | 0, _, _ => rfl
  | steps + 1, t, ht => by
    obtain ⟨t', ht', hnext⟩ := hp t ht
    rw [visit, hnext, visit_none_of_closed hp steps ht']
    cases m.getId t <;> rfl

theorem traversed_iff : m.Traversed ↔ m.types.Nodup := by
  constructor
  · rintro ⟨steps, ids, hvisit, -⟩
    by_contra hnd
    obtain ⟨p, ⟨t, ht, hfirst⟩, hp⟩ := next_closed_of_not_nodup hnd
    rw [hfirst, visit_none_of_closed hp steps ht] at hvisit
    cases hvisit
  · intro hnd
    refine ⟨_, _, visit_eq hnd m.entries [] rfl, List.pairwise_map.mpr m.sorted, fun id => ?_⟩
    exact (isSome_getType_iff id).symm

end RtpHeaderExtensionMap

/-! ## The extension block -/

namespace RTPSender

variable {s : RTPSender}

/-- The loop over the extensions ends after as many rounds as there are. -/
theorem buildBlocks_some (hnd : s.rtpHeaderExtensionMap.types.Nodup) (dataBuffer : Nat)
    (post : List Entry) : ∀ pre, s.rtpHeaderExtensionMap.entries = pre ++ post → ∀ total m,
      ∃ r, s.buildBlocks dataBuffer post.length (post.head?.map Prod.snd) total m = some r := by
  induction post with
  | nil => exact fun _ _ total m => ⟨(total, m), rfl⟩
  | cons e post ih =>
    intro pre hentries total m
    rw [List.head?_cons, Option.map_some, List.length_cons, buildBlocks,
      next_split hentries (notMem_of_nodup hnd hentries)]
    exact ih (pre ++ [e]) (by simpa using hentries) _ _

/-- `BuildRTPHeaderExtension` ends. Where an extension has an element, the
block has the length of all elements and its header, and the elements of the
extensions lie in it one behind the other, in the order of their ids; the audio
level, which `RTPSenderAudio` writes, takes no bytes. -/
def Builds (s : RTPSender) : Prop :=
  ∀ p m, ∃ rounds len m', s.buildRTPHeaderExtension rounds p m = some (len, m') ∧
    len = (if blocksLength s.rtpHeaderExtensionMap.entries = 0 then 0
      else kRtpOneByteHeaderLength + blocksLength s.rtpHeaderExtensionMap.entries) ∧
    (0 < len → be16 m' p = kRtpOneByteHeaderExtensionId ∧
      (be16 m' (p + 2) * 4).toNat = blocksLength s.rtpHeaderExtensionMap.entries ∧
      Laid m' s.value (p + kRtpOneByteHeaderLength) s.rtpHeaderExtensionMap.entries)

theorem buildRTPHeaderExtension_some (hnd : s.rtpHeaderExtensionMap.types.Nodup) (p : Nat)
    (m : Mem) : ∃ rounds len m', s.buildRTPHeaderExtension rounds p m = some (len, m') ∧
      len = if blocksLength s.rtpHeaderExtensionMap.entries = 0 then 0
        else kRtpOneByteHeaderLength + blocksLength s.rtpHeaderExtensionMap.entries := by
  refine ⟨s.rtpHeaderExtensionMap.entries.length, ?_⟩
  unfold buildRTPHeaderExtension
  by_cases hsize : s.rtpHeaderExtensionMap.size ≤ 0
  · have hnil : s.rtpHeaderExtensionMap.entries = [] :=
      List.eq_nil_of_length_eq_zero (Nat.le_zero.mp hsize)
    rw [if_pos hsize, hnil]
    exact ⟨0, m, rfl, rfl⟩
  · obtain ⟨⟨total, m'⟩, hblocks⟩ := buildBlocks_some hnd p s.rtpHeaderExtensionMap.entries []
      rfl 0 (set16 m p kRtpOneByteHeaderExtensionId)
    have htotal : total = blocksLength s.rtpHeaderExtensionMap.entries :=
      (buildBlocks_layout hnd (List.nil_append _).symm hblocks).1.trans (Nat.zero_add _)
    rw [if_neg hsize, first, hblocks, ← htotal]
    by_cases hzero : total = 0
    · simp only [if_pos hzero]
      exact ⟨0, m', rfl, rfl⟩
    · simp only [if_neg hzero]
      exact ⟨_, _, rfl, rfl⟩

theorem builds_of_nodup (hnd : s.rtpHeaderExtensionMap.types.Nodup) : s.Builds := by
  intro p m
  obtain ⟨rounds, len, m', hbuild, hlen⟩ := buildRTPHeaderExtension_some hnd p m
  refine ⟨rounds, len, m', hbuild, hlen, fun hpos => ?_⟩
  obtain ⟨-, -, hprofile, hlength, hlaid⟩ := (buildRTPHeaderExtension_built hbuild).1 hpos
  exact ⟨hprofile, hlength, hlaid⟩

end RTPSender

namespace RtpHeaderExtensionMap

/-- In a run, every map is traversed by `First` and `Next`, and a sender builds
its extension block, exactly if no call gives a second id to a type that is
registered. -/
theorem reached_traversed_iff (calls : List Call) :
    (∀ m ∈ reached empty calls, m.Traversed ∧
      ∀ s : RTPSender, s.rtpHeaderExtensionMap = m → s.Builds) ↔ Along empty calls := by
  have hrun : ∀ (calls : List Call) (m : RtpHeaderExtensionMap), m.types.Nodup →
      ((∀ m' ∈ reached m calls, m'.types.Nodup) ↔ Along m calls) := by
    intro calls
    induction calls with
    | nil =>
      intro m hnd
      refine iff_of_true (fun m' hm' => ?_) trivial
      rw [List.mem_singleton.mp hm']
      exact hnd
    | cons call calls ih =>
      intro m hnd
      rw [reached, List.forall_mem_cons, and_iff_right hnd, Along, apply_nodup_iff call hnd]
      constructor
      · intro hall
        have hnext : (call.apply m).types.Nodup := hall _ (by cases calls <;> exact List.mem_cons_self)
        exact ⟨hnext, (ih _ hnext).mp hall⟩
      · rintro ⟨hnext, halong⟩
        exact (ih _ hnext).mpr halong
  rw [← hrun calls empty List.nodup_nil]
  refine forall₂_congr fun m _ => ?_
  rw [traversed_iff]
  refine and_iff_left_of_imp fun hnd s hs => ?_
  subst hs
  exact RTPSender.builds_of_nodup hnd

/-- The map of the transmission time offset registered with 1 and with 2, which
are both accepted. -/
def twoIds : RtpHeaderExtensionMap :=
  ((empty.register .transmissionTimeOffset 1).2.register .transmissionTimeOffset 2).2

/-- The traversal of the map does not end. -/
theorem not_reached_traversed :
    (empty.register .transmissionTimeOffset 1).1 = 0 ∧
    ((empty.register .transmissionTimeOffset 1).2.register .transmissionTimeOffset 2).1 = 0 ∧
    twoIds ∈ reached empty
      [.register .transmissionTimeOffset 1, .register .transmissionTimeOffset 2] ∧
    twoIds.first = some .transmissionTimeOffset ∧
    twoIds.next .transmissionTimeOffset = some .transmissionTimeOffset ∧ ¬ twoIds.Traversed := by
  refine ⟨by decide, by decide, ?_, by decide, by decide, ?_⟩
  · exact List.mem_cons_of_mem _ (List.mem_cons_of_mem _ List.mem_cons_self)
  · rw [traversed_iff]
    decide

end RtpHeaderExtensionMap

end PerchWebrtc.Rtp
