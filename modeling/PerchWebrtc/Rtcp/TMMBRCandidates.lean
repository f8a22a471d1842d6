import PerchWebrtc.Rtcp.ReceiveInformation

/-!
# The candidates of a bounding set

`TMMBRReceived` collects the entries of all remotes that have not timed out. The loop over
the entries of a remote removes one that has, and goes on behind the place where it was.

* `getTMMBRSets_eq`: the loop over a remote is a `sweep` of its entries;
* `tmmbrReceivedLoop_eq`: all remotes, one after the other;
* `sweep_eq`: an entry is skipped behind each one that is removed;
* `collectsCandidates_iff`: the candidates are the live entries, and these are kept, if and
  only if an entry that has timed out is the last one of its remote.
-/

namespace PerchWebrtc.Rtcp

/-- An entry and the time at which it was received. -/
abbrev StoredEntry := SetElement × Int

/-- The entry is not older than the timeout. -/
def Live (now : Int) (e : StoredEntry) : Prop := now - e.2 ≤ 5 * RTCP_INTERVAL_AUDIO_MS

instance (now : Int) : DecidablePred (Live now) := fun _ => inferInstanceAs (Decidable (_ ≤ _))

/-- The live entries. -/
def liveEntries (now : Int) (l : List StoredEntry) : List StoredEntry :=
  l.filter fun e => Live now e

/-- The candidates and the entries that are left after a loop over the entries by index: the
place of an entry that is removed is not looked at again. -/
def sweep (now : Int) : List StoredEntry → List SetElement × List StoredEntry
  | [] => ([], [])
  | [e] => if Live now e then ([e.1], [e]) else ([], [])
  | e :: next :: rest =>
    if Live now e then
      let swept := sweep now (next :: rest)
      (e.1 :: swept.1, e :: swept.2)
    else
      let swept := sweep now rest
      (swept.1, next :: swept.2)

/-- No entry has one that has timed out before it. -/
def NoneBehindExpired (now : Int) (l : List StoredEntry) : Prop := ∀ e ∈ l.dropLast, Live now e

instance (now : Int) (l : List StoredEntry) : Decidable (NoneBehindExpired now l) :=
  inferInstanceAs (Decidable (∀ e ∈ l.dropLast, Live now e))

/-! ## Sweeps -/

section Sweep

variable {now : Int}

theorem sweep_nil : sweep now [] = ([], []) := rfl

theorem sweep_live {e : StoredEntry} (h : Live now e) (rest : List StoredEntry) :
    sweep now (e :: rest) = (e.1 :: (sweep now rest).1, e :: (sweep now rest).2) := by
  cases rest with
  | nil => exact if_pos h
  | cons next rest => exact if_pos h

theorem sweep_expired {e : StoredEntry} (h : ¬ Live now e) (next : StoredEntry)
    (rest : List StoredEntry) :
    sweep now (e :: next :: rest) = ((sweep now rest).1, next :: (sweep now rest).2) :=
  if_neg h

theorem sweep_last {e : StoredEntry} (h : ¬ Live now e) : sweep now [e] = ([], []) := if_neg h

/-- No more candidates than live entries. -/
theorem sweep_length_le : ∀ l : List StoredEntry,
    (sweep now l).1.length ≤ (liveEntries now l).length
  | [] => Nat.le_refl 0
  | [e] => by
    by_cases h : Live now e
    · simp [sweep_live h, sweep_nil, liveEntries, h]
    · simp [sweep_last h]
  | e :: next :: rest => by
    by_cases h : Live now e
    · have ih := sweep_length_le (next :: rest)
      rw [sweep_live h]
      simp only [liveEntries, List.filter_cons (x := e), h, decide_true, if_true] at ih ⊢
      exact Nat.succ_le_succ ih
    · have ih := sweep_length_le rest
      rw [sweep_expired h]
      refine ih.trans ?_
      exact List.Sublist.length_le
        (((List.sublist_cons_self next rest).cons e).filter _)

/-- Without an entry behind one that has timed out, a loop by index finds what it should. -/
theorem sweep_eq : ∀ {l : List StoredEntry}, NoneBehindExpired now l →
    sweep now l = ((liveEntries now l).map (·.1), liveEntries now l)
  | [], _ => rfl
  | [e], _ => by
    by_cases h : Live now e
    · simp [sweep_live h, sweep_nil, liveEntries, h]
    · simp [sweep_last h, liveEntries, h]
  | e :: next :: rest, hbehind => by
    have hlive : Live now e := hbehind e List.mem_cons_self
    have ih := sweep_eq (l := next :: rest) fun x hx => hbehind x (List.mem_cons_of_mem _ hx)
    rw [sweep_live hlive, ih]
    simp [liveEntries, hlive]

/-- The entry behind the first one that has timed out is either not found or not removed. -/
theorem noneBehindExpired_of_sweep : ∀ {l : List StoredEntry},
    (sweep now l).1.length = (liveEntries now l).length →
    (sweep now l).2 = liveEntries now l → NoneBehindExpired now l
  | [], _, _ => fun e he => absurd he List.not_mem_nil
  | [e], _, _ => fun x hx => absurd hx List.not_mem_nil
  | e :: next :: rest, hlength, hleft => by
    by_cases h : Live now e
    · have hfilter : liveEntries now (e :: next :: rest) = e :: liveEntries now (next :: rest) := by
        simp [liveEntries, h]
      rw [sweep_live h, hfilter] at hlength hleft
      have ih := noneBehindExpired_of_sweep (Nat.succ_injective hlength)
        (List.tail_eq_of_cons_eq hleft)
      intro x hx
      rcases List.mem_cons.mp hx with rfl | hx
      · exact h
      · exact ih x hx
    · exfalso
      rw [sweep_expired h] at hlength hleft
      have hnext : Live now next := by
        have hmem : next ∈ liveEntries now (e :: next :: rest) := hleft ▸ List.mem_cons_self
        simpa using (List.mem_filter.mp hmem).2
      have hfilter : liveEntries now (e :: next :: rest) = next :: liveEntries now rest := by
        simp [liveEntries, h, hnext]
      have hle := @sweep_length_le now rest
      rw [hfilter, List.length_cons] at hlength
      simp only at hlength
      omega

end Sweep

/-! ## One remote -/

namespace RTCPReceiveInformation

/-- The entries with their times. -/
def stored (info : RTCPReceiveInformation) : List StoredEntry :=
  info.tmmbrSet.entries.mapIdx fun i e => (e, info.tmmbrSetTimeouts.getD i 0)

variable {info : RTCPReceiveInformation} {now : Int}

theorem length_stored : info.stored.length = info.tmmbrSet.lengthOfSet := by
  rw [stored, List.length_mapIdx, TMMBRSet.length_entries]

/-- What the code reads at an index. -/
theorem stored_getD {i : Nat} {e : StoredEntry} (h : info.stored[i]? = some e) :
    info.tmmbrSet.entries.getD i TMMBRSet.unset = e.1 ∧ info.tmmbrSetTimeouts.getD i 0 = e.2 := by
  rw [stored, List.getElem?_mapIdx] at h
  obtain ⟨x, hx, rfl⟩ := Option.map_eq_some_iff.mp h
  exact ⟨by rw [List.getD_eq_getElem?_getD, hx]; rfl, rfl⟩

/-- An entry is removed together with its time. -/
theorem stored_remove {i : Nat} (h : i < info.tmmbrSet.lengthOfSet) :
    stored { info with
      tmmbrSet := info.tmmbrSet.removeEntry i h
      tmmbrSetTimeouts := info.tmmbrSetTimeouts.eraseIdx i } = info.stored.eraseIdx i := by
  refine List.ext_getElem? fun j => ?_
  simp only [stored, TMMBRSet.entries_removeEntry, List.getElem?_mapIdx, List.getElem?_eraseIdx,
    List.getD_eq_getElem?_getD]
  split_ifs <;> rfl

/-- A candidate set with a place after its entries gets one more entry. -/
theorem entries_setEntry_last {s : TMMBRSet} (e : SetElement) (h : s.lengthOfSet < s.sizeOfSet) :
    (s.setEntry s.lengthOfSet e h).entries = s.entries ++ [e] ∧
      (s.setEntry s.lengthOfSet e h).lengthOfSet = s.lengthOfSet + 1 ∧
      (s.setEntry s.lengthOfSet e h).sizeOfSet = s.sizeOfSet :=
  ⟨TMMBRSet.entries_addEntry e h, if_pos le_rfl, List.length_set⟩

section Loop

variable {size reads : Nat} {clock : Nat → Int} {candidateSet : TMMBRSet}

/-- Behind the last entry the loop is over. -/
theorem getTMMBRSets_end {i num : Nat} (h : info.tmmbrSet.lengthOfSet ≤ i) (rounds : Nat) :
    getTMMBRSets size clock rounds i num reads candidateSet info =
      (num, reads, candidateSet, info) := by
  cases rounds with
  | zero => rfl
  | succ rounds => exact if_neg fun hboth => absurd hboth.2 (Nat.not_lt.mpr h)

theorem getTMMBRSet_live {i : Nat} {e : StoredEntry} (hi : info.stored[i]? = some e)
    (hlen : i < info.tmmbrSet.lengthOfSet)
    (hsize : candidateSet.lengthOfSet < candidateSet.sizeOfSet) (h : Live now e) :
    info.getTMMBRSet i candidateSet.lengthOfSet candidateSet now =
      (0, candidateSet.setEntry candidateSet.lengthOfSet e.1 hsize, info) := by
  obtain ⟨hentry, htime⟩ := stored_getD hi
  unfold getTMMBRSet
  rw [dif_pos hlen, dif_pos hsize, htime, if_neg (not_lt.mpr h), hentry]

theorem getTMMBRSet_expired {i : Nat} {e : StoredEntry} (hi : info.stored[i]? = some e)
    (hlen : i < info.tmmbrSet.lengthOfSet)
    (hsize : candidateSet.lengthOfSet < candidateSet.sizeOfSet) (h : ¬ Live now e) :
    info.getTMMBRSet i candidateSet.lengthOfSet candidateSet now =
      (-1, candidateSet, { info with
        tmmbrSet := info.tmmbrSet.removeEntry i hlen
        tmmbrSetTimeouts := info.tmmbrSetTimeouts.eraseIdx i }) := by
  unfold getTMMBRSet
  rw [dif_pos hlen, dif_pos hsize, (stored_getD hi).2, if_pos (not_le.mp h)]

end Loop

/-- What the loop over the entries of a remote gives, from a place on. -/
theorem getTMMBRSets_eq {size : Nat} (rounds : Nat) : ∀ {before rest : List StoredEntry}
    {candidateSet : TMMBRSet} {info : RTCPReceiveInformation} {reads : Nat},
    info.stored = before ++ rest → rest.length ≤ rounds →
    candidateSet.lengthOfSet + rest.length ≤ size → size ≤ candidateSet.sizeOfSet →
    ∃ reads' candidateSet' info',
      getTMMBRSets size (fun _ => now) rounds before.length candidateSet.lengthOfSet reads
          candidateSet info = (candidateSet'.lengthOfSet, reads', candidateSet', info') ∧
        candidateSet'.entries = candidateSet.entries ++ (sweep now rest).1 ∧
        candidateSet'.sizeOfSet = candidateSet.sizeOfSet ∧
        info'.stored = before ++ (sweep now rest).2 := by
  induction rounds with
  | zero =>
    intro before rest candidateSet info reads hstored hrounds _ _
    obtain rfl : rest = [] := List.eq_nil_of_length_eq_zero (Nat.le_zero.mp hrounds)
    exact ⟨reads, candidateSet, info, rfl, (List.append_nil _).symm, rfl, hstored⟩
  | succ rounds ih =>
    intro before rest candidateSet info reads hstored hrounds hsize hplaces
    have hlength := congrArg List.length hstored
    rw [length_stored, List.length_append] at hlength
    cases rest with
    | nil =>
      exact ⟨reads, candidateSet, info, getTMMBRSets_end (le_of_eq hlength) _,
        (List.append_nil _).symm, rfl, hstored⟩
    | cons e rest =>
      rw [List.length_cons] at hlength hrounds hsize
      have hi : info.stored[before.length]? = some e := by
        rw [hstored, List.getElem?_append_right le_rfl, Nat.sub_self]
        rfl
      have hlen : before.length < info.tmmbrSet.lengthOfSet := by omega
      have hroom : candidateSet.lengthOfSet < candidateSet.sizeOfSet := by omega
      have hgo : candidateSet.lengthOfSet < size ∧ before.length < info.tmmbrSet.lengthOfSet :=
        ⟨by omega, hlen⟩
      unfold getTMMBRSets
      rw [if_pos hgo]
      by_cases h : Live now e
      · obtain ⟨hentries, hset, hsizes⟩ := entries_setEntry_last e.1 hroom
        obtain ⟨reads', candidateSet', info', hloop, hcandidates, hsame, hleft⟩ :=
          @ih (before ++ [e]) rest (candidateSet.setEntry candidateSet.lengthOfSet e.1 hroom) info
            (reads + 1) (by rw [hstored, List.append_assoc]; rfl) (by omega) (by rw [hset]; omega)
            (by rw [hsizes]; exact hplaces)
        rw [getTMMBRSet_live hi hlen hroom h, sweep_live h]
        refine ⟨reads', candidateSet', info', ?_, ?_, hsame.trans hsizes, ?_⟩
        · rw [hset, List.length_append] at hloop
          exact hloop
        · rw [hcandidates, hentries, List.append_assoc]
          rfl
        · rw [hleft, List.append_assoc]
          rfl
      · rw [getTMMBRSet_expired hi hlen hroom h]
        have hremoved := (stored_remove hlen).trans (congrArg (·.eraseIdx before.length) hstored)
        rw [List.eraseIdx_append_of_length_le le_rfl, Nat.sub_self, List.eraseIdx_cons_zero]
          at hremoved
        cases rest with
        | nil =>
          have hend := congrArg List.length hremoved
          rw [length_stored, List.append_nil] at hend
          refine ⟨reads + 1, candidateSet, _, getTMMBRSets_end (by dsimp only at hend ⊢; omega) _,
            ?_, rfl, ?_⟩
          · rw [sweep_last h, List.append_nil]
          · rw [sweep_last h]
            exact hremoved
        | cons next rest =>
          rw [List.length_cons] at hrounds hsize
          obtain ⟨reads', candidateSet', info', hloop, hcandidates, hsame, hleft⟩ :=
            @ih (before ++ [next]) rest candidateSet _ (reads + 1)
              (by rw [hremoved, List.append_assoc]; rfl) (by omega) (by omega) hplaces
          rw [sweep_expired h]
          refine ⟨reads', candidateSet', info', ?_, hcandidates, hsame, ?_⟩
          · rw [List.length_append] at hloop
            exact hloop
          · rw [hleft, List.append_assoc]
            rfl

end RTCPReceiveInformation

/-! ## All remotes -/

namespace RTCPReceiver

open RTCPReceiveInformation

variable {now : Int}

/-- The entries that are stored of each remote. -/
def storedEntries (infos : List (BitVec 32 × RTCPReceiveInformation)) :
    List (BitVec 32 × List StoredEntry) :=
  infos.map fun e => (e.1, e.2.stored)

/-- The number of entries. -/
def numEntries (infos : List (BitVec 32 × RTCPReceiveInformation)) : Nat :=
  (infos.map fun e => e.2.tmmbrSet.lengthOfSet).sum

theorem tmmbrReceivedLoop_eq {size : Nat}
    (infos : List (BitVec 32 × RTCPReceiveInformation)) : ∀ {candidateSet : TMMBRSet}
    {reads : Nat}, candidateSet.lengthOfSet + numEntries infos ≤ size →
    size ≤ candidateSet.sizeOfSet →
    ∃ candidateSet' infos',
      tmmbrReceivedLoop size (fun _ => now) infos candidateSet.lengthOfSet reads candidateSet =
          (candidateSet'.lengthOfSet, candidateSet', infos') ∧
        candidateSet'.entries =
          candidateSet.entries ++ infos.flatMap (fun e => (sweep now e.2.stored).1) ∧
        storedEntries infos' = infos.map fun e => (e.1, (sweep now e.2.stored).2) := by
  induction infos with
  | nil =>
    intro candidateSet reads _ _
    exact ⟨candidateSet, [], rfl, (List.append_nil _).symm, rfl⟩
  | cons info infos ih =>
    intro candidateSet reads hsize hplaces
    have hnum : numEntries (info :: infos) = info.2.tmmbrSet.lengthOfSet + numEntries infos := by
      rw [numEntries, List.map_cons, List.sum_cons]
      rfl
    rw [hnum] at hsize
    unfold tmmbrReceivedLoop
    split
    · obtain ⟨reads', candidateSet', info', hloop, hcandidates, hsame, hleft⟩ :=
        @getTMMBRSets_eq now size info.2.tmmbrSet.lengthOfSet [] info.2.stored candidateSet info.2
          reads rfl (le_of_eq length_stored) (by rw [length_stored]; omega) hplaces
      have hgrown : candidateSet'.lengthOfSet ≤
          candidateSet.lengthOfSet + info.2.tmmbrSet.lengthOfSet := by
        have hlength := congrArg List.length hcandidates
        have hle := (@sweep_length_le now info.2.stored).trans (List.length_filter_le _ _)
        rw [List.length_append, TMMBRSet.length_entries, TMMBRSet.length_entries] at hlength
        rw [length_stored] at hle
        omega
      obtain ⟨candidateSet'', infos', hrest, hall, hstored⟩ :=
        @ih candidateSet' reads' (by omega) (by rw [hsame]; exact hplaces)
      rw [List.length_nil] at hloop
      rw [hloop]
      dsimp only
      rw [hrest]
      refine ⟨candidateSet'', (info.1, info') :: infos', rfl, ?_, ?_⟩
      · rw [hall, hcandidates, List.append_assoc, List.flatMap_cons]
      · rw [storedEntries, List.map_cons, List.map_cons, hleft]
        exact congrArg _ hstored
    · -- There are no places left, and no entries either.
      have hnone : ∀ e ∈ info :: infos, e.2.stored = [] := by
        intro e he
        have hle : e.2.tmmbrSet.lengthOfSet ≤ numEntries (info :: infos) :=
          List.single_le_sum (fun _ _ => Nat.zero_le _) _ (List.mem_map_of_mem he)
        refine List.eq_nil_of_length_eq_zero ?_
        rw [length_stored]
        omega
      have hsweep : ∀ e ∈ info :: infos, sweep now e.2.stored = ([], e.2.stored) := fun e he => by
        rw [hnone e he, sweep_nil]
      refine ⟨candidateSet, info :: infos, rfl, ?_, ?_⟩
      · rw [List.flatMap_eq_nil_iff.mpr fun e he => congrArg Prod.fst (hsweep e he),
          List.append_nil]
      · exact List.map_congr_left fun e he => by rw [hsweep e he]

/-- The two calls of `UpdateTMMBR`: the first one counts the entries, and the second one
fills a candidate set with as many places. The clock shows the same time all along. -/
def collectCandidates (r : RTCPReceiver) (old : TMMBRSet) (now : Int) :
    Int × Option TMMBRSet × RTCPReceiver :=
  let size := (r.tmmbrReceived 0 0 none fun _ => now).1.toNat
  r.tmmbrReceived size 0 (some (old.verifyAndAllocateSet size)) fun _ => now

/-- The candidates are the entries that have not timed out, and only these are kept. -/
def CollectsCandidates (r : RTCPReceiver) (old : TMMBRSet) (now : Int) : Prop :=
  ∃ candidateSet r', r.collectCandidates old now =
      (if r.receivedInfoMap.isEmpty then -1 else (candidateSet.entries.length : Int),
        some candidateSet, r') ∧
    candidateSet.entries.Perm
      (r.receivedInfoMap.flatMap fun e => (liveEntries now e.2.stored).map (·.1)) ∧
    storedEntries r'.receivedInfoMap =
      r.receivedInfoMap.map fun e => (e.1, liveEntries now e.2.stored)

/-- What the calls give. -/
theorem collectCandidates_eq (r : RTCPReceiver) (old : TMMBRSet) (now : Int) :
    ∃ candidateSet r', r.collectCandidates old now =
        (if r.receivedInfoMap.isEmpty then -1 else (candidateSet.entries.length : Int),
          some candidateSet, r') ∧
      candidateSet.entries = r.receivedInfoMap.flatMap (fun e => (sweep now e.2.stored).1) ∧
      storedEntries r'.receivedInfoMap =
        r.receivedInfoMap.map fun e => (e.1, (sweep now e.2.stored).2) := by
  unfold collectCandidates tmmbrReceived
  cases hmap : r.receivedInfoMap with
  | nil =>
    refine ⟨old.verifyAndAllocateSet (-1 : Int).toNat, r, rfl, rfl, ?_⟩
    rw [hmap]
    rfl
  | cons info infos =>
    have hsize : ((0 : Nat) : Int) + ((info :: infos).map fun e => e.2.tmmbrSet.lengthOfSet).sum =
        (numEntries (info :: infos) : Nat) := by
      rw [numEntries]
      omega
    obtain ⟨candidateSet, infos', hloop, hcandidates, hstored⟩ :=
      @tmmbrReceivedLoop_eq now (numEntries (info :: infos)) (info :: infos)
        (old.verifyAndAllocateSet (numEntries (info :: infos))) 0 (le_of_eq (Nat.zero_add _)) (by
          show _ ≤ (List.replicate _ _).length
          rw [List.length_replicate]
          exact le_max_left _ _)
    refine ⟨candidateSet, { r with receivedInfoMap := infos' }, ?_, ?_, hstored⟩
    · dsimp only [List.isEmpty_cons]
      simp only [Bool.false_eq_true, if_false]
      rw [hsize, Int.toNat_natCast, TMMBRSet.length_entries]
      exact congrArg (fun got => ((got.1 : Int), some got.2.1,
        ({ r with receivedInfoMap := got.2.2 } : RTCPReceiver))) hloop
    · rw [hcandidates]
      rfl

/-- All entries that have not timed out become candidates and are kept, and the others are
removed, if and only if in the entries of each remote only the last one may have timed out. -/
theorem collectsCandidates_iff (r : RTCPReceiver) (old : TMMBRSet) (now : Int) :
    r.CollectsCandidates old now ↔
      ∀ e ∈ r.receivedInfoMap, NoneBehindExpired now e.2.stored := by
  obtain ⟨candidateSet, r', heq, hcandidates, hstored⟩ := collectCandidates_eq r old now
  constructor
  · rintro ⟨candidateSet', r'', heq', hperm, hleft⟩
    obtain ⟨hset, rfl⟩ := Prod.mk.inj (Prod.mk.inj (heq.symm.trans heq')).2
    cases hset
    rw [hstored, List.map_inj_left] at hleft
    have hlength := hperm.length_eq
    rw [hcandidates, List.length_flatMap, List.length_flatMap] at hlength
    simp only [List.length_map] at hlength
    intro e he
    refine noneBehindExpired_of_sweep ?_ (Prod.mk.inj (hleft e he)).2
    refine le_antisymm (sweep_length_le _) (not_lt.mp fun hlt => ?_)
    exact absurd hlength (ne_of_lt (List.sum_lt_sum _ _ (fun _ _ => sweep_length_le _) ⟨e, he, hlt⟩))
  · intro h
    have hsweep : ∀ e ∈ r.receivedInfoMap, sweep now e.2.stored =
        ((liveEntries now e.2.stored).map (·.1), liveEntries now e.2.stored) :=
      fun e he => sweep_eq (h e he)
    refine ⟨candidateSet, r', heq, ?_, ?_⟩
    · rw [hcandidates]
      refine List.Perm.of_eq (List.flatMap_congr fun e he => ?_)
      rw [hsweep e he]
    · rw [hstored]
      refine List.map_congr_left fun e he => ?_
      rw [hsweep e he]

/-- Items of two senders that a relay sends on: the first one has timed out. -/
def twoSenders : RTCPReceiver :=
  [.report 7 0, .tmmbr 7 8 8 [(⟨1, 300, 40⟩, 1000)], .tmmbr 7 9 8 [(⟨1, 200, 40⟩, 20000)]].foldl
    step { ssrc := 1 }

/-- The item of the second sender is no candidate. -/
theorem not_collectsCandidates :
    ¬ ∀ (r : RTCPReceiver) (old : TMMBRSet) (now : Int), r.CollectsCandidates old now := by
  intro h
  obtain ⟨candidateSet, r', heq, hperm, -⟩ := h twoSenders .empty 27000
  have hnone : (twoSenders.collectCandidates .empty 27000).2.1.map TMMBRSet.entries = some [] := by
    decide +kernel
  rw [heq] at hnone
  have hone : (twoSenders.receivedInfoMap.flatMap fun e =>
      (liveEntries 27000 e.2.stored).map (·.1)).length = 1 := by
    decide +kernel
  rw [← hperm.length_eq, Option.some.inj hnone] at hone
  exact absurd hone (by decide)

end RTCPReceiver

end PerchWebrtc.Rtcp
