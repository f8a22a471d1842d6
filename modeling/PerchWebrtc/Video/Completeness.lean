import Mathlib
import PerchWebrtc.Video.SessionInfo

/-!
# Completeness of a session

`complete()` is computed again after an insertion only if the first packet is
flagged and the last one has the marker; a session that was complete once stays
so when packets before the first or behind the marker are inserted.

* `distinctMedia`: the packets that a session keeps;
* `distinctMedia_perm`: they do not depend on the order;
* `run_complete`: nor does `complete()`, if no run of packets from a first
  packet to a marker is shorter than the frame.
-/

namespace PerchWebrtc.Video

open Circular

namespace VCMSessionInfo

/-! ## What a session keeps -/

/-- One more packet; not an empty one, and not one with bytes whose number is
there. -/
def keep (kept : List (VCMPacket Mem)) (p : VCMPacket Mem) : List (VCMPacket Mem) :=
  if p.frameType = .kFrameEmpty then kept
  else if kept.any fun q => q.seqNum = p.seqNum && 0 < q.storedSize then kept
  else kept ++ [p]

def distinctMedia (ps : List (VCMPacket Mem)) : List (VCMPacket Mem) := ps.foldl keep []

/-- Media packets are known by their numbers. -/
def KnownByNumber (ps : List (VCMPacket Mem)) : Prop :=
  ∀ p ∈ ps, ∀ q ∈ ps, p.frameType ≠ .kFrameEmpty → q.frameType ≠ .kFrameEmpty →
    p.seqNum = q.seqNum → p = q

/-- The packets of a session: a media packet that is inserted again has the
same number, and not too many are kept. -/
structure SessionPackets (ps : List (VCMPacket Mem)) : Prop where
  window : HalfWindow ((distinctMedia ps).map VCMPacket.seqNum)
  known : KnownByNumber ps
  length_le : (distinctMedia ps).length ≤ kMaxPacketsInSession

theorem distinctMedia_append (ps : List (VCMPacket Mem)) (p : VCMPacket Mem) :
    distinctMedia (ps ++ [p]) = keep (distinctMedia ps) p := by
  simp only [distinctMedia, List.foldl_append, List.foldl_cons, List.foldl_nil]

theorem isPrefix_keep (kept : List (VCMPacket Mem)) (p : VCMPacket Mem) : kept <+: keep kept p := by
  unfold keep
  split_ifs
  · exact List.prefix_rfl
  · exact List.prefix_rfl
  · exact List.prefix_append _ _

theorem distinctMedia_mono {done ps : List (VCMPacket Mem)} (h : done <+: ps) :
    distinctMedia done <+: distinctMedia ps := by
  obtain ⟨rest, rfl⟩ := h
  induction rest using List.reverseRecOn with
  | nil => simp
  | append_singleton rest p ih =>
    rw [← List.append_assoc, distinctMedia_append]
    exact ih.trans (isPrefix_keep _ _)

theorem mem_distinctMedia {ps : List (VCMPacket Mem)} {p : VCMPacket Mem}
    (h : p ∈ distinctMedia ps) : p ∈ ps ∧ p.frameType ≠ .kFrameEmpty := by
  induction ps using List.reverseRecOn with
  | nil => exact absurd h List.not_mem_nil
  | append_singleton ps q ih =>
    rw [distinctMedia_append] at h
    unfold keep at h
    split_ifs at h with hempty hdup
    · exact ⟨List.mem_append_left _ (ih h).1, (ih h).2⟩
    · exact ⟨List.mem_append_left _ (ih h).1, (ih h).2⟩
    · rcases List.mem_append.mp h with h | h
      · exact ⟨List.mem_append_left _ (ih h).1, (ih h).2⟩
      · rw [List.mem_singleton.mp h]
        exact ⟨List.mem_append_right _ List.mem_cons_self, hempty⟩

section Count

variable {ps qs : List (VCMPacket Mem)} {p : VCMPacket Mem}

theorem KnownByNumber.mono (h : KnownByNumber ps) (hsub : ∀ p ∈ qs, p ∈ ps) : KnownByNumber qs :=
  fun p hp q hq => h p (hsub p hp) q (hsub q hq)

/-- A packet with bytes is kept only if it is not there. -/
theorem keep_of_mem [DecidableEq (VCMPacket Mem)] (hknown : KnownByNumber (ps ++ [p]))
    (hp : p.frameType ≠ .kFrameEmpty) :
    keep (distinctMedia ps) p =
      if p ∈ distinctMedia ps ∧ 0 < p.storedSize then distinctMedia ps
      else distinctMedia ps ++ [p] := by
  have hany : ((distinctMedia ps).any fun q => q.seqNum = p.seqNum && 0 < q.storedSize) = true ↔
      p ∈ distinctMedia ps ∧ 0 < p.storedSize := by
    rw [List.any_eq_true]
    constructor
    · rintro ⟨q, hq, hqp⟩
      rw [Bool.and_eq_true, decide_eq_true_eq, decide_eq_true_eq] at hqp
      obtain ⟨hqmem, hqmedia⟩ := mem_distinctMedia hq
      have heq : q = p := hknown q (List.mem_append_left _ hqmem) p
        (List.mem_append_right _ List.mem_cons_self) hqmedia hp hqp.1
      rw [← heq]
      exact ⟨hq, hqp.2⟩
    · rintro ⟨hmem, hsize⟩
      refine ⟨p, hmem, ?_⟩
      rw [Bool.and_eq_true, decide_eq_true_eq, decide_eq_true_eq]
      exact ⟨rfl, hsize⟩
  rw [keep, if_neg hp]
  exact if_congr hany rfl rfl

/-- A packet is kept once if it has bytes, and as often as it is inserted if it
has none. -/
theorem count_distinctMedia [DecidableEq (VCMPacket Mem)] (hknown : KnownByNumber ps)
    (p : VCMPacket Mem) :
    (distinctMedia ps).count p =
      if p.frameType = .kFrameEmpty then 0
      else if 0 < p.storedSize then min 1 (ps.count p) else ps.count p := by
  induction ps using List.reverseRecOn with
  | nil =>
    show 0 = _
    split_ifs <;> rfl
  | append_singleton ps q ih =>
    have ih := ih (hknown.mono fun a ha => List.mem_append_left _ ha)
    rw [distinctMedia_append]
    by_cases hq : q.frameType = .kFrameEmpty
    · rw [keep, if_pos hq, ih]
      by_cases hp : p.frameType = .kFrameEmpty
      · rw [if_pos hp, if_pos hp]
      · have hne : q ≠ p := fun e => hp (e ▸ hq)
        rw [if_neg hp, if_neg hp, List.count_append, List.count_singleton, beq_false_of_ne hne]
        rfl
    · rw [keep_of_mem hknown hq]
      by_cases hqp : q = p
      · subst hqp
        rw [if_neg hq] at ih ⊢
        rw [List.count_append, List.count_singleton_self]
        by_cases hsize : 0 < q.storedSize
        · rw [if_pos hsize] at ih ⊢
          by_cases hmem : q ∈ distinctMedia ps
          · have hpos := List.count_pos_iff.mpr hmem
            rw [if_pos ⟨hmem, hsize⟩, ih]
            omega
          · have hzero := List.count_eq_zero.mpr hmem
            rw [if_neg fun h => hmem h.1, List.count_append, List.count_singleton_self]
            omega
        · rw [if_neg hsize] at ih ⊢
          rw [if_neg fun h => hsize h.2, List.count_append, List.count_singleton_self, ih]
      · have hcount : ∀ l : List (VCMPacket Mem), (l ++ [q]).count p = l.count p := by
          intro l
          rw [List.count_append, List.count_singleton, beq_false_of_ne hqp]
          rfl
        rw [hcount]
        split
        · exact ih
        · rw [hcount]
          exact ih

theorem mem_distinctMedia_iff (hknown : KnownByNumber ps) :
    p ∈ distinctMedia ps ↔ p ∈ ps ∧ p.frameType ≠ .kFrameEmpty := by
  classical
  refine ⟨mem_distinctMedia, fun ⟨hmem, hmedia⟩ => ?_⟩
  have hpos := List.count_pos_iff.mpr hmem
  rw [← List.count_pos_iff, count_distinctMedia hknown, if_neg hmedia]
  split <;> omega

/-- The packets that are kept do not depend on the order of the insertions. -/
theorem distinctMedia_perm (hknown : KnownByNumber ps) (hperm : ps.Perm qs) :
    (distinctMedia ps).Perm (distinctMedia qs) := by
  classical
  have hknown' : KnownByNumber qs := hknown.mono fun p hp => hperm.mem_iff.mpr hp
  refine List.perm_iff_count.mpr fun p => ?_
  rw [count_distinctMedia hknown, count_distinctMedia hknown', hperm.count_eq]

end Count

/-! ## The packets after a run -/

/-- A call of `InsertPacket`. -/
structure Call where
  mode : VCMDecodeErrorMode
  frameData : FrameData
  packet : VCMPacket Mem

/-- The frame buffer and the session after the calls. -/
def run (m : Mem) (calls : List Call) : Mem × VCMSessionInfo :=
  calls.foldl (fun s call => (s.2.insertPacket call.mode call.frameData call.packet s.1).2) (m, {})

theorem run_append (m : Mem) (calls : List Call) (call : Call) :
    run m (calls ++ [call]) =
      ((run m calls).2.insertPacket call.mode call.frameData call.packet (run m calls).1).2 := by
  simp only [run, List.foldl_append, List.foldl_cons, List.foldl_nil]

/-- The stored packets are contiguous, from a first packet to a marker. -/
def Contiguous (s : VCMSessionInfo) : Prop :=
  s.haveFirstPacket = true ∧ s.haveLastPacket = true ∧ s.packets.IsChain InSequence

/-- Media packets with consecutive numbers, from a first packet to a marker. -/
def CompleteRun (ps : List (VCMPacket Mem)) : Prop :=
  ∃ run : List (VCMPacket Mem), (∀ p ∈ run, p ∈ ps ∧ p.frameType ≠ .kFrameEmpty) ∧
    run.head?.any VCMPacket.isFirstPacket = true ∧ run.getLast?.any VCMPacket.markerBit = true ∧
    run.IsChain fun p q => p.seqNum + 1 = q.seqNum

theorem contiguous_layout {s : VCMSessionInfo} {os : List (VCMPacket Mem)}
    (hs : s.packets = layout 0 os) :
    (s.haveFirstPacket = os.head?.any VCMPacket.isFirstPacket) ∧
      (s.haveLastPacket = os.getLast?.any VCMPacket.markerBit) ∧
      (s.packets.IsChain InSequence ↔ os.IsChain fun p q => p.seqNum + 1 = q.seqNum) := by
  have hfirst : (layout 0 os).map VCMPacket.isFirstPacket = os.map VCMPacket.isFirstPacket :=
    layout_map (fun _ _ => rfl) 0 os
  have hmarker : (layout 0 os).map VCMPacket.markerBit = os.map VCMPacket.markerBit :=
    layout_map (fun _ _ => rfl) 0 os
  have hhead := congrArg (fun l => l.head?.any id) hfirst
  have hlast := congrArg (fun l => l.getLast?.any id) hmarker
  simp only [List.head?_map, List.getLast?_map, Option.any_map] at hhead hlast
  rw [haveFirstPacket, haveLastPacket, hs]
  refine ⟨hhead, hlast, ?_⟩
  have hchain := @List.isChain_map _ _ (fun a b : BitVec 16 => a + 1 = b) VCMPacket.seqNum
    (layout 0 os)
  rw [layout_seqNums, List.isChain_map] at hchain
  exact hchain.symm

/-- What holds of a session after packets were inserted. -/
structure Holds (ps : List (VCMPacket Mem)) (s : VCMSessionInfo) : Prop where
  packets : ∃ os, s.packets = layout 0 os ∧ InOrder os ∧ os.Perm (distinctMedia ps)
  upToDate : s.haveFirstPacket = true → s.haveLastPacket = true →
    s.complete = decide (s.packets.IsChain InSequence)
  sound : s.complete = true → CompleteRun ps

theorem CompleteRun.mono {ps qs : List (VCMPacket Mem)} (h : CompleteRun ps)
    (hsub : ∀ p ∈ ps, p ∈ qs) : CompleteRun qs := by
  obtain ⟨run, hrun, hrest⟩ := h
  exact ⟨run, fun p hp => ⟨hsub p (hrun p hp).1, (hrun p hp).2⟩, hrest⟩

/-- An insertion that keeps the packets and `complete()`. -/
theorem Holds.unchanged {ps qs : List (VCMPacket Mem)} {s s' : VCMSessionInfo} (h : Holds ps s)
    (hsub : ∀ p ∈ ps, p ∈ qs) (hkept : distinctMedia qs = distinctMedia ps)
    (hpackets : s'.packets = s.packets) (hcomplete : s'.complete = s.complete) : Holds qs s' where
  packets := by
    rw [hpackets, hkept]
    exact h.packets
  upToDate := by
    rw [haveFirstPacket, haveLastPacket, hpackets, hcomplete]
    exact h.upToDate
  sound := fun hc => (h.sound (hcomplete ▸ hc)).mono hsub

theorem insertPacket_holds {ps all : List (VCMPacket Mem)} {p : VCMPacket Mem}
    (hall : SessionPackets all) (hps : ps ++ [p] <+: all) {s : VCMSessionInfo} (h : Holds ps s)
    (mode : VCMDecodeErrorMode) (frameData : FrameData) (m : Mem) :
    Holds (ps ++ [p]) (insertPacket mode frameData p m s).2.2 := by
  classical
  have hsub : ∀ q ∈ ps, q ∈ ps ++ [p] := fun q hq => List.mem_append_left _ hq
  have hknown : KnownByNumber (ps ++ [p]) := hall.known.mono fun q hq => hps.subset hq
  have hkept := distinctMedia_append ps p
  by_cases hp : p.frameType = .kFrameEmpty
  · rw [keep, if_pos hp] at hkept
    refine h.unchanged hsub hkept ?_ ?_
    · simp only [insertPacket, if_pos hp, informOfEmptyPacket, updateFrameType_packets]
    · simp only [insertPacket, if_pos hp, informOfEmptyPacket, updateFrameType_complete]
  · obtain ⟨os, hos, horder, hperm⟩ := h.packets
    rw [keep_of_mem hknown hp] at hkept
    obtain ⟨before, behind, rfl, hsplits, -, -, hcases⟩ := insertPacket_layout hos hp mode frameData m
    have hlength := (distinctMedia_mono hps).length_le.trans hall.length_le
    obtain ⟨base, hbase⟩ := hall.window
    have hbase' : ∀ q ∈ distinctMedia (ps ++ [p]), InHalf base q.seqNum := fun q hq =>
      hbase _ (List.mem_map_of_mem ((distinctMedia_mono hps).subset hq))
    have hmem : ∀ q ∈ before ++ behind, q ∈ distinctMedia ps := fun q hq => hperm.mem_iff.mp hq
    have hmem' : ∀ q ∈ before ++ behind, q ∈ distinctMedia (ps ++ [p]) := fun q hq =>
      (distinctMedia_mono (List.prefix_append ps [p])).subset (hmem q hq)
    have hpmem : p ∈ distinctMedia (ps ++ [p]) :=
      (mem_distinctMedia_iff hknown).mpr ⟨List.mem_append_right _ List.mem_cons_self, hp⟩
    have heq : ∀ q ∈ before, q.seqNum = p.seqNum → q = p := fun q hq hseq =>
      hknown q (hsub q (mem_distinctMedia (hmem q (List.mem_append_left _ hq))).1) p
        (List.mem_append_right _ List.mem_cons_self)
        (mem_distinctMedia (hmem q (List.mem_append_left _ hq))).2 hp hseq
    rcases hcases with ⟨hfull, hinsert⟩ | ⟨-, ⟨q, hq, hseq, hsize⟩, hinsert⟩ |
      ⟨-, hnodup, hinsert⟩
    · rw [hinsert]
      refine h.unchanged hsub ?_ (updateFrameType_packets _ _) (updateFrameType_complete _ _)
      rw [hkept]
      refine if_pos (not_not.mp fun hnot => ?_)
      rw [hkept, if_neg hnot, List.length_append, ← hperm.length_eq, hfull] at hlength
      exact absurd hlength (by simp)
    · rw [hinsert]
      refine h.unchanged hsub ?_ (updateFrameType_packets _ _) (updateFrameType_complete _ _)
      have hbefore := List.mem_of_getLast? hq
      obtain rfl := heq q hbefore hseq
      rw [hkept, if_pos ⟨hmem q (List.mem_append_left _ hbefore), hsize⟩]
    · have hnew : ¬ (p ∈ distinctMedia ps ∧ 0 < p.storedSize) := by
        rintro ⟨hthere, hsize⟩
        obtain ⟨q, hq, hseq⟩ := last_of_mem (fun q hq => hbase' q (hmem' q hq)) (hbase' p hpmem)
          horder hsplits (List.mem_map_of_mem (hperm.mem_iff.mpr hthere))
        have hzero := hnodup q hq hseq
        rw [heq q (List.mem_of_getLast? hq) hseq] at hzero
        omega
      rw [if_neg hnew] at hkept
      have horder' : InOrder (before ++ p :: behind) :=
        horder.insert (fun q hq => hbase' q (hmem' q hq)) (hbase' p hpmem) hsplits fun q hq hseq =>
          ⟨heq q (List.mem_of_getLast? hq) hseq, hnodup q hq hseq⟩
      have hperm' : (before ++ p :: behind).Perm (distinctMedia (ps ++ [p])) := by
        rw [hkept]
        exact List.perm_middle.trans ((hperm.cons p).trans (List.perm_append_singleton p _).symm)
      rw [hinsert]
      let t : VCMSessionInfo :=
        { s.updateFrameType p with packets := layout 0 (before ++ p :: behind) }
      have ht : t.packets = layout 0 (before ++ p :: behind) := rfl
      have hcomplete : t.complete = s.complete := updateFrameType_complete s p
      have hpackets : (t.updateCompleteSession.updateDecodable mode frameData).packets = t.packets := by
        rw [updateDecodable_packets, updateCompleteSession_packets]
      have hfirst := (contiguous_layout ht).1
      have hlast := (contiguous_layout ht).2.1
      have hchain := (contiguous_layout ht).2.2
      show Holds _ (t.updateCompleteSession.updateDecodable mode frameData)
      refine ⟨⟨_, hpackets.trans ht, horder', hperm'⟩, ?_, ?_⟩
      · rw [haveFirstPacket, haveLastPacket, hpackets]
        intro hf hl
        rw [updateDecodable_complete]
        rw [updateCompleteSession_complete]
        refine if_pos ?_
        rw [Bool.and_eq_true]
        exact ⟨hf, hl⟩
      · intro hc
        rw [updateDecodable_complete, updateCompleteSession_complete] at hc
        split at hc
        · rename_i hfl
          rw [Bool.and_eq_true, hfirst, hlast] at hfl
          refine ⟨_, fun q hq => ?_, hfl.1, hfl.2, hchain.mp (of_decide_eq_true hc)⟩
          exact mem_distinctMedia (hperm'.mem_iff.mp hq)
        · exact (h.sound (hcomplete ▸ hc)).mono hsub

section Run

variable {calls calls' : List Call} {ps qs : List (VCMPacket Mem)} {m m' : Mem} {s : VCMSessionInfo}

theorem run_holds (hall : SessionPackets (calls.map Call.packet)) (m : Mem) :
    Holds (calls.map Call.packet) (run m calls).2 := by
  suffices h : ∀ done, done <+: calls → Holds (done.map Call.packet) (run m done).2 from
    h calls List.prefix_rfl
  intro done
  induction done using List.reverseRecOn with
  | nil => exact fun _ => ⟨⟨[], rfl, List.Pairwise.nil, List.Perm.refl _⟩, nofun, nofun⟩
  | append_singleton done call ih =>
    intro hps
    have hdone := ih ((List.prefix_append _ _).trans hps)
    have hmap := hps.map Call.packet
    rw [List.map_append] at hmap ⊢
    rw [run_append]
    exact insertPacket_holds hall hmap hdone call.mode call.frameData (run m done).1

theorem SessionPackets.perm (h : SessionPackets ps) (hperm : ps.Perm qs) : SessionPackets qs where
  window := h.window.mono fun _ ha =>
    ((distinctMedia_perm h.known hperm).map VCMPacket.seqNum).mem_iff.mpr ha
  known := h.known.mono fun _ hp => hperm.mem_iff.mpr hp
  length_le := (distinctMedia_perm h.known hperm).length_eq ▸ h.length_le

/-- The packets that are stored do not depend on the order of the
insertions. -/
theorem Holds.packets_eq {s' : VCMSessionInfo} (hps : SessionPackets ps) (hperm : ps.Perm qs)
    (h : Holds ps s) (h' : Holds qs s') : s.packets = s'.packets := by
  obtain ⟨os, hos, horder, hkept⟩ := h.packets
  obtain ⟨os', hos', horder', hkept'⟩ := h'.packets
  obtain ⟨base, hbase⟩ := hps.window
  have hall : os.Perm os' :=
    hkept.trans ((distinctMedia_perm hps.known hperm).trans hkept'.symm)
  have hbase' : ∀ q ∈ os, InHalf base q.seqNum :=
    fun q hq => hbase _ (List.mem_map_of_mem (hkept.mem_iff.mp hq))
  have hdist := horder.distances hbase'
  have hdist' := horder'.distances fun q hq => hbase' q (hall.mem_iff.mpr hq)
  have hmem : ∀ q ∈ os, q ∈ ps ∧ q.frameType ≠ .kFrameEmpty :=
    fun q hq => mem_distinctMedia (hkept.mem_iff.mp hq)
  have heq : os = os' := by
    refine List.Perm.eq_of_pairwise (fun a b ha hb hab hba => ?_) hdist hdist' hall
    have hb' := hall.mem_iff.mpr hb
    exact hps.known a (hmem a ha).1 b (hmem b hb').1 (hmem a ha).2 (hmem b hb').2
      (eq_of_sub_eq (le_antisymm hab hba))
  rw [hos, hos', heq]

/-- The packet with the lowest number is a first packet, and the one with the
highest has the marker. -/
def Delimited (ps : List (VCMPacket Mem)) : Prop :=
  (∃ p ∈ ps, p.frameType ≠ .kFrameEmpty ∧ p.isFirstPacket = true ∧
      ∀ q ∈ ps, q.frameType ≠ .kFrameEmpty → ¬ Precedes q.seqNum p.seqNum) ∧
    ∃ p ∈ ps, p.frameType ≠ .kFrameEmpty ∧ p.markerBit = true ∧
      ∀ q ∈ ps, q.frameType ≠ .kFrameEmpty → ¬ Precedes p.seqNum q.seqNum

instance (ps : List (VCMPacket Mem)) : Decidable (Delimited ps) :=
  inferInstanceAs (Decidable ((∃ p ∈ ps, _) ∧ ∃ p ∈ ps, _))

theorem Delimited.perm (hperm : ps.Perm qs) : Delimited ps ↔ Delimited qs := by
  simp only [Delimited, hperm.mem_iff]

theorem CompleteRun.perm (hperm : ps.Perm qs) : CompleteRun ps ↔ CompleteRun qs := by
  simp only [CompleteRun, hperm.mem_iff]

/-- The first stored packet of a delimited frame is its first packet, and the
last one has the marker. -/
theorem Holds.delimited (hps : SessionPackets ps) (h : Holds ps s) (hdelimited : Delimited ps) :
    s.haveFirstPacket = true ∧ s.haveLastPacket = true := by
  obtain ⟨os, hos, horder, hkept⟩ := h.packets
  obtain ⟨base, hbase⟩ := hps.window
  have hmem : ∀ q, q ∈ os ↔ q ∈ ps ∧ q.frameType ≠ .kFrameEmpty :=
    fun q => hkept.mem_iff.trans (mem_distinctMedia_iff hps.known)
  have hbase' : ∀ q ∈ os, InHalf base q.seqNum :=
    fun q hq => hbase _ (List.mem_map_of_mem (hkept.mem_iff.mp hq))
  have hdist := horder.distances hbase'
  -- Two stored packets of which neither precedes the other are the same.
  have heq : ∀ q ∈ os, ∀ r ∈ os, (q.seqNum - base).toNat ≤ (r.seqNum - base).toNat →
      ¬ Precedes q.seqNum r.seqNum → q = r := by
    intro q hq r hr hle hnot
    rw [precedes_iff (hbase' q hq) (hbase' r hr)] at hnot
    have hseq : q.seqNum = r.seqNum := eq_of_sub_eq (le_antisymm hle (by omega))
    exact hps.known q ((hmem q).mp hq).1 r ((hmem r).mp hr).1 ((hmem q).mp hq).2
      ((hmem r).mp hr).2 hseq
  obtain ⟨⟨p, hp, hpmedia, hfirst, hlow⟩, ⟨r, hr, hrmedia, hmarker, hhigh⟩⟩ := hdelimited
  have hpos := (hmem p).mpr ⟨hp, hpmedia⟩
  have hros := (hmem r).mpr ⟨hr, hrmedia⟩
  rw [(contiguous_layout hos).1, (contiguous_layout hos).2.1]
  constructor
  · rcases os with _ | ⟨o, os⟩
    · exact absurd hpos List.not_mem_nil
    · have ho := (hmem o).mp List.mem_cons_self
      have hle : (o.seqNum - base).toNat ≤ (p.seqNum - base).toNat := by
        rcases List.mem_cons.mp hpos with rfl | hpos'
        · exact le_refl _
        · exact List.rel_of_pairwise_cons hdist hpos'
      rw [← heq o List.mem_cons_self p hpos hle (hlow o ho.1 ho.2)] at hfirst
      exact hfirst
  · rcases List.eq_nil_or_concat' os with rfl | ⟨init, o, rfl⟩
    · exact absurd hros List.not_mem_nil
    · have homem : o ∈ init ++ [o] := List.mem_append_right _ List.mem_cons_self
      have ho := (hmem o).mp homem
      have hle : (r.seqNum - base).toNat ≤ (o.seqNum - base).toNat := by
        rcases List.mem_append.mp hros with hr' | hr'
        · exact (List.pairwise_append.mp hdist).2.2 r hr' o List.mem_cons_self
        · rw [List.mem_singleton.mp hr']
      rw [heq r hros o homem hle (hhigh o ho.1 ho.2)] at hmarker
      rw [List.getLast?_concat]
      exact hmarker

theorem Holds.complete_iff (hps : SessionPackets ps) (hshape : Delimited ps ∨ ¬ CompleteRun ps)
    (h : Holds ps s) : s.complete = true ↔ s.Contiguous := by
  constructor
  · intro hc
    rcases hshape with hdelimited | hnone
    · obtain ⟨hfirst, hlast⟩ := h.delimited hps hdelimited
      rw [h.upToDate hfirst hlast] at hc
      exact ⟨hfirst, hlast, of_decide_eq_true hc⟩
    · exact absurd (h.sound hc) hnone
  · rintro ⟨hfirst, hlast, hchain⟩
    rw [h.upToDate hfirst hlast]
    exact decide_eq_true hchain

/-- Two sessions into which the same packets were inserted are both complete or
both not, and are complete exactly if the stored packets are contiguous from a
first packet to a marker. -/
theorem run_complete (hperm : (calls.map Call.packet).Perm (calls'.map Call.packet))
    (hps : SessionPackets (calls.map Call.packet))
    (hshape : Delimited (calls.map Call.packet) ∨ ¬ CompleteRun (calls.map Call.packet))
    (m m' : Mem) :
    (run m calls).2.complete = (run m' calls').2.complete ∧
      ((run m calls).2.complete = true ↔ (run m calls).2.Contiguous) := by
  have h := run_holds hps m
  have h' := run_holds (hps.perm hperm) m'
  have hshape' := hshape
  rw [Delimited.perm hperm, CompleteRun.perm hperm] at hshape'
  have hiff := h.complete_iff hps hshape
  have hiff' := h'.complete_iff (hps.perm hperm) hshape'
  have hpackets := h.packets_eq hps hperm h'
  refine ⟨?_, hiff⟩
  rw [Bool.eq_iff_iff, hiff, hiff', Contiguous, Contiguous, haveFirstPacket, haveFirstPacket,
    haveLastPacket, haveLastPacket, hpackets]

end Run

/-- Calls with packets of one byte that have these numbers and flags. -/
def callsFor (packets : List (BitVec 16 × Bool × Bool)) : List Call :=
  packets.map fun p =>
    ⟨.kNoErrors, ⟨0, fun _ => false⟩,
      { seqNum := p.1, dataPtr := some (Mem.ofList [0]), sizeBytes := 1,
        frameType := .kVideoFrameDelta, isFirstPacket := p.2.1, markerBit := p.2.2 }⟩

theorem callsFor_sessionPackets {packets : List (BitVec 16 × Bool × Bool)}
    (hnodup : (packets.map Prod.fst).Nodup)
    (hwindow : HalfWindow ((distinctMedia ((callsFor packets).map Call.packet)).map
      VCMPacket.seqNum))
    (hlength : (distinctMedia ((callsFor packets).map Call.packet)).length ≤ kMaxPacketsInSession) :
    SessionPackets ((callsFor packets).map Call.packet) where
  window := hwindow
  known := by
    intro p hp q hq _ _ hseq
    refine List.inj_on_of_nodup_map (f := VCMPacket.seqNum) ?_ hp hq hseq
    rw [callsFor, List.map_map, List.map_map]
    exact hnodup
  length_le := hlength

def twoPackets : List Call := callsFor [(0, true, false), (1, false, true)]

theorem run_complete_two :
    (run (Mem.ofList []) twoPackets).2.complete =
        (run (Mem.ofList []) twoPackets.reverse).2.complete ∧
      ((run (Mem.ofList []) twoPackets).2.complete = true ↔
        (run (Mem.ofList []) twoPackets).2.Contiguous) :=
  run_complete ((List.reverse_perm twoPackets).symm.map Call.packet)
    (callsFor_sessionPackets (by decide) (by decide) (by decide)) (.inl (by decide)) _ _

/-- A packet behind the marker: the session is complete if it comes last, and
not if it comes before the marker. -/
theorem run_complete_not_perm :
    ∃ (m : Mem) (calls calls' : List Call), (calls.map Call.packet).Perm (calls'.map Call.packet) ∧
      SessionPackets (calls.map Call.packet) ∧
      (run m calls).2.complete ≠ (run m calls').2.complete := by
  refine ⟨Mem.ofList [], callsFor [(0, true, false), (1, false, true), (2, false, false)],
    callsFor [(0, true, false), (2, false, false), (1, false, true)], ?_, ?_, ?_⟩
  · exact (List.Perm.swap _ _ _).cons _
  · exact callsFor_sessionPackets (by decide) (by decide) (by decide)
  · decide +kernel

end VCMSessionInfo

end PerchWebrtc.Video
