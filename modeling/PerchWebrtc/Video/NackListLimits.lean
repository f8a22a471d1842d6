import PerchWebrtc.Framework.Loops
import PerchWebrtc.Video.NackList

/-!
# The limits of the NACK list

`HandleTooLargeNackList` and `HandleTooOldPackets` recycle frames until the NACK list is within
its limits. Both come to an end in every state, and the list is then short enough. Of its age
only the first number is looked at, so that the others are young enough if and only if the set is
in the order of its comparison, which is not transitive. `Start` leaves the numbers of an earlier
run in the set, and breaks that order.

* `recycleFramesUntilKeyFrame_recycles`: what is recycled;
* `loop_recycles`, `recycleWhile_ended`: the loops;
* `nackListTrimmed_iff`: the limits, from the order of the set.
-/

namespace PerchWebrtc.Video.VCMJitterBuffer

open Circular Framework

variable {jb : VCMJitterBuffer} {latest : BitVec 16} {jb' : VCMJitterBuffer}

/-! ## The loops -/

/-- A round of the loops of `HandleTooLargeNackList` and `HandleTooOldPackets`, with
`key_frame_found`. -/
def recycleRound (condition : VCMJitterBuffer → Bool) (s : Bool × VCMJitterBuffer) :
    Option ((Bool × VCMJitterBuffer) ⊕ (Bool × VCMJitterBuffer)) :=
  some (if condition s.2 then .inr s.2.recycleFramesUntilKeyFrame else .inl s)

/-- With any number of rounds from some number on, the loop has this result. -/
def Ends (condition : VCMJitterBuffer → Bool) (jb : VCMJitterBuffer)
    (result : Bool × VCMJitterBuffer) : Prop :=
  Settles (jb.recycleLimit + 1) (fun fuel => loop (recycleRound condition) fuel (false, jb))
    (· = result)

def waitingFrames (jb : VCMJitterBuffer) : Nat :=
  jb.incompleteFrames.length + jb.decodableFrames.length

/-- What recycling does to the frames and to the NACK list. -/
structure Recycles (jb jb' : VCMJitterBuffer) : Prop where
  missing : jb'.missingSequenceNumbers <:+ jb.missingSequenceNumbers
  maxNackListSize : jb'.maxNackListSize = jb.maxNackListSize
  maxPacketAgeToNack : jb'.maxPacketAgeToNack = jb.maxPacketAgeToNack

theorem Recycles.refl (jb : VCMJitterBuffer) : Recycles jb jb := ⟨List.suffix_refl _, rfl, rfl⟩

theorem Recycles.trans {jb'' : VCMJitterBuffer} (h : Recycles jb jb') (h' : Recycles jb' jb'') :
    Recycles jb jb'' where
  missing := h'.missing.trans h.missing
  maxNackListSize := h'.maxNackListSize.trans h.maxNackListSize
  maxPacketAgeToNack := h'.maxPacketAgeToNack.trans h.maxPacketAgeToNack

/-- At least one frame is recycled, if there is one. -/
theorem recycled_length (buffers : Nat → VCMFrameBuffer) (l : FrameList) :
    (l.recycleFramesUntilKeyFrame buffers).2.length ≤ l.length - 1 := by
  cases l with
  | nil => exact le_refl 0
  | cons e l => exact (List.dropWhile_suffix _).length_le

/-- Fewer frames wait, or the list is empty. Without a key frame it is as it was, or empty. -/
theorem recycleFramesUntilKeyFrame_recycles (jb : VCMJitterBuffer) :
    Recycles jb jb.recycleFramesUntilKeyFrame.2 ∧
      (jb.recycleFramesUntilKeyFrame.2.waitingFrames < jb.waitingFrames ∨
        jb.recycleFramesUntilKeyFrame.2.missingSequenceNumbers = []) ∧
      (jb.recycleFramesUntilKeyFrame.1 = false →
        jb.recycleFramesUntilKeyFrame.2.missingSequenceNumbers = [] ∨
          jb.recycleFramesUntilKeyFrame.2.missingSequenceNumbers = jb.missingSequenceNumbers) := by
  have hincomplete := recycled_length jb.frameBuffers jb.incompleteFrames
  have hdecodable := recycled_length jb.frameBuffers jb.decodableFrames
  unfold recycleFramesUntilKeyFrame
  dsimp only
  by_cases hempty : jb.incompleteFrames = []
  · rw [if_pos hempty]
    cases hkey : (jb.decodableFrames.recycleFramesUntilKeyFrame jb.frameBuffers).2 with
    | nil => exact ⟨⟨List.nil_suffix, rfl, rfl⟩, .inr rfl, fun _ => .inl rfl⟩
    | cons e l =>
      refine ⟨⟨Ordered.above_suffix _ _, rfl, rfl⟩, .inl ?_, fun h => absurd h (by simp)⟩
      rw [hkey] at hdecodable
      have hone : 0 < (e :: l).length := Nat.succ_pos _
      show jb.incompleteFrames.length + (e :: l).length <
        jb.incompleteFrames.length + jb.decodableFrames.length
      omega
  · rw [if_neg hempty]
    have hpos := List.length_pos_iff.mpr hempty
    cases hkey : (jb.incompleteFrames.recycleFramesUntilKeyFrame jb.frameBuffers).2 with
    | nil =>
      dsimp only
      split
      · exact ⟨⟨List.nil_suffix, rfl, rfl⟩, .inr rfl, fun _ => .inl rfl⟩
      · refine ⟨⟨List.suffix_refl _, rfl, rfl⟩, .inl ?_, fun _ => .inr rfl⟩
        show 0 + jb.decodableFrames.length <
          jb.incompleteFrames.length + jb.decodableFrames.length
        omega
    | cons e l =>
      refine ⟨⟨Ordered.above_suffix _ _, rfl, rfl⟩, .inl ?_, fun h => absurd h (by simp)⟩
      rw [hkey] at hincomplete
      show (e :: l).length + jb.decodableFrames.length <
        jb.incompleteFrames.length + jb.decodableFrames.length
      omega

section Loops

variable {condition : VCMJitterBuffer → Bool}

theorem recycleWhile_recycles : ∀ (n : Nat) (keyFrameFound : Bool) (jb : VCMJitterBuffer),
    Recycles jb (recycleWhile condition n keyFrameFound jb).2
  | 0, _, jb => Recycles.refl jb
  | n + 1, keyFrameFound, jb => by
    unfold recycleWhile
    split
    · exact (recycleFramesUntilKeyFrame_recycles jb).1.trans (recycleWhile_recycles n _ _)
    · exact Recycles.refl jb

theorem recycleWhile_stopped {n : Nat} {keyFrameFound : Bool} (h : condition jb = false) :
    recycleWhile condition n keyFrameFound jb = (keyFrameFound, jb) := by
  cases n with
  | zero => rfl
  | succ n => rw [recycleWhile, h, if_neg Bool.false_ne_true]

/-- Every round recycles a frame, or clears the list and ends the loop. -/
theorem recycleWhile_ended
    (hclear : ∀ jb : VCMJitterBuffer, jb.missingSequenceNumbers = [] → condition jb = false) :
    ∀ {n : Nat} {keyFrameFound : Bool} {jb : VCMJitterBuffer}, jb.waitingFrames < n →
      condition (recycleWhile condition n keyFrameFound jb).2 = false
  | 0, _, _, hn => absurd hn (Nat.not_lt_zero _)
  | n + 1, keyFrameFound, jb, hn => by
    unfold recycleWhile
    cases hcondition : condition jb with
    | false => exact hcondition
    | true =>
      rw [if_pos rfl]
      obtain ⟨-, hless | hempty, -⟩ := recycleFramesUntilKeyFrame_recycles jb
      · exact recycleWhile_ended hclear (lt_of_lt_of_le hless (Nat.le_of_lt_succ hn))
      · rw [recycleWhile_stopped (hclear _ hempty)]
        exact hclear _ hempty

/-- A loop that ends without a key frame has cleared the list. -/
theorem recycleWhile_noKeyFrame
    (hclear : ∀ jb : VCMJitterBuffer, jb.missingSequenceNumbers = [] → condition jb = false)
    (hcondition : ∀ {jb jb' : VCMJitterBuffer}, Recycles jb jb' →
      jb'.missingSequenceNumbers = jb.missingSequenceNumbers → condition jb' = condition jb) :
    ∀ {n : Nat} {keyFrameFound : Bool} {jb : VCMJitterBuffer},
      condition (recycleWhile condition n keyFrameFound jb).2 = false →
      (recycleWhile condition n keyFrameFound jb).1 = false →
      (recycleWhile condition n keyFrameFound jb).2.missingSequenceNumbers = [] ∨
        condition jb = false
  | 0, _, _, h, _ => .inr h
  | n + 1, keyFrameFound, jb, h, hnot => by
    cases hround : condition jb with
    | false => exact .inr rfl
    | true =>
      rw [recycleWhile, if_pos hround] at h hnot ⊢
      obtain ⟨hrecycles, -, hnoKey⟩ := recycleFramesUntilKeyFrame_recycles jb
      left
      rcases recycleWhile_noKeyFrame hclear hcondition h hnot with hempty | hstopped
      · exact hempty
      · rw [recycleWhile_stopped hstopped] at hnot ⊢
        rcases hnoKey hnot with hempty | hsame
        · exact hempty
        · rw [hcondition hrecycles hsame, hround] at hstopped
          exact Bool.noConfusion hstopped

theorem loop_recycles : ∀ {n : Nat} {keyFrameFound : Bool} {jb : VCMJitterBuffer},
    condition (recycleWhile condition n keyFrameFound jb).2 = false → ∀ fuel > n,
    loop (recycleRound condition) fuel (keyFrameFound, jb) =
      some (recycleWhile condition n keyFrameFound jb)
  | n, keyFrameFound, jb, h, 0, hfuel => absurd hfuel (Nat.not_lt_zero n)
  | 0, keyFrameFound, jb, h, fuel + 1, _ => by
    have hround : recycleRound condition (keyFrameFound, jb) = some (.inl (keyFrameFound, jb)) := by
      rw [recycleRound, show condition jb = false from h, if_neg Bool.false_ne_true]
    rw [loop, hround]
    rfl
  | n + 1, keyFrameFound, jb, h, fuel + 1, hfuel => by
    unfold recycleWhile at h ⊢
    unfold loop recycleRound
    dsimp only
    cases hcondition : condition jb with
    | false => rfl
    | true =>
      rw [hcondition, if_pos rfl] at h
      exact loop_recycles h fuel (Nat.lt_of_succ_lt_succ hfuel)

end Loops

/-! ## The two loops -/

theorem tooLargeNackList_empty (jb : VCMJitterBuffer) (h : jb.missingSequenceNumbers = []) :
    jb.tooLargeNackList = false := by
  rw [tooLargeNackList, h]
  rfl

theorem missingTooOldPacket_empty (jb : VCMJitterBuffer) (h : jb.missingSequenceNumbers = []) :
    jb.missingTooOldPacket latest = false := by
  rw [missingTooOldPacket, h]
  rfl

theorem tooLargeNackList_same (h : Recycles jb jb')
    (hsame : jb'.missingSequenceNumbers = jb.missingSequenceNumbers) :
    jb'.tooLargeNackList = jb.tooLargeNackList := by
  rw [tooLargeNackList, hsame, h.maxNackListSize]
  rfl

theorem waitingFrames_lt (jb : VCMJitterBuffer) : jb.waitingFrames < jb.recycleLimit :=
  Nat.lt_succ_self _

theorem handleTooLargeNackList_ended (jb : VCMJitterBuffer) :
    jb.handleTooLargeNackList.2.tooLargeNackList = false :=
  recycleWhile_ended tooLargeNackList_empty (waitingFrames_lt jb)

theorem handleTooOldPackets_ended (jb : VCMJitterBuffer) (latest : BitVec 16) :
    (jb.handleTooOldPackets latest).2.missingTooOldPacket latest = false :=
  recycleWhile_ended missingTooOldPacket_empty (waitingFrames_lt jb)

theorem handleTooLargeNackList_ends (jb : VCMJitterBuffer) :
    Ends tooLargeNackList jb jb.handleTooLargeNackList :=
  ⟨_, rfl, loop_recycles jb.handleTooLargeNackList_ended⟩

theorem handleTooOldPackets_ends (jb : VCMJitterBuffer) (latest : BitVec 16) :
    Ends (missingTooOldPacket · latest) jb (jb.handleTooOldPackets latest) :=
  ⟨_, rfl, loop_recycles (jb.handleTooOldPackets_ended latest)⟩

theorem handleTooLargeNackList_recycles (jb : VCMJitterBuffer) :
    Recycles jb jb.handleTooLargeNackList.2 :=
  recycleWhile_recycles _ _ _

theorem handleTooOldPackets_recycles (jb : VCMJitterBuffer) (latest : BitVec 16) :
    Recycles jb (jb.handleTooOldPackets latest).2 :=
  recycleWhile_recycles _ _ _

/-- The state behind the first of the loops, where it is entered. -/
theorem sized_trimmed (jb : VCMJitterBuffer) {sized : Bool × VCMJitterBuffer}
    (h : (if jb.tooLargeNackList then jb.handleTooLargeNackList else (true, jb)) = sized) :
    Recycles jb sized.2 ∧ sized.2.tooLargeNackList = false ∧
      (sized.1 = false → sized.2.missingSequenceNumbers = []) := by
  cases hlarge : jb.tooLargeNackList with
  | false =>
    rw [hlarge, if_neg Bool.false_ne_true] at h
    subst h
    exact ⟨Recycles.refl jb, hlarge, fun hnot => Bool.noConfusion hnot⟩
  | true =>
    rw [hlarge, if_pos rfl] at h
    subst h
    refine ⟨jb.handleTooLargeNackList_recycles, jb.handleTooLargeNackList_ended, fun hnot => ?_⟩
    have hcleared := recycleWhile_noKeyFrame tooLargeNackList_empty tooLargeNackList_same
      jb.handleTooLargeNackList_ended hnot
    exact hcleared.resolve_right (by rw [hlarge]; exact Bool.noConfusion)

theorem Recycles.length_le (h : Recycles jb jb') (hsize : jb'.tooLargeNackList = false) :
    jb'.missingSequenceNumbers.length ≤ jb.maxNackListSize := by
  rw [← h.maxNackListSize]
  exact Nat.le_of_not_lt (of_decide_eq_false hsize)

/-! ## The age of the numbers -/

/-- No number is older than one in front of it. -/
def InOrder (missing : List (BitVec 16)) : Prop := missing.Pairwise fun a b => ¬ Precedes b a

/-- No number is older than the latest one by more than the limit. -/
def YoungEnough (maxAge : Nat) (latest : BitVec 16) (missing : List (BitVec 16)) : Prop :=
  ∀ n ∈ missing, Precedes n latest → (latest - n).toNat ≤ maxAge

theorem age_le {first n : BitVec 16} (hfirst : ¬ Precedes n first) (hn : Precedes n latest) :
    (latest - n).toNat ≤ (latest - first).toNat := by
  by_contra hless
  have hless := Nat.lt_of_not_le hless
  have hsplit : first - n = (latest - n) - (latest - first) := by grind
  have hdistance : (first - n).toNat = (latest - n).toNat - (latest - first).toNat := by
    rw [hsplit, BitVec.toNat_sub_of_le (BitVec.le_def.mpr hless.le)]
  refine hfirst ⟨fun hsame => ?_, ?_⟩
  · rw [hsame] at hless
    exact Nat.lt_irrefl _ hless
  · have hhalf := hn.2
    omega

theorem youngEnough_of_head (horder : InOrder jb.missingSequenceNumbers)
    (hage : jb.missingTooOldPacket latest = false) :
    YoungEnough jb.maxPacketAgeToNack latest jb.missingSequenceNumbers := by
  unfold missingTooOldPacket at hage
  cases hmissing : jb.missingSequenceNumbers with
  | nil => exact fun n hn => absurd hn List.not_mem_nil
  | cons first others =>
    rw [hmissing] at horder hage
    have hfirst : (latest - first).toNat ≤ jb.maxPacketAgeToNack :=
      Nat.le_of_not_lt (of_decide_eq_false hage)
    intro n hn hprecedes
    rcases List.mem_cons.mp hn with rfl | hn
    · exact hfirst
    · exact (age_le ((List.pairwise_cons.mp horder).1 n hn) hprecedes).trans hfirst

theorem handleTooOldPackets_young (horder : InOrder jb.missingSequenceNumbers)
    (latest : BitVec 16) :
    YoungEnough jb.maxPacketAgeToNack latest
      (jb.handleTooOldPackets latest).2.missingSequenceNumbers := by
  have hrecycles := jb.handleTooOldPackets_recycles latest
  rw [← hrecycles.maxPacketAgeToNack]
  exact youngEnough_of_head (horder.sublist hrecycles.missing.sublist)
    (jb.handleTooOldPackets_ended latest)

/-- The first number with an older one behind it. -/
theorem exists_older : ∀ {missing : List (BitVec 16)}, ¬ InOrder missing →
    ∃ front a back b, missing = front ++ a :: back ∧ b ∈ back ∧ Precedes b a ∧
      ∀ x ∈ front, x ≠ a ∧ ¬ Precedes a x
  | [], h => absurd List.Pairwise.nil h
  | x :: missing, h => by
    by_cases hx : ∀ y ∈ missing, ¬ Precedes y x
    · have hrest : ¬ InOrder missing := fun hrest => h (List.pairwise_cons.mpr ⟨hx, hrest⟩)
      obtain ⟨front, a, back, b, rfl, hb, hba, hfront⟩ := exists_older hrest
      refine ⟨x :: front, a, back, b, rfl, hb, hba, fun y hy => ?_⟩
      rcases List.mem_cons.mp hy with rfl | hy
      · refine ⟨?_, hx a (List.mem_append_right front List.mem_cons_self)⟩
        rintro rfl
        exact hx b (List.mem_append_right front (List.mem_cons_of_mem _ hb)) hba
      · exact hfront y hy
    · push Not at hx
      obtain ⟨b, hb, hbx⟩ := hx
      exact ⟨[], x, missing, b, rfl, hb, hbx, fun y hy => absurd hy List.not_mem_nil⟩

/-- A key frame whose first packet has the number `n`. -/
def keyFrameFrom (n : BitVec 16) : VCMFrameBuffer :=
  { VCMFrameBuffer.new with
    sessionInfo :=
      { frameType := .kVideoFrameKey
        packets := [{ seqNum := n, isFirstPacket := true }] } }

/-- A state that has missing numbers, and a key frame that the frames are recycled up to. -/
def waitingForKeyFrame (missing : List (BitVec 16)) (n : BitVec 16) : VCMJitterBuffer where
  frameBuffers i := if i = 1 then keyFrameFrom n else .new
  incompleteFrames := [(0, 0), (1, 1)]
  missingSequenceNumbers := missing

theorem waitingForKeyFrame_recycled (missing : List (BitVec 16)) (n : BitVec 16) :
    (waitingForKeyFrame missing n).recycleFramesUntilKeyFrame.2.missingSequenceNumbers =
      Ordered.above Precedes id n missing :=
  rfl

theorem missingTooOldPacket_self {a : BitVec 16} {back : List (BitVec 16)}
    (h : jb.missingSequenceNumbers = a :: back) : jb.missingTooOldPacket a = false := by
  have hself : (a - a).toNat = 0 := by
    rw [BitVec.sub_self]
    rfl
  rw [missingTooOldPacket, h]
  show decide (jb.maxPacketAgeToNack < (a - a).toNat) = false
  rw [hself]
  exact decide_eq_false (Nat.not_lt_zero _)

theorem precedes_sub_one (a : BitVec 16) : Precedes (a - 1) a := by
  have hdistance : a - (a - 1) = 1 := by grind
  refine ⟨fun h => ?_, by rw [hdistance]; decide⟩
  rw [← h, BitVec.sub_self] at hdistance
  exact absurd hdistance (by decide)

theorem not_precedes_sub_one {a x : BitVec 16} (hne : x ≠ a) (h : ¬ Precedes a x) :
    ¬ Precedes (a - 1) x := by
  rintro ⟨hbefore, hhalf⟩
  refine h ⟨hne, ?_⟩
  bv_omega

/-- Frames are recycled up to the number `a`, which is the latest one. -/
theorem handleTooOldPackets_upTo {front back : List (BitVec 16)} {a : BitVec 16}
    (hfront : ∀ x ∈ front, x ≠ a ∧ ¬ Precedes a x) :
    ((waitingForKeyFrame (front ++ a :: back) (a - 1)).handleTooOldPackets
      a).2.missingSequenceNumbers = a :: back := by
  cases front with
  | nil =>
    have hyoung := @missingTooOldPacket_self (waitingForKeyFrame (a :: back) (a - 1)) a back rfl
    rw [List.nil_append, handleTooOldPackets, recycleWhile_stopped hyoung]
    rfl
  | cons x front =>
    have hold : (waitingForKeyFrame (x :: front ++ a :: back) (a - 1)).missingTooOldPacket a =
        true := by
      have hne : a - x ≠ 0 := fun h => (hfront x List.mem_cons_self).1 (by grind)
      exact decide_eq_true (Nat.pos_of_ne_zero fun h => hne (BitVec.eq_of_toNat_eq h))
    have hrecycled := waitingForKeyFrame_recycled (x :: front ++ a :: back) (a - 1)
    rw [@Ordered.above_append _ _ Precedes _ id _ a _ back
      (fun y hy => not_precedes_sub_one (hfront y hy).1 (hfront y hy).2)
      (precedes_sub_one a)] at hrecycled
    show (recycleWhile _ (2 + 1) false _).2.missingSequenceNumbers = _
    rw [recycleWhile, if_pos hold, recycleWhile_stopped (missingTooOldPacket_self hrecycled)]
    exact hrecycled

/-! ## The limits -/

/-- `nack_seq_nums_` is resized to the limit, where that is set. -/
def nackSeqNumsSize (jb : VCMJitterBuffer) : Nat := jb.maxNackListSize

/-- The loops come to an end, and the list is within the limits behind each of them and behind
both, as `UpdateNackList` goes through them. What `GetNackList` writes has room. -/
structure NackListTrimmed (jb : VCMJitterBuffer) (latest : BitVec 16) : Prop where
  tooLargeEnds : Ends tooLargeNackList jb jb.handleTooLargeNackList
  tooOldEnds : Ends (missingTooOldPacket · latest) jb (jb.handleTooOldPackets latest)
  size : jb.handleTooLargeNackList.2.missingSequenceNumbers.length ≤ jb.maxNackListSize
  age : YoungEnough jb.maxPacketAgeToNack latest
    (jb.handleTooOldPackets latest).2.missingSequenceNumbers
  limitedSize : (jb.limitNackList latest).2.missingSequenceNumbers.length ≤ jb.maxNackListSize
  limitedAge : YoungEnough jb.maxPacketAgeToNack latest
    (jb.limitNackList latest).2.missingSequenceNumbers
  written : ∀ nackList ∈ jb.getNackList.1.1, nackList.length ≤ jb.nackSeqNumsSize

theorem startWithKeyFrame_recycles (jb : VCMJitterBuffer) :
    Recycles jb jb.startWithKeyFrame.2 := by
  unfold startWithKeyFrame
  dsimp only
  split
  · exact Recycles.refl jb
  · exact (recycleFramesUntilKeyFrame_recycles jb).1

theorem getNackList_length (jb : VCMJitterBuffer) :
    ∀ nackList ∈ jb.getNackList.1.1, nackList.length ≤ jb.nackSeqNumsSize := by
  intro nackList hlist
  unfold getNackList at hlist
  split at hlist
  · exact absurd hlist (Option.not_mem_none nackList)
  · have hstart := jb.startWithKeyFrame_recycles
    split at hlist
    · exact absurd hlist (Option.not_mem_none nackList)
    · rename_i jb' hjb'
      rw [hjb'] at hstart
      obtain ⟨hsized, hsmall, -⟩ := jb'.sized_trimmed rfl
      have hlength := (hstart.trans hsized).length_le hsmall
      dsimp only at hlist
      split at hlist
      · exact absurd hlist (Option.not_mem_none nackList)
      · obtain rfl := Option.some.inj hlist
        exact (Ordered.above_suffix _ _).length_le.trans hlength
      · obtain rfl := Option.some.inj hlist
        exact hlength

theorem limitNackList_trimmed (jb : VCMJitterBuffer) (latest : BitVec 16) :
    (jb.limitNackList latest).2.missingSequenceNumbers.length ≤ jb.maxNackListSize ∧
      (InOrder jb.missingSequenceNumbers → YoungEnough jb.maxPacketAgeToNack latest
        (jb.limitNackList latest).2.missingSequenceNumbers) := by
  obtain ⟨hsized, hsmall, hcleared⟩ := jb.sized_trimmed rfl
  have hlength := hsized.length_le hsmall
  unfold limitNackList
  dsimp only
  generalize (if jb.tooLargeNackList then jb.handleTooLargeNackList else (true, jb)) = sized at *
  split
  · rename_i hnot
    refine ⟨hlength, fun _ => ?_⟩
    rw [hcleared (by simpa using hnot)]
    exact fun n hn => absurd hn List.not_mem_nil
  · split
    · have hold := sized.2.handleTooOldPackets_recycles latest
      refine ⟨hold.missing.length_le.trans hlength, fun horder => ?_⟩
      rw [← hsized.maxPacketAgeToNack]
      exact handleTooOldPackets_young (horder.sublist hsized.missing.sublist) latest
    · rename_i hyoung
      refine ⟨hlength, fun horder => ?_⟩
      rw [← hsized.maxPacketAgeToNack]
      exact youngEnough_of_head (horder.sublist hsized.missing.sublist)
        (Bool.eq_false_iff.mpr hyoung)

/-- The list is trimmed in every state with these missing numbers, if and only if none of them is
older than one in front of it. -/
theorem nackListTrimmed_iff (missing : List (BitVec 16)) :
    (∀ jb : VCMJitterBuffer, jb.missingSequenceNumbers = missing → ∀ latest : BitVec 16,
      jb.NackListTrimmed latest) ↔ InOrder missing := by
  constructor
  · intro h
    by_contra horder
    obtain ⟨front, a, back, b, rfl, hb, hba, hfront⟩ := exists_older horder
    have hage := (h (waitingForKeyFrame (front ++ a :: back) (a - 1)) rfl a).age
    rw [handleTooOldPackets_upTo hfront] at hage
    have hzero := hage b (List.mem_cons_of_mem _ hb) hba
    have hsame : a - b = 0 := BitVec.eq_of_toNat_eq (Nat.le_zero.mp hzero)
    exact hba.ne (by grind)
  · rintro horder jb rfl latest
    obtain ⟨hlimitedSize, hlimitedAge⟩ := jb.limitNackList_trimmed latest
    exact
      { tooLargeEnds := jb.handleTooLargeNackList_ends
        tooOldEnds := jb.handleTooOldPackets_ends latest
        size := jb.handleTooLargeNackList_recycles.length_le jb.handleTooLargeNackList_ended
        age := handleTooOldPackets_young horder latest
        limitedSize := hlimitedSize
        limitedAge := hlimitedAge horder
        written := jb.getNackList_length }

/-- Two runs that were stopped have left a number each, and the third one misses some. The numbers
39995 to 40000 come behind the one that is looked at. -/
def restarted : VCMJitterBuffer :=
  let run (xs : List Insertion) (jb : VCMJitterBuffer) := insertPackets xs jb.stop.start
  run [wholeFrame 39994 3000, wholeFrame 40001 6000]
    (run [wholeFrame 40000 3000, wholeFrame 40002 6000]
      (run [wholeFrame 7229 3000, wholeFrame 7231 6000] (nacking .kNoErrors 10 4 0)))

theorem not_nackListTrimmed :
    ¬ ∀ (jb : VCMJitterBuffer) (latest : BitVec 16), jb.NackListTrimmed latest := by
  intro h
  have hage := (h restarted 40001).age 39995 (by decide +kernel) (by decide +kernel)
  revert hage
  decide +kernel

end PerchWebrtc.Video.VCMJitterBuffer
