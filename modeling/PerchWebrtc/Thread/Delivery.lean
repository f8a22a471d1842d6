import PerchWebrtc.Thread.MessageQueue

/-!
# What a message queue delivers

* `Accounted`: every message posted is in one place, and stays until it is returned or cleared;
* `InOrder`: immediate messages keep their order;
* `OnTime`: delayed messages leave in the order of their triggers, not before them;
* `LeavesNoneDue`: a call that scans the queues leaves no delayed message that is due;
* `queue_delivers`: all of it, in every run that scans no message which is due together with one of
  the other side of a wrap of the clock, or half a turn of the clock late;
* `not_delivers`: the comparison of trigger times does not know the wrap.
-/

namespace PerchWebrtc.Thread

open Framework (HeapAlgorithms)

/-! ## Times of the same turn of the clock -/

/-- Two messages in the order of their triggers, and of their posting. -/
def Message.Before (a b : Message) : Prop := a.due < b.due ∨ a.due = b.due ∧ a.serial < b.serial

theorem timeIsLater_iff {now due : Nat} (hlate : now ≤ due + 2 ^ 31) (hsoon : due ≤ now + 2 ^ 30) :
    timeIsLater (time now) (BitVec.ofNat 32 due) = true ↔ now < due := by
  have hdiff : (BitVec.ofNat 32 due - time now).toNat = (2 ^ 32 - now % 2 ^ 32 + due) % 2 ^ 32 := by
    simp [time, BitVec.toNat_sub]
  have hint := BitVec.toInt_eq_toNat_cond (BitVec.ofNat 32 due - time now)
  rw [hdiff] at hint
  simp only [timeIsLater, HALF, hdiff, hint, Bool.and_eq_true, decide_eq_true_eq]
  split
  · omega
  · omega

theorem ofNat_lt_iff {a b : Nat} (h : a / 2 ^ 32 = b / 2 ^ 32) :
    BitVec.ofNat 32 a < BitVec.ofNat 32 b ↔ a < b := by
  rw [BitVec.lt_def, BitVec.toNat_ofNat, BitVec.toNat_ofNat]
  omega

theorem ofNat_eq_iff {a b : Nat} (h : a / 2 ^ 32 = b / 2 ^ 32) :
    BitVec.ofNat 32 a = BitVec.ofNat 32 b ↔ a = b := by
  rw [← BitVec.toNat_inj, BitVec.toNat_ofNat, BitVec.toNat_ofNat]
  omega

namespace MessageQueue

/-! ## What holds in every state -/

section

variable (q : MessageQueue)

/-- What the queue holds. -/
def queued : List Message := q.msgPeek.toList ++ (q.msgq ++ q.dmsgq.map (·.msg))

/-- Where the messages are: returned, cleared or held. -/
def accounted : List Message := q.returned.map (·.1) ++ (q.removed.map (·.1) ++ q.queued)

/-- What was returned and what is ready to be. -/
def ready : List Message := q.returned.map (·.1) ++ (q.msgPeek.toList ++ q.msgq)

/-- Every message posted is in one place, and those cleared were to be. -/
structure Accounted : Prop where
  once : (q.accounted.map (·.serial)).Perm (List.range q.posted)
  matched : ∀ r ∈ q.removed, Message.isMatch r.2.1 r.2.2 r.1 = true

def InOrder : Prop :=
  (q.ready.filter (!·.delayed)).Pairwise fun a b => a.serial < b.serial

structure OnTime : Prop where
  /-- No delayed message is returned before its trigger time. -/
  returned : ∀ r ∈ q.returned, r.1.delayed = true → r.1.due ≤ r.2
  ready : ∀ m ∈ q.msgPeek.toList ++ q.msgq, m.delayed = true → m.due ≤ q.now
  left : q.left.Pairwise Message.Before

structure Delivers : Prop where
  accounted : q.Accounted
  inOrder : q.InOrder
  onTime : q.OnTime

/-- What the queue keeps of a delayed message. -/
structure Entry (d : DelayedMessage) : Prop where
  delayed : d.msg.delayed = true
  trigger : d.msTrigger = BitVec.ofNat 32 d.msg.due
  soon : d.msg.due ≤ q.now + 2 ^ 30
  num_lt : d.num < q.dmsgqNextNum
  kept : d.msg.messageId ≠ MQID_DISPOSE

/-- With what the steps need of the heap, of the numbers of the delayed messages and of those
that have left. -/
structure Invariant (H : HeapAlgorithms DelayedMessage.lt) : Prop extends q.Delivers where
  isHeap : H.IsHeap q.dmsgq
  entry : ∀ d ∈ q.dmsgq, q.Entry d
  numbered : ∀ a ∈ q.dmsgq, ∀ b ∈ q.dmsgq, a.num < b.num ↔ a.msg.serial < b.msg.serial
  leftFirst : ∀ m ∈ q.left, m.due ≤ q.now ∧ m.serial < q.posted ∧ ∀ d ∈ q.dmsgq, m.Before d.msg
  kept : ∀ m ∈ q.msgq, m.messageId ≠ MQID_DISPOSE
  waiting : q.call.isSome = true → q.msgPeek = none

end

variable {H : HeapAlgorithms DelayedMessage.lt} {q q' : MessageQueue} {msgq : List Message}
  {m : Message} {d : DelayedMessage}

theorem start_invariant (now : Nat) : (start now).Invariant H where
  accounted := ⟨.refl [], by simp [start]⟩
  inOrder := .nil
  onTime := ⟨by simp [start], by simp [start], .nil⟩
  isHeap := H.isHeap_nil
  entry := by simp [start]
  numbered := by simp [start]
  leftFirst := by simp [start]
  kept := by simp [start]
  waiting := fun _ => rfl

theorem Accounted.serial_lt (h : q.Accounted) (hm : m ∈ q.accounted) : m.serial < q.posted :=
  List.mem_range.mp (h.once.mem_iff.mp (List.mem_map_of_mem hm))

theorem Accounted.nodup (h : q.Accounted) : (q.accounted.map (·.serial)).Nodup :=
  h.once.nodup_iff.mpr List.nodup_range

theorem mem_accounted_of_mem_dmsgq (hd : d ∈ q.dmsgq) : d.msg ∈ q.accounted := by
  simp only [accounted, queued, List.mem_append, List.mem_map]
  exact .inr (.inr (.inr (.inr ⟨d, hd, rfl⟩)))

theorem mem_accounted_of_mem_ready (hm : m ∈ q.ready) : m ∈ q.accounted := by
  simp only [ready, accounted, queued, List.mem_append] at hm ⊢
  tauto

/-- A step that only moves messages. -/
theorem Accounted.of_perm (h : q.Accounted) (hperm : q'.accounted.Perm q.accounted)
    (hposted : q'.posted = q.posted)
    (hmatched : ∀ r ∈ q'.removed, Message.isMatch r.2.1 r.2.2 r.1 = true) : q'.Accounted :=
  ⟨hposted ▸ (hperm.map _).trans h.once, hmatched⟩

/-- A step that posts a message. -/
theorem Accounted.of_perm_cons (h : q.Accounted) (hm : m.serial = q.posted)
    (hperm : q'.accounted.Perm (m :: q.accounted)) (hposted : q'.posted = q.posted + 1)
    (hremoved : q'.removed = q.removed) : q'.Accounted := by
  refine ⟨?_, hremoved ▸ h.matched⟩
  rw [hposted, List.range_succ]
  refine (hperm.map _).trans ?_
  rw [List.map_cons, hm]
  exact (h.once.cons _).trans (List.perm_append_singleton _ _).symm

/-! ## Posting and clearing -/

theorem post_invariant (h : q.Invariant H) (phandler : Nat) {id : U32} (hid : id ≠ MQID_DISPOSE)
    (pdata : Nat) : (q.post phandler id pdata).Invariant H where
  accounted := by
    refine h.accounted.of_perm_cons (m := ⟨phandler, id, pdata, q.posted, false, q.now⟩) rfl ?_
      rfl rfl
    refine List.perm_iff_count.mpr fun m => ?_
    simp only [accounted, queued, post, List.count_append, List.count_cons, List.count_nil]
    omega
  inOrder := by
    have hready : (q.post phandler id pdata).ready =
        q.ready ++ [⟨phandler, id, pdata, q.posted, false, q.now⟩] := by
      simp [ready, post]
    rw [InOrder, hready, List.filter_append]
    refine List.pairwise_append.mpr ⟨h.inOrder, List.pairwise_singleton _ _, ?_⟩
    intro a ha b hb
    obtain rfl := List.mem_singleton.mp (List.mem_filter.mp hb).1
    exact h.accounted.serial_lt (mem_accounted_of_mem_ready (List.mem_filter.mp ha).1)
  onTime := by
    refine ⟨h.onTime.returned, ?_, h.onTime.left⟩
    intro m hm hdelayed
    simp only [post, ← List.append_assoc] at hm
    obtain hm | hm := List.mem_append.mp hm
    · exact h.onTime.ready m hm hdelayed
    · obtain rfl := List.mem_singleton.mp hm
      exact absurd hdelayed Bool.false_ne_true
  isHeap := h.isHeap
  entry d hd := ⟨(h.entry d hd).delayed, (h.entry d hd).trigger, (h.entry d hd).soon,
    (h.entry d hd).num_lt, (h.entry d hd).kept⟩
  numbered := h.numbered
  leftFirst m hm := ⟨(h.leftFirst m hm).1, Nat.lt_succ_of_lt (h.leftFirst m hm).2.1,
    (h.leftFirst m hm).2.2⟩
  kept := by
    intro m hm
    obtain hm | hm := List.mem_append.mp hm
    · exact h.kept m hm
    · obtain rfl := List.mem_singleton.mp hm
      exact hid
  waiting := h.waiting

theorem mem_push {c : List DelayedMessage} {x : DelayedMessage} :
    x ∈ H.push c d ↔ x ∈ c ∨ x = d := by
  rw [HeapAlgorithms.push_perm.mem_iff, List.mem_append, List.mem_singleton]

theorem postDelayed_invariant (h : q.Invariant H) {cmsDelay : Nat} (hdelay : cmsDelay < 2 ^ 30)
    (hnum : q.dmsgqNextNum.toNat + 1 < 2 ^ 32) (phandler : Nat) {id : U32}
    (hid : id ≠ MQID_DISPOSE) (pdata : Nat) :
    (q.postDelayed H cmsDelay phandler id pdata).Invariant H := by
  have hnext : (q.dmsgqNextNum + 1).toNat = q.dmsgqNextNum.toNat + 1 := by
    rw [BitVec.toNat_add]
    exact Nat.mod_eq_of_lt hnum
  have hold : ∀ d ∈ q.dmsgq, d.num < q.dmsgqNextNum := fun d hd => (h.entry d hd).num_lt
  have hserial : ∀ d ∈ q.dmsgq, d.msg.serial < q.posted := fun d hd =>
    h.accounted.serial_lt (mem_accounted_of_mem_dmsgq hd)
  refine { accounted := ?accounted, inOrder := h.inOrder
           onTime := ⟨h.onTime.returned, h.onTime.ready, h.onTime.left⟩
           isHeap := H.pushHeap_isHeap _ h.isHeap, entry := ?entry, numbered := ?numbered
           leftFirst := ?leftFirst, kept := h.kept, waiting := h.waiting }
  case accounted =>
    refine h.accounted.of_perm_cons (m := ⟨phandler, id, pdata, q.posted, true, q.now + cmsDelay⟩)
      rfl ?_ rfl rfl
    refine List.perm_iff_count.mpr fun m => ?_
    have hpush := ((HeapAlgorithms.push_perm (H := H) (c := q.dmsgq)
      (a := ⟨timeAfter q.now cmsDelay, q.dmsgqNextNum,
        ⟨phandler, id, pdata, q.posted, true, q.now + cmsDelay⟩⟩)).map (·.msg)).count_eq m
    simp only [List.map_append, List.map_cons, List.map_nil, List.count_append, List.count_cons,
      List.count_nil] at hpush
    simp only [accounted, queued, postDelayed, List.count_append, List.count_cons]
    omega
  case entry =>
    intro d hd
    have hlt : q.dmsgqNextNum < q.dmsgqNextNum + 1 := by
      rw [BitVec.lt_def, hnext]
      exact Nat.lt_succ_self _
    obtain hd | rfl := mem_push.mp hd
    · have hentry := h.entry d hd
      exact ⟨hentry.delayed, hentry.trigger, hentry.soon, BitVec.lt_trans hentry.num_lt hlt,
        hentry.kept⟩
    · refine ⟨rfl, ?_, Nat.add_le_add_left hdelay.le _, hlt, hid⟩
      exact (BitVec.ofNat_add q.now cmsDelay).symm
  case numbered =>
    intro a ha b hb
    obtain ha | rfl := mem_push.mp ha
    · obtain hb | rfl := mem_push.mp hb
      · exact h.numbered a ha b hb
      · exact iff_of_true (hold a ha) (hserial a ha)
    · obtain hb | rfl := mem_push.mp hb
      · exact iff_of_false (BitVec.not_lt.mpr (BitVec.le_of_lt (hold b hb)))
          (Nat.not_lt.mpr (hserial b hb).le)
      · exact iff_of_false (BitVec.lt_irrefl _) (lt_irrefl _)
  case leftFirst =>
    intro m hm
    obtain ⟨hdue, hlt, hbefore⟩ := h.leftFirst m hm
    refine ⟨hdue, Nat.lt_succ_of_lt hlt, fun d hd => ?_⟩
    obtain hd | rfl := mem_push.mp hd
    · exact hbefore d hd
    · -- it was due when it left, and the new message is not due before it is posted
      obtain hlate | heq := Nat.lt_or_eq_of_le (hdue.trans (Nat.le_add_right q.now cmsDelay))
      · exact .inl hlate
      · exact .inr ⟨heq, hlt⟩

theorem clear_invariant (h : q.Invariant H) (phandler : Nat) (id : U32) :
    (q.clear H phandler id).Invariant H := by
  have hmem : ∀ {d}, d ∈ (q.clear H phandler id).dmsgq → d ∈ q.dmsgq := fun hd =>
    (List.mem_filter.mp ((H.makeHeap_perm _).mem_iff.mp hd)).1
  have hpeek : (q.clear H phandler id).msgPeek.toList =
      q.msgPeek.toList.filter (!Message.isMatch phandler id ·) := Option.toList_filter ..
  have hready : (q.clear H phandler id).ready.Sublist q.ready := by
    rw [ready, hpeek]
    exact (List.Sublist.refl _).append (List.filter_sublist.append List.filter_sublist)
  refine { accounted := ?accounted, inOrder := h.inOrder.sublist (hready.filter _), onTime := ?onTime
           isHeap := H.makeHeap_isHeap _, entry := fun d hd => ?entry
           numbered := fun a ha b hb => h.numbered a (hmem ha) b (hmem hb)
           leftFirst := fun m hm => ?leftFirst
           kept := fun m hm => h.kept m (List.mem_filter.mp hm).1
           waiting := fun hcall => ?waiting }
  case accounted =>
    refine h.accounted.of_perm ?_ rfl ?_
    · refine List.perm_iff_count.mpr fun m => ?_
      have hp := (List.filter_append_perm (Message.isMatch phandler id)
        q.msgPeek.toList).count_eq m
      have hq := (List.filter_append_perm (Message.isMatch phandler id) q.msgq).count_eq m
      have hd := ((List.filter_append_perm (Message.isMatch phandler id ·.msg)
        q.dmsgq).map (·.msg)).count_eq m
      have hheap := ((H.makeHeap_perm
        (q.dmsgq.filter (!Message.isMatch phandler id ·.msg))).map (·.msg)).count_eq m
      have hfst : ∀ l : List Message, (l.map (·, phandler, id)).map (·.1) = l := fun l => by
        rw [List.map_map]
        exact List.map_id l
      rw [accounted, queued, hpeek]
      simp only [List.count_append, List.map_append] at hp hq hd hheap
      simp only [accounted, queued, clear, List.map_append, hfst, List.count_append] at hheap ⊢
      omega
    · intro r hr
      obtain hr | hr := List.mem_append.mp hr
      · exact h.accounted.matched r hr
      · simp only [List.mem_map, List.mem_append, List.mem_filter] at hr
        obtain ⟨m, (⟨-, hm⟩ | ⟨-, hm⟩) | ⟨d, ⟨-, hm⟩, rfl⟩, rfl⟩ := hr
        · exact hm
        · exact hm
        · exact hm
  case onTime =>
    refine ⟨h.onTime.returned, ?_, h.onTime.left⟩
    rw [hpeek]
    exact fun m hm => h.onTime.ready m
      ((List.filter_sublist.append List.filter_sublist).subset hm)
  case entry =>
    have hentry := h.entry d (hmem hd)
    exact ⟨hentry.delayed, hentry.trigger, hentry.soon, hentry.num_lt, hentry.kept⟩
  case leftFirst =>
    obtain ⟨hdue, hlt, hbefore⟩ := h.leftFirst m hm
    exact ⟨hdue, hlt, fun d hd => hbefore d (hmem hd)⟩
  case waiting =>
    change q.msgPeek.filter _ = none
    rw [h.waiting hcall]
    rfl

theorem tick_invariant (h : q.Invariant H) (ms : Nat) :
    { q with now := q.now + ms }.Invariant H where
  accounted := ⟨h.accounted.once, h.accounted.matched⟩
  inOrder := h.inOrder
  onTime := ⟨h.onTime.returned,
    fun m hm hdelayed => (h.onTime.ready m hm hdelayed).trans (Nat.le_add_right _ _),
    h.onTime.left⟩
  isHeap := h.isHeap
  entry d hd := by
    have hentry := h.entry d hd
    exact ⟨hentry.delayed, hentry.trigger,
      hentry.soon.trans (Nat.add_le_add_right (Nat.le_add_right _ _) _), hentry.num_lt, hentry.kept⟩
  numbered := h.numbered
  leftFirst m hm := by
    obtain ⟨hdue, hlt, hbefore⟩ := h.leftFirst m hm
    exact ⟨hdue.trans (Nat.le_add_right _ _), hlt, hbefore⟩
  kept := h.kept
  waiting := h.waiting

/-! ## Scanning the delayed messages -/

/-- The step scans the queues: a call begins and `Peek` keeps no message, or the wait of a call
ends before its time. -/
def scans (q : MessageQueue) : Event → Bool
  | .get _ => q.call.isNone && q.msgPeek.isNone
  | .peek _ => q.call.isNone && q.msgPeek.isNone
  | .wake ok => q.call.any fun call =>
    !(!ok || call.cmsWait ≠ kForever && call.cmsWait ≤ timeDiff (time q.now) call.msStart)
  | _ => false

/-- Where a scan finds a message that is due, all are triggered in the same turn of the clock, and
none is half a turn late. -/
def Scannable (q : MessageQueue) : Prop :=
  ∀ a ∈ q.dmsgq, a.msg.due ≤ q.now →
    q.now ≤ a.msg.due + 2 ^ 31 ∧ ∀ b ∈ q.dmsgq, b.msg.due / 2 ^ 32 ≤ a.msg.due / 2 ^ 32

/-- A delayed message that the loop of `Get` moves. -/
def isTriggered (msCurrent : U32) (d : DelayedMessage) : Bool := !timeIsLater msCurrent d.msTrigger

theorem triggered_eq (msCurrent : U32) : ∀ (n : Nat) (c : List DelayedMessage),
    (triggered H msCurrent n c).1 = (H.popWhile (isTriggered msCurrent) n c).1 ∧
      (triggered H msCurrent n c).2.1 = (H.popWhile (isTriggered msCurrent) n c).2
  | 0, _ => ⟨rfl, rfl⟩
  | _ + 1, [] => ⟨rfl, rfl⟩
  | n + 1, top :: c => by
    rw [triggered, HeapAlgorithms.popWhile]
    cases hlater : timeIsLater msCurrent top.msTrigger with
    | true =>
      rw [if_pos rfl, if_neg (by simp [isTriggered, hlater])]
      exact ⟨rfl, rfl⟩
    | false =>
      obtain ⟨hout, hrest⟩ := triggered_eq msCurrent n (H.pop (top :: c))
      rw [if_neg Bool.false_ne_true, if_pos (by simp [isTriggered, hlater])]
      exact ⟨congrArg (top :: ·) hout, hrest⟩

theorem isTriggered_iff (h : q.Invariant H) (hscan : q.Scannable) (hd : d ∈ q.dmsgq) :
    isTriggered (time q.now) d = true ↔ d.msg.due ≤ q.now := by
  have hentry := h.entry d hd
  have hlate : q.now ≤ d.msg.due + 2 ^ 31 := by
    by_cases hdue : d.msg.due ≤ q.now
    · exact (hscan d hd hdue).1
    · omega
  rw [isTriggered, Bool.not_eq_true', ← Bool.not_eq_true, hentry.trigger,
    timeIsLater_iff hlate hentry.soon, Nat.not_lt]

/-- Once a message is due, the comparison of the triggers is that of the times. -/
theorem before_of_not_lt (h : q.Invariant H) (hscan : q.Scannable) {m a b : DelayedMessage}
    (hm : m ∈ q.dmsgq) (hdue : m.msg.due ≤ q.now) (ha : a ∈ q.dmsgq) (hb : b ∈ q.dmsgq)
    (hne : a.msg.serial ≠ b.msg.serial) (hlt : ¬ a.lt b) : a.msg.Before b.msg := by
  -- all of them are triggered in the turn of the clock in which that message is
  have hturn : ∀ d ∈ q.dmsgq, d.msg.due / 2 ^ 32 = m.msg.due / 2 ^ 32 := by
    intro d hd
    have hle := (hscan m hm hdue).2 d hd
    by_cases hd' : d.msg.due ≤ q.now
    · exact Nat.le_antisymm hle ((hscan d hd hd').2 m hm)
    · exact Nat.le_antisymm hle (Nat.div_le_div_right (by omega))
  have hsame := (hturn b hb).trans (hturn a ha).symm
  simp only [DelayedMessage.lt, (h.entry a ha).trigger, (h.entry b hb).trigger,
    ofNat_lt_iff hsame, ofNat_eq_iff hsame, h.numbered b hb a ha] at hlt
  simp only [Message.Before]
  omega

theorem serials_pairwise (h : q.Invariant H) {l : List DelayedMessage} (hl : l.Perm q.dmsgq) :
    l.Pairwise fun a b => a.msg.serial ≠ b.msg.serial := by
  have hsub : (q.dmsgq.map (·.msg)).Sublist q.accounted :=
    (List.sublist_append_right _ _).trans ((List.sublist_append_right _ _).trans
      ((List.sublist_append_right _ _).trans (List.sublist_append_right _ _)))
  have hnodup := h.accounted.nodup.sublist (hsub.map (·.serial))
  rw [List.map_map, ← (hl.map _).nodup_iff] at hnodup
  exact List.pairwise_map.mp hnodup

/-- What the first pass of `Get` moves is what is due, in order, and it leaves no other. -/
theorem triggerDelayed_spec (h : q.Invariant H) (hscan : q.Scannable) :
    ∃ out, (q.triggerDelayed H).1.msgq = q.msgq ++ out.map (·.msg) ∧
      (q.triggerDelayed H).1.left = q.left ++ out.map (·.msg) ∧
      (out ++ (q.triggerDelayed H).1.dmsgq).Perm q.dmsgq ∧
      H.IsHeap (q.triggerDelayed H).1.dmsgq ∧
      (∀ a ∈ out, a.msg.due ≤ q.now) ∧
      (∀ b ∈ (q.triggerDelayed H).1.dmsgq, q.now < b.msg.due) ∧
      out.Pairwise fun a b => a.msg.Before b.msg := by
  have hspec := HeapAlgorithms.popWhile_spec (isTriggered (time q.now)) h.isHeap le_rfl
  obtain ⟨hout, hrest⟩ := triggered_eq (H := H) (time q.now) q.dmsgq.length q.dmsgq
  rw [← hout, ← hrest] at hspec
  have hdmsgq : (q.triggerDelayed H).1.dmsgq =
    (triggered H (time q.now) q.dmsgq.length q.dmsgq).2.1 := rfl
  refine ⟨(triggered H (time q.now) q.dmsgq.length q.dmsgq).1, rfl, rfl, ?_⟩
  rw [hdmsgq]
  generalize triggered H (time q.now) q.dmsgq.length q.dmsgq = r at hspec
  have hmem : ∀ a ∈ r.1 ++ r.2.1, a ∈ q.dmsgq := fun a ha => hspec.perm.mem_iff.mp ha
  have hdue : ∀ a ∈ r.1, a.msg.due ≤ q.now := fun a ha =>
    (isTriggered_iff h hscan (hmem a (List.mem_append_left _ ha))).mp (hspec.left a ha)
  have hserials := serials_pairwise h hspec.perm
  refine ⟨hspec.perm, hspec.isHeap, hdue, ?_, ?_⟩
  · intro b hb
    obtain ⟨top, c, hc⟩ := List.exists_cons_of_ne_nil (List.ne_nil_of_mem hb)
    have htop : top ∈ q.dmsgq := hmem top (List.mem_append_right _ (hc ▸ List.mem_cons_self))
    have hb' : b ∈ q.dmsgq := hmem b (List.mem_append_right _ hb)
    have hstays := hspec.stays top (by rw [hc]; rfl)
    have hlater : q.now < top.msg.due := by
      rw [← Nat.not_le, ← isTriggered_iff h hscan htop, hstays]
      exact Bool.false_ne_true
    by_contra hb_due
    have hbdue := Nat.not_lt.mp hb_due
    rw [hc] at hb
    obtain rfl | hbc := List.mem_cons.mp hb
    · exact hb_due hlater
    · -- the top of the heap would be due before it
      have hne : top.msg.serial ≠ b.msg.serial := by
        have htail := hserials.sublist (List.sublist_append_right _ _)
        rw [hc] at htail
        exact (List.pairwise_cons.mp htail).1 b hbc
      have hfirst : top.msg.Before b.msg := before_of_not_lt h hscan hb' hbdue htop hb' hne
        (H.front_max (hc ▸ hspec.isHeap) b hbc)
      simp only [Message.Before] at hfirst
      omega
  · refine (hspec.ordered.and (hserials.sublist (List.sublist_append_left _ _))).imp_of_mem ?_
    intro a b ha hb hab
    have ha' := hmem a (List.mem_append_left _ ha)
    exact before_of_not_lt h hscan ha' (hdue a ha) ha' (hmem b (List.mem_append_left _ hb)) hab.2
      hab.1

theorem triggerDelayed_invariant (h : q.Invariant H) (hscan : q.Scannable) :
    (q.triggerDelayed H).1.Invariant H := by
  obtain ⟨out, hmsgq, hleft, hperm, hheap, hdue, hlater, hordered⟩ := triggerDelayed_spec h hscan
  have hmem : ∀ d, d ∈ out ∨ d ∈ (q.triggerDelayed H).1.dmsgq → d ∈ q.dmsgq := fun d hd =>
    hperm.mem_iff.mp (List.mem_append.mpr hd)
  refine { accounted := ?accounted, inOrder := ?inOrder, onTime := ?onTime, isHeap := hheap
           entry := fun d hd => ?entry
           numbered := fun a ha b hb => h.numbered a (hmem a (.inr ha)) b (hmem b (.inr hb))
           leftFirst := fun m hm => ?leftFirst, kept := fun m hm => ?kept
           waiting := h.waiting }
  case accounted =>
    refine h.accounted.of_perm ?_ rfl h.accounted.matched
    refine List.perm_iff_count.mpr fun m => ?_
    have hcount := (hperm.map (·.msg)).count_eq m
    simp only [List.map_append, List.count_append] at hcount
    simp only [accounted, queued, hmsgq, List.count_append]
    simp only [triggerDelayed] at hcount ⊢
    omega
  case inOrder =>
    have hnone : (out.map (·.msg)).filter (!·.delayed) = [] := by
      rw [List.filter_eq_nil_iff]
      simp only [List.forall_mem_map]
      intro d hd
      rw [(h.entry d (hmem d (.inl hd))).delayed]
      decide
    have hready : (q.triggerDelayed H).1.ready = q.ready ++ out.map (·.msg) := by
      simp only [ready, hmsgq, List.append_assoc]
      rfl
    rw [InOrder, hready, List.filter_append, hnone, List.append_nil]
    exact h.inOrder
  case onTime =>
    refine ⟨h.onTime.returned, ?_, ?_⟩
    · rw [hmsgq, ← List.append_assoc]
      intro m hm hdelayed
      obtain hm | hm := List.mem_append.mp hm
      · exact h.onTime.ready m hm hdelayed
      · obtain ⟨d, hd, rfl⟩ := List.mem_map.mp hm
        exact hdue d hd
    · rw [hleft]
      refine List.pairwise_append.mpr ⟨h.onTime.left, List.pairwise_map.mpr hordered, ?_⟩
      simp only [List.forall_mem_map]
      exact fun a ha d hd => (h.leftFirst a ha).2.2 d (hmem d (.inl hd))
  case entry =>
    have hentry := h.entry d (hmem d (.inr hd))
    exact ⟨hentry.delayed, hentry.trigger, hentry.soon, hentry.num_lt, hentry.kept⟩
  case leftFirst =>
    rw [hleft] at hm
    obtain hm | hm := List.mem_append.mp hm
    · obtain ⟨hle, hlt, hbefore⟩ := h.leftFirst m hm
      exact ⟨hle, hlt, fun d hd => hbefore d (hmem d (.inr hd))⟩
    · obtain ⟨a, ha, rfl⟩ := List.mem_map.mp hm
      exact ⟨hdue a ha, h.accounted.serial_lt (mem_accounted_of_mem_dmsgq (hmem a (.inl ha))),
        fun d hd => .inl ((hdue a ha).trans_lt (hlater d hd))⟩
  case kept =>
    rw [hmsgq] at hm
    obtain hm | hm := List.mem_append.mp hm
    · exact h.kept m hm
    · obtain ⟨d, hd, rfl⟩ := List.mem_map.mp hm
      exact (h.entry d (hmem d (.inl hd))).kept

/-! ## Returning a message -/

/-- A message goes from the list, or from what `Peek` keeps, to its caller or to `Peek`. -/
theorem moved_invariant (h : q.Invariant H) (peek : Option Message)
    {returned : List (Message × Nat)} {call : Option Call}
    (hready : returned.map (·.1) ++ (peek.toList ++ msgq) = q.ready)
    (hreturned : ∀ r ∈ returned, r ∈ q.returned ∨ r.1 ∈ q.msgPeek.toList ++ q.msgq ∧ r.2 = q.now)
    (hqueued : ∀ m ∈ peek.toList ++ msgq, m ∈ q.msgPeek.toList ++ q.msgq) (hmsgq : msgq ⊆ q.msgq)
    (hcall : call.isSome = true → peek = none) :
    { q with msgPeek := peek, msgq := msgq, returned := returned, call := call }.Invariant H where
  accounted := by
    refine h.accounted.of_perm ?_ rfl h.accounted.matched
    refine List.perm_iff_count.mpr fun m => ?_
    have hcount := congrArg (List.count m) hready
    simp only [ready, List.count_append] at hcount
    simp only [accounted, queued, List.count_append]
    omega
  inOrder := by
    rw [InOrder, ready, hready]
    exact h.inOrder
  onTime := by
    refine ⟨fun r hr hdelayed => ?_, fun m hm => h.onTime.ready m (hqueued m hm), h.onTime.left⟩
    obtain hr | ⟨hr, hnow⟩ := hreturned r hr
    · exact h.onTime.returned r hr hdelayed
    · rw [hnow]
      exact h.onTime.ready r.1 hr hdelayed
  isHeap := h.isHeap
  entry d hd := ⟨(h.entry d hd).delayed, (h.entry d hd).trigger, (h.entry d hd).soon,
    (h.entry d hd).num_lt, (h.entry d hd).kept⟩
  numbered := h.numbered
  leftFirst := h.leftFirst
  kept m hm := h.kept m (hmsgq hm)
  waiting := hcall

theorem handOver_invariant (h : q.Invariant H) (hmsgq : q.msgq = m :: msgq)
    (hpeek : q.msgPeek = none) (isPeek : Bool) :
    (handOver { q with msgq := msgq, call := none } isPeek m).Invariant H := by
  cases isPeek with
  | true =>
    refine moved_invariant h (some m) ?_ (fun r hr => .inl hr) ?_ ?_ fun hcall => ?_
    · simp [ready, hmsgq, hpeek]
    · rw [hmsgq]
      exact fun a ha => List.mem_append_right _ ha
    · simp [hmsgq]
    · cases hcall
  | false =>
    refine moved_invariant h _ ?_ (fun r hr => ?_) ?_ ?_ fun _ => hpeek
    · simp [ready, hmsgq, hpeek]
    · obtain hr | hr := List.mem_append.mp hr
      · exact .inl hr
      · obtain rfl := List.mem_singleton.mp hr
        exact .inr ⟨by simp [hmsgq], rfl⟩
    · simp only [hmsgq, List.mem_append, List.mem_cons]
      tauto
    · simp [hmsgq]

theorem pull_of_kept (h : ∀ m ∈ msgq, m.messageId ≠ MQID_DISPOSE) :
    pull msgq = msgq.head?.map (·, msgq.tail) := by
  cases msgq with
  | nil => rfl
  | cons m msgq => exact if_neg (h m List.mem_cons_self)

theorem scan_invariant (h : q.Invariant H) (hscan : q.Scannable) (hpeek : q.msgPeek = none)
    (call : Call) (cmsElapsed : Int) : (q.scan H call cmsElapsed).Invariant H := by
  have hinv := triggerDelayed_invariant h hscan
  have hpeek' : (q.triggerDelayed H).1.msgPeek = none := hpeek
  simp only [scan]
  generalize q.triggerDelayed H = r at hinv hpeek'
  rw [pull_of_kept hinv.kept]
  cases hmsgq : r.1.msgq with
  | nil =>
    refine moved_invariant hinv _ ?_ (fun _ hr => .inl hr) ?_ (by simp) fun _ => hpeek'
    · rw [ready, hmsgq]
    · rw [hmsgq]
      exact fun m hm => hm
  | cons m msgq => exact handOver_invariant hinv hmsgq hpeek' call.isPeek

theorem scan_dmsgq (call : Call) (cmsElapsed : Int) :
    (q.scan H call cmsElapsed).dmsgq = (q.triggerDelayed H).1.dmsgq := by
  simp only [scan, handOver]
  split
  · split <;> rfl
  · rfl

theorem scan_leaves (h : q.Invariant H) (hscan : q.Scannable) (call : Call) (cmsElapsed : Int) :
    ∀ d ∈ (q.scan H call cmsElapsed).dmsgq, q.now < d.msg.due := by
  obtain ⟨-, -, -, -, -, -, hlater, -⟩ := triggerDelayed_spec h hscan
  rwa [scan_dmsgq]

theorem enter_invariant (h : q.Invariant H) (hscan : q.msgPeek = none → q.Scannable)
    (isPeek : Bool) (cmsWait : Int) : (q.enter H isPeek cmsWait).Invariant H := by
  rw [enter]
  cases hpeek : q.msgPeek with
  | none => exact scan_invariant h (hscan hpeek) hpeek _ _
  | some m =>
    cases isPeek with
    | true => exact h
    | false =>
      refine moved_invariant h _ ?_ (fun r hr => ?_) (fun _ hm => List.mem_append_right _ hm)
        (List.Subset.refl _) fun _ => rfl
      · simp [ready, hpeek]
      · obtain hr | hr := List.mem_append.mp hr
        · exact .inl hr
        · obtain rfl := List.mem_singleton.mp hr
          exact .inr ⟨by simp [hpeek], rfl⟩

theorem wake_invariant (h : q.Invariant H) {call : Call} (hcall : q.call = some call) {ok : Bool}
    (hscan : q.scans (.wake ok) = true → q.Scannable) : (q.wake H call ok).Invariant H := by
  have hpeek := h.waiting (by rw [hcall]; rfl)
  simp only [wake]
  split
  · exact moved_invariant h _ rfl (fun _ hr => .inl hr) (fun _ hm => hm) (List.Subset.refl _)
      fun _ => hpeek
  · rename_i hgoes
    refine scan_invariant h (hscan ?_) hpeek call _
    rw [scans, hcall, Option.any_some, Bool.not_eq_true']
    exact Bool.eq_false_iff.mpr hgoes

end MessageQueue

/-! ## Every run -/

/-- Delays are below 2^30, delayed messages fewer than 2^32, and no message is to be disposed
of. -/
def InDomain (q : MessageQueue) : Event → Prop
  | .post _ id _ => id ≠ MQID_DISPOSE
  | .postDelayed cmsDelay _ id _ =>
    id ≠ MQID_DISPOSE ∧ cmsDelay < 2 ^ 30 ∧ q.dmsgqNextNum.toNat + 1 < 2 ^ 32
  | _ => True

def Admissible (q : MessageQueue) (e : Event) : Prop :=
  InDomain q e ∧ (q.scans e = true → q.Scannable)

/-- A call that scans the queues leaves no delayed message whose time has passed. -/
def MessageQueue.LeavesNoneDue (H : HeapAlgorithms DelayedMessage.lt) (q : MessageQueue)
    (e : Event) : Prop :=
  q.scans e = true → ∀ d ∈ (q.step H e).dmsgq, q.now < d.msg.due

instance (q : MessageQueue) : Decidable q.Scannable := List.decidableBAll _ _

instance (q : MessageQueue) : ∀ e, Decidable (InDomain q e)
  | .post _ id _ => inferInstanceAs (Decidable (id ≠ MQID_DISPOSE))
  | .postDelayed _ _ _ _ => inferInstanceAs (Decidable (_ ∧ _ ∧ _))
  | .clear _ _ => inferInstanceAs (Decidable True)
  | .tick _ => inferInstanceAs (Decidable True)
  | .get _ => inferInstanceAs (Decidable True)
  | .peek _ => inferInstanceAs (Decidable True)
  | .wake _ => inferInstanceAs (Decidable True)

instance (q : MessageQueue) (e : Event) : Decidable (Admissible q e) :=
  inferInstanceAs (Decidable (_ ∧ _))

theorem step_invariant {H : HeapAlgorithms DelayedMessage.lt} (q : MessageQueue) (e : Event)
    (h : q.Invariant H) (he : Admissible q e) : (q.step H e).Invariant H := by
  cases e with
  | post phandler id pdata => exact MessageQueue.post_invariant h phandler he.1 pdata
  | postDelayed cmsDelay phandler id pdata =>
    obtain ⟨hid, hdelay, hnum⟩ := he.1
    exact MessageQueue.postDelayed_invariant h hdelay hnum phandler hid pdata
  | clear phandler id => exact MessageQueue.clear_invariant h phandler id
  | tick ms => exact MessageQueue.tick_invariant h ms
  | get cmsWait =>
    cases hcall : q.call with
    | none =>
      rw [MessageQueue.step, hcall]
      refine MessageQueue.enter_invariant h (fun hpeek => he.2 ?_) false cmsWait
      rw [MessageQueue.scans, hcall, hpeek]
      rfl
    | some call =>
      rw [MessageQueue.step, hcall]
      exact h
  | peek cmsWait =>
    cases hcall : q.call with
    | none =>
      rw [MessageQueue.step, hcall]
      refine MessageQueue.enter_invariant h (fun hpeek => he.2 ?_) true cmsWait
      rw [MessageQueue.scans, hcall, hpeek]
      rfl
    | some call =>
      rw [MessageQueue.step, hcall]
      exact h
  | wake ok =>
    rw [MessageQueue.step]
    cases hcall : q.call with
    | none => exact h
    | some call => exact MessageQueue.wake_invariant h hcall he.2

theorem step_leaves {H : HeapAlgorithms DelayedMessage.lt} (q : MessageQueue) (e : Event)
    (h : q.Invariant H) (he : Admissible q e) : q.LeavesNoneDue H e := by
  intro hscans
  have hscan := he.2 hscans
  cases e with
  | get cmsWait =>
    obtain ⟨hcall, hpeek⟩ := Bool.and_eq_true_iff.mp hscans
    rw [MessageQueue.step, Option.isNone_iff_eq_none.mp hcall, MessageQueue.enter,
      Option.isNone_iff_eq_none.mp hpeek]
    exact MessageQueue.scan_leaves h hscan _ _
  | peek cmsWait =>
    obtain ⟨hcall, hpeek⟩ := Bool.and_eq_true_iff.mp hscans
    rw [MessageQueue.step, Option.isNone_iff_eq_none.mp hcall, MessageQueue.enter,
      Option.isNone_iff_eq_none.mp hpeek]
    exact MessageQueue.scan_leaves h hscan _ _
  | wake ok =>
    obtain ⟨call, hcall, hgoes⟩ := (Option.any_eq_true _ _).mp hscans
    rw [Bool.not_eq_true'] at hgoes
    rw [MessageQueue.step, hcall]
    simp only [MessageQueue.wake]
    rw [if_neg (Bool.eq_false_iff.mp hgoes)]
    exact MessageQueue.scan_leaves h hscan _ _
  | post phandler id pdata => cases hscans
  | postDelayed cmsDelay phandler id pdata => cases hscans
  | clear phandler id => cases hscans
  | tick ms => cases hscans

theorem queue_delivers {H : HeapAlgorithms DelayedMessage.lt} (now : Nat) {events : List Event}
    (h : Machine.Along (MessageQueue.step H) Admissible (MessageQueue.start now) events) :
    Machine.Always (MessageQueue.step H) MessageQueue.Delivers (MessageQueue.start now) events ∧
    Machine.Along (MessageQueue.step H) (MessageQueue.LeavesNoneDue H) (MessageQueue.start now)
      events := by
  have hstart := MessageQueue.start_invariant (H := H) now
  have hinv := Machine.always_of_along step_invariant hstart h
  refine ⟨hinv.imp fun _ hq => hq.toDelivers, ?_⟩
  exact Machine.along_of_along (fun q e hq he => ⟨step_invariant q e hq he, step_leaves q e hq he⟩)
    hstart h

/-- A heap that is kept sorted. -/
def sortedHeap : HeapAlgorithms DelayedMessage.lt :=
  HeapAlgorithms.sorted
    (fun a b => by
      simp only [DelayedMessage.lt, BitVec.lt_def, ← BitVec.toNat_inj]
      omega)
    (fun a b c => by
      simp only [DelayedMessage.lt, BitVec.lt_def, ← BitVec.toNat_inj]
      omega)

/-- Delayed messages posted out of order, an immediate one, one that is cleared and one that
waits, with the clock close to its wrap. -/
def five : List Event :=
  [.postDelayed 20 1 7 0, .postDelayed 5 1 8 0, .post 2 9 0, .postDelayed 5 3 9 0, .clear 3 (-1),
    .tick 6, .peek 0, .get 0, .get 0, .get (-1), .postDelayed 3 1 6 0, .tick 15, .wake true]

/-- Three are returned, with the time of each, and one is next. -/
theorem delivers_five :
    (Machine.Always (MessageQueue.step sortedHeap) MessageQueue.Delivers
        (MessageQueue.start 4294967200) five ∧
      Machine.Along (MessageQueue.step sortedHeap) (MessageQueue.LeavesNoneDue sortedHeap)
        (MessageQueue.start 4294967200) five) ∧
    ((Machine.run (MessageQueue.step sortedHeap) (MessageQueue.start 4294967200) five).returned.map
        fun r => (r.1.messageId, r.2)) = [(9, 4294967206), (8, 4294967206), (6, 4294967221)] ∧
    ((Machine.run (MessageQueue.step sortedHeap) (MessageQueue.start 4294967200) five).msgq.map
        (·.messageId)) = [7] :=
  ⟨queue_delivers _ (by decide +kernel), by decide +kernel, by decide +kernel⟩

/-- A message to be triggered before the clock wraps is behind one to be triggered after it, and
a scan after its time leaves it in the queue. -/
theorem not_delivers :
    ¬ ∀ (H : HeapAlgorithms DelayedMessage.lt) (now : Nat) (events : List Event),
      Machine.Along (MessageQueue.step H) InDomain (MessageQueue.start now) events →
      Machine.Always (MessageQueue.step H) MessageQueue.Delivers (MessageQueue.start now) events ∧
      Machine.Along (MessageQueue.step H) (MessageQueue.LeavesNoneDue H) (MessageQueue.start now)
        events := by
  intro h
  obtain ⟨-, hleaves⟩ := h sortedHeap 4294967276
    [.postDelayed 10 1 7 0, .postDelayed 30 1 8 0, .tick 15, .get 0] (by decide +kernel)
  have hget := Machine.along_iff_forall.mp hleaves
    [.postDelayed 10 1 7 0, .postDelayed 30 1 8 0, .tick 15] (.get 0) [] rfl
  have hleft : ∃ d ∈ (Machine.run (MessageQueue.step sortedHeap) (MessageQueue.start 4294967276)
      [.postDelayed 10 1 7 0, .postDelayed 30 1 8 0, .tick 15, .get 0]).dmsgq,
      d.msg.due = 4294967286 := by
    decide +kernel
  obtain ⟨d, hd, hdue⟩ := hleft
  have hlater : 4294967291 < d.msg.due := hget (by decide +kernel) d hd
  omega

end PerchWebrtc.Thread
