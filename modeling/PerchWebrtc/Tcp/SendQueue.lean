import PerchWebrtc.Tcp.PseudoTcp

/-!
# The send queue

The segments of an endpoint cover the bytes of its send buffer, those that have
been transmitted before the others, and the counters agree with them.

* `splitSegment_sendState`, `markTransmitted_sendState`: the edits of the list;
* `Queued.transmit_first`, `Queued.transmit_again`: a transmission;
* `Queued.attemptSend`, `Queued.queue`, `Queued.acknowledge`: sending, the
  user's data and an ack;
* `reachable_sendQueue`: every state that is reached, as long as each ack ends
  at the boundary of a segment.
-/

namespace PerchWebrtc.Tcp

/-- The bytes of segments. -/
def bytes (l : List SSegment) : Nat := (l.map (·.len.toNat)).sum

/-- Each segment begins where the one before it ends. -/
def Contiguous : U32 → List SSegment → Prop
  | _, [] => True
  | start, seg :: rest => seg.seq = start ∧ Contiguous (start + seg.len) rest

instance decidableContiguous : ∀ start l, Decidable (Contiguous start l)
  | _, [] => isTrue trivial
  | start, seg :: rest =>
    have := decidableContiguous (start + seg.len) rest
    inferInstanceAs (Decidable (_ ∧ _))

/-- The segments that have been transmitted, at the front of the list. -/
def transmitted (s : PseudoTcp) : List SSegment := s.slist.takeWhile (·.xmit ≠ 0)

/-- The segments cover the bytes of the send buffer, from `m_snd_una` on;
those that have been transmitted are a prefix, which ends at `m_snd_nxt` and
for which the timer runs. -/
structure SendQueue (s : PseudoTcp) : Prop where
  contiguous : Contiguous s.sndUna s.slist
  tiles : bytes s.slist = s.sbuf.getBuffered
  unsent : ∀ seg ∈ s.slist.dropWhile (·.xmit ≠ 0), seg.xmit = 0
  sndNxt : s.sndNxt = s.sndUna + BitVec.ofNat 32 (bytes (transmitted s))
  rtoBase : s.rtoBase ≠ 0 ↔ transmitted s ≠ []

/-! ## Lists of segments -/

section Segments

variable {l l' : List SSegment} {seg : SSegment} {start n : U32}

@[simp] theorem bytes_nil : bytes [] = 0 := rfl

@[simp] theorem bytes_cons (seg : SSegment) (l : List SSegment) :
    bytes (seg :: l) = seg.len.toNat + bytes l := by
  simp only [bytes, List.map_cons, List.sum_cons]

@[simp] theorem bytes_append (l l' : List SSegment) : bytes (l ++ l') = bytes l + bytes l' := by
  simp only [bytes, List.map_append, List.sum_append]

theorem contiguous_append : ∀ {start : U32} {l : List SSegment},
    Contiguous start (l ++ l') ↔
      Contiguous start l ∧ Contiguous (start + BitVec.ofNat 32 (bytes l)) l'
  | start, [] => by simp [Contiguous]
  | start, seg :: l => by
    have hadd : start + seg.len + BitVec.ofNat 32 (bytes l) =
        start + BitVec.ofNat 32 (bytes (seg :: l)) := by
      rw [bytes_cons, BitVec.ofNat_add, BitVec.ofNat_toNat, BitVec.setWidth_eq, BitVec.add_assoc]
    simp only [List.cons_append, Contiguous, contiguous_append (l := l), hadd, and_assoc]

/-- A segment after `splitSegment`. -/
def cut (seg : SSegment) (n : U32) : List SSegment :=
  if n < seg.len then
    [{ seg with len := n },
      { seq := seg.seq + n, len := seg.len - n, xmit := seg.xmit, bCtrl := seg.bCtrl }]
  else [seg]

theorem bytes_cut : bytes (cut seg n) = seg.len.toNat := by
  unfold cut
  split
  · simp only [bytes_cons, bytes_nil]
    bv_omega
  · simp

theorem contiguous_cut : Contiguous start (cut seg n) ↔ seg.seq = start := by
  unfold cut
  split
  · simp only [Contiguous, and_true]
    constructor
    · exact fun h => h.1
    · rintro rfl
      exact ⟨rfl, rfl⟩
  · simp [Contiguous]

/-- The first part of a segment that is cut. -/
def cutHead (seg : SSegment) (n : U32) : SSegment := if n < seg.len then { seg with len := n } else seg

def cutTail (seg : SSegment) (n : U32) : List SSegment :=
  if n < seg.len then
    [{ seq := seg.seq + n, len := seg.len - n, xmit := seg.xmit, bCtrl := seg.bCtrl }]
  else []

theorem cut_eq : cut seg n = cutHead seg n :: cutTail seg n := by
  unfold cut cutHead cutTail
  split <;> rfl

theorem cutHead_len : (cutHead seg n).len = uMin seg.len n := by
  unfold cutHead uMin
  split <;> rfl

theorem mem_cutTail {x : SSegment} (h : x ∈ cutTail seg n) :
    x.xmit = seg.xmit ∧ x.bCtrl = seg.bCtrl ∧ x.len ≠ 0 := by
  unfold cutTail at h
  split at h
  · obtain rfl := List.mem_singleton.mp h
    refine ⟨rfl, rfl, ?_⟩
    dsimp only
    bv_omega
  · cases h

end Segments

/-! ## The part of the state that the queue is about -/

structure SendState where
  state : TcpState
  slist : List SSegment
  sndUna : U32
  sndNxt : U32
  sbuf : FifoBuffer
  rtoBase : U32
  recover : U32

namespace PseudoTcp

def sendState (s : PseudoTcp) : SendState where
  state := s.state
  slist := s.slist
  sndUna := s.sndUna
  sndNxt := s.sndNxt
  sbuf := s.sbuf
  rtoBase := s.rtoBase
  recover := s.recover

section Frames

variable (env : Env) (s : PseudoTcp)

@[simp] theorem packet_sendState (seq : U32) (flags : Byte) (offset len : U32) :
    (s.packet env seq flags offset len).2.sendState = s.sendState := by
  unfold packet
  dsimp only
  split <;> rfl

@[simp] theorem reduceMss_sendState (nTransmit : U32) : ∀ (fuel : Nat) (s : PseudoTcp),
    (s.reduceMss nTransmit fuel).2.sendState = s.sendState
  | 0, _ => rfl
  | fuel + 1, s => by
    rw [reduceMss]
    split
    · rfl
    · dsimp only
      split
      · rfl
      · exact reduceMss_sendState nTransmit fuel _

@[simp] theorem transmitLoop_sendState (seg : SSegment) : ∀ (fuel : Nat) (n : U32) (s : PseudoTcp),
    (s.transmitLoop env seg fuel n).2.sendState = s.sendState
  | 0, _, _ => rfl
  | fuel + 1, n, s => by
    have hpacket := s.packet_sendState env seg.seq (if seg.bCtrl then FLAG_CTL else 0)
      (seg.seq - s.sndUna) n
    rw [transmitLoop]
    generalize s.packet env seg.seq (if seg.bCtrl then FLAG_CTL else 0) (seg.seq - s.sndUna) n =
      sent at hpacket
    obtain ⟨wres, s₁⟩ := sent
    cases wres with
    | WR_SUCCESS => exact hpacket
    | WR_FAIL => exact hpacket
    | WR_TOO_LARGE =>
      have hreduce := reduceMss_sendState n PACKET_MAXIMUMS.length s₁
      dsimp only
      generalize s₁.reduceMss n PACKET_MAXIMUMS.length = reduced at hreduce
      obtain ⟨_ | _, s₂⟩ := reduced
      · exact hreduce.trans hpacket
      · exact (transmitLoop_sendState seg fuel s₂.mss s₂).trans (hreduce.trans hpacket)

theorem optionLoop_sendState : ∀ (fuel : Nat) (data : Mem) (len : Nat) (s : PseudoTcp),
    (optionLoop fuel data len s).2.sendState = s.sendState
  | 0, _, _, _ => rfl
  | fuel + 1, data, len, s => by
    rw [optionLoop]
    split
    · rfl
    · split
      · exact optionLoop_sendState fuel _ _ s
      · dsimp only
        generalize (if len = 1 then 1 else 2) = header
        generalize (if len = 1 then 0 else (data 1).toNat) = optLen
        split
        · refine (optionLoop_sendState fuel _ _ _).trans ?_
          unfold applyOption
          split <;> rfl
        · rfl

@[simp] theorem parseOptions_sendState (data : Mem) (len : U32) :
    (s.parseOptions data len).sendState = s.sendState := by
  have hloop := optionLoop_sendState len.toNat data len.toNat s
  unfold parseOptions
  generalize optionLoop len.toNat data len.toNat s = parsed at hloop
  obtain ⟨_ | options, s₁⟩ := parsed
  · exact hloop
  · dsimp only
    split <;> exact hloop

@[simp] theorem updateRtt_sendState (seg : Segment) (now : U32) :
    (s.updateRtt seg now).sendState = s.sendState := by
  unfold updateRtt
  dsimp only
  split
  · split <;> rfl
  · rfl

@[simp] theorem updateTimestamp_sendState (seg : Segment) :
    (s.updateTimestamp seg).sendState = s.sendState := by
  unfold updateTimestamp
  split <;> rfl

theorem recoverSegments_sendState : ∀ (rlist : List RSegment) (s : PseudoTcp),
    (recoverSegments rlist s).2.sendState = s.sendState
  | [], _ => rfl
  | it :: rest, s => by
    rw [recoverSegments]
    split
    · split
      · exact recoverSegments_sendState rest _
      · exact recoverSegments_sendState rest s
    · rfl

@[simp] theorem processData_sendState (seg : Segment) (sflags : SendFlags) :
    (s.processData seg sflags).2.2.sendState = s.sendState := by
  unfold processData
  split
  · rfl
  · split
    · dsimp only
      split <;> rfl
    · dsimp only
      split
      · exact recoverSegments_sendState _ _
      · rfl

end Frames

section Edits

variable {s : PseudoTcp} {l l' : List SSegment} {seg : SSegment}

theorem getElem?_middle : (l ++ seg :: l')[l.length]? = some seg := by
  rw [List.getElem?_append_right (Nat.le_refl _), Nat.sub_self, List.getElem?_cons_zero]

theorem splitSegment_sendState (h : s.slist = l ++ seg :: l') (n : U32) :
    (s.splitSegment l.length n).sendState =
      { s.sendState with slist := l ++ cut seg n ++ l' } := by
  unfold splitSegment cut
  rw [h, getElem?_middle]
  dsimp only
  split
  · rw [List.take_left', List.drop_append, List.drop_eq_nil_of_le (Nat.le_succ _)]
    · simp [sendState]
    · rfl
  · rw [List.append_assoc, List.singleton_append, ← h]
    rfl

theorem markTransmitted_sendState (h : s.slist = l ++ seg :: l') (now : U32) :
    (s.markTransmitted l.length now).sendState =
      { s.sendState with
        slist := l ++ { seg with xmit := seg.xmit + 1 } :: l'
        sndNxt := if seg.xmit = 0 then s.sndNxt + seg.len else s.sndNxt
        rtoBase := if s.rtoBase = 0 then now else s.rtoBase } := by
  unfold markTransmitted
  rw [h, getElem?_middle]
  dsimp only [sendState]
  rw [List.set_append_right _ _ (Nat.le_refl _), Nat.sub_self, List.set_cons_zero]

end Edits

end PseudoTcp

/-! ## The invariant -/

/-- The queue of a state, with the segments `T` that have been transmitted and
the others, `U`. -/
structure Queued (q : SendState) (T U : List SSegment) : Prop where
  slist : q.slist = T ++ U
  sent : ∀ seg ∈ T, seg.xmit ≠ 0
  unsent : ∀ seg ∈ U, seg.xmit = 0
  contiguous : Contiguous q.sndUna (T ++ U)
  buffered : bytes (T ++ U) = q.sbuf.dataLength
  capacity : q.sbuf.dataLength ≤ q.sbuf.bufferLength ∧ q.sbuf.bufferLength < 2 ^ 32
  sndNxt : q.sndNxt = q.sndUna + BitVec.ofNat 32 (bytes T)
  rtoBase : q.rtoBase ≠ 0 ↔ T ≠ []
  last : ∀ seg ∈ T.getLast?, seg.len ≠ 0
  positive : ∀ seg ∈ U.dropLast, seg.len ≠ 0
  control : ∀ seg ∈ U, seg.bCtrl = true → seg.len = 0 → q.sbuf.bufferLength = 0
  recover : q.sndUna ≤ q.sndNxt → q.recover ≤ q.sndNxt
  listen : q.state = .TCP_LISTEN → T ++ U = []

section Invariant

variable {q : SendState} {T U : List SSegment} {seg : SSegment} {n : U32}

theorem mem_dropLast_append {x : SSegment} : ∀ {l l' : List SSegment},
    x ∈ (l ++ l').dropLast → x ∈ l ∨ x ∈ l'.dropLast
  | l, [], h => by
    rw [List.append_nil] at h
    exact .inl ((List.dropLast_sublist l).subset h)
  | l, y :: l', h => by
    rw [List.dropLast_append_of_ne_nil (List.cons_ne_nil y l')] at h
    exact List.mem_append.mp h

theorem cutHead_len_ne (hlen : seg.len ≠ 0) (hn : n ≠ 0) : (cutHead seg n).len ≠ 0 := by
  rw [cutHead_len, uMin]
  split
  · exact hn
  · exact hlen

theorem cutHead_xmit : (cutHead seg n).xmit = seg.xmit := by
  unfold cutHead
  split <;> rfl

theorem contiguous_cut_middle {start : U32} {l l' : List SSegment} :
    Contiguous start (l ++ (cut seg n ++ l')) ↔ Contiguous start (l ++ seg :: l') := by
  rw [contiguous_append, contiguous_append, contiguous_append, contiguous_cut, bytes_cut,
    BitVec.ofNat_toNat, BitVec.setWidth_eq]
  simp only [Contiguous]

/-- A segment that has not been transmitted is cut. -/
theorem Queued.cut_unsent (h : Queued q T (seg :: U)) (hlen : seg.len ≠ 0) (hn : n ≠ 0) :
    Queued { q with slist := T ++ cut seg n ++ U } T (cutHead seg n :: (cutTail seg n ++ U)) := by
  have hcut : T ++ cut seg n ++ U = T ++ (cutHead seg n :: (cutTail seg n ++ U)) := by
    rw [cut_eq, List.append_assoc, List.cons_append]
  have hhead := cutHead_len_ne hlen hn
  have hunsent := List.forall_mem_cons.mp h.unsent
  constructor
  case slist => exact hcut
  case sent => exact h.sent
  case unsent =>
    intro x hx
    rcases List.mem_cons.mp hx with rfl | hx
    · exact cutHead_xmit.trans hunsent.1
    · rcases List.mem_append.mp hx with hx | hx
      · exact (mem_cutTail hx).1.trans hunsent.1
      · exact hunsent.2 x hx
  case contiguous =>
    rw [← hcut, List.append_assoc, contiguous_cut_middle]
    exact h.contiguous
  case buffered =>
    rw [← hcut, ← h.buffered]
    simp only [bytes_append, bytes_cons, bytes_cut, Nat.add_assoc]
  case capacity => exact h.capacity
  case sndNxt => exact h.sndNxt
  case rtoBase => exact h.rtoBase
  case last => exact h.last
  case positive =>
    intro x hx
    have hmem : x = cutHead seg n ∨ x ∈ (cutTail seg n ++ U).dropLast := by
      rcases List.eq_nil_or_concat (cutTail seg n ++ U) with hnil | ⟨l, y, hl⟩
      · rw [hnil] at hx
        cases hx
      · rw [hl, List.concat_eq_append, ← List.cons_append, List.dropLast_concat] at hx
        rw [hl, List.concat_eq_append, List.dropLast_concat]
        exact List.mem_cons.mp hx
    rcases hmem with rfl | hmem
    · exact hhead
    · rcases mem_dropLast_append hmem with hx | hx
      · exact (mem_cutTail hx).2.2
      · refine h.positive x ?_
        cases U with
        | nil => cases hx
        | cons y U => exact List.mem_cons_of_mem _ hx
  case control =>
    intro x hx hctrl hzero
    rcases List.mem_cons.mp hx with rfl | hx
    · exact absurd hzero hhead
    · rcases List.mem_append.mp hx with hx | hx
      · exact absurd hzero (mem_cutTail hx).2.2
      · exact h.control x (List.mem_cons_of_mem _ hx) hctrl hzero
  case recover => exact h.recover
  case listen =>
    intro hstate
    exact absurd (h.listen hstate) (by simp)

/-- The transmitted bytes are what `m_snd_nxt` is ahead by. -/
theorem Queued.bytes_sent (h : Queued q T U) : (q.sndNxt - q.sndUna).toNat = bytes T := by
  have hle : bytes T < 2 ^ 32 := by
    have hbuffered := h.buffered
    have hcapacity := h.capacity
    rw [bytes_append] at hbuffered
    omega
  rw [h.sndNxt]
  bv_omega

/-- A segment is transmitted for the first time. -/
theorem Queued.mark_first (h : Queued q T (seg :: U)) (hlen : seg.len ≠ 0) {now : U32}
    (hnow : now ≠ 0) :
    Queued { q with
      slist := T ++ { seg with xmit := seg.xmit + 1 } :: U
      sndNxt := if seg.xmit = 0 then q.sndNxt + seg.len else q.sndNxt
      rtoBase := if q.rtoBase = 0 then now else q.rtoBase }
      (T ++ [{ seg with xmit := seg.xmit + 1 }]) U := by
  have hunsent := List.forall_mem_cons.mp h.unsent
  have happend : (T ++ [{ seg with xmit := seg.xmit + 1 }]) ++ U =
      T ++ { seg with xmit := seg.xmit + 1 } :: U := by
    rw [List.append_assoc, List.singleton_append]
  have hbytes := h.bytes_sent
  have hbuffered := h.buffered
  have hcapacity := h.capacity
  rw [bytes_append, bytes_cons] at hbuffered
  constructor
  case slist => exact happend.symm
  case sent =>
    intro x hx
    rcases List.mem_append.mp hx with hx | hx
    · exact h.sent x hx
    · obtain rfl := List.mem_singleton.mp hx
      show seg.xmit + 1 ≠ 0
      rw [hunsent.1]
      decide
  case unsent => exact hunsent.2
  case contiguous =>
    have hcontiguous := h.contiguous
    rw [contiguous_append] at hcontiguous
    rw [happend, contiguous_append]
    exact hcontiguous
  case buffered =>
    rw [happend, bytes_append, bytes_cons]
    exact hbuffered
  case capacity => exact hcapacity
  case sndNxt =>
    dsimp only
    rw [if_pos hunsent.1, h.sndNxt, bytes_append, bytes_cons, bytes_nil, Nat.add_zero,
      BitVec.ofNat_add, BitVec.ofNat_toNat, BitVec.setWidth_eq, BitVec.add_assoc]
  case rtoBase =>
    refine iff_of_true ?_ (List.append_ne_nil_of_right_ne_nil _ (List.cons_ne_nil _ _))
    dsimp only
    split
    · exact hnow
    · assumption
  case last =>
    intro x hx
    rw [List.getLast?_concat, Option.mem_some_iff] at hx
    rw [← hx]
    exact hlen
  case positive =>
    intro x hx
    refine h.positive x ?_
    cases U with
    | nil => cases hx
    | cons y U => exact List.mem_cons_of_mem _ hx
  case control => exact fun x hx => h.control x (List.mem_cons_of_mem _ hx)
  case recover =>
    dsimp only
    rw [if_pos hunsent.1]
    have hrecover := h.recover
    intro hle
    -- The bytes in flight are fewer than `2 ^ 32`, so that `m_snd_nxt` has not wrapped.
    have hwrap : q.sndUna.toNat + bytes T + seg.len.toNat < 2 ^ 32 := by
      bv_omega
    have hold : q.sndUna ≤ q.sndNxt := by bv_omega
    have := hrecover hold
    bv_omega
  case listen =>
    intro hstate
    exact absurd (h.listen hstate) (by simp)

/-- A segment is transmitted again. -/
theorem Queued.mark_again (h : Queued q (seg :: T) U) (hxmit : seg.xmit.toNat < 30) (now : U32) :
    Queued { q with
      slist := { cutHead seg n with xmit := seg.xmit + 1 } :: (cutTail seg n ++ (T ++ U))
      sndNxt := if seg.xmit = 0 then q.sndNxt + (cutHead seg n).len else q.sndNxt
      rtoBase := if q.rtoBase = 0 then now else q.rtoBase }
      ({ cutHead seg n with xmit := seg.xmit + 1 } :: (cutTail seg n ++ T)) U := by
  have hsent := List.forall_mem_cons.mp h.sent
  have htimer : q.rtoBase ≠ 0 := h.rtoBase.mpr (List.cons_ne_nil _ _)
  have hcutbytes : bytes (cut seg n) = seg.len.toNat := bytes_cut
  rw [cut_eq, bytes_cons] at hcutbytes
  rw [if_neg hsent.1, if_neg htimer]
  constructor
  case slist =>
    dsimp only
    rw [List.cons_append, List.append_assoc]
  case sent =>
    intro x hx
    rcases List.mem_cons.mp hx with rfl | hx
    · show seg.xmit + 1 ≠ 0
      bv_omega
    · rcases List.mem_append.mp hx with hx | hx
      · rw [(mem_cutTail hx).1]
        exact hsent.1
      · exact hsent.2 x hx
  case unsent => exact h.unsent
  case contiguous =>
    have hcontiguous := h.contiguous
    rw [List.cons_append, ← List.nil_append (seg :: (T ++ U)), ← contiguous_cut_middle (n := n),
      List.nil_append, cut_eq] at hcontiguous
    rw [List.cons_append, List.append_assoc]
    exact hcontiguous
  case buffered =>
    have hbuffered := h.buffered
    simp only [bytes_append, bytes_cons] at hbuffered ⊢
    omega
  case capacity => exact h.capacity
  case sndNxt =>
    rw [bytes_cons, bytes_append]
    dsimp only
    rw [h.sndNxt, bytes_cons, ← hcutbytes, Nat.add_assoc]
  case rtoBase => exact iff_of_true htimer (List.cons_ne_nil _ _)
  case last =>
    intro x hx
    rcases List.eq_nil_or_concat T with rfl | ⟨l, y, rfl⟩
    · have hlen : seg.len ≠ 0 := h.last seg rfl
      unfold cutTail cutHead at hx
      split at hx
      · rw [List.append_nil, List.getLast?_cons_cons, List.getLast?_singleton,
          Option.mem_some_iff] at hx
        rw [← hx]
        dsimp only
        bv_omega
      · rw [List.append_nil, List.getLast?_singleton, Option.mem_some_iff] at hx
        rw [← hx]
        exact hlen
    · rw [List.concat_eq_append, ← List.append_assoc, ← List.cons_append, List.getLast?_concat] at hx
      refine h.last x ?_
      rw [List.concat_eq_append, ← List.cons_append, List.getLast?_concat]
      exact hx
  case positive => exact h.positive
  case control => exact h.control
  case recover => exact h.recover
  case listen =>
    intro hstate
    exact absurd (h.listen hstate) (List.cons_ne_nil _ _)

/-- Bytes are written behind the last segment. -/
theorem Queued.push (h : Queued q T U) {sbuf : FifoBuffer} {len : U32} {bCtrl : Bool}
    (hdata : sbuf.dataLength = q.sbuf.dataLength + len.toNat)
    (hlength : sbuf.bufferLength = q.sbuf.bufferLength)
    (hfits : sbuf.dataLength ≤ sbuf.bufferLength) (hpositive : ∀ seg ∈ U, seg.len ≠ 0)
    (hcontrol : bCtrl = true → len = 0 → sbuf.bufferLength = 0) (hstate : q.state ≠ .TCP_LISTEN) :
    Queued { q with
      slist := q.slist ++
        [{ seq := q.sndUna + BitVec.ofNat 32 q.sbuf.dataLength, len := len, bCtrl := bCtrl }]
      sbuf := sbuf } T
      (U ++ [{ seq := q.sndUna + BitVec.ofNat 32 q.sbuf.dataLength, len := len, bCtrl := bCtrl }]) := by
  have hbuffered := h.buffered
  constructor
  case slist =>
    dsimp only
    rw [h.slist, List.append_assoc]
  case sent => exact h.sent
  case unsent =>
    intro x hx
    rcases List.mem_append.mp hx with hx | hx
    · exact h.unsent x hx
    · rw [List.mem_singleton.mp hx]
  case contiguous =>
    rw [← List.append_assoc, contiguous_append, hbuffered]
    exact ⟨h.contiguous, rfl, trivial⟩
  case buffered =>
    rw [← List.append_assoc, bytes_append, hbuffered, bytes_cons, bytes_nil, Nat.add_zero]
    exact hdata.symm
  case capacity => exact ⟨hfits, hlength ▸ h.capacity.2⟩
  case sndNxt => exact h.sndNxt
  case rtoBase => exact h.rtoBase
  case last => exact h.last
  case positive =>
    rw [List.dropLast_concat]
    exact hpositive
  case control =>
    intro x hx hctrl hzero
    rcases List.mem_append.mp hx with hx | hx
    · exact hlength.trans (h.control x hx hctrl hzero)
    · obtain rfl := List.mem_singleton.mp hx
      exact hcontrol hctrl hzero
  case recover => exact h.recover
  case listen => exact fun hlisten => absurd hlisten hstate

/-- Bytes are written into the last segment. -/
theorem Queued.extend (h : Queued q T (U ++ [seg])) {sbuf : FifoBuffer} {len : U32}
    (hdata : sbuf.dataLength = q.sbuf.dataLength + len.toNat)
    (hlength : sbuf.bufferLength = q.sbuf.bufferLength)
    (hfits : sbuf.dataLength ≤ sbuf.bufferLength) :
    Queued { q with
      slist := q.slist.dropLast ++ [{ seg with len := seg.len + len }]
      sbuf := sbuf } T (U ++ [{ seg with len := seg.len + len }]) := by
  have hbuffered := h.buffered
  have hcapacity := h.capacity
  simp only [bytes_append, bytes_cons, bytes_nil] at hbuffered
  have hadd : (seg.len + len).toNat = seg.len.toNat + len.toNat := by bv_omega
  constructor
  case slist =>
    dsimp only
    rw [h.slist, ← List.append_assoc, List.dropLast_concat, List.append_assoc]
  case sent => exact h.sent
  case unsent =>
    intro x hx
    rcases List.mem_append.mp hx with hx | hx
    · exact h.unsent x (List.mem_append_left _ hx)
    · rw [List.mem_singleton.mp hx]
      exact h.unsent seg (List.mem_append_right _ List.mem_cons_self)
  case contiguous =>
    have hcontiguous := h.contiguous
    rw [← List.append_assoc, contiguous_append] at hcontiguous ⊢
    exact hcontiguous
  case buffered =>
    simp only [bytes_append, bytes_cons, bytes_nil, hadd]
    omega
  case capacity => exact ⟨hfits, hlength ▸ hcapacity.2⟩
  case sndNxt => exact h.sndNxt
  case rtoBase => exact h.rtoBase
  case last => exact h.last
  case positive =>
    have hpositive := h.positive
    rw [List.dropLast_concat] at hpositive ⊢
    exact hpositive
  case control =>
    intro x hx hctrl hzero
    rcases List.mem_append.mp hx with hx | hx
    · exact hlength.trans (h.control x (List.mem_append_left _ hx) hctrl hzero)
    · obtain rfl := List.mem_singleton.mp hx
      refine hlength.trans (h.control seg (List.mem_append_right _ List.mem_cons_self) hctrl ?_)
      dsimp only at hzero
      bv_omega
  case recover => exact h.recover
  case listen =>
    intro hlisten
    exact absurd (h.listen hlisten) (by simp)

/-- The loop of an ack that ends at the boundary of a segment. -/
theorem freeSegments_eq (largest : U32) : ∀ {T : List SSegment} {nFree : U32} {k : Nat},
    nFree.toNat ≤ bytes T → bytes ((T ++ U).take k) = nFree.toNat →
      ∃ T₁ T₂, T = T₁ ++ T₂ ∧ bytes T₁ = nFree.toNat ∧
        (PseudoTcp.freeSegments nFree (T ++ U) largest).1 = T₂ ++ U
  | [], nFree, k, hle, _ => by
    obtain rfl : nFree = 0 := by
      rw [bytes_nil] at hle
      bv_omega
    refine ⟨[], [], rfl, rfl, ?_⟩
    cases U <;> rfl
  | seg :: T, nFree, k, hle, hk => by
    rw [List.cons_append, PseudoTcp.freeSegments]
    by_cases hzero : nFree = 0
    · rw [if_pos hzero, hzero]
      exact ⟨[], seg :: T, rfl, rfl, rfl⟩
    · rw [if_neg hzero]
      cases k with
      | zero =>
        rw [List.take_zero, bytes_nil] at hk
        exact absurd (show nFree = 0 by bv_omega) hzero
      | succ k =>
        rw [List.cons_append, List.take_succ_cons, bytes_cons] at hk
        rw [bytes_cons] at hle
        have hsub : (nFree - seg.len).toNat = nFree.toNat - seg.len.toNat := by bv_omega
        rw [if_neg (show ¬ nFree < seg.len by bv_omega)]
        obtain ⟨T₁, T₂, rfl, hbytes, hfree⟩ := freeSegments_eq
          (if largest < seg.len then seg.len else largest) (k := k)
          (show (nFree - seg.len).toNat ≤ bytes T by omega) (by omega)
        refine ⟨seg :: T₁, T₂, rfl, ?_, hfree⟩
        rw [bytes_cons]
        omega

/-- An ack that ends at the boundary of a segment. -/
theorem Queued.acknowledge (h : Queued q T U) {ack now largest : U32} {k : Nat}
    (hlt : q.sndUna < ack) (hle : ack ≤ q.sndNxt)
    (hk : bytes (q.slist.take k) = (ack - q.sndUna).toNat) (hnow : now ≠ 0) :
    ∃ T', Queued { q with
      slist := (PseudoTcp.freeSegments (ack - q.sndUna) q.slist largest).1
      sndUna := ack
      sbuf := q.sbuf.consumeReadData (ack - q.sndUna).toNat
      rtoBase := if ack = q.sndNxt then 0 else now } T' U := by
  have hsent := h.bytes_sent
  rw [h.slist] at hk ⊢
  obtain ⟨T₁, T₂, rfl, hbytes, hfree⟩ :=
    freeSegments_eq (U := U) largest (T := T) (show (ack - q.sndUna).toNat ≤ bytes T by bv_omega) hk
  rw [hfree]
  have hack : q.sndUna + BitVec.ofNat 32 (bytes T₁) = ack := by
    rw [hbytes, BitVec.ofNat_toNat, BitVec.setWidth_eq]
    bv_omega
  have hbuffered := h.buffered
  have hcapacity := h.capacity
  rw [bytes_append] at hsent
  rw [List.append_assoc, bytes_append] at hbuffered
  have hlast : T₂ ≠ [] → bytes T₂ ≠ 0 := by
    intro hne
    obtain ⟨l, x, rfl⟩ := (List.eq_nil_or_concat T₂).resolve_left hne
    have hx := h.last x (by rw [List.concat_eq_append, ← List.append_assoc, List.getLast?_concat]; rfl)
    rw [List.concat_eq_append, bytes_append, bytes_cons]
    bv_omega
  refine ⟨T₂, ?_⟩
  constructor
  case slist => rfl
  case sent => exact fun x hx => h.sent x (List.mem_append_right _ hx)
  case unsent => exact h.unsent
  case contiguous =>
    have hcontiguous := h.contiguous
    rw [List.append_assoc, contiguous_append, hack] at hcontiguous
    exact hcontiguous.2
  case buffered =>
    show _ = q.sbuf.dataLength - _
    omega
  case capacity => exact ⟨Nat.le_trans (Nat.sub_le _ _) hcapacity.1, hcapacity.2⟩
  case sndNxt =>
    dsimp only
    rw [h.sndNxt, bytes_append, BitVec.ofNat_add, ← BitVec.add_assoc, hack]
  case rtoBase =>
    dsimp only
    split
    · rename_i heq
      refine iff_of_false (fun hne => hne rfl) (fun hne => hlast hne ?_)
      bv_omega
    · rename_i hne
      refine iff_of_true hnow ?_
      rintro rfl
      rw [bytes_nil] at hsent
      apply hne
      bv_omega
  case last =>
    intro x hx
    refine h.last x ?_
    rw [List.getLast?_append, Option.mem_def.mp hx]
    rfl
  case positive => exact h.positive
  case control => exact h.control
  case recover =>
    intro _
    exact h.recover (by bv_omega)
  case listen =>
    intro hlisten
    have hnil := h.listen hlisten
    rw [List.append_assoc] at hnil
    exact (List.append_eq_nil_iff.mp hnil).2

theorem Queued.closed (h : Queued q T U) {state : TcpState} (hstate : state ≠ .TCP_LISTEN) :
    Queued { q with state := state } T U :=
  { h with listen := fun hlisten => absurd hlisten hstate }

theorem Queued.timer (h : Queued q T U) (hT : T ≠ []) {now : U32} (hnow : now ≠ 0) :
    Queued { q with rtoBase := now } T U :=
  { h with rtoBase := iff_of_true hnow hT }

theorem Queued.recovery (h : Queued q T U) : Queued { q with recover := q.sndNxt } T U :=
  { h with recover := fun _ => BitVec.le_refl _ }

theorem Queued.ne_nil (h : Queued q T U) (hne : q.sndUna ≠ q.sndNxt) : T ≠ [] := by
  have hsent := h.bytes_sent
  rintro rfl
  rw [bytes_nil] at hsent
  apply hne
  bv_omega

end Invariant

namespace PseudoTcp

section Transmit

variable {env : Env} {s : PseudoTcp} {T U : List SSegment} {seg : SSegment} {n now : U32}

theorem reduceMss_mss : ∀ (fuel : Nat) (s : PseudoTcp),
    (s.reduceMss n fuel).1 = true → (s.reduceMss n fuel).2.mss ≠ 0
  | 0, _, h => by cases h
  | fuel + 1, s, h => by
    have hmss : ∀ k, PACKET_MAXIMUMS.getD k 0 ≠ 0 →
        PACKET_MAXIMUMS.getD k 0 - PACKET_OVERHEAD ≠ 0 := by
      intro k
      by_cases hk : k < 11
      · revert k
        decide
      · rw [List.getD_eq_getElem?_getD, List.getElem?_eq_none (Nat.le_of_not_lt hk)]
        exact fun h => absurd rfl h
    rw [reduceMss] at h ⊢
    split at h
    · cases h
    · rename_i hlevel
      rw [if_neg hlevel]
      dsimp only at h ⊢
      split at h
      · rename_i hlt
        rw [if_pos hlt]
        exact hmss _ hlevel
      · rename_i hge
        rw [if_neg hge]
        exact reduceMss_mss fuel _ h

theorem transmitLoop_ne : ∀ (fuel : Nat) {n m : U32} (s : PseudoTcp), n ≠ 0 →
    (s.transmitLoop env seg fuel n).1 = some m → m ≠ 0
  | 0, _, _, _, _, h => by cases h
  | fuel + 1, n, m, s, hn, h => by
    rw [transmitLoop] at h
    generalize s.packet env seg.seq (if seg.bCtrl then FLAG_CTL else 0) (seg.seq - s.sndUna) n =
      sent at h
    obtain ⟨wres, s₁⟩ := sent
    cases wres with
    | WR_SUCCESS =>
      obtain rfl := Option.some.inj h
      exact hn
    | WR_FAIL => cases h
    | WR_TOO_LARGE =>
      have hmss := reduceMss_mss (n := n) PACKET_MAXIMUMS.length s₁
      dsimp only at h
      generalize s₁.reduceMss n PACKET_MAXIMUMS.length = reduced at h hmss
      obtain ⟨_ | _, s₂⟩ := reduced
      · cases h
      · exact transmitLoop_ne fuel s₂ (hmss rfl) h

/-- `transmit`, as what it does to the queue. -/
theorem transmit_cases {l l' : List SSegment} (hslist : s.slist = l ++ seg :: l') (now : U32) :
    (s.transmit env l.length now).2.sendState = s.sendState ∧
        (s.transmit env l.length now).1 = false ∨
    (∃ m, (uMin seg.len s.mss ≠ 0 → m ≠ 0) ∧ seg.xmit.toNat < 30 ∧
      (s.transmit env l.length now).1 = true ∧
      (s.transmit env l.length now).2.sendState =
        { s.sendState with
          slist := l ++ { cutHead seg m with xmit := seg.xmit + 1 } :: (cutTail seg m ++ l')
          sndNxt := if seg.xmit = 0 then s.sndNxt + (cutHead seg m).len else s.sndNxt
          rtoBase := if s.rtoBase = 0 then now else s.rtoBase }) := by
  have hlimit : (if s.state = .TCP_ESTABLISHED then 15 else 30) ≤ 30 := by split <;> omega
  unfold transmit
  rw [hslist, getElem?_middle]
  dsimp only
  generalize (if s.state = .TCP_ESTABLISHED then 15 else 30) = limit at hlimit
  split
  · exact .inl ⟨rfl, rfl⟩
  · have hloop := s.transmitLoop_sendState env seg PACKET_MAXIMUMS.length (uMin seg.len s.mss)
    have hne {m} := @transmitLoop_ne env seg PACKET_MAXIMUMS.length (uMin seg.len s.mss) m s
    generalize s.transmitLoop env seg PACKET_MAXIMUMS.length (uMin seg.len s.mss) = sent
      at hloop hne
    obtain ⟨_ | m, s₁⟩ := sent
    · exact .inl ⟨hloop, rfl⟩
    · have hslist₁ : s₁.slist = l ++ seg :: l' := (congrArg SendState.slist hloop).trans hslist
      have hsplit := splitSegment_sendState hslist₁ m
      rw [cut_eq, List.append_assoc, List.cons_append, hloop] at hsplit
      have hmark := markTransmitted_sendState (congrArg SendState.slist hsplit) now
      have hsndNxt : (s₁.splitSegment l.length m).sndNxt = s.sndNxt :=
        congrArg SendState.sndNxt hsplit
      have hrtoBase : (s₁.splitSegment l.length m).rtoBase = s.rtoBase :=
        congrArg SendState.rtoBase hsplit
      rw [hsplit, cutHead_xmit, hsndNxt, hrtoBase] at hmark
      exact .inr ⟨m, fun hmin => hne hmin rfl, by omega, rfl, hmark⟩

/-- The first segment that has not been transmitted is transmitted. -/
theorem transmit_first (h : Queued s.sendState T (seg :: U)) (hlen : seg.len ≠ 0) (hmss : s.mss ≠ 0)
    (hnow : now ≠ 0) : ∃ T' U', Queued (s.transmit env T.length now).2.sendState T' U' := by
  have hmin : uMin seg.len s.mss ≠ 0 := by
    unfold uMin
    split
    · exact hmss
    · exact hlen
  rcases transmit_cases h.slist now with ⟨hsame, -⟩ | ⟨m, hm, -, -, hsent⟩
  · exact ⟨T, seg :: U, by rw [hsame]; exact h⟩
  · have hcut := h.cut_unsent hlen (hm hmin)
    have hmark := hcut.mark_first (cutHead_len_ne hlen (hm hmin)) hnow
    rw [cutHead_xmit] at hmark
    rw [hsent]
    exact ⟨_, _, hmark⟩

/-- The first segment of the list is transmitted again. -/
theorem transmit_again (h : Queued s.sendState T U) (hT : T ≠ []) (now : U32) :
    ∃ T', T' ≠ [] ∧ Queued (s.transmit env 0 now).2.sendState T' U := by
  obtain ⟨seg, T, rfl⟩ := List.exists_cons_of_ne_nil hT
  rcases transmit_cases (l := []) h.slist now with
    ⟨hsame, -⟩ | ⟨m, -, hxmit, -, hsent⟩
  · exact ⟨seg :: T, List.cons_ne_nil _ _, by rw [List.length_nil] at hsame; rw [hsame]; exact h⟩
  · rw [List.length_nil] at hsent
    rw [hsent]
    exact ⟨_, List.cons_ne_nil _ _, h.mark_again hxmit now⟩

end Transmit

/-! ## Sending -/

section Send

variable {env : Env} {s : PseudoTcp} {T U : List SSegment} {seg : SSegment} {now : U32}

theorem uMin_le (a b : U32) : uMin a b ≤ a ∧ uMin a b ≤ b := by
  unfold uMin
  split <;> constructor <;> bv_omega

theorem useable_le (nUseable nAvailable : U32) (c : Prop) [Decidable c] :
    (if nUseable < nAvailable then if c then 0 else nUseable else nAvailable) ≤ nAvailable := by
  split
  · split <;> bv_omega
  · exact BitVec.le_refl _

/-- No more than a segment, and than what is in the buffer, is sent at once. -/
theorem available_le (s : PseudoTcp) : s.available ≤ s.mss ∧
    s.available ≤ BitVec.ofNat 32 s.sbuf.getBuffered - (s.sndNxt - s.sndUna) := by
  have hmin := uMin_le (BitVec.ofNat 32 s.sbuf.getBuffered - (s.sndNxt - s.sndUna)) s.mss
  have hle : s.available ≤
      uMin (BitVec.ofNat 32 s.sbuf.getBuffered - (s.sndNxt - s.sndUna)) s.mss :=
    useable_le _ _ _
  exact ⟨BitVec.le_trans hle hmin.2, BitVec.le_trans hle hmin.1⟩

/-- Where there are bytes to send, there is a segment to transmit. -/
theorem exists_unsent (h : Queued s.sendState T U) (havailable : s.available ≠ 0) :
    ∃ seg U', U = seg :: U' ∧ seg.len ≠ 0 := by
  have hle := (available_le s).2
  have hbytes : (s.sndNxt - s.sndUna).toNat = bytes T := h.bytes_sent
  have hbuffered : bytes (T ++ U) = s.sbuf.getBuffered := h.buffered
  have hcapacity : s.sbuf.getBuffered ≤ s.sbuf.bufferLength ∧ s.sbuf.bufferLength < 2 ^ 32 :=
    h.capacity
  rw [bytes_append] at hbuffered
  have hne : bytes U ≠ 0 := by
    intro hzero
    apply havailable
    bv_omega
  cases U with
  | nil => exact absurd bytes_nil hne
  | cons seg U' =>
    refine ⟨seg, U', rfl, ?_⟩
    cases U' with
    | nil =>
      rintro hzero
      apply hne
      rw [bytes_cons, hzero]
      rfl
    | cons y U' => exact h.positive seg List.mem_cons_self

theorem findIdx?_unsent (h : Queued s.sendState T (seg :: U)) :
    s.slist.findIdx? (·.xmit = 0) = some T.length := by
  have hslist : s.slist = T ++ seg :: U := h.slist
  have hnone : T.findIdx? (·.xmit = 0) = none :=
    List.findIdx?_eq_none_iff.mpr fun x hx => decide_eq_false (h.sent x hx)
  have hxmit := h.unsent seg List.mem_cons_self
  rw [hslist, List.findIdx?_append, hnone, List.findIdx?_cons, if_pos (decide_eq_true hxmit)]
  simp

theorem attemptSendLoop_queued (hnow : now ≠ 0) : ∀ (fuel : Nat) (sflags : SendFlags)
    {s : PseudoTcp} {T U : List SSegment}, Queued s.sendState T U →
      ∃ T' U', Queued (s.attemptSendLoop env now fuel sflags).sendState T' U'
  | 0, _, _, T, U, h => ⟨T, U, h⟩
  | fuel + 1, sflags, s, T, U, h => by
    rw [attemptSendLoop]
    dsimp only
    split
    · refine ⟨T, U, ?_⟩
      split
      · exact h
      · split
        · rw [packet_sendState]
          exact h
        · exact h
    · rename_i havailable
      split
      · exact ⟨T, U, h⟩
      · obtain ⟨seg, U, rfl, hlen⟩ := exists_unsent h havailable
        have hmss : s.mss ≠ 0 := by
          have := (available_le s).1
          bv_omega
        rw [findIdx?_unsent h]
        have hsplit := splitSegment_sendState h.slist s.available
        have hcut := h.cut_unsent hlen havailable
        rw [← hsplit] at hcut
        have hmss' : (s.splitSegment T.length s.available).mss = s.mss := by
          unfold splitSegment
          split
          · rfl
          · split <;> rfl
        obtain ⟨T', U', hsent⟩ := transmit_first hcut (cutHead_len_ne hlen havailable)
          (hmss' ▸ hmss) hnow
        dsimp only
        generalize transmit env T.length now (s.splitSegment T.length s.available) = sent at hsent
        obtain ⟨_ | _, s₁⟩ := sent
        · exact ⟨T', U', hsent⟩
        · exact attemptSendLoop_queued hnow fuel .sfNone hsent

/-- Sending keeps the queue. -/
theorem attemptSend_queued (henv : ∀ n, env.now n ≠ 0) (sflags : SendFlags)
    (h : Queued s.sendState T U) : ∃ T' U', Queued (s.attemptSend env sflags).sendState T' U' := by
  unfold attemptSend
  dsimp only [PseudoTcp.now]
  split
  · exact attemptSendLoop_queued (henv _) _ sflags h
  · exact attemptSendLoop_queued (henv _) _ sflags h

end Send

/-! ## The user's data -/

section User

variable {env : Env} {s : PseudoTcp} {T U : List SSegment}

theorem queue_queued (h : Queued s.sendState T U) (data : List Byte) {len : U32} {bCtrl : Bool}
    (hlen : bCtrl = true → len ≠ 0 ∧ s.slist = [])
    (hroom : bCtrl = false → s.sbuf.bufferLength ≠ 0) (hstate : s.state ≠ .TCP_LISTEN) :
    ∃ U', Queued (s.queue data len bCtrl).2.sendState T U' := by
  have hcapacity : s.sbuf.dataLength ≤ s.sbuf.bufferLength ∧ s.sbuf.bufferLength < 2 ^ 32 := h.capacity
  have hspace : (BitVec.ofNat 32 s.sbuf.getWriteRemaining).toNat =
      s.sbuf.bufferLength - s.sbuf.dataLength := by
    rw [BitVec.toNat_ofNat]
    exact Nat.mod_eq_of_lt (by show s.sbuf.bufferLength - s.sbuf.dataLength < _; omega)
  unfold queue
  dsimp only
  have hcontrol : bCtrl = true → (if BitVec.ofNat 32 s.sbuf.getWriteRemaining < len then
      BitVec.ofNat 32 s.sbuf.getWriteRemaining else len) = 0 → s.sbuf.bufferLength = 0 := by
    intro hctrl hzero
    obtain ⟨hne, hnil⟩ := hlen hctrl
    have hbuffered : bytes (T ++ U) = s.sbuf.dataLength := h.buffered
    have hslist : s.slist = T ++ U := h.slist
    rw [← hslist, hnil, bytes_nil] at hbuffered
    split at hzero
    · rw [hzero, show (0 : U32).toNat = 0 from rfl] at hspace
      omega
    · exact absurd hzero hne
  have hle : (if BitVec.ofNat 32 s.sbuf.getWriteRemaining < len then
      BitVec.ofNat 32 s.sbuf.getWriteRemaining else len).toNat ≤
        s.sbuf.bufferLength - s.sbuf.dataLength := by
    split <;> bv_omega
  generalize (if BitVec.ofNat 32 s.sbuf.getWriteRemaining < len then
    BitVec.ofNat 32 s.sbuf.getWriteRemaining else len) = len' at hcontrol hle
  obtain ⟨hdata, hlength⟩ := FifoBuffer.write_lengths (Mem.ofList data) hle
  generalize s.sbuf.write (Mem.ofList data) len'.toNat = written at hdata hlength
  have hfits : written.2.dataLength ≤ written.2.bufferLength := by omega
  have hslist : s.slist = T ++ U := h.slist
  -- A segment that is not extended is none of the user's, so that it is not empty.
  have hpush : (∀ seg ∈ U, seg.len ≠ 0) → ∃ U', Queued { s.sendState with
      slist := s.slist ++ [{ seq := s.sndUna + BitVec.ofNat 32 s.sbuf.getBuffered, len := len',
                             bCtrl := bCtrl }]
      sbuf := written.2 } T U' := fun hpositive =>
    ⟨_, h.push hdata hlength hfits hpositive (fun hctrl hzero => hlength.trans (hcontrol hctrl hzero))
      hstate⟩
  rcases List.eq_nil_or_concat s.slist with hnil | ⟨l, seg, hconcat⟩
  · obtain ⟨rfl, rfl⟩ := List.append_eq_nil_iff.mp (hslist ▸ hnil)
    obtain ⟨U', hU'⟩ := hpush nofun
    rw [hnil] at hU' ⊢
    exact ⟨U', hU'⟩
  · rw [List.concat_eq_append] at hconcat
    rw [hconcat, List.getLast?_concat]
    dsimp only
    rw [← hconcat]
    split
    · rename_i hmerge
      rcases List.eq_nil_or_concat U with rfl | ⟨U₀, x, rfl⟩
      · rw [List.append_nil] at hslist
        have hxmit := h.sent seg (by rw [← hslist, hconcat]; simp)
        exact absurd hmerge.2 hxmit
      · rw [List.concat_eq_append] at h hslist
        rw [hconcat, ← List.append_assoc] at hslist
        obtain ⟨-, heq⟩ := List.append_inj' hslist rfl
        obtain rfl := List.singleton_inj.mp heq
        exact ⟨_, h.extend hdata hlength hfits⟩
    · rename_i hmerge
      refine hpush fun x hx => ?_
      rcases List.eq_nil_or_concat U with rfl | ⟨U₀, y, rfl⟩
      · cases hx
      · rw [List.concat_eq_append] at h hslist hx
        rw [hconcat, ← List.append_assoc] at hslist
        obtain ⟨-, heq⟩ := List.append_inj' hslist rfl
        obtain rfl := List.singleton_inj.mp heq
        rcases List.mem_append.mp hx with hx | hx
        · refine h.positive x ?_
          rw [List.dropLast_concat]
          exact hx
        · obtain rfl := List.mem_singleton.mp hx
          intro hzero
          have hxmit := h.unsent x (List.mem_append_right _ List.mem_cons_self)
          cases bCtrl with
          | true =>
            have hnil := (hlen rfl).2
            rw [hconcat] at hnil
            exact absurd hnil (by simp)
          | false =>
            have hctrl : x.bCtrl = true := by
              by_contra hne
              exact hmerge ⟨Bool.eq_false_iff.mpr hne, hxmit⟩
            exact hroom rfl (h.control x (List.mem_append_right _ List.mem_cons_self) hctrl hzero)

end User

/-! ## The calls -/

section Calls

variable {env : Env} {s : PseudoTcp} {T U : List SSegment} {now : U32}

theorem queueConnectMessage_queued (h : Queued s.sendState T U) (hnil : s.slist = [])
    (hstate : s.state ≠ .TCP_LISTEN) : ∃ U', Queued s.queueConnectMessage.sendState T U' := by
  unfold queueConnectMessage
  dsimp only
  refine queue_queued (s := { s with sndWnd := _ }) h _ (fun _ => ⟨?_, hnil⟩) nofun hstate
  split
  · show BitVec.ofNat 32 4 ≠ 0
    decide
  · show BitVec.ofNat 32 1 ≠ 0
    decide

theorem connect_queued (henv : ∀ n, env.now n ≠ 0) (h : Queued s.sendState T U) :
    ∃ T' U', Queued (s.connect env).2.sendState T' U' := by
  unfold connect
  split
  · exact ⟨T, U, h⟩
  · rename_i hlisten
    have hnil : s.slist = [] := h.slist.trans (h.listen (not_not.mp hlisten))
    obtain ⟨U', hqueued⟩ := queueConnectMessage_queued
      (s := { s with state := .TCP_SYN_SENT }) (h.closed TcpState.noConfusion) hnil
      TcpState.noConfusion
    exact attemptSend_queued henv _ hqueued

theorem send_queued (henv : ∀ n, env.now n ≠ 0) (h : Queued s.sendState T U) (data : List Byte) :
    ∃ T' U', Queued (s.send env data).2.sendState T' U' := by
  unfold send
  split
  · exact ⟨T, U, h⟩
  · rename_i hestablished
    split
    · exact ⟨T, U, h⟩
    · rename_i hremaining
      have hroom : s.sbuf.bufferLength ≠ 0 := by
        intro hzero
        apply hremaining
        unfold FifoBuffer.getWriteRemaining
        omega
      have hstate : s.state ≠ .TCP_LISTEN := by
        rw [not_not.mp hestablished]
        decide
      have hqueue : ∃ U', Queued (s.queue data (BitVec.ofNat 32 data.length) false).2.sendState T U' :=
        queue_queued h data (fun hctrl => Bool.noConfusion hctrl) (fun _ => hroom) hstate
      obtain ⟨U', hqueued⟩ := hqueue
      exact attemptSend_queued henv _ hqueued

theorem recv_queued (henv : ∀ n, env.now n ≠ 0) (h : Queued s.sendState T U) (len : Nat) :
    ∃ T' U', Queued (s.recv env len).2.sendState T' U' := by
  unfold recv
  split
  · exact ⟨T, U, h⟩
  · cases s.rbuf.read len with
    | none => exact ⟨T, U, h⟩
    | some data =>
      dsimp only
      split
      · dsimp only
        split
        · exact attemptSend_queued henv _ h
        · exact ⟨T, U, h⟩
      · exact ⟨T, U, h⟩

theorem notifyMTU_sendState (mtu : BitVec 16) (s : PseudoTcp) :
    (s.notifyMTU mtu).sendState = s.sendState := by
  unfold notifyMTU
  dsimp only
  split <;> rfl

theorem setOption_queued (h : Queued s.sendState T U) {opt : TcpOption} (value : U32)
    (hlisten : opt = .OPT_SNDBUF → s.state = .TCP_LISTEN) :
    ∃ T' U', Queued (s.setOption opt value).sendState T' U' := by
  cases opt with
  | OPT_NODELAY => exact ⟨T, U, h⟩
  | OPT_ACKDELAY => exact ⟨T, U, h⟩
  | OPT_RCVBUF => exact ⟨T, U, h⟩
  | OPT_SNDBUF =>
    obtain ⟨rfl, rfl⟩ := List.append_eq_nil_iff.mp (h.listen (hlisten rfl))
    have hdata : s.sbuf.dataLength = 0 := h.buffered.symm
    obtain ⟨hdata', hlength⟩ := FifoBuffer.setCapacity_lengths
      (show s.sbuf.dataLength ≤ value.toNat by omega)
    refine ⟨[], [], ?_⟩
    exact
      { h with
        buffered := (hdata'.trans hdata).symm
        capacity := ⟨by show (s.sbuf.setCapacity value.toNat).2.dataLength ≤ _; omega,
          by show (s.sbuf.setCapacity value.toNat).2.bufferLength < _; rw [hlength]; exact value.isLt⟩
        control := nofun }

/-! ### The clock -/

theorem retransmit_queued (h : Queued s.sendState T U) (hnow : now ≠ 0) :
    ∃ T' U', Queued (s.retransmit env now).2.sendState T' U' := by
  unfold retransmit
  split
  · rename_i htimer
    obtain ⟨T', hT', hsent⟩ := transmit_again h (h.rtoBase.mp htimer.1) now
    generalize s.transmit env 0 now = sent at hsent
    obtain ⟨_ | _, s₁⟩ := sent
    · exact ⟨T', U, hsent.closed TcpState.noConfusion⟩
    · exact ⟨T', U, hsent.timer hT' hnow⟩
  · exact ⟨T, U, h⟩

theorem probeWindow_queued (h : Queued s.sendState T U) (now : U32) :
    ∃ T' U', Queued (s.probeWindow env now).2.sendState T' U' := by
  unfold probeWindow
  split
  · split
    · exact ⟨T, U, h.closed TcpState.noConfusion⟩
    · refine ⟨T, U, ?_⟩
      have hpacket := s.packet_sendState env (s.sndNxt - 1) 0 0 0
      rw [← hpacket] at h
      exact h
  · exact ⟨T, U, h⟩

theorem notifyClock_queued (h : Queued s.sendState T U) (hnow : now ≠ 0) :
    ∃ T' U', Queued (s.notifyClock env now).sendState T' U' := by
  unfold notifyClock
  split
  · exact ⟨T, U, h⟩
  · obtain ⟨T₁, U₁, h₁⟩ := retransmit_queued h hnow
    generalize s.retransmit env now = retransmitted at h₁
    obtain ⟨_ | _, s₁⟩ := retransmitted
    · exact ⟨T₁, U₁, h₁⟩
    · obtain ⟨T₂, U₂, h₂⟩ := probeWindow_queued h₁ now
      dsimp only at h₂ ⊢
      generalize s₁.probeWindow env now = probed at h₂
      obtain ⟨_ | _, s₂⟩ := probed
      · exact ⟨T₂, U₂, h₂⟩
      · refine ⟨T₂, U₂, ?_⟩
        dsimp only
        split
        · rw [packet_sendState]
          exact h₂
        · exact h₂

/-! ### Incoming datagrams -/

/-- The segment gets as far as its ack. -/
def Accepted (seg : Segment) (s : PseudoTcp) : Prop :=
  seg.conv = s.conv ∧ s.state ≠ .TCP_CLOSED ∧ seg.flags &&& FLAG_RST = 0 ∧
    (seg.flags &&& FLAG_CTL = 0 ∨ seg.len ≠ 0 ∧ seg.data 0 = CTL_CONNECT)

/-- An ack for data that has been sent ends at the boundary of a segment. -/
def AtBoundary (ack : U32) (s : PseudoTcp) : Prop :=
  s.sndUna < ack → ack ≤ s.sndNxt →
    ∃ k ≤ s.slist.length, bytes (s.slist.take k) = (ack - s.sndUna).toNat

theorem processDupAck_queued (h : Queued s.sendState T U) (seg : Segment) (now : U32) :
    ∃ T' U', Queued (s.processDupAck env seg now).2.sendState T' U' := by
  unfold processDupAck
  dsimp only
  split
  · exact ⟨T, U, h⟩
  · split
    · rename_i hne
      split
      · obtain ⟨T', -, hsent⟩ := transmit_again
          (s := { s with
            sndWnd := seg.wnd.setWidth 32 <<< s.swndScale.toNat
            dupAcks := s.dupAcks + 1 }) h (h.ne_nil hne) now
        generalize transmit env 0 now _ = sent at hsent
        obtain ⟨_ | _, s₁⟩ := sent
        · exact ⟨T', U, hsent.closed TcpState.noConfusion⟩
        · exact ⟨T', U, hsent.recovery⟩
      · split
        · exact ⟨T, U, h⟩
        · exact ⟨T, U, h⟩
    · exact ⟨T, U, h⟩

/-- The queue after an ack, with all that is known of it. -/
theorem acknowledge_queued (h : Queued s.sendState T U) {seg : Segment} (hnow : now ≠ 0)
    (hlt : s.sndUna < seg.ack) (hle : seg.ack ≤ s.sndNxt) (hack : AtBoundary seg.ack s) :
    ∃ T', Queued (s.acknowledge seg now).sendState T' U := by
  obtain ⟨k, -, hk⟩ := hack hlt hle
  exact h.acknowledge hlt hle hk hnow

theorem processNewAck_queued (h : Queued s.sendState T U) {seg : Segment} (hnow : now ≠ 0)
    (hlt : s.sndUna < seg.ack) (hle : seg.ack ≤ s.sndNxt) (hack : AtBoundary seg.ack s) :
    ∃ T' U', Queued (s.processNewAck env seg now).2.sendState T' U' := by
  have hrtt := s.updateRtt_sendState seg now
  unfold processNewAck
  dsimp only
  generalize seg.ack - s.sndUna = nAcked
  generalize s.updateRtt seg now = s₁ at hrtt
  have hslist : s₁.slist = s.slist := congrArg SendState.slist hrtt
  have hsndUna : s₁.sndUna = s.sndUna := congrArg SendState.sndUna hrtt
  have hsndNxt : s₁.sndNxt = s.sndNxt := congrArg SendState.sndNxt hrtt
  unfold AtBoundary at hack
  rw [← hrtt] at h
  rw [← hslist, ← hsndUna, ← hsndNxt] at hack
  rw [← hsndUna] at hlt
  rw [← hsndNxt] at hle
  obtain ⟨T', hacked⟩ := acknowledge_queued h hnow hlt hle hack
  generalize s₁.acknowledge seg now = s₂ at hacked
  split
  · split
    · exact ⟨T', U, hacked⟩
    · rename_i hrecover
      have hne : s₂.sndUna ≠ s₂.sndNxt := by
        intro heq
        have := hacked.recover (by show s₂.sndUna ≤ s₂.sndNxt; rw [heq]; exact BitVec.le_refl _)
        exact hrecover (heq ▸ this)
      obtain ⟨T'', -, hsent⟩ := transmit_again hacked (hacked.ne_nil hne) now
      generalize transmit env 0 now _ = sent at hsent
      obtain ⟨_ | _, s₃⟩ := sent
      · exact ⟨T'', U, hsent.closed TcpState.noConfusion⟩
      · exact ⟨T'', U, hsent⟩
  · exact ⟨T', U, hacked⟩

theorem processAck_queued (h : Queued s.sendState T U) {seg : Segment} (hnow : now ≠ 0)
    (hack : AtBoundary seg.ack s) :
    ∃ T' U', Queued (s.processAck env seg now).2.sendState T' U' := by
  unfold processAck
  split
  · rename_i hnew
    exact processNewAck_queued h hnow hnew.1 hnew.2 hack
  · split
    · exact processDupAck_queued h seg now
    · exact ⟨T, U, h⟩

theorem atBoundary_congr {ack : U32} {s' : PseudoTcp} (hslist : s'.slist = s.slist)
    (hsndUna : s'.sndUna = s.sndUna) (hsndNxt : s'.sndNxt = s.sndNxt) (h : AtBoundary ack s) :
    AtBoundary ack s' := by
  unfold AtBoundary at h ⊢
  rw [hslist, hsndUna, hsndNxt]
  exact h

/-- The connect message is queued only while nothing has been sent. -/
theorem processControl_queued (h : Queued s.sendState T U) {seg : Segment}
    (hack : (seg.flags &&& FLAG_CTL = 0 ∨ seg.len ≠ 0 ∧ seg.data 0 = CTL_CONNECT) →
      AtBoundary seg.ack s) {bConnect : Bool} (hcontrol : (s.processControl seg).1 = some bConnect) :
    ∃ U', Queued (s.processControl seg).2.sendState T U' ∧
      AtBoundary seg.ack (s.processControl seg).2 := by
  unfold processControl at hcontrol ⊢
  split
  · rename_i hflag
    exact ⟨U, h, hack (.inl hflag)⟩
  · rename_i hflag
    rw [if_neg hflag] at hcontrol
    split at hcontrol
    · cases hcontrol
    · rename_i hlen
      rw [if_neg hlen]
      split at hcontrol
      · rename_i hconnect
        rw [if_pos hconnect]
        have hack := hack (.inr ⟨hlen, hconnect⟩)
        have hparse := s.parseOptions_sendState (fun i => seg.data (1 + i)) (seg.len - 1)
        have hack₁ : AtBoundary seg.ack (s.parseOptions (fun i => seg.data (1 + i)) (seg.len - 1)) :=
          atBoundary_congr (congrArg SendState.slist hparse) (congrArg SendState.sndUna hparse)
            (congrArg SendState.sndNxt hparse) hack
        rw [← hparse] at h
        dsimp only
        generalize s.parseOptions (fun i => seg.data (1 + i)) (seg.len - 1) = s₁ at h hack₁
        split
        · rename_i hlisten
          have hnil := h.listen hlisten
          obtain ⟨U', hqueued⟩ := queueConnectMessage_queued
            (s := { s₁ with state := .TCP_SYN_RECEIVED }) (h.closed TcpState.noConfusion)
            (h.slist.trans hnil) TcpState.noConfusion
          generalize queueConnectMessage _ = s₂ at hqueued ⊢
          refine ⟨U', hqueued, fun hlt hle => ?_⟩
          have hsent : (s₂.sndNxt - s₂.sndUna).toNat = bytes T := hqueued.bytes_sent
          rw [(List.append_eq_nil_iff.mp hnil).1, bytes_nil] at hsent
          dsimp only at hlt hle
          bv_omega
        · split
          · exact ⟨U, h.closed TcpState.noConfusion, hack₁⟩
          · exact ⟨U, h, hack₁⟩
      · cases hcontrol

theorem processControl_none {seg : Segment} (h : (s.processControl seg).1 = none) :
    (s.processControl seg).2 = s := by
  unfold processControl at h ⊢
  split
  · rfl
  · rename_i hflag
    rw [if_neg hflag] at h
    split
    · rfl
    · rename_i hlen
      rw [if_neg hlen] at h
      split
      · rename_i hconnect
        rw [if_pos hconnect] at h
        dsimp only at h
        split at h
        · cases h
        · split at h <;> cases h
      · rfl

theorem processOpen_queued (h : Queued s.sendState T U) (bConnect : Bool) :
    Queued (s.processOpen bConnect).sendState T U := by
  unfold processOpen
  dsimp only
  have hopened : Queued (if s.state = .TCP_SYN_RECEIVED ∧ (!bConnect) = true then
      { s with state := .TCP_ESTABLISHED }.adjustMTU.notify .OnTcpOpen else s).sendState T U := by
    split
    · exact h.closed TcpState.noConfusion
    · exact h
  generalize (if s.state = .TCP_SYN_RECEIVED ∧ (!bConnect) = true then
    { s with state := .TCP_ESTABLISHED }.adjustMTU.notify .OnTcpOpen else s) = s₁ at hopened
  split
  · exact hopened
  · exact hopened

theorem processRest_queued (henv : ∀ n, env.now n ≠ 0) (h : Queued s.sendState T U) (seg : Segment)
    (bConnect : Bool) : ∃ T' U', Queued (s.processRest env seg bConnect).sendState T' U' := by
  have hopened := processOpen_queued h bConnect
  unfold processRest
  dsimp only
  generalize s.processOpen bConnect = s₁ at hopened
  have hstored := s₁.processData_sendState (s₁.trim seg) (s₁.ackFlags seg)
  generalize s₁.processData (s₁.trim seg) (s₁.ackFlags seg) = stored at hstored
  rw [← hstored] at hopened
  obtain ⟨T', U', hsent⟩ := attemptSend_queued henv stored.1 hopened
  generalize stored.2.2.attemptSend env stored.1 = s₂ at hsent
  refine ⟨T', U', ?_⟩
  split
  · exact hsent
  · exact hsent

theorem process_queued (henv : ∀ n, env.now n ≠ 0) (h : Queued s.sendState T U) (seg : Segment)
    (hack : Accepted seg s → AtBoundary seg.ack s) :
    ∃ T' U', Queued (s.process env seg).2.sendState T' U' := by
  unfold process
  split
  · exact ⟨T, U, h⟩
  · rename_i hconv
    dsimp only [PseudoTcp.now]
    split
    · exact ⟨T, U, h⟩
    · rename_i hopen
      split
      · exact ⟨T, U, h.closed TcpState.noConfusion⟩
      · rename_i hreset
        have hstart : Queued { s with
            nowCalls := s.nowCalls + 1
            lasttraffic := env.now s.nowCalls
            lastrecv := env.now s.nowCalls
            bOutgoing := false }.sendState T U := h
        have hack₀ := fun hctl => hack ⟨not_not.mp hconv, hopen, not_not.mp hreset, hctl⟩
        have hcontrol {b} := @processControl_queued _ T U hstart seg hack₀ b
        have hrefused := fun hnone => congrArg sendState (@processControl_none { s with
            nowCalls := s.nowCalls + 1
            lasttraffic := env.now s.nowCalls
            lastrecv := env.now s.nowCalls
            bOutgoing := false } seg hnone)
        generalize processControl seg _ = controlled at hcontrol hrefused
        obtain ⟨_ | bConnect, s₁⟩ := controlled
        · refine ⟨T, U, ?_⟩
          rw [show s₁.sendState = _ from hrefused rfl]
          exact h
        · obtain ⟨U₁, h₁, hack₁⟩ := hcontrol rfl
          have hstamp := s₁.updateTimestamp_sendState seg
          rw [← hstamp] at h₁
          obtain ⟨T₂, U₂, h₂⟩ := processAck_queued h₁ (henv s.nowCalls)
            (atBoundary_congr (congrArg SendState.slist hstamp) (congrArg SendState.sndUna hstamp)
              (congrArg SendState.sndNxt hstamp) hack₁)
          dsimp only
          generalize processAck env seg (env.now s.nowCalls) (s₁.updateTimestamp seg) = acked at h₂
          obtain ⟨_ | _, s₂⟩ := acked
          · exact ⟨T₂, U₂, h₂⟩
          · exact processRest_queued henv h₂ seg bConnect

end Calls

end PseudoTcp

/-! ## Runs -/

section Runs

open PseudoTcp

variable {env : Env} {s : PseudoTcp} {T U : List SSegment}

/-- What is asked of a call: the clock does not read 0, which stands for a timer
that does not run; the buffer is resized only before the connection is
established, as the source asserts; and a datagram's ack ends at the boundary
of a segment. -/
def Meets (s : PseudoTcp) : Call → Prop
  | .setOption .OPT_SNDBUF _ => s.state = .TCP_LISTEN
  | .notifyClock now => now ≠ 0
  | .notifyPacket buffer len =>
    len ≤ MAX_PACKET.toNat → 12 ≤ len → Accepted (segmentOf buffer (BitVec.ofNat 32 len)) s →
      AtBoundary (segmentOf buffer (BitVec.ofNat 32 len)).ack s
  | _ => True

/-- The states of an endpoint after calls that meet the condition. -/
inductive Reachable (env : Env) : PseudoTcp → Prop where
  | create (conv : U32) (memory : Mem) : Reachable env (create env conv memory)
  | call {s : PseudoTcp} (c : Call) : Reachable env s → Meets s c → Reachable env (s.call env c)

theorem notifyPacket_queued (henv : ∀ n, env.now n ≠ 0) (h : Queued s.sendState T U) {buffer : Mem}
    {len : Nat} (hmeets : Meets s (.notifyPacket buffer len)) :
    ∃ T' U', Queued (s.notifyPacket env buffer len).2.sendState T' U' := by
  unfold notifyPacket
  split
  · exact ⟨T, U, h⟩
  · rename_i hmax
    unfold parse
    split
    · exact ⟨T, U, h⟩
    · rename_i hmin
      refine process_queued henv h _ (hmeets (Nat.le_of_not_lt hmax) ?_)
      have hlen : len < 2 ^ 32 := by
        have : len ≤ 65535 := Nat.le_of_not_lt hmax
        omega
      bv_omega

theorem call_queued (henv : ∀ n, env.now n ≠ 0) (h : Queued s.sendState T U) {c : Call}
    (hmeets : Meets s c) : ∃ T' U', Queued (s.call env c).sendState T' U' := by
  cases c with
  | connect => exact connect_queued henv h
  | send data => exact send_queued henv h data
  | recv len => exact recv_queued henv h len
  | close force => exact ⟨T, U, h⟩
  | notifyMTU mtu => exact ⟨T, U, by rw [call, notifyMTU_sendState]; exact h⟩
  | setOption opt value =>
    refine setOption_queued h value fun hopt => ?_
    subst hopt
    exact hmeets
  | notifyPacket buffer len => exact notifyPacket_queued henv h hmeets
  | notifyClock now => exact notifyClock_queued h hmeets

theorem create_queued (env : Env) (conv : U32) (memory : Mem) :
    Queued (create env conv memory).sendState [] [] where
  slist := rfl
  sent := nofun
  unsent := nofun
  contiguous := trivial
  buffered := rfl
  capacity := ⟨Nat.zero_le _, by show DEFAULT_SND_BUF_SIZE.toNat < 2 ^ 32; exact BitVec.isLt _⟩
  sndNxt := rfl
  rtoBase := iff_of_false (fun h => h rfl) (fun h => h rfl)
  last := nofun
  positive := nofun
  control := nofun
  recover := fun _ => BitVec.le_refl _
  listen := fun _ => rfl

theorem reachable_queued (henv : ∀ n, env.now n ≠ 0) (h : Reachable env s) :
    ∃ T U, Queued s.sendState T U := by
  induction h with
  | create conv memory => exact ⟨[], [], create_queued env conv memory⟩
  | call c _ hmeets ih =>
    obtain ⟨T, U, hqueued⟩ := ih
    exact call_queued henv hqueued hmeets

/-- The send queue of an endpoint, whatever the order of the calls, the
datagrams and the failures of the network. -/
theorem reachable_sendQueue (henv : ∀ n, env.now n ≠ 0) (h : Reachable env s) : SendQueue s := by
  obtain ⟨T, U, hqueued⟩ := reachable_queued henv h
  have hslist : s.slist = T ++ U := hqueued.slist
  have hall : ∀ x ∈ T, decide (x.xmit ≠ 0) = true := fun x hx => decide_eq_true (hqueued.sent x hx)
  have htake : transmitted s = T := by
    unfold transmitted
    rw [hslist, List.takeWhile_append_of_pos hall]
    cases U with
    | nil => exact List.append_nil T
    | cons u U =>
      have hu := hqueued.unsent u List.mem_cons_self
      rw [List.takeWhile_cons_of_neg (by simp [hu]), List.append_nil]
  have hdrop : s.slist.dropWhile (·.xmit ≠ 0) = U := by
    have happend := List.takeWhile_append_dropWhile (p := fun x : SSegment => decide (x.xmit ≠ 0))
      (l := s.slist)
    rw [show s.slist.takeWhile (fun x => decide (x.xmit ≠ 0)) = T from htake, hslist] at happend
    rw [hslist]
    exact List.append_cancel_left happend
  constructor
  case contiguous =>
    rw [hslist]
    exact hqueued.contiguous
  case tiles =>
    rw [hslist]
    exact hqueued.buffered
  case unsent =>
    rw [hdrop]
    exact hqueued.unsent
  case sndNxt =>
    rw [htake]
    exact hqueued.sndNxt
  case rtoBase =>
    rw [htake]
    exact hqueued.rtoBase

/-- A clock that stands still, and a network that takes everything. -/
def stillEnv : Env where
  now := fun _ => 1000
  tcpWritePacket := fun _ => .WR_SUCCESS

/-- The peer's connect message. -/
def connectReply : List Byte :=
  [0, 0, 0, 1, 0, 0, 0, 0, 0, 0, 0, 4, 0, 2, 0xF0, 0, 0, 0, 3, 232, 0, 0, 3, 232, 0, 3, 1, 0]

/-- An ack of the peer for the bytes below a number. -/
def ackReply (ack : Byte) : List Byte :=
  [0, 0, 0, 1, 0, 0, 0, 4, 0, 0, 0, ack, 0, 0, 0xF0, 0, 0, 0, 3, 232, 0, 0, 3, 232]

/-- An endpoint whose three bytes are acknowledged. -/
theorem reachable_sendQueue_acked : SendQueue
    ((((create stillEnv 1 fun _ => 0).call stillEnv .connect).call stillEnv
      (.notifyPacket (Mem.ofList connectReply) 28)).call stillEnv (.send [97, 98, 99]) |>.call stillEnv
        (.notifyPacket (Mem.ofList (ackReply 7)) 24)) :=
  reachable_sendQueue (fun _ => show (1000 : U32) ≠ 0 by decide)
    (.call _
      (.call _
        (.call _ (.call _ (.create 1 _) trivial)
          fun _ _ _ _ _ => ⟨1, by decide +kernel, by decide +kernel⟩)
        trivial)
      fun _ _ _ _ _ => ⟨1, by decide +kernel, by decide +kernel⟩)

/-- An ack for the first of three bytes. -/
theorem run_not_sendQueue :
    (run stillEnv [.connect, .notifyPacket (Mem.ofList connectReply) 28]
      (create stillEnv 1 fun _ => 0)).state = .TCP_ESTABLISHED ∧
    ¬ SendQueue (run stillEnv
      [.connect, .notifyPacket (Mem.ofList connectReply) 28, .send [97, 98, 99],
        .notifyPacket (Mem.ofList (ackReply 5)) 24]
      (create stillEnv 1 fun _ => 0)) :=
  ⟨by decide +kernel, fun h => absurd h.contiguous (by decide +kernel)⟩

end Runs

end PerchWebrtc.Tcp
