import PerchWebrtc.Tcp.SendQueue

/-!
# The receiving side of an endpoint

What belongs to the data that comes in: the receive buffer, the window and the
ranges that arrived out of order. Sending leaves it as it is.

* `attemptSend_receiveState`, `processAck_receiveState`, `processOpen_receiveState`:
  what a datagram does besides its options and its data;
* `notifyClock_receiveState`, `connect_receiveState`, `send_receiveState`: the
  calls that only send;
* `processControl_receiveState`: the options may resize the buffer, nothing else;
* `process_of_accepted`, `process_of_not_accepted`: a datagram in steps.
-/

namespace PerchWebrtc.Tcp

structure ReceiveState where
  shutdown : Shutdown
  rlist : List RSegment
  rbufLen : U32
  rcvNxt : U32
  rcvWnd : U32
  rwndScale : Byte
  rbuf : FifoBuffer

namespace PseudoTcp

def receiveState (s : PseudoTcp) : ReceiveState where
  shutdown := s.shutdown
  rlist := s.rlist
  rbufLen := s.rbufLen
  rcvNxt := s.rcvNxt
  rcvWnd := s.rcvWnd
  rwndScale := s.rwndScale
  rbuf := s.rbuf

variable (env : Env) (s : PseudoTcp) {seg : Segment}

/-! ## Sending -/

@[simp] theorem packet_receiveState (seq : U32) (flags : Byte) (offset len : U32) :
    (s.packet env seq flags offset len).2.receiveState = s.receiveState := by
  unfold packet
  dsimp only
  split <;> rfl

@[simp] theorem reduceMss_receiveState (nTransmit : U32) : ∀ (fuel : Nat) (s : PseudoTcp),
    (s.reduceMss nTransmit fuel).2.receiveState = s.receiveState
  | 0, _ => rfl
  | fuel + 1, s => by
    rw [reduceMss]
    split
    · rfl
    · dsimp only
      split
      · rfl
      · exact reduceMss_receiveState nTransmit fuel _

@[simp] theorem transmitLoop_receiveState (seg : SSegment) :
    ∀ (fuel : Nat) (n : U32) (s : PseudoTcp),
    (s.transmitLoop env seg fuel n).2.receiveState = s.receiveState
  | 0, _, _ => rfl
  | fuel + 1, n, s => by
    have hpacket := s.packet_receiveState env seg.seq (if seg.bCtrl then FLAG_CTL else 0)
      (seg.seq - s.sndUna) n
    rw [transmitLoop]
    generalize s.packet env seg.seq (if seg.bCtrl then FLAG_CTL else 0) (seg.seq - s.sndUna) n =
      sent at hpacket
    obtain ⟨wres, s₁⟩ := sent
    cases wres with
    | WR_SUCCESS => exact hpacket
    | WR_FAIL => exact hpacket
    | WR_TOO_LARGE =>
      have hreduce := reduceMss_receiveState n PACKET_MAXIMUMS.length s₁
      dsimp only
      generalize s₁.reduceMss n PACKET_MAXIMUMS.length = reduced at hreduce
      obtain ⟨_ | _, s₂⟩ := reduced
      · exact hreduce.trans hpacket
      · exact (transmitLoop_receiveState seg fuel s₂.mss s₂).trans (hreduce.trans hpacket)

@[simp] theorem splitSegment_receiveState (i : Nat) (n : U32) :
    (s.splitSegment i n).receiveState = s.receiveState := by
  unfold splitSegment
  cases s.slist[i]? with
  | none => rfl
  | some seg =>
    dsimp only
    split <;> rfl

@[simp] theorem markTransmitted_receiveState (i : Nat) (now : U32) :
    (s.markTransmitted i now).receiveState = s.receiveState := by
  unfold markTransmitted
  cases s.slist[i]? <;> rfl

@[simp] theorem transmit_receiveState (i : Nat) (now : U32) :
    (s.transmit env i now).2.receiveState = s.receiveState := by
  unfold transmit
  cases s.slist[i]? with
  | none => rfl
  | some seg =>
    dsimp only
    generalize (if s.state = TcpState.TCP_ESTABLISHED then 15 else 30) = limit
    by_cases hxmit : limit ≤ seg.xmit.toNat
    · rw [if_pos hxmit]
    · rw [if_neg hxmit]
      have hloop := s.transmitLoop_receiveState env seg PACKET_MAXIMUMS.length (uMin seg.len s.mss)
      generalize s.transmitLoop env seg PACKET_MAXIMUMS.length (uMin seg.len s.mss) = sent at hloop
      obtain ⟨_ | nTransmit, s₁⟩ := sent
      · exact hloop
      · simpa only [markTransmitted_receiveState, splitSegment_receiveState] using hloop

theorem attemptSendLoop_receiveState (now : U32) :
    ∀ (fuel : Nat) (sflags : SendFlags) (s : PseudoTcp),
    (s.attemptSendLoop env now fuel sflags).receiveState = s.receiveState
  | 0, _, _ => rfl
  | fuel + 1, sflags, s => by
    rw [attemptSendLoop]
    dsimp only
    split
    · split
      · rfl
      · split
        · exact s.packet_receiveState env _ _ _ _
        · rfl
    · split
      · rfl
      · cases s.slist.findIdx? (·.xmit = 0) with
        | none => rfl
        | some i =>
          have htransmit := (s.splitSegment i s.available).transmit_receiveState env i now
          rw [splitSegment_receiveState] at htransmit
          dsimp only
          generalize (s.splitSegment i s.available).transmit env i now = sent at htransmit
          obtain ⟨_ | _, s₁⟩ := sent
          · exact htransmit
          · exact (attemptSendLoop_receiveState now fuel _ s₁).trans htransmit

@[simp] theorem attemptSend_receiveState (sflags : SendFlags) :
    (s.attemptSend env sflags).receiveState = s.receiveState := by
  unfold attemptSend
  dsimp only
  rw [attemptSendLoop_receiveState]
  split <;> rfl

/-! ## The user's calls and the clock -/

@[simp] theorem connect_receiveState : (s.connect env).2.receiveState = s.receiveState := by
  unfold connect
  split
  · rfl
  · exact attemptSend_receiveState env _ _

@[simp] theorem send_receiveState (data : List Byte) :
    (s.send env data).2.receiveState = s.receiveState := by
  unfold send
  split
  · rfl
  · split
    · rfl
    · exact attemptSend_receiveState env _ _

@[simp] theorem notifyMTU_receiveState (mtu : BitVec 16) :
    (s.notifyMTU mtu).receiveState = s.receiveState := by
  unfold notifyMTU
  dsimp only
  split <;> rfl

theorem retransmit_receiveState (now : U32) :
    (s.retransmit env now).2.receiveState = s.receiveState := by
  unfold retransmit
  split
  · have htransmit := s.transmit_receiveState env 0 now
    generalize s.transmit env 0 now = sent at htransmit
    obtain ⟨_ | _, s₁⟩ := sent
    · exact htransmit
    · exact htransmit
  · rfl

theorem probeWindow_receiveState (now : U32) :
    (s.probeWindow env now).2.receiveState = s.receiveState := by
  unfold probeWindow
  split
  · split
    · rfl
    · exact s.packet_receiveState env _ _ _ _
  · rfl

@[simp] theorem notifyClock_receiveState (now : U32) :
    (s.notifyClock env now).receiveState = s.receiveState := by
  unfold notifyClock
  split
  · rfl
  · have hretransmit := s.retransmit_receiveState env now
    generalize s.retransmit env now = sent at hretransmit
    obtain ⟨_ | _, s₁⟩ := sent
    · exact hretransmit
    · have hprobe := s₁.probeWindow_receiveState env now
      dsimp only
      generalize s₁.probeWindow env now = probed at hprobe
      obtain ⟨_ | _, s₂⟩ := probed
      · exact hprobe.trans hretransmit
      · dsimp only
        split
        · exact (s₂.packet_receiveState env _ _ _ _).trans (hprobe.trans hretransmit)
        · exact hprobe.trans hretransmit

/-! ## Incoming datagrams -/

@[simp] theorem updateRtt_receiveState (seg : Segment) (now : U32) :
    (s.updateRtt seg now).receiveState = s.receiveState := by
  unfold updateRtt
  dsimp only
  split
  · split <;> rfl
  · rfl

@[simp] theorem updateTimestamp_receiveState (seg : Segment) :
    (s.updateTimestamp seg).receiveState = s.receiveState := by
  unfold updateTimestamp
  split <;> rfl

@[simp] theorem acknowledge_receiveState (seg : Segment) (now : U32) :
    (s.acknowledge seg now).receiveState = s.receiveState := rfl

theorem processNewAck_receiveState (seg : Segment) (now : U32) :
    (s.processNewAck env seg now).2.receiveState = s.receiveState := by
  have hack : ((s.updateRtt seg now).acknowledge seg now).receiveState = s.receiveState := by
    rw [acknowledge_receiveState, updateRtt_receiveState]
  unfold processNewAck
  dsimp only
  generalize (s.updateRtt seg now).acknowledge seg now = s₁ at hack
  split
  · split
    · exact hack
    · have htransmit := s₁.transmit_receiveState env 0 now
      generalize s₁.transmit env 0 now = sent at htransmit
      obtain ⟨_ | _, s₂⟩ := sent
      · exact htransmit.trans hack
      · exact htransmit.trans hack
  · exact hack

theorem processDupAck_receiveState (seg : Segment) (now : U32) :
    (s.processDupAck env seg now).2.receiveState = s.receiveState := by
  unfold processDupAck
  dsimp only
  split
  · rfl
  · split
    · split
      · have htransmit := transmit_receiveState env
          { s with sndWnd := seg.wnd.setWidth 32 <<< s.swndScale.toNat, dupAcks := s.dupAcks + 1 }
          0 now
        generalize transmit env 0 now { s with
          sndWnd := seg.wnd.setWidth 32 <<< s.swndScale.toNat, dupAcks := s.dupAcks + 1 } =
          sent at htransmit
        obtain ⟨_ | _, s₂⟩ := sent
        · exact htransmit
        · exact htransmit
      · split <;> rfl
    · rfl

@[simp] theorem processAck_receiveState (seg : Segment) (now : U32) :
    (s.processAck env seg now).2.receiveState = s.receiveState := by
  unfold processAck
  split
  · exact processNewAck_receiveState env s seg now
  · split
    · exact processDupAck_receiveState env s seg now
    · rfl

@[simp] theorem processOpen_receiveState (bConnect : Bool) :
    (s.processOpen bConnect).receiveState = s.receiveState := by
  unfold processOpen
  dsimp only
  split <;> split <;> rfl

theorem optionLoop_receiveState : ∀ (fuel : Nat) (data : Mem) (len : Nat) (s : PseudoTcp),
    (optionLoop fuel data len s).2.receiveState = s.receiveState
  | 0, _, _, _ => rfl
  | fuel + 1, data, len, s => by
    rw [optionLoop]
    split
    · rfl
    · split
      · exact optionLoop_receiveState fuel _ _ s
      · dsimp only
        generalize (if len = 1 then 1 else 2) = header
        generalize (if len = 1 then 0 else (data 1).toNat) = optLen
        split
        · refine (optionLoop_receiveState fuel _ _ _).trans ?_
          unfold applyOption
          split <;> rfl
        · rfl

/-- The options leave the receiving side as it is or resize its buffer. -/
theorem parseOptions_receiveState (data : Mem) (len : U32) :
    (s.parseOptions data len).receiveState = s.receiveState ∨
      (s.parseOptions data len).receiveState =
        (s.resizeReceiveBuffer DEFAULT_RCV_BUF_SIZE).receiveState ∧ 0 < s.rwndScale := by
  have hloop := optionLoop_receiveState len.toNat data len.toNat s
  unfold parseOptions
  generalize optionLoop len.toNat data len.toNat s = parsed at hloop
  obtain ⟨_ | options, s₁⟩ := parsed
  · exact Or.inl hloop
  · dsimp only at hloop ⊢
    split
    · rename_i hspecified
      have hscale : s₁.rwndScale = s.rwndScale := congrArg ReceiveState.rwndScale hloop
      have hrbuf : s₁.rbuf = s.rbuf := congrArg ReceiveState.rbuf hloop
      refine Or.inr ⟨?_, hscale ▸ hspecified.2⟩
      have hshutdown : s₁.shutdown = s.shutdown := congrArg ReceiveState.shutdown hloop
      have hrlist : s₁.rlist = s.rlist := congrArg ReceiveState.rlist hloop
      have hrcvNxt : s₁.rcvNxt = s.rcvNxt := congrArg ReceiveState.rcvNxt hloop
      simp only [receiveState, resizeReceiveBuffer, hrbuf, hshutdown, hrlist, hrcvNxt]
    · exact Or.inl hloop

theorem processControl_receiveState (seg : Segment) :
    (s.processControl seg).2.receiveState = s.receiveState ∨
      (s.processControl seg).2.receiveState =
        (s.resizeReceiveBuffer DEFAULT_RCV_BUF_SIZE).receiveState ∧ 0 < s.rwndScale := by
  unfold processControl
  split
  · exact Or.inl rfl
  · split
    · exact Or.inl rfl
    · split
      · have hoptions := s.parseOptions_receiveState (fun i => seg.data (1 + i)) (seg.len - 1)
        dsimp only
        split
        · exact hoptions
        · split
          · exact hoptions
          · exact hoptions
      · exact Or.inl rfl

/-! ## A datagram in steps -/

/-- The state once the clock has been read. -/
def arrive : PseudoTcp :=
  { s with
    nowCalls := s.nowCalls + 1
    lasttraffic := env.now s.nowCalls
    lastrecv := env.now s.nowCalls
    bOutgoing := false }

instance (seg : Segment) : Decidable (Accepted seg s) := inferInstanceAs (Decidable (_ ∧ _))

/-- Whether a segment carries control data. -/
def isControl (seg : Segment) : Bool := seg.flags &&& FLAG_CTL ≠ 0

/-- The state after the ack of a segment that is accepted; `false` if the
connection is closed. -/
def acked (seg : Segment) : Bool × PseudoTcp :=
  (((s.arrive env).processControl seg).2.updateTimestamp seg).processAck env seg
    (env.now s.nowCalls)

theorem processControl_accepted {s : PseudoTcp}
    (h : seg.flags &&& FLAG_CTL = 0 ∨ seg.len ≠ 0 ∧ seg.data 0 = CTL_CONNECT) :
    (s.processControl seg).1 = some (isControl seg) := by
  unfold processControl isControl
  by_cases hflag : seg.flags &&& FLAG_CTL = 0
  · rw [if_pos hflag, decide_eq_false (not_not.mpr hflag)]
  · obtain ⟨hlen, hconnect⟩ := h.resolve_left hflag
    rw [if_neg hflag, if_neg hlen, if_pos hconnect, decide_eq_true hflag]
    dsimp only
    split
    · rfl
    · split <;> rfl

theorem processControl_not_accepted {s : PseudoTcp}
    (h : ¬ (seg.flags &&& FLAG_CTL = 0 ∨ seg.len ≠ 0 ∧ seg.data 0 = CTL_CONNECT)) :
    s.processControl seg = (none, s) := by
  unfold processControl
  rw [if_neg fun hflag => h (.inl hflag)]
  by_cases hlen : seg.len = 0
  · rw [if_pos hlen]
  · rw [if_neg hlen, if_neg fun hconnect => h (.inr ⟨hlen, hconnect⟩)]

theorem process_of_accepted {env : Env} {s : PseudoTcp} (h : Accepted seg s) :
    s.process env seg =
      if (s.acked env seg).1 then
        (true, (s.acked env seg).2.processRest env seg (isControl seg))
      else (false, (s.acked env seg).2) := by
  obtain ⟨hconv, hopen, hreset, hcontrol⟩ := h
  have hsome := processControl_accepted (s := s.arrive env) hcontrol
  unfold arrive at hsome
  unfold process acked arrive
  rw [if_neg (not_not.mpr hconv)]
  dsimp only [PseudoTcp.now]
  rw [if_neg hopen, if_neg (not_not.mpr hreset)]
  generalize processControl seg _ = controlled at hsome
  obtain ⟨refused, s₁⟩ := controlled
  subst hsome
  dsimp only
  generalize processAck env seg (env.now s.nowCalls) (s₁.updateTimestamp seg) = after
  obtain ⟨_ | _, s₂⟩ := after <;> rfl

theorem process_of_not_accepted {env : Env} {s : PseudoTcp} (h : ¬ Accepted seg s) :
    (s.process env seg).1 = false ∧ (s.process env seg).2.receiveState = s.receiveState := by
  unfold process
  by_cases hconv : seg.conv = s.conv
  · rw [if_neg (not_not.mpr hconv)]
    dsimp only [PseudoTcp.now]
    by_cases hopen : s.state = .TCP_CLOSED
    · rw [if_pos hopen]
      exact ⟨rfl, rfl⟩
    · rw [if_neg hopen]
      by_cases hreset : seg.flags &&& FLAG_RST = 0
      · rw [if_neg (not_not.mpr hreset),
          processControl_not_accepted fun hcontrol => h ⟨hconv, hopen, hreset, hcontrol⟩]
        exact ⟨rfl, rfl⟩
      · rw [if_pos hreset]
        exact ⟨rfl, rfl⟩
  · rw [if_pos hconv]
    exact ⟨rfl, rfl⟩

theorem acked_receiveState (seg : Segment) :
    (s.acked env seg).2.receiveState = ((s.arrive env).processControl seg).2.receiveState := by
  rw [acked, processAck_receiveState, updateTimestamp_receiveState]

/-! ## Trimming -/

/-- A segment without what arrived before. -/
def trimLeft (seg : Segment) : Segment :=
  if seg.seq < s.rcvNxt then
    let nAdjust := s.rcvNxt - seg.seq
    if nAdjust < seg.len then
      { seg with
        seq := seg.seq + nAdjust
        data := fun i => seg.data (nAdjust.toNat + i)
        len := seg.len - nAdjust }
    else { seg with len := 0 }
  else seg

/-- A segment without what does not fit into the buffer. -/
def trimRight (seg : Segment) : Segment :=
  let availableSpace := BitVec.ofNat 32 s.rbuf.getWriteRemaining
  if availableSpace < seg.seq + seg.len - s.rcvNxt then
    let nAdjust := seg.seq + seg.len - s.rcvNxt - availableSpace
    { seg with len := if nAdjust < seg.len then seg.len - nAdjust else 0 }
  else seg

theorem trim_eq (seg : Segment) : s.trim seg = s.trimRight (s.trimLeft seg) := rfl

end PseudoTcp

end PerchWebrtc.Tcp
