import PerchWebrtc.Tcp.ReceiveSide

/-!
# What is read of a datagram

The bytes that `parse` and `process` read of a datagram, the payload lengths
that they compute and the windows that they shift, as lists beside the model of
`PseudoTcp`.

* `Access.Safe`: a read inside the datagram, a length that does not wrap, a shift
  by less than 32 bits;
* `optionAccesses_safe`: the list of options is read inside the datagram, whatever
  it holds;
* `run_rwndScale_le`: the scale of the own window stays below 17, in every run;
* `notifyPacket_safe_iff`: a datagram is safe if and only if it is refused for its
  length or has a whole header and, where its ack is used, the scale of the peer's
  window is below 32.
-/

namespace PerchWebrtc.Tcp

/-- What the code does with a datagram that can go wrong. -/
inductive Access where
  /-- Reads bytes of the datagram. -/
  | read (offset count : Nat)
  /-- Computes a payload length, the difference of two numbers. -/
  | length (total part : U32)
  /-- Shifts a window. -/
  | shift (count : Nat)
  deriving DecidableEq

namespace Access

def Safe (size : Nat) : Access → Prop
  | .read offset count => offset + count ≤ size
  | .length total part => part ≤ total
  | .shift count => count < 32

instance (size : Nat) : (a : Access) → Decidable (a.Safe size)
  | .read offset count => inferInstanceAs (Decidable (offset + count ≤ size))
  | .length total part => inferInstanceAs (Decidable (part ≤ total))
  | .shift count => inferInstanceAs (Decidable (count < 32))

def AllSafe (size : Nat) (accesses : List Access) : Prop := ∀ a ∈ accesses, a.Safe size

instance (size : Nat) (accesses : List Access) : Decidable (AllSafe size accesses) :=
  inferInstanceAs (Decidable (∀ a ∈ accesses, a.Safe size))

variable {size : Nat} {a : Access} {as bs : List Access}

@[simp] theorem allSafe_nil : AllSafe size [] := fun _ h => absurd h List.not_mem_nil

@[simp] theorem allSafe_cons : AllSafe size (a :: as) ↔ a.Safe size ∧ AllSafe size as :=
  List.forall_mem_cons

@[simp] theorem allSafe_append : AllSafe size (as ++ bs) ↔ AllSafe size as ∧ AllSafe size bs :=
  List.forall_mem_append

theorem allSafe_replicate {n : Nat} (h : a.Safe size) : AllSafe size (List.replicate n a) := by
  intro b hb
  rw [List.eq_of_mem_replicate hb]
  exact h

end Access

namespace PseudoTcp

open Access

/-! ## Options -/

/-- The reads of `optionLoop`. The list is a copy of the datagram's bytes from an
offset on, so they stand at the place that the bytes come from. -/
def optionAccesses : Nat → Mem → Nat → Nat → List Access
  | 0, _, _, _ => []
  | fuel + 1, data, offset, len =>
    if len = 0 then []
    else if data 0 = TCP_OPT_EOL then [.read offset 1]
    else if data 0 = TCP_OPT_NOOP then
      .read offset 1 :: optionAccesses fuel (fun i => data (1 + i)) (offset + 1) (len - 1)
    else
      let header := if len = 1 then 1 else 2
      let optLen := if len = 1 then 0 else (data 1).toNat
      -- The length is missing where the kind is the last byte.
      .read offset header ::
        if optLen ≤ len - header then
          (if data 0 = TCP_OPT_WND_SCALE ∧ optLen = 1 then [.read (offset + header) 1] else []) ++
            optionAccesses fuel (fun i => data (header + optLen + i)) (offset + header + optLen)
              (len - header - optLen)
        else []

/-- The shifts of `resizeReceiveBuffer`. -/
def resizeAccesses (newSize : U32) : List Access :=
  List.replicate (scaleFactor 16 newSize).1.toNat (.shift 1) ++
    [.shift (scaleFactor 16 newSize).1.toNat]

/-- `parseOptions` of the bytes of the datagram from an offset on. -/
def parseOptionsAccesses (data : Mem) (offset : Nat) (len : U32) (s : PseudoTcp) : List Access :=
  .read offset len.toNat :: (optionAccesses len.toNat data offset len.toNat ++
    match optionLoop len.toNat data len.toNat s with
    | (none, _) => []
    | (some optionsSpecified, s) =>
      if ¬ optionsSpecified.contains TCP_OPT_WND_SCALE ∧ 0 < s.rwndScale then
        resizeAccesses DEFAULT_RCV_BUF_SIZE
      else [])

/-! ## Segments -/

def controlAccesses (seg : Segment) (s : PseudoTcp) : List Access :=
  if seg.flags &&& FLAG_CTL = 0 ∨ seg.len = 0 then []
  else
    .read HEADER_SIZE.toNat 1 ::
      if seg.data 0 = CTL_CONNECT then
        .length seg.len 1 ::
          s.parseOptionsAccesses (fun i => seg.data (1 + i)) (HEADER_SIZE.toNat + 1) (seg.len - 1)
      else []

/-- The ack of a segment is used. -/
def AckUsed (seg : Segment) (s : PseudoTcp) : Prop :=
  s.sndUna < seg.ack ∧ seg.ack ≤ s.sndNxt ∨ seg.ack = s.sndUna

instance (seg : Segment) (s : PseudoTcp) : Decidable (AckUsed seg s) :=
  inferInstanceAs (Decidable (_ ∨ _))

/-- The window of the peer. -/
def ackAccesses (seg : Segment) (s : PseudoTcp) : List Access :=
  if AckUsed seg s then [.shift s.swndScale.toNat] else []

/-- The beginning of a segment arrived before, and not all of it. -/
def Overlaps (seg : Segment) (s : PseudoTcp) : Prop :=
  seg.seq < s.rcvNxt ∧ s.rcvNxt - seg.seq < seg.len

instance (seg : Segment) (s : PseudoTcp) : Decidable (Overlaps seg s) :=
  inferInstanceAs (Decidable (_ ∧ _))

/-- The lengths that `trim` computes. -/
def trimAccesses (seg : Segment) (s : PseudoTcp) : List Access :=
  let left := s.trimLeft seg
  let availableSpace := BitVec.ofNat 32 s.rbuf.getWriteRemaining
  let nAdjust := left.seq + left.len - s.rcvNxt - availableSpace
  (if Overlaps seg s then [.length seg.len (s.rcvNxt - seg.seq)] else []) ++
    if availableSpace < left.seq + left.len - s.rcvNxt ∧ nAdjust < left.len then
      [.length left.len nAdjust]
    else []

/-- Where the data of a segment stands in the datagram once it is trimmed. -/
def dataOffset (seg : Segment) (s : PseudoTcp) : Nat :=
  HEADER_SIZE.toNat + if Overlaps seg s then (s.rcvNxt - seg.seq).toNat else 0

/-- What `WriteOffset` copies of the data of a segment that has been trimmed. -/
def writeAccesses (seg : Segment) (offset : Nat) (s : PseudoTcp) : List Access :=
  if seg.len = 0 ∨ seg.flags &&& FLAG_CTL ≠ 0 ∨ s.shutdown ≠ .SD_NONE then []
  else
    match s.rbuf.writeOffset seg.data seg.len.toNat (seg.seq - s.rcvNxt).toNat with
    | none => []
    | some (copy, _) => [.read offset copy]

variable (env : Env) {seg : Segment}

/-- `process` up to the data. -/
def processAccesses (seg : Segment) (s : PseudoTcp) : List Access :=
  if seg.conv ≠ s.conv then []
  else
    let (now, s) := s.now env
    let s := { s with lasttraffic := now, lastrecv := now, bOutgoing := false }
    if s.state = .TCP_CLOSED then []
    else if seg.flags &&& FLAG_RST ≠ 0 then []
    else
      s.controlAccesses seg ++
      match s.processControl seg with
      | (none, _) => []
      | (some bConnect, s) =>
        let s := s.updateTimestamp seg
        s.ackAccesses seg ++
        match s.processAck env seg now with
        | (false, _) => []
        | (true, s) =>
          let s := s.processOpen bConnect
          s.trimAccesses seg ++ s.writeAccesses (s.trim seg) (s.dataOffset seg)

/-- The shifts of the datagrams that are written in between: `packet` shifts the
own window once. -/
def packetAccesses (before after : PseudoTcp) : List Access :=
  List.replicate (after.written.length - before.written.length) (.shift after.rwndScale.toNat)

/-- What `parse` reads of the header, and the length of the payload. -/
def headerAccesses (size : U32) : List Access :=
  [.read 0 4, .read 4 4, .read 8 4, .read 13 1, .read 14 2, .read 16 4, .read 20 4,
    .length size HEADER_SIZE]

def parseAccesses (buffer : Mem) (size : U32) (s : PseudoTcp) : List Access :=
  if size < 12 then []
  else
    headerAccesses size ++ s.processAccesses env (segmentOf buffer size) ++
      packetAccesses s (s.process env (segmentOf buffer size)).2

def notifyPacketAccesses (buffer : Mem) (len : Nat) (s : PseudoTcp) : List Access :=
  if MAX_PACKET.toNat < len then [] else s.parseAccesses env buffer (BitVec.ofNat 32 len)

/-! ## The scale of the peer's window -/

/-- The options of a list up to its end or to one that is longer than the rest,
and whether there is no such one. -/
def optionFields : Nat → Mem → Nat → List (Byte × List Byte) × Bool
  | 0, _, _ => ([], true)
  | fuel + 1, data, len =>
    if len = 0 ∨ data 0 = TCP_OPT_EOL then ([], true)
    else if data 0 = TCP_OPT_NOOP then optionFields fuel (fun i => data (1 + i)) (len - 1)
    else if len = 1 then ([(data 0, [])], true)
    else if (data 1).toNat ≤ len - 2 then
      let rest := optionFields fuel (fun i => data (2 + (data 1).toNat + i))
        (len - 2 - (data 1).toNat)
      ((data 0, data.bytes 2 (data 1).toNat) :: rest.1, rest.2)
    else ([], false)

/-- The window scale of an option, if it is one of a single byte. -/
def scaleOption (field : Byte × List Byte) : Option Byte :=
  if field.1 = TCP_OPT_WND_SCALE ∧ field.2.length = 1 then field.2.head? else none

/-- The scale of the peer's window once the options of a segment are taken in: the
last one given. A list without any takes it back where the own window is
scaled. -/
def scaleInEffect (seg : Segment) (s : PseudoTcp) : Byte :=
  if isControl seg then
    let fields := optionFields (seg.len - 1).toNat (fun i => seg.data (1 + i)) (seg.len - 1).toNat
    if fields.2 ∧ (∀ field ∈ fields.1, field.1 ≠ TCP_OPT_WND_SCALE) ∧ 0 < s.rwndScale then 0
    else (fields.1.filterMap scaleOption).getLast?.getD s.swndScale
  else s.swndScale

theorem applyOption_swndScale (kind : Byte) (data : Mem) (len : Nat) (s : PseudoTcp) :
    (s.applyOption kind data len).swndScale =
      (scaleOption (kind, data.bytes 0 len)).getD s.swndScale := by
  unfold applyOption scaleOption
  by_cases h : kind = TCP_OPT_WND_SCALE ∧ len = 1
  · obtain ⟨hkind, rfl⟩ := h
    rw [if_pos ⟨hkind, rfl⟩, if_pos ⟨hkind, Mem.bytes_length data 0 1⟩]
    rfl
  · rw [if_neg h, if_neg (by rw [Mem.bytes_length]; exact h)]
    rfl

theorem lastScale_cons (field : Byte × List Byte) (fields : List (Byte × List Byte))
    (scale : Byte) :
    ((field :: fields).filterMap scaleOption).getLast?.getD scale =
      (fields.filterMap scaleOption).getLast?.getD ((scaleOption field).getD scale) := by
  rw [List.filterMap_cons]
  cases scaleOption field with
  | none => rfl
  | some b =>
    dsimp only
    rw [List.getLast?_cons]
    rfl

/-- What the loop finds, and the scale that it leaves. -/
theorem optionLoop_fields : ∀ (fuel : Nat) (data : Mem) (len : Nat) (s : PseudoTcp),
    (optionLoop fuel data len s).1 =
        (if (optionFields fuel data len).2 then some ((optionFields fuel data len).1.map Prod.fst)
          else none) ∧
      (optionLoop fuel data len s).2.swndScale =
        ((optionFields fuel data len).1.filterMap scaleOption).getLast?.getD s.swndScale
  | 0, _, _, _ => ⟨rfl, rfl⟩
  | fuel + 1, data, len, s => by
    rw [optionLoop, optionFields]
    by_cases hend : len = 0 ∨ data 0 = TCP_OPT_EOL
    · rw [if_pos hend, if_pos hend]
      exact ⟨rfl, rfl⟩
    rw [if_neg hend, if_neg hend]
    by_cases hnoop : data 0 = TCP_OPT_NOOP
    · rw [if_pos hnoop, if_pos hnoop]
      exact optionLoop_fields fuel _ _ s
    rw [if_neg hnoop, if_neg hnoop]
    by_cases hlast : len = 1
    · -- The kind is the last byte: an option without a length and a content.
      subst hlast
      have hstop (data' : Mem) (s' : PseudoTcp) : optionLoop fuel data' 0 s' = (some [], s') := by
        cases fuel with
        | zero => rfl
        | succ fuel => rw [optionLoop, if_pos (.inl rfl)]
      simp only [if_true, Nat.sub_self, Nat.le_refl, hstop]
      refine ⟨rfl, ?_⟩
      rw [applyOption_swndScale]
      exact (lastScale_cons (data 0, []) [] s.swndScale).symm
    · simp only [if_neg hlast]
      by_cases hfits : (data 1).toNat ≤ len - 2
      · rw [if_pos hfits, if_pos hfits]
        obtain ⟨hfound, hscale⟩ := optionLoop_fields fuel
          (fun i => data (2 + (data 1).toNat + i)) (len - 2 - (data 1).toNat)
          (s.applyOption (data 0) (fun i => data (2 + i)) (data 1).toNat)
        dsimp only
        rw [hfound, hscale, lastScale_cons, applyOption_swndScale]
        have hcontent : Mem.bytes (fun i => data (2 + i)) 0 (data 1).toNat =
            data.bytes 2 (data 1).toNat :=
          Mem.bytes_eq_iff.mpr fun i _ => by rw [Nat.zero_add]
        rw [hcontent]
        refine ⟨?_, rfl⟩
        split
        · rfl
        · rfl
      · rw [if_neg hfits, if_neg hfits]
        exact ⟨rfl, rfl⟩

theorem parseOptions_swndScale (data : Mem) (len : U32) (s : PseudoTcp) :
    (s.parseOptions data len).swndScale =
      let fields := optionFields len.toNat data len.toNat
      if fields.2 ∧ (∀ field ∈ fields.1, field.1 ≠ TCP_OPT_WND_SCALE) ∧ 0 < s.rwndScale then 0
      else (fields.1.filterMap scaleOption).getLast?.getD s.swndScale := by
  obtain ⟨hfound, hscale⟩ := optionLoop_fields len.toNat data len.toNat s
  have hreceive := optionLoop_receiveState len.toNat data len.toNat s
  unfold parseOptions
  generalize optionFields len.toNat data len.toNat = fields at hfound hscale ⊢
  generalize optionLoop len.toNat data len.toNat s = parsed at hfound hscale hreceive
  obtain ⟨found, s₁⟩ := parsed
  have hrwnd : s₁.rwndScale = s.rwndScale := congrArg ReceiveState.rwndScale hreceive
  dsimp only at hfound hscale ⊢
  cases hcomplete : fields.2 with
  | false =>
    rw [hcomplete, if_neg Bool.false_ne_true] at hfound
    subst hfound
    rw [if_neg fun h => Bool.false_ne_true h.1]
    exact hscale
  | true =>
    rw [hcomplete, if_pos rfl] at hfound
    subst hfound
    have hkinds : TCP_OPT_WND_SCALE ∉ fields.1.map Prod.fst ↔
        ∀ field ∈ fields.1, field.1 ≠ TCP_OPT_WND_SCALE := by
      rw [List.mem_map]
      exact ⟨fun h field hfield heq => h ⟨field, hfield, heq⟩,
        fun h hmem => hmem.elim fun field hfield => h field hfield.1 hfield.2⟩
    have hdefault : TCP_OPT_WND_SCALE ∉ fields.1.map Prod.fst ∧ 0 < s₁.rwndScale ↔
        (∀ field ∈ fields.1, field.1 ≠ TCP_OPT_WND_SCALE) ∧ 0 < s.rwndScale := by
      rw [hkinds, hrwnd]
    dsimp only
    by_cases h : TCP_OPT_WND_SCALE ∉ fields.1.map Prod.fst ∧ 0 < s₁.rwndScale
    · rw [if_pos h, if_pos ⟨rfl, hdefault.mp h⟩]
    · rw [if_neg h, if_neg fun h' => h (hdefault.mpr h'.2)]
      exact hscale

theorem processControl_swndScale {s : PseudoTcp}
    (h : seg.flags &&& FLAG_CTL = 0 ∨ seg.len ≠ 0 ∧ seg.data 0 = CTL_CONNECT) :
    (s.processControl seg).2.swndScale = scaleInEffect seg s := by
  unfold processControl scaleInEffect
  by_cases hflag : seg.flags &&& FLAG_CTL = 0
  · have hnot : ¬ isControl seg := of_decide_eq_false (decide_eq_false (not_not.mpr hflag)) ∘
      of_decide_eq_true
    rw [if_pos hflag, if_neg hnot]
  · obtain ⟨hlen, hconnect⟩ := h.resolve_left hflag
    have hcontrol : isControl seg := decide_eq_true hflag
    have hoptions := s.parseOptions_swndScale (fun i => seg.data (1 + i)) (seg.len - 1)
    rw [if_neg hflag, if_neg hlen, if_pos hconnect, if_pos hcontrol, ← hoptions]
    dsimp only
    generalize s.parseOptions (fun i => seg.data (1 + i)) (seg.len - 1) = s₁
    split
    · rfl
    · split
      · rfl
      · rfl

/-! ## The scale of the own window -/

theorem scaleFactor_le (fuel : Nat) (h : fuel < 256) (newSize : U32) :
    (scaleFactor fuel newSize).1.toNat ≤ fuel := by
  induction fuel generalizing newSize with
  | zero => exact Nat.le_refl 0
  | succ fuel ih =>
    rw [scaleFactor]
    split
    · have := ih (by omega) (newSize >>> 1)
      dsimp only
      rw [BitVec.toNat_add]
      exact (Nat.mod_le _ _).trans (Nat.add_le_add_right this 1)
    · exact Nat.zero_le _

theorem rwndScale_congr {s s' : PseudoTcp} (h : s'.receiveState = s.receiveState) :
    s'.rwndScale = s.rwndScale := congrArg ReceiveState.rwndScale h

theorem resizeReceiveBuffer_rwndScale (newSize : U32) (s : PseudoTcp) :
    (s.resizeReceiveBuffer newSize).rwndScale.toNat ≤ 16 := scaleFactor_le 16 (by omega) newSize

theorem recoverSegments_rwndScale (l : List RSegment) (s : PseudoTcp) :
    (recoverSegments l s).2.rwndScale = s.rwndScale := by
  induction l generalizing s with
  | nil => rfl
  | cons it rest ih =>
    rw [recoverSegments]
    split
    · split
      · exact ih _
      · exact ih _
    · rfl

theorem processData_rwndScale (seg : Segment) (sflags : SendFlags) (s : PseudoTcp) :
    (s.processData seg sflags).2.2.rwndScale = s.rwndScale := by
  unfold processData
  split
  · rfl
  · split
    · dsimp only
      split
      · rfl
      · rfl
    · dsimp only
      split
      · exact recoverSegments_rwndScale _ _
      · rfl

theorem processRest_rwndScale (seg : Segment) (bConnect : Bool) (s : PseudoTcp) :
    (s.processRest env seg bConnect).rwndScale = s.rwndScale := by
  have hopen := rwndScale_congr (s.processOpen_receiveState bConnect)
  unfold processRest
  dsimp only
  generalize s.processOpen bConnect = s₁ at hopen
  have hdata := s₁.processData_rwndScale (s₁.trim seg) (s₁.ackFlags seg)
  generalize s₁.processData (s₁.trim seg) (s₁.ackFlags seg) = stored at hdata
  have hsend := rwndScale_congr (stored.2.2.attemptSend_receiveState env stored.1)
  split
  · exact hsend.trans (hdata.trans hopen)
  · exact hsend.trans (hdata.trans hopen)

variable {env : Env} {s : PseudoTcp} {size : Nat}

theorem acked_rwndScale_le (h : s.rwndScale.toNat ≤ 16) (seg : Segment) :
    (s.acked env seg).2.rwndScale.toNat ≤ 16 := by
  rw [rwndScale_congr (s.acked_receiveState env seg)]
  rcases (s.arrive env).processControl_receiveState seg with hcontrol | ⟨hcontrol, -⟩
  · rw [rwndScale_congr hcontrol]
    exact h
  · rw [rwndScale_congr hcontrol]
    exact resizeReceiveBuffer_rwndScale _ _

theorem process_rwndScale_le (h : s.rwndScale.toNat ≤ 16) (seg : Segment) :
    (s.process env seg).2.rwndScale.toNat ≤ 16 := by
  by_cases haccepted : Accepted seg s
  · rw [process_of_accepted haccepted]
    split
    · rw [processRest_rwndScale]
      exact acked_rwndScale_le h seg
    · exact acked_rwndScale_le h seg
  · rw [rwndScale_congr (process_of_not_accepted haccepted).2]
    exact h

theorem call_rwndScale_le (h : s.rwndScale.toNat ≤ 16) (c : Call) :
    (s.call env c).rwndScale.toNat ≤ 16 := by
  cases c with
  | connect =>
    rw [call, rwndScale_congr (s.connect_receiveState env)]
    exact h
  | send data =>
    rw [call, rwndScale_congr (s.send_receiveState env data)]
    exact h
  | recv len =>
    rw [call]
    unfold recv
    split
    · exact h
    · cases s.rbuf.read len with
      | none => exact h
      | some taken =>
        dsimp only
        split
        · dsimp only
          split
          · rw [rwndScale_congr (attemptSend_receiveState env _ _)]
            exact h
          · exact h
        · exact h
  | close force => exact h
  | notifyMTU mtu =>
    rw [call, rwndScale_congr (s.notifyMTU_receiveState mtu)]
    exact h
  | setOption opt value =>
    rw [call]
    cases opt with
    | OPT_RCVBUF => exact resizeReceiveBuffer_rwndScale value s
    | OPT_NODELAY => exact h
    | OPT_ACKDELAY => exact h
    | OPT_SNDBUF => exact h
  | notifyPacket buffer len =>
    rw [call, notifyPacket]
    split
    · exact h
    · rw [parse]
      split
      · exact h
      · exact process_rwndScale_le h _
  | notifyClock now =>
    rw [call, rwndScale_congr (s.notifyClock_receiveState env now)]
    exact h

theorem run_rwndScale_le (calls : List Call) (h : s.rwndScale.toNat ≤ 16) :
    (run env calls s).rwndScale.toNat ≤ 16 := by
  induction calls generalizing s with
  | nil => exact h
  | cons c calls ih => exact ih (call_rwndScale_le h c)

/-! ## What is safe -/

theorem resizeAccesses_safe (size : Nat) (newSize : U32) :
    AllSafe size (resizeAccesses newSize) := by
  have hscale := scaleFactor_le 16 (by omega) newSize
  unfold resizeAccesses
  rw [allSafe_append, allSafe_cons]
  have hshift : (Access.shift 1).Safe size := show 1 < 32 by omega
  have hfactor : (Access.shift (scaleFactor 16 newSize).1.toNat).Safe size :=
    show _ < 32 by omega
  exact ⟨allSafe_replicate hshift, hfactor, allSafe_nil⟩

/-- The list of options is read inside the datagram. -/
theorem optionAccesses_safe (size : Nat) : ∀ (fuel : Nat) (data : Mem) (offset len : Nat),
    offset + len ≤ size → AllSafe size (optionAccesses fuel data offset len)
  | 0, _, _, _, _ => allSafe_nil
  | fuel + 1, data, offset, len, h => by
    rw [optionAccesses]
    by_cases hlen : len = 0
    · rw [if_pos hlen]
      exact allSafe_nil
    rw [if_neg hlen]
    have hkind : (Access.read offset 1).Safe size := show offset + 1 ≤ size by omega
    by_cases heol : data 0 = TCP_OPT_EOL
    · rw [if_pos heol, allSafe_cons]
      exact ⟨hkind, allSafe_nil⟩
    rw [if_neg heol]
    by_cases hnoop : data 0 = TCP_OPT_NOOP
    · rw [if_pos hnoop, allSafe_cons]
      exact ⟨hkind, optionAccesses_safe size fuel _ _ _ (by omega)⟩
    rw [if_neg hnoop]
    have hheader : (if len = 1 then 1 else 2) ≤ len := by
      split <;> omega
    dsimp only
    generalize (if len = 1 then 1 else 2) = header at hheader
    generalize (if len = 1 then 0 else (data 1).toNat) = optLen
    rw [allSafe_cons]
    refine ⟨show offset + header ≤ size by omega, ?_⟩
    by_cases hfits : optLen ≤ len - header
    · rw [if_pos hfits, allSafe_append]
      refine ⟨?_, optionAccesses_safe size fuel _ _ _ (by omega)⟩
      by_cases hscale : data 0 = TCP_OPT_WND_SCALE ∧ optLen = 1
      · rw [if_pos hscale, allSafe_cons]
        exact ⟨show offset + header + 1 ≤ size by omega, allSafe_nil⟩
      · rw [if_neg hscale]
        exact allSafe_nil
    · rw [if_neg hfits]
      exact allSafe_nil

theorem parseOptionsAccesses_safe {offset : Nat} {len : U32} (h : offset + len.toNat ≤ size)
    (data : Mem) (s : PseudoTcp) : AllSafe size (s.parseOptionsAccesses data offset len) := by
  unfold parseOptionsAccesses
  rw [allSafe_cons, allSafe_append]
  refine ⟨h, optionAccesses_safe size _ data offset _ h, ?_⟩
  generalize optionLoop len.toNat data len.toNat s = parsed
  obtain ⟨_ | options, s₁⟩ := parsed
  · exact allSafe_nil
  · dsimp only
    split
    · exact resizeAccesses_safe size _
    · exact allSafe_nil

theorem controlAccesses_safe (h : HEADER_SIZE.toNat + seg.len.toNat ≤ size) (s : PseudoTcp) :
    AllSafe size (s.controlAccesses seg) := by
  unfold controlAccesses
  by_cases hnone : seg.flags &&& FLAG_CTL = 0 ∨ seg.len = 0
  · rw [if_pos hnone]
    exact allSafe_nil
  · rw [if_neg hnone, allSafe_cons]
    have hlen : 1 ≤ seg.len := by
      have : seg.len ≠ 0 := fun hlen => hnone (.inr hlen)
      bv_omega
    have hrest : (seg.len - 1).toNat + 1 = seg.len.toNat := by bv_omega
    refine ⟨show HEADER_SIZE.toNat + 1 ≤ size by omega, ?_⟩
    split
    · rw [allSafe_cons]
      exact ⟨hlen, parseOptionsAccesses_safe (by omega) _ s⟩
    · exact allSafe_nil

theorem trimAccesses_safe (size : Nat) (seg : Segment) (s : PseudoTcp) :
    AllSafe size (s.trimAccesses seg) := by
  unfold trimAccesses
  dsimp only
  rw [allSafe_append]
  constructor
  · by_cases hoverlaps : Overlaps seg s
    · rw [if_pos hoverlaps, allSafe_cons]
      exact ⟨BitVec.le_of_lt hoverlaps.2, allSafe_nil⟩
    · rw [if_neg hoverlaps]
      exact allSafe_nil
  · split
    · rename_i hfits
      rw [allSafe_cons]
      exact ⟨BitVec.le_of_lt hfits.2, allSafe_nil⟩
    · exact allSafe_nil

/-- What remains of a segment ends where the segment ends. -/
theorem dataOffset_add_le (seg : Segment) (s : PseudoTcp) :
    s.dataOffset seg + (s.trimLeft seg).len.toNat ≤ HEADER_SIZE.toNat + seg.len.toNat := by
  unfold dataOffset trimLeft
  by_cases hbefore : seg.seq < s.rcvNxt
  · rw [if_pos hbefore]
    dsimp only
    by_cases hpart : s.rcvNxt - seg.seq < seg.len
    · rw [if_pos hpart, if_pos ⟨hbefore, hpart⟩]
      dsimp only
      bv_omega
    · rw [if_neg hpart, if_neg fun h => hpart h.2]
      exact Nat.add_le_add_left (Nat.zero_le _) _
  · rw [if_neg hbefore, if_neg fun h => hbefore h.1]
    exact Nat.le_refl _

theorem trimRight_len_le (seg : Segment) (s : PseudoTcp) :
    (s.trimRight seg).len.toNat ≤ seg.len.toNat := by
  unfold trimRight
  dsimp only
  split
  · dsimp only
    split
    · bv_omega
    · exact Nat.zero_le _
  · exact Nat.le_refl _

theorem writeAccesses_safe (h : HEADER_SIZE.toNat + seg.len.toNat ≤ size) (s : PseudoTcp) :
    AllSafe size (s.writeAccesses (s.trim seg) (s.dataOffset seg)) := by
  have hlen : s.dataOffset seg + (s.trim seg).len.toNat ≤ size := by
    have hleft := s.dataOffset_add_le seg
    have hright := s.trimRight_len_le (s.trimLeft seg)
    rw [trim_eq]
    omega
  unfold writeAccesses FifoBuffer.writeOffset
  split
  · exact allSafe_nil
  · dsimp only
    split
    · exact allSafe_nil
    · rename_i copy _ hwrite
      split at hwrite
      · cases hwrite
      · cases hwrite
        rw [allSafe_cons]
        exact ⟨Nat.le_trans (Nat.add_le_add_left (Nat.min_le_left _ _) _) hlen, allSafe_nil⟩

theorem ackAccesses_safe_iff (size : Nat) (seg : Segment) (s : PseudoTcp) :
    AllSafe size (s.ackAccesses seg) ↔ (AckUsed seg s → s.swndScale.toNat < 32) := by
  unfold ackAccesses
  by_cases hused : AckUsed seg s
  · rw [if_pos hused, allSafe_cons]
    exact ⟨fun h _ => h.1, fun h => ⟨h hused, allSafe_nil⟩⟩
  · rw [if_neg hused]
    exact ⟨fun _ h => absurd h hused, fun _ => allSafe_nil⟩

/-- The state that the ack of a segment is read in. -/
def controlled (env : Env) (seg : Segment) (s : PseudoTcp) : PseudoTcp :=
  ((s.arrive env).processControl seg).2.updateTimestamp seg

theorem processControl_ackUsed (seg : Segment) (s : PseudoTcp) :
    AckUsed seg (s.processControl seg).2 ↔ AckUsed seg s := by
  have hparse := s.parseOptions_sendState (fun i => seg.data (1 + i)) (seg.len - 1)
  have hsndUna := congrArg SendState.sndUna hparse
  have hsndNxt := congrArg SendState.sndNxt hparse
  have hoptions : AckUsed seg (s.parseOptions (fun i => seg.data (1 + i)) (seg.len - 1)) ↔
      AckUsed seg s := by
    unfold AckUsed
    dsimp only [sendState] at hsndUna hsndNxt
    rw [hsndUna, hsndNxt]
  unfold processControl
  split
  · exact Iff.rfl
  · split
    · exact Iff.rfl
    · split
      · dsimp only
        split
        · exact hoptions
        · split
          · exact hoptions
          · exact hoptions
      · exact Iff.rfl

theorem controlled_ackUsed (seg : Segment) :
    AckUsed seg (s.controlled env seg) ↔ AckUsed seg s := by
  have hstamp : AckUsed seg (s.controlled env seg) ↔
      AckUsed seg ((s.arrive env).processControl seg).2 := by
    unfold controlled updateTimestamp
    split
    · exact Iff.rfl
    · exact Iff.rfl
  exact hstamp.trans (processControl_ackUsed seg (s.arrive env))

theorem controlled_swndScale (h : Accepted seg s) :
    (s.controlled env seg).swndScale = scaleInEffect seg s := by
  have hcontrol := processControl_swndScale (s := s.arrive env) h.2.2.2
  unfold controlled updateTimestamp
  split
  · exact hcontrol
  · exact hcontrol

theorem processAccesses_of_accepted (h : Accepted seg s) :
    s.processAccesses env seg = (s.arrive env).controlAccesses seg ++
      ((s.controlled env seg).ackAccesses seg ++
        if (s.acked env seg).1 then
          let opened := (s.acked env seg).2.processOpen (isControl seg)
          opened.trimAccesses seg ++ opened.writeAccesses (opened.trim seg) (opened.dataOffset seg)
        else []) := by
  obtain ⟨hconv, hopen, hreset, hcontrol⟩ := h
  have hsome := processControl_accepted (s := s.arrive env) hcontrol
  unfold arrive at hsome
  unfold processAccesses acked controlled arrive
  rw [if_neg (not_not.mpr hconv)]
  dsimp only [PseudoTcp.now]
  rw [if_neg hopen, if_neg (not_not.mpr hreset)]
  generalize processControl seg _ = controlled at hsome
  obtain ⟨refused, s₁⟩ := controlled
  subst hsome
  dsimp only
  generalize processAck env seg (env.now s.nowCalls) (s₁.updateTimestamp seg) = after
  obtain ⟨_ | _, s₂⟩ := after <;> rfl

/-- A segment that is refused is read up to its control code. -/
theorem processAccesses_of_not_accepted (hsize : HEADER_SIZE.toNat + seg.len.toNat ≤ size)
    (h : ¬ Accepted seg s) : AllSafe size (s.processAccesses env seg) := by
  unfold processAccesses
  by_cases hconv : seg.conv = s.conv
  · rw [if_neg (not_not.mpr hconv)]
    dsimp only [PseudoTcp.now]
    by_cases hopen : s.state = .TCP_CLOSED
    · rw [if_pos hopen]
      exact allSafe_nil
    · rw [if_neg hopen]
      by_cases hreset : seg.flags &&& FLAG_RST = 0
      · rw [if_neg (not_not.mpr hreset),
          processControl_not_accepted fun hcontrol => h ⟨hconv, hopen, hreset, hcontrol⟩,
          allSafe_append]
        exact ⟨controlAccesses_safe hsize _, allSafe_nil⟩
      · rw [if_pos hreset]
        exact allSafe_nil
  · rw [if_pos hconv]
    exact allSafe_nil

theorem processAccesses_safe_iff (hsize : HEADER_SIZE.toNat + seg.len.toNat ≤ size) :
    AllSafe size (s.processAccesses env seg) ↔
      (Accepted seg s → AckUsed seg s → (scaleInEffect seg s).toNat < 32) := by
  by_cases haccepted : Accepted seg s
  · rw [processAccesses_of_accepted haccepted, allSafe_append, allSafe_append,
      ackAccesses_safe_iff, controlled_ackUsed, controlled_swndScale haccepted]
    refine ⟨fun h _ => h.2.1, fun h => ⟨controlAccesses_safe hsize _, h haccepted, ?_⟩⟩
    split
    · rw [allSafe_append]
      exact ⟨trimAccesses_safe size seg _, writeAccesses_safe hsize _⟩
    · exact allSafe_nil
  · exact ⟨fun _ h => absurd h haccepted, fun _ => processAccesses_of_not_accepted hsize haccepted⟩

/-! ## Datagrams -/

theorem headerAccesses_safe_iff {len : Nat} (hlen : len < 2 ^ 32) :
    AllSafe len (headerAccesses (BitVec.ofNat 32 len)) ↔ HEADER_SIZE.toNat ≤ len := by
  have hheader : HEADER_SIZE.toNat = 24 := rfl
  have hpayload : HEADER_SIZE ≤ BitVec.ofNat 32 len ↔ 24 ≤ len := by
    rw [BitVec.le_def, BitVec.toNat_ofNat, Nat.mod_eq_of_lt hlen, hheader]
  unfold headerAccesses
  simp only [allSafe_cons, Access.Safe, allSafe_nil, hpayload, hheader, and_true]
  omega

theorem packetAccesses_safe {after : PseudoTcp} (h : after.rwndScale.toNat ≤ 16)
    (before : PseudoTcp) : AllSafe size (packetAccesses before after) :=
  allSafe_replicate (show after.rwndScale.toNat < 32 by omega)

theorem segmentOf_len {buffer : Mem} {len : Nat} (hlen : len < 2 ^ 32)
    (h : HEADER_SIZE.toNat ≤ len) :
    HEADER_SIZE.toNat + (segmentOf buffer (BitVec.ofNat 32 len)).len.toNat = len := by
  have hheader : HEADER_SIZE = 24 := rfl
  rw [hheader] at h
  show HEADER_SIZE.toNat + (BitVec.ofNat 32 len - HEADER_SIZE).toNat = len
  rw [hheader]
  bv_omega

/-- A datagram that is refused for its length, or that has a whole header and, if
its ack is used, leaves a scale that the peer's window can be shifted by. -/
def SafeDatagram (buffer : Mem) (len : Nat) (s : PseudoTcp) : Prop :=
  MAX_PACKET.toNat < len ∨ len < 12 ∨
    HEADER_SIZE.toNat ≤ len ∧
      let seg := segmentOf buffer (BitVec.ofNat 32 len)
      (Accepted seg s → AckUsed seg s → (scaleInEffect seg s).toNat < 32)

theorem parseAccesses_safe_iff (hscale : s.rwndScale.toNat ≤ 16) {buffer : Mem} {len : Nat}
    (hlen : len < 2 ^ 32) :
    AllSafe len (s.parseAccesses env buffer (BitVec.ofNat 32 len)) ↔
      len < 12 ∨ HEADER_SIZE.toNat ≤ len ∧
        let seg := segmentOf buffer (BitVec.ofNat 32 len)
        (Accepted seg s → AckUsed seg s → (scaleInEffect seg s).toNat < 32) := by
  have hshort : BitVec.ofNat 32 len < 12 ↔ len < 12 := by
    rw [BitVec.lt_def, BitVec.toNat_ofNat, Nat.mod_eq_of_lt hlen]
    rfl
  unfold parseAccesses
  by_cases hmin : len < 12
  · rw [if_pos (hshort.mpr hmin)]
    exact ⟨fun _ => .inl hmin, fun _ => allSafe_nil⟩
  · rw [if_neg fun h => hmin (hshort.mp h), allSafe_append, allSafe_append,
      headerAccesses_safe_iff hlen]
    constructor
    · intro h
      have hsize := Nat.le_of_eq (@segmentOf_len buffer _ hlen h.1.1)
      exact .inr ⟨h.1.1, (processAccesses_safe_iff hsize).mp h.1.2⟩
    · intro h
      obtain ⟨hheader, hack⟩ := h.resolve_left hmin
      have hsize := Nat.le_of_eq (@segmentOf_len buffer _ hlen hheader)
      exact ⟨⟨hheader, (processAccesses_safe_iff hsize).mpr hack⟩,
        packetAccesses_safe (process_rwndScale_le hscale _) s⟩

/-- In every state of every run, a datagram of any length and content is safe to
take apart if and only if it is a `SafeDatagram`. -/
theorem notifyPacket_safe_iff (env : Env) (conv : U32) (memory : Mem) (calls : List Call)
    (buffer : Mem) (len : Nat) :
    let s := run env calls (create env conv memory)
    AllSafe len (s.notifyPacketAccesses env buffer len) ↔ s.SafeDatagram buffer len := by
  intro s
  have hscale : s.rwndScale.toNat ≤ 16 := run_rwndScale_le calls (Nat.zero_le 16)
  unfold notifyPacketAccesses SafeDatagram
  by_cases hmax : MAX_PACKET.toNat < len
  · rw [if_pos hmax]
    exact ⟨fun _ => .inl hmax, fun _ => allSafe_nil⟩
  · have hlen : len < 2 ^ 32 := by
      have : len ≤ 65535 := Nat.le_of_not_lt hmax
      omega
    rw [if_neg hmax, parseAccesses_safe_iff hscale hlen]
    exact ⟨.inr, fun h => h.resolve_left hmax⟩

/-- The peer's connect message, with a window scale of 32. -/
def wideReply : List Byte :=
  [0, 0, 0, 1, 0, 0, 0, 0, 0, 0, 0, 4, 0, 2, 0xF0, 0, 0, 0, 3, 232, 0, 0, 3, 232, 0, 3, 1, 32]

/-- A datagram of 12 bytes is read up to its byte 24, and the scale of an option
is used whatever it is. -/
theorem not_allSafe_short_or_wide :
    ¬ AllSafe 12 ((create stillEnv 1 fun _ => 0).notifyPacketAccesses stillEnv
        (Mem.ofList (List.replicate 12 0)) 12) ∧
      ¬ AllSafe 28 ((run stillEnv [.connect] (create stillEnv 1 fun _ => 0)).notifyPacketAccesses
        stillEnv (Mem.ofList wideReply) 28) := by
  constructor
  · intro h
    have hscale : (create stillEnv 1 fun _ => 0).rwndScale.toNat ≤ 16 := Nat.zero_le 16
    rw [notifyPacketAccesses, if_neg (by decide),
      parseAccesses_safe_iff hscale (by decide)] at h
    exact h.elim (by decide) fun h => absurd h.1 (by decide)
  · decide +kernel

end PseudoTcp

end PerchWebrtc.Tcp
