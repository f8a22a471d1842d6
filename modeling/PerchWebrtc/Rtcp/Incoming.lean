import PerchWebrtc.Rtcp.Compound
import PerchWebrtc.Rtcp.ParserLoops
import PerchWebrtc.Rtcp.ReceiveInformation

/-!
# An incoming RTCP packet

`IncomingRTCPPacket` of `RTCPReceiver` with its handlers (`rtcp_receiver.cc`), whose loops
iterate the parser themselves. Every loop has fuel, and the result is `none` where that is
used up.

* `Ready`: the parser between two calls of `Iterate`;
* `handleItems_handles`, `handlePacket_handles`: a handler ends, and the parser has moved on;
* `incomingRTCPPacket_ends`: a packet of any bytes is handled to its end.
-/

namespace PerchWebrtc.Rtcp

open Framework

def kRtcpSrReq : BitVec 32 := 0x0200

def RTCP_MIN_FRAME_LENGTH_MS : Int := 17

namespace RTCPPacket

/-- The sender of a packet that has one. -/
def senderSSRC : RTCPPacket → BitVec 32
  | .RR ssrc _ | .CName ssrc _ | .BYE ssrc | .NACK ssrc _ | .PLI ssrc _ | .SLI ssrc _
  | .PSFBAPP ssrc _ | .TMMBR ssrc _ | .TMMBN ssrc _ | .FIR ssrc _ | .XR ssrc => ssrc
  | .SR sr => sr.SenderSSRC
  | .RPSI rpsi => rpsi.SenderSSRC
  | _ => 0

/-- The media source that a feedback packet is about. -/
def mediaSSRC : RTCPPacket → BitVec 32
  | .NACK _ ssrc | .PLI _ ssrc | .SLI _ ssrc | .PSFBAPP _ ssrc | .TMMBR _ ssrc | .TMMBN _ ssrc
  | .FIR _ ssrc => ssrc
  | .RPSI rpsi => rpsi.MediaSSRC
  | _ => 0

end RTCPPacket

namespace RTCPReceiver

open RTCPParserV2

/-- The receiver, and what it reports of a packet. `lastFIR` is the sequence number of the
last FIR of a remote and when it was, `clock` what the clock will read. Of the report blocks
there is only when the last one came. -/
structure Received where
  receiver : RTCPReceiver
  remoteSSRC : BitVec 32
  lastFIR : BitVec 32 → Int × Int := fun _ => (-1, 0)
  boundingSet : BitVec 32 → TMMBRSet := fun _ => .empty
  receivedCname : BitVec 32 → Option (List Byte) := fun _ => none
  lastReceived : Int := 0
  lastReceivedRrMs : Int := 0
  info : RTCPPacketInformation := {}
  clock : Nat → Int

namespace Received

variable (s : Received)

/-- The clock has been read. -/
def tick : Received := { s with clock := fun n => s.clock (n + 1) }

def signal (flag : BitVec 32) : Received :=
  { s with info.rtcpPacketTypeFlags := s.info.rtcpPacketTypeFlags ||| flag }

def isKnown (ssrc : BitVec 32) : Bool := (s.receiver.getReceiveInformation ssrc).isSome

/-! ## Items -/

def handleReportBlock (packet : RTCPPacket) : Received :=
  match packet with
  | .ReportBlockItem item =>
    if item.SSRC ≠ s.receiver.ssrc then s
    else { s.tick with lastReceivedRrMs := s.clock 0 }
  | _ => s

def handleSDESChunk (packet : RTCPPacket) : Received :=
  match packet with
  | .CName ssrc cname =>
    { s with receivedCname :=
        Function.update s.receivedCname ssrc (some (cname.take (RTCP_CNAME_SIZE - 1))) }
  | _ => s

def handleNACKItem (packet : RTCPPacket) : Received :=
  match packet with
  | .NACKItem packetID bitMask => { s with info := s.info.handleNACKItem packetID bitMask }
  | _ => s

def handleTMMBRItem (remote sender : BitVec 32) (packet : RTCPPacket) : Received :=
  match packet with
  | .TMMBRItem item =>
    if s.receiver.taken item then
      { s.tick with
        receiver := s.receiver.handleTMMBRItem remote sender item (s.clock 0) }.signal kRtcpTmmbr
    else s
  | _ => s

def handleTMMBNItem (remote : BitVec 32) (packet : RTCPPacket) : Received :=
  match packet with
  | .TMMBNItem item =>
    let set := s.boundingSet remote
    if h : set.lengthOfSet < set.sizeOfSet then
      let entry : SetElement := ⟨item.MaxTotalMediaBitRate, item.MeasuredOverhead, item.SSRC⟩
      { s with boundingSet := Function.update s.boundingSet remote (set.addEntry entry h) }
    else s
  | _ => s

def handleSLIItem (_ : RTCPPacket) : Received := s.signal kRtcpSli

def handleIJItem (_ : RTCPPacket) : Received := s.signal kRtcpTransmissionTimeOffset

def handleREMBItem : Received := s.signal kRtcpRemb

def handleFIRItem (remote : BitVec 32) (packet : RTCPPacket) : Received :=
  match packet with
  | .FIRItem ssrc commandSequenceNumber =>
    if s.receiver.ssrc ≠ ssrc then s
    else if s.isKnown remote then
      if (commandSequenceNumber.toNat : Int) ≠ (s.lastFIR remote).1 then
        if s.clock 0 - (s.lastFIR remote).2 > RTCP_MIN_FRAME_LENGTH_MS then
          let last : Int × Int := (commandSequenceNumber.toNat, s.clock 0)
          { s.tick with lastFIR := Function.update s.lastFIR remote last }.signal kRtcpFir
        else s.tick
      else s
    else s.signal kRtcpFir
  | _ => s

end Received

/-! ## Handlers -/

namespace Incoming

section Handlers

variable (m : Mem) (dataEnd fuel : Nat) (p : RTCPParserV2) (s : Received)

/-- A call of `Iterate` in a handler. -/
def iterated : Option (RTCPParserV2 × Received) := (iterateLoop m dataEnd fuel p).map (·, s)

/-- The loop of a handler: the items of a type, each followed by a call of `Iterate`. -/
def whileItems (itemType : RTCPPacketTypes) (onItem : Received → RTCPPacket → Received) :
    Option (RTCPParserV2 × Received) :=
  loop (fun x =>
    if x.1.packetType = itemType then
      (iterated m dataEnd fuel x.1 (onItem x.2 x.1.packet)).map .inr
    else some (.inl x)) fuel (p, s)

def handleItems (itemType : RTCPPacketTypes) (onItem : Received → RTCPPacket → Received) :
    Option (RTCPParserV2 × Received) :=
  (iterated m dataEnd fuel p s).bind fun x => whileItems m dataEnd fuel x.1 x.2 itemType onItem

def handleSenderReceiverReport : Option (RTCPParserV2 × Received) :=
  let remote := p.packet.senderSSRC
  let s := s.signal
    (if p.packetType = .kRtcpSrCode ∧ s.remoteSSRC = remote then kRtcpSr else kRtcpRr)
  let s := { s.tick with receiver := s.receiver.handleSenderReceiverReport remote (s.clock 0) }
  handleItems m dataEnd fuel p s .kRtcpReportBlockItemCode Received.handleReportBlock

def handleSDES : Option (RTCPParserV2 × Received) :=
  handleItems m dataEnd fuel p s .kRtcpSdesChunkCode Received.handleSDESChunk

def handleXRVOIPMetric : Option (RTCPParserV2 × Received) :=
  iterated m dataEnd fuel p <| match p.packet with
    | .XRVOIPMetricItem item =>
      if item.SSRC = s.receiver.ssrc then s.signal kRtcpXrVoipMetric else s
    | _ => s

def handleBYE : Option (RTCPParserV2 × Received) :=
  iterated m dataEnd fuel p { s with
    receiver := s.receiver.handleBYE p.packet.senderSSRC
    receivedCname := Function.update s.receivedCname p.packet.senderSSRC none }

def handleNACK : Option (RTCPParserV2 × Received) :=
  if s.receiver.ssrc ≠ p.packet.mediaSSRC then iterated m dataEnd fuel p s
  else handleItems m dataEnd fuel p { s with info := s.info.resetNACKPacketIdArray }
    .kRtcpRtpfbNackItemCode Received.handleNACKItem

/-- `LengthLeft`. -/
def lengthLeft : Int := (dataEnd : Int) - p.ptrRTCPData

def handleTMMBR : Option (RTCPParserV2 × Received) :=
  let remote := p.packet.senderSSRC
  if s.receiver.handlesTMMBR remote (lengthLeft dataEnd p) then
    let receiver := s.receiver.update remote fun info =>
      info.verifyAndAllocateTMMBRSet (lengthLeft dataEnd p / 8).toNat
    handleItems m dataEnd fuel p { s with receiver := receiver } .kRtcpRtpfbTmmbrItemCode
      fun s => s.handleTMMBRItem remote (tmmbrSender remote p.packet.mediaSSRC)
  else iterated m dataEnd fuel p s

def handleTMMBN : Option (RTCPParserV2 × Received) :=
  let remote := p.packet.senderSSRC
  if ¬ s.isKnown remote then iterated m dataEnd fuel p s
  else if lengthLeft dataEnd p / 8 > 200 then iterated m dataEnd fuel p (s.signal kRtcpTmmbn)
  else
    let set := (s.boundingSet remote).verifyAndAllocateSet (lengthLeft dataEnd p / 8).toNat
    let s := { s.signal kRtcpTmmbn with
      boundingSet := Function.update s.boundingSet remote set }
    handleItems m dataEnd fuel p s .kRtcpRtpfbTmmbnItemCode fun s => s.handleTMMBNItem remote

def handleSR_REQ : Option (RTCPParserV2 × Received) :=
  iterated m dataEnd fuel p (s.signal kRtcpSrReq)

def handlePLI : Option (RTCPParserV2 × Received) :=
  iterated m dataEnd fuel p
    (if s.receiver.ssrc = p.packet.mediaSSRC then s.signal kRtcpPli else s)

def handleSLI : Option (RTCPParserV2 × Received) :=
  handleItems m dataEnd fuel p s .kRtcpPsfbSliItemCode Received.handleSLIItem

def handleRPSI : Option (RTCPParserV2 × Received) :=
  (iterated m dataEnd fuel p s).bind fun x =>
    if x.1.packetType = .kRtcpPsfbRpsiCode then
      let s := x.2.signal kRtcpRpsi
      match x.1.packet with
      | .RPSI rpsi =>
        if rpsi.NumberOfValidBits % 8 ≠ 0 then iterated m dataEnd fuel x.1 s -- to us unknown
        else some (x.1, { s with info := s.info.handleRPSIItem rpsi })
      | _ => some (x.1, s)
    else some x

def handleIJ : Option (RTCPParserV2 × Received) :=
  handleItems m dataEnd fuel p s .kRtcpExtendedIjItemCode Received.handleIJItem

def handleFIR : Option (RTCPParserV2 × Received) :=
  let remote := p.packet.senderSSRC
  handleItems m dataEnd fuel p s .kRtcpPsfbFirItemCode fun s => s.handleFIRItem remote

def handlePsfbApp : Option (RTCPParserV2 × Received) :=
  (iterated m dataEnd fuel p s).bind fun x =>
    if x.1.packetType = .kRtcpPsfbRembCode then
      (iterated m dataEnd fuel x.1 x.2).bind fun x =>
        if x.1.packetType = .kRtcpPsfbRembItemCode then
          iterated m dataEnd fuel x.1 x.2.handleREMBItem
        else some x
    else some x

def handleAPP : Option (RTCPParserV2 × Received) :=
  iterated m dataEnd fuel p (s.signal kRtcpApp)

/-- Its data is not kept here. -/
def handleAPPItem : Option (RTCPParserV2 × Received) := iterated m dataEnd fuel p s

/-- The `switch` of `IncomingRTCPPacket`. -/
def handlePacket : Option (RTCPParserV2 × Received) :=
  match p.packetType with
  | .kRtcpSrCode | .kRtcpRrCode => handleSenderReceiverReport m dataEnd fuel p s
  | .kRtcpSdesCode => handleSDES m dataEnd fuel p s
  | .kRtcpXrVoipMetricCode => handleXRVOIPMetric m dataEnd fuel p s
  | .kRtcpByeCode => handleBYE m dataEnd fuel p s
  | .kRtcpRtpfbNackCode => handleNACK m dataEnd fuel p s
  | .kRtcpRtpfbTmmbrCode => handleTMMBR m dataEnd fuel p s
  | .kRtcpRtpfbTmmbnCode => handleTMMBN m dataEnd fuel p s
  | .kRtcpRtpfbSrReqCode => handleSR_REQ m dataEnd fuel p s
  | .kRtcpPsfbPliCode => handlePLI m dataEnd fuel p s
  | .kRtcpPsfbSliCode => handleSLI m dataEnd fuel p s
  | .kRtcpPsfbRpsiCode => handleRPSI m dataEnd fuel p s
  | .kRtcpExtendedIjCode => handleIJ m dataEnd fuel p s
  | .kRtcpPsfbFirCode => handleFIR m dataEnd fuel p s
  | .kRtcpPsfbAppCode => handlePsfbApp m dataEnd fuel p s
  | .kRtcpAppCode => handleAPP m dataEnd fuel p s
  | .kRtcpAppItemCode => handleAPPItem m dataEnd fuel p s
  | _ => iterated m dataEnd fuel p s

/-- The packets that the parser returns, until it returns none. -/
def incomingRTCPPacket (rtcpReducedSizeEnable : Bool) (s : Received) : Option Received :=
  let s := { s.tick with lastReceived := s.clock 0 }
  let start := (new m dataEnd rtcpReducedSizeEnable).moveTo 0
  (iterateLoop m dataEnd fuel start).bind fun p =>
    loop (fun x =>
      if x.1.packetType ≠ .kRtcpNotValidCode then
        (handlePacket m dataEnd fuel x.1 x.2).map .inr
      else some (.inl x.2)) fuel (p, s)

end Handlers

/-! ## They end -/

/-- The parser between two calls of `Iterate`: where it has a packet, behind the end of the
buffer by four bytes at most. -/
structure Ready (dataEnd : Nat) (p : RTCPParserV2) : Prop where
  reachable : Reachable dataEnd p
  packet : p.packetType ≠ .kRtcpNotValidCode →
    p.validPacket = true ∧ p.ptrRTCPData ≤ dataEnd + 4

/-- The bytes to come, if there is a packet. -/
def remaining (dataEnd : Nat) (p : RTCPParserV2) : Nat :=
  if p.packetType = .kRtcpNotValidCode then 0 else dataEnd + 5 - p.ptrRTCPData

/-- What a handler leaves: the parser has moved on. -/
def MovedOn (dataEnd : Nat) (p : RTCPParserV2) (x : RTCPParserV2 × Received) : Prop :=
  Ready dataEnd x.1 ∧ remaining dataEnd x.1 < remaining dataEnd p

/-- The handler ends, with the same result for any fuel that is enough. -/
def Handles (dataEnd : Nat) (p : RTCPParserV2) (f : Nat → Option (RTCPParserV2 × Received)) :
    Prop :=
  Settles (dataEnd + 6) f (MovedOn dataEnd p)

section Ends

variable {m : Mem} {dataEnd : Nat} {p : RTCPParserV2}

theorem remaining_le (dataEnd : Nat) (p : RTCPParserV2) : remaining dataEnd p ≤ dataEnd + 5 := by
  unfold remaining
  split
  · exact Nat.zero_le _
  · exact Nat.sub_le _ _

theorem MovedOn.trans {x y : RTCPParserV2 × Received} (hx : MovedOn dataEnd p x)
    (hy : MovedOn dataEnd x.1 y) : MovedOn dataEnd p y :=
  ⟨hy.1, hy.2.trans hx.2⟩

theorem ready_of_iterateSpec {p' : RTCPParserV2} {pos : Nat}
    (h : IterateSpec m dataEnd pos p p') (hvalid : p.validPacket = true) : Ready dataEnd p' :=
  ⟨h.reachable, fun hty => ⟨h.valid.trans hvalid, (h.progress hty).2⟩⟩

/-- A call of `Iterate` where there is a packet. -/
theorem iterate_movedOn (hp : Ready dataEnd p) (hty : p.packetType ≠ .kRtcpNotValidCode)
    (s : Received) : MovedOn dataEnd p (iterate m dataEnd p, s) := by
  obtain ⟨hvalid, hle⟩ := hp.packet hty
  have h := iterate_spec (m := m) hp.reachable hvalid
  refine ⟨ready_of_iterateSpec h hvalid, ?_⟩
  show remaining dataEnd (iterate m dataEnd p) < remaining dataEnd p
  unfold remaining
  rw [if_neg hty]
  by_cases hend : (iterate m dataEnd p).packetType = .kRtcpNotValidCode
  · rw [if_pos hend]
    omega
  · have hmoved := h.progress hend
    rw [if_neg hend]
    omega

theorem iterated_handles (hp : Ready dataEnd p) (hty : p.packetType ≠ .kRtcpNotValidCode)
    (s : Received) : Handles dataEnd p fun fuel => iterated m dataEnd fuel p s := by
  refine ⟨(iterate m dataEnd p, s), iterate_movedOn hp hty s, fun fuel hfuel => ?_⟩
  show iterated m dataEnd fuel p s = _
  rw [iterated, iterateLoop_eq hp.reachable (by omega), Option.map_some]

/-- The loop over the items: each of them is a packet. -/
theorem whileItems_handles {itemType : RTCPPacketTypes} (hitem : itemType ≠ .kRtcpNotValidCode)
    (onItem : Received → RTCPPacket → Received) {x : RTCPParserV2 × Received}
    (hx : MovedOn dataEnd p x) :
    Handles dataEnd p fun fuel => whileItems m dataEnd fuel x.1 x.2 itemType onItem := by
  refine @loop_settles _ _ (dataEnd + 6) _ (MovedOn dataEnd p) (fun x => remaining dataEnd x.1)
    (MovedOn dataEnd p) (fun y hy => ?_) x hx (Nat.lt_succ_of_le (remaining_le dataEnd x.1))
  by_cases hty : y.1.packetType = itemType
  · simp only [if_pos hty]
    have hnext := iterated_handles (m := m) hy.1 (hty ▸ hitem) (onItem y.2 y.1.packet)
    exact hnext.map fun z hz => ⟨hy.trans hz, hz.2⟩
  · simp only [if_neg hty]
    exact Settles.pure hy

theorem handleItems_handles (hp : Ready dataEnd p) (hty : p.packetType ≠ .kRtcpNotValidCode)
    {itemType : RTCPPacketTypes} (hitem : itemType ≠ .kRtcpNotValidCode) (s : Received)
    (onItem : Received → RTCPPacket → Received) :
    Handles dataEnd p fun fuel => handleItems m dataEnd fuel p s itemType onItem :=
  (iterated_handles hp hty s).bind fun _ hx => whileItems_handles hitem onItem hx

theorem handleRPSI_handles (hp : Ready dataEnd p) (hty : p.packetType ≠ .kRtcpNotValidCode)
    (s : Received) : Handles dataEnd p fun fuel => handleRPSI m dataEnd fuel p s := by
  refine (iterated_handles hp hty s).bind fun x hx => ?_
  by_cases hrpsi : x.1.packetType = .kRtcpPsfbRpsiCode
  · simp only [if_pos hrpsi]
    split
    · split
      · exact (iterated_handles hx.1 (by rw [hrpsi]; decide) _).mono fun _ => hx.trans
      · exact Settles.pure hx
    · exact Settles.pure hx
  · simp only [if_neg hrpsi]
    exact Settles.pure hx

theorem handlePsfbApp_handles (hp : Ready dataEnd p) (hty : p.packetType ≠ .kRtcpNotValidCode)
    (s : Received) : Handles dataEnd p fun fuel => handlePsfbApp m dataEnd fuel p s := by
  refine (iterated_handles hp hty s).bind fun x hx => ?_
  by_cases hremb : x.1.packetType = .kRtcpPsfbRembCode
  · simp only [if_pos hremb]
    refine (iterated_handles hx.1 (by rw [hremb]; decide) x.2).bind fun y hy => ?_
    by_cases hitem : y.1.packetType = .kRtcpPsfbRembItemCode
    · simp only [if_pos hitem]
      exact (iterated_handles hy.1 (by rw [hitem]; decide) _).mono fun _ hz => hx.trans (hy.trans hz)
    · simp only [if_neg hitem]
      exact Settles.pure (hx.trans hy)
  · simp only [if_neg hremb]
    exact Settles.pure hx

/-- Every handler ends, with the parser moved on. -/
theorem handlePacket_handles (hp : Ready dataEnd p) (hty : p.packetType ≠ .kRtcpNotValidCode)
    (s : Received) : Handles dataEnd p fun fuel => handlePacket m dataEnd fuel p s := by
  have hone : ∀ s, Handles dataEnd p fun fuel => iterated m dataEnd fuel p s :=
    iterated_handles hp hty
  have hitems {itemType : RTCPPacketTypes} (hitem : itemType ≠ .kRtcpNotValidCode) (s : Received)
      (onItem : Received → RTCPPacket → Received) :
      Handles dataEnd p fun fuel => handleItems m dataEnd fuel p s itemType onItem :=
    handleItems_handles hp hty hitem s onItem
  unfold handlePacket
  split
  · exact hitems (by decide) _ _
  · exact hitems (by decide) _ _
  · exact hitems (by decide) _ _
  · exact hone _
  · exact hone _
  · unfold handleNACK
    split
    · exact hone _
    · exact hitems (by decide) _ _
  · unfold handleTMMBR
    dsimp only
    split
    · exact hitems (by decide) _ _
    · exact hone _
  · unfold handleTMMBN
    dsimp only
    split
    · exact hone _
    split
    · exact hone _
    · exact hitems (by decide) _ _
  · exact hone _
  · exact hone _
  · exact hitems (by decide) _ _
  · exact handleRPSI_handles hp hty s
  · exact hitems (by decide) _ _
  · exact hitems (by decide) _ _
  · exact handlePsfbApp_handles hp hty s
  · exact hone _
  · exact hone _
  · exact hone _

theorem start_reachable (m : Mem) (dataEnd : Nat) (rtcpReducedSizeEnable : Bool) :
    Reachable dataEnd ((new m dataEnd rtcpReducedSizeEnable).moveTo 0) :=
  ⟨by show ParseState.TopLevel ≠ .XRItem; decide, .inr (Nat.dvd_zero 4), fun h => absurd rfl h⟩

/-- The state in which `Begin` leaves the parser. -/
theorem begin_ready (m : Mem) (dataEnd : Nat) (rtcpReducedSizeEnable : Bool) :
    Ready dataEnd (begin m dataEnd (new m dataEnd rtcpReducedSizeEnable)) := by
  cases hvalid : validate m dataEnd rtcpReducedSizeEnable with
  | true => exact ready_of_iterateSpec (begin_spec hvalid) hvalid
  | false =>
    have hbegin : begin m dataEnd (new m dataEnd rtcpReducedSizeEnable) =
        { (new m dataEnd rtcpReducedSizeEnable).moveTo 0 with packetType := .kRtcpNotValidCode } :=
      iterate_of_not_valid hvalid
    rw [hbegin]
    have hstart := start_reachable m dataEnd rtcpReducedSizeEnable
    exact ⟨⟨hstart.state, hstart.aligned, hstart.block⟩, fun hne => absurd rfl hne⟩

theorem begin_settles (m : Mem) (dataEnd : Nat) (rtcpReducedSizeEnable : Bool) :
    Settles (dataEnd + 6)
      (fun fuel => iterateLoop m dataEnd fuel ((new m dataEnd rtcpReducedSizeEnable).moveTo 0))
      (Ready dataEnd) :=
  ⟨_, begin_ready m dataEnd rtcpReducedSizeEnable, fun _ hfuel =>
    iterateLoop_eq (start_reachable m dataEnd rtcpReducedSizeEnable) (by omega)⟩

/-- For any bytes of the packet there is a bound on the rounds of every loop, and with that
many rounds the packet is handled to its end. -/
theorem incomingRTCPPacket_ends (m : Mem) (dataEnd : Nat) (rtcpReducedSizeEnable : Bool)
    (s : Received) : ∃ s', ∀ fuel ≥ dataEnd + 6,
      incomingRTCPPacket m dataEnd fuel rtcpReducedSizeEnable s = some s' := by
  have hends : Settles (dataEnd + 6)
      (fun fuel => incomingRTCPPacket m dataEnd fuel rtcpReducedSizeEnable s) fun _ => True := by
    refine (begin_settles m dataEnd rtcpReducedSizeEnable).bind fun p hp => ?_
    refine @loop_settles _ _ (dataEnd + 6) _ (fun x => Ready dataEnd x.1)
      (fun x => remaining dataEnd x.1) (fun _ => True) (fun x hx => ?_) _ hp
      (Nat.lt_succ_of_le (remaining_le dataEnd p))
    by_cases hty : x.1.packetType = .kRtcpNotValidCode
    · simp only [if_neg (not_not_intro hty)]
      exact Settles.pure trivial
    · simp only [if_pos hty]
      exact (handlePacket_handles hx hty x.2).map fun _ hy => hy
  obtain ⟨s', -, hs'⟩ := hends
  exact ⟨s', hs'⟩

end Ends

end Incoming

end RTCPReceiver

end PerchWebrtc.Rtcp
