import PerchWebrtc.Tcp.FifoBuffer

/-!
# A stream over datagrams

`PseudoTcp` (`pseudotcp.cc`): one endpoint. Each call takes the state to the
state after it; the clock and the network are parameters, and the datagrams
that are written and the notifications are recorded in the state.
-/

namespace PerchWebrtc.Tcp

abbrev U32 := BitVec 32

def PACKET_MAXIMUMS : List U32 :=
  [65535, 32000, 17914, 8166, 4352, 2002, 1492, 1006, 508, 296, 0]

def MAX_PACKET : U32 := 65535
def MIN_PACKET : U32 := 296
def IP_HEADER_SIZE : U32 := 20
def UDP_HEADER_SIZE : U32 := 8
def JINGLE_HEADER_SIZE : U32 := 64
def DEFAULT_RCV_BUF_SIZE : U32 := 60 * 1024
def DEFAULT_SND_BUF_SIZE : U32 := 90 * 1024
def HEADER_SIZE : U32 := 24
def PACKET_OVERHEAD : U32 := HEADER_SIZE + UDP_HEADER_SIZE + IP_HEADER_SIZE + JINGLE_HEADER_SIZE
def MIN_RTO : U32 := 250
def DEF_RTO : U32 := 3000
def MAX_RTO : U32 := 60000
def DEF_ACK_DELAY : U32 := 100
def FLAG_CTL : Byte := 0x02
def FLAG_RST : Byte := 0x04
def CTL_CONNECT : Byte := 0
def TCP_OPT_EOL : Byte := 0
def TCP_OPT_NOOP : Byte := 1
def TCP_OPT_WND_SCALE : Byte := 3

/-- `talk_base::_min` and `talk_base::_max`. -/
def uMin (a b : U32) : U32 := if b < a then b else a

def uMax (a b : U32) : U32 := if a < b then b else a

def bound (lower middle upper : U32) : U32 := uMin (uMax lower middle) upper

/-- `talk_base::TimeDiff`. -/
def timeDiff (later earlier : U32) : Int := (later - earlier).toInt

def longToBytes (v : U32) : List Byte :=
  [v.extractLsb' 24 8, v.extractLsb' 16 8, v.extractLsb' 8 8, v.extractLsb' 0 8]

def shortToBytes (v : BitVec 16) : List Byte := [v.extractLsb' 8 8, v.extractLsb' 0 8]

inductive TcpState where
  | TCP_LISTEN
  | TCP_SYN_SENT
  | TCP_SYN_RECEIVED
  | TCP_ESTABLISHED
  | TCP_CLOSED
  deriving DecidableEq

inductive Shutdown where
  | SD_NONE
  | SD_GRACEFUL
  | SD_FORCEFUL
  deriving DecidableEq

inductive WriteResult where
  | WR_SUCCESS
  | WR_TOO_LARGE
  | WR_FAIL
  deriving DecidableEq

inductive SendFlags where
  | sfNone
  | sfDelayedAck
  | sfImmediateAck
  deriving DecidableEq

inductive Errno where
  | EINVAL
  | ENOTCONN
  | EWOULDBLOCK
  | ECONNABORTED
  | ECONNRESET
  deriving DecidableEq

/-- The calls of `IPseudoTcpNotify` that tell the user something. -/
inductive TcpEvent where
  | OnTcpOpen
  | OnTcpReadable
  | OnTcpWriteable
  | OnTcpClosed (error : Errno)
  deriving DecidableEq

structure Segment where
  conv : U32
  seq : U32
  ack : U32
  flags : Byte
  wnd : BitVec 16
  data : Mem
  len : U32
  tsval : U32
  tsecr : U32

structure SSegment where
  seq : U32
  len : U32
  xmit : Byte := 0
  bCtrl : Bool
  deriving DecidableEq

structure RSegment where
  seq : U32
  len : U32
  deriving DecidableEq

/-- What an endpoint does not control: the readings of the clock, and what
`TcpWritePacket` returns for each datagram. -/
structure Env where
  now : Nat → U32
  tcpWritePacket : Nat → WriteResult

structure PseudoTcp where
  shutdown : Shutdown := .SD_NONE
  error : Option Errno := none
  state : TcpState := .TCP_LISTEN
  conv : U32
  bReadEnable : Bool := true
  bWriteEnable : Bool := false
  bOutgoing : Bool := false
  lasttraffic : U32
  rlist : List RSegment := []
  rbufLen : U32 := DEFAULT_RCV_BUF_SIZE
  rcvNxt : U32 := 0
  rcvWnd : U32 := DEFAULT_RCV_BUF_SIZE
  lastrecv : U32
  rwndScale : Byte := 0
  rbuf : FifoBuffer
  slist : List SSegment := []
  sbufLen : U32 := DEFAULT_SND_BUF_SIZE
  sndNxt : U32 := 0
  sndWnd : U32 := 1
  lastsend : U32
  sndUna : U32 := 0
  swndScale : Byte := 0
  sbuf : FifoBuffer
  mss : U32 := MIN_PACKET - PACKET_OVERHEAD
  msslevel : Nat := 0
  largest : U32 := 0
  mtuAdvise : U32 := MAX_PACKET
  rtoBase : U32 := 0
  tsRecent : U32 := 0
  tsLastack : U32 := 0
  rxRttvar : U32 := 0
  rxSrtt : U32 := 0
  rxRto : U32 := DEF_RTO
  ssthresh : U32 := DEFAULT_RCV_BUF_SIZE
  cwnd : U32 := 2 * (MIN_PACKET - PACKET_OVERHEAD)
  dupAcks : Byte := 0
  recover : U32 := 0
  tAck : U32 := 0
  useNagling : Bool := true
  ackDelay : U32 := DEF_ACK_DELAY
  supportWndScale : Bool := true
  /-- How often the clock has been read. -/
  nowCalls : Nat := 1
  /-- The datagrams that have been written. -/
  written : List (List Byte) := []
  notified : List TcpEvent := []

namespace PseudoTcp

/-- The constructor; `memory` is what the new buffers hold. -/
def create (env : Env) (conv : U32) (memory : Mem) : PseudoTcp where
  conv := conv
  lasttraffic := env.now 0
  lastrecv := env.now 0
  lastsend := env.now 0
  rbuf := FifoBuffer.create DEFAULT_RCV_BUF_SIZE.toNat memory
  sbuf := FifoBuffer.create DEFAULT_SND_BUF_SIZE.toNat memory

variable (env : Env)

def now (s : PseudoTcp) : U32 × PseudoTcp :=
  (env.now s.nowCalls, { s with nowCalls := s.nowCalls + 1 })

def notify (event : TcpEvent) (s : PseudoTcp) : PseudoTcp :=
  { s with notified := s.notified ++ [event] }

def closedown (err : Errno) (s : PseudoTcp) : PseudoTcp :=
  { s with state := .TCP_CLOSED }.notify (.OnTcpClosed err)

/-! ## Writing datagrams -/

/-- The bytes that `ReadOffset` does not provide are indeterminate; that there
are none is an assertion of the source. -/
def packet (seq : U32) (flags : Byte) (offset len : U32) (s : PseudoTcp) :
    WriteResult × PseudoTcp :=
  let (now, s) := s.now env
  let header := longToBytes s.conv ++ longToBytes seq ++ longToBytes s.rcvNxt ++ [0, flags] ++
    shortToBytes ((s.rcvWnd >>> s.rwndScale.toNat).setWidth 16) ++ longToBytes now ++
    longToBytes s.tsRecent
  let payload :=
    if len ≠ 0 then ((s.sbuf.readOffset len.toNat offset.toNat).getD []).takeD len.toNat 0 else []
  let wres := env.tcpWritePacket s.written.length
  let s := { s with
    tsLastack := s.rcvNxt
    written := s.written ++ [header ++ payload] }
  if wres ≠ .WR_SUCCESS ∧ len ≠ 0 then (wres, s)
  else
    (.WR_SUCCESS, { s with
      tAck := 0
      lastsend := if 0 < len then now else s.lastsend
      lasttraffic := now
      bOutgoing := true })

/-- The segment at a place of the list in two; both keep the number of
transmissions. -/
def splitSegment (i : Nat) (n : U32) (s : PseudoTcp) : PseudoTcp :=
  match s.slist[i]? with
  | none => s
  | some seg =>
    if n < seg.len then
      { s with slist := s.slist.take i ++
        [{ seg with len := n },
          { seq := seg.seq + n, len := seg.len - n, xmit := seg.xmit, bCtrl := seg.bCtrl }] ++
        s.slist.drop (i + 1) }
    else s

/-- The next smaller MSS below the size that was too large. -/
def reduceMss (nTransmit : U32) : Nat → PseudoTcp → Bool × PseudoTcp
  | 0, s => (false, s)
  | fuel + 1, s =>
    if PACKET_MAXIMUMS.getD (s.msslevel + 1) 0 = 0 then (false, s)
    else
      let mss := PACKET_MAXIMUMS.getD (s.msslevel + 1) 0 - PACKET_OVERHEAD
      let s := { s with msslevel := s.msslevel + 1, mss := mss, cwnd := 2 * mss }
      if mss < nTransmit then (true, s) else reduceMss nTransmit fuel s

/-- The loop of `transmit`: the number of bytes that were sent, unless it
fails. Each iteration but the last raises `msslevel`. -/
def transmitLoop (seg : SSegment) : Nat → U32 → PseudoTcp → Option U32 × PseudoTcp
  | 0, _, s => (none, s)
  | fuel + 1, nTransmit, s =>
    match s.packet env seg.seq (if seg.bCtrl then FLAG_CTL else 0) (seg.seq - s.sndUna) nTransmit with
    | (.WR_SUCCESS, s) => (some nTransmit, s)
    | (.WR_FAIL, s) => (none, s)
    | (.WR_TOO_LARGE, s) =>
      match s.reduceMss nTransmit PACKET_MAXIMUMS.length with
      | (false, s) => (none, s)
      | (true, s) => transmitLoop seg fuel s.mss s

/-- The end of `transmit`. -/
def markTransmitted (i : Nat) (now : U32) (s : PseudoTcp) : PseudoTcp :=
  match s.slist[i]? with
  | none => s
  | some seg =>
    { s with
      slist := s.slist.set i { seg with xmit := seg.xmit + 1 }
      sndNxt := if seg.xmit = 0 then s.sndNxt + seg.len else s.sndNxt
      rtoBase := if s.rtoBase = 0 then now else s.rtoBase }

/-- `transmit` of the segment at a place of the list. -/
def transmit (i : Nat) (now : U32) (s : PseudoTcp) : Bool × PseudoTcp :=
  match s.slist[i]? with
  | none => (false, s)
  | some seg =>
    if (if s.state = .TCP_ESTABLISHED then 15 else 30) ≤ seg.xmit.toNat then (false, s)
    else
      match s.transmitLoop env seg PACKET_MAXIMUMS.length (uMin seg.len s.mss) with
      | (none, s) => (false, s)
      | (some nTransmit, s) => (true, (s.splitSegment i nTransmit).markTransmitted i now)

/-- `nAvailable` of `attemptSend`: the bytes that may be sent. -/
def available (s : PseudoTcp) : U32 :=
  let cwnd :=
    if s.dupAcks = 1 ∨ s.dupAcks = 2 then s.cwnd + s.dupAcks.setWidth 32 * s.mss else s.cwnd
  let nWindow := uMin s.sndWnd cwnd
  let nInFlight := s.sndNxt - s.sndUna
  let nUseable := if nInFlight < nWindow then nWindow - nInFlight else 0
  let nAvailable := uMin (BitVec.ofNat 32 s.sbuf.getBuffered - nInFlight) s.mss
  if nUseable < nAvailable then
    if nUseable * 4 < nWindow then 0 else nUseable
  else nAvailable

/-- The loop of `attemptSend`. Each iteration transmits a segment for the first
time; if there were none, the iterator would leave the list. -/
def attemptSendLoop (now : U32) : Nat → SendFlags → PseudoTcp → PseudoTcp
  | 0, _, s => s
  | fuel + 1, sflags, s =>
    let nAvailable := s.available
    if nAvailable = 0 then
      if sflags = .sfNone then s
      else if sflags = .sfImmediateAck ∨ s.tAck ≠ 0 then (s.packet env s.sndNxt 0 0 0).2
      else
        let (now, s) := s.now env
        { s with tAck := now }
    else if s.useNagling ∧ s.sndUna < s.sndNxt ∧ nAvailable < s.mss then s
    else
      match s.slist.findIdx? (·.xmit = 0) with
      | none => s
      | some i =>
        match (s.splitSegment i nAvailable).transmit env i now with
        | (false, s) => s
        | (true, s) => attemptSendLoop now fuel .sfNone s

def attemptSend (sflags : SendFlags) (s : PseudoTcp) : PseudoTcp :=
  let (now, s) := s.now env
  let s := if (s.rxRto.toNat : Int) < timeDiff now s.lastsend then { s with cwnd := s.mss } else s
  s.attemptSendLoop env now (s.sbuf.getBuffered + s.slist.length + 1) sflags

/-! ## The user's calls -/

/-- `queue`: the number of bytes that were accepted. -/
def queue (data : List Byte) (len : U32) (bCtrl : Bool) (s : PseudoTcp) : U32 × PseudoTcp :=
  let availableSpace := BitVec.ofNat 32 s.sbuf.getWriteRemaining
  let len := if availableSpace < len then availableSpace else len
  let slist :=
    match s.slist.getLast? with
    | some seg =>
      if seg.bCtrl = bCtrl ∧ seg.xmit = 0 then
        s.slist.dropLast ++ [{ seg with len := seg.len + len }]
      else
        s.slist ++ [{ seq := s.sndUna + BitVec.ofNat 32 s.sbuf.getBuffered, len := len,
                      bCtrl := bCtrl }]
    | none =>
      [{ seq := s.sndUna + BitVec.ofNat 32 s.sbuf.getBuffered, len := len, bCtrl := bCtrl }]
  let (written, sbuf) := s.sbuf.write (Mem.ofList data) len.toNat
  (BitVec.ofNat 32 written, { s with slist := slist, sbuf := sbuf })

def queueConnectMessage (s : PseudoTcp) : PseudoTcp :=
  let message :=
    CTL_CONNECT :: if s.supportWndScale then [TCP_OPT_WND_SCALE, 1, s.rwndScale] else []
  ({ s with sndWnd := BitVec.ofNat 32 message.length }.queue message
    (BitVec.ofNat 32 message.length) true).2

def connect (s : PseudoTcp) : Int × PseudoTcp :=
  if s.state ≠ .TCP_LISTEN then (-1, { s with error := some .EINVAL })
  else (0, { s with state := .TCP_SYN_SENT }.queueConnectMessage.attemptSend env .sfNone)

/-- `Send`; `none` stands for `SOCKET_ERROR`. -/
def send (data : List Byte) (s : PseudoTcp) : Option U32 × PseudoTcp :=
  if s.state ≠ .TCP_ESTABLISHED then (none, { s with error := some .ENOTCONN })
  else if s.sbuf.getWriteRemaining = 0 then
    (none, { s with bWriteEnable := true, error := some .EWOULDBLOCK })
  else
    let (written, s) := s.queue data (BitVec.ofNat 32 data.length) false
    (some written, s.attemptSend env .sfNone)

/-- `Recv`: the bytes that were read; `none` stands for `SOCKET_ERROR`. -/
def recv (len : Nat) (s : PseudoTcp) : Option (List Byte) × PseudoTcp :=
  if s.state ≠ .TCP_ESTABLISHED then (none, { s with error := some .ENOTCONN })
  else
    match s.rbuf.read len with
    | none => (none, { s with bReadEnable := true, error := some .EWOULDBLOCK })
    | some (bytes, rbuf) =>
      let s := { s with rbuf := rbuf }
      let availableSpace := BitVec.ofNat 32 s.rbuf.getWriteRemaining
      if uMin (s.rbufLen / 2) s.mss ≤ availableSpace - s.rcvWnd then
        let bWasClosed := s.rcvWnd = 0
        let s := { s with rcvWnd := availableSpace }
        (some bytes, if bWasClosed then s.attemptSend env .sfImmediateAck else s)
      else (some bytes, s)

def close (force : Bool) (s : PseudoTcp) : PseudoTcp :=
  { s with shutdown := if force then .SD_FORCEFUL else .SD_GRACEFUL }

def adjustMTU (s : PseudoTcp) : PseudoTcp :=
  let mss := s.mtuAdvise - PACKET_OVERHEAD
  { s with
    msslevel := ((List.range 9).find? fun i => PACKET_MAXIMUMS.getD i 0 ≤ s.mtuAdvise).getD 9
    mss := mss
    ssthresh := uMax s.ssthresh (2 * mss)
    cwnd := uMax s.cwnd mss }

def notifyMTU (mtu : BitVec 16) (s : PseudoTcp) : PseudoTcp :=
  let s := { s with mtuAdvise := mtu.setWidth 32 }
  if s.state = .TCP_ESTABLISHED then s.adjustMTU else s

/-! ## Options -/

def resizeSendBuffer (newSize : U32) (s : PseudoTcp) : PseudoTcp :=
  { s with sbufLen := newSize, sbuf := (s.sbuf.setCapacity newSize.toNat).2 }

/-- The scale factor that makes a size fit into 16 bits, and the size. -/
def scaleFactor : Nat → U32 → Byte × U32
  | 0, newSize => (0, newSize)
  | fuel + 1, newSize =>
    if 0xFFFF < newSize then
      let scaled := scaleFactor fuel (newSize >>> 1)
      (scaled.1 + 1, scaled.2)
    else (0, newSize)

def resizeReceiveBuffer (newSize : U32) (s : PseudoTcp) : PseudoTcp :=
  let scaled := scaleFactor 16 newSize
  let newSize := scaled.2 <<< scaled.1.toNat
  let rbuf := (s.rbuf.setCapacity newSize.toNat).2
  { s with
    rbuf := rbuf
    rbufLen := newSize
    rwndScale := scaled.1
    ssthresh := newSize
    rcvWnd := BitVec.ofNat 32 rbuf.getWriteRemaining }

inductive TcpOption where
  | OPT_NODELAY
  | OPT_ACKDELAY
  | OPT_SNDBUF
  | OPT_RCVBUF
  deriving DecidableEq

def setOption (opt : TcpOption) (value : U32) (s : PseudoTcp) : PseudoTcp :=
  match opt with
  | .OPT_NODELAY => { s with useNagling := value = 0 }
  | .OPT_ACKDELAY => { s with ackDelay := value }
  | .OPT_SNDBUF => s.resizeSendBuffer value
  | .OPT_RCVBUF => s.resizeReceiveBuffer value

/-! ## Incoming datagrams -/

def applyWindowScaleOption (scaleFactor : Byte) (s : PseudoTcp) : PseudoTcp :=
  { s with swndScale := scaleFactor }

def applyOption (kind : Byte) (data : Mem) (len : Nat) (s : PseudoTcp) : PseudoTcp :=
  if kind = TCP_OPT_WND_SCALE ∧ len = 1 then s.applyWindowScaleOption (data 0) else s

/-- The loop of `parseOptions` over the `len` bytes that remain: the options
that were found, or `none` if it gives up. Each iteration takes one byte at
least. -/
def optionLoop : Nat → Mem → Nat → PseudoTcp → Option (List Byte) × PseudoTcp
  | 0, _, _, s => (some [], s)
  | fuel + 1, data, len, s =>
    if len = 0 ∨ data 0 = TCP_OPT_EOL then (some [], s)
    else if data 0 = TCP_OPT_NOOP then optionLoop fuel (fun i => data (1 + i)) (len - 1) s
    else
      let kind := data 0
      let header := if len = 1 then 1 else 2
      let optLen := if len = 1 then 0 else (data 1).toNat
      if optLen ≤ len - header then
        let rest := optionLoop fuel (fun i => data (header + optLen + i)) (len - header - optLen)
          (s.applyOption kind (fun i => data (header + i)) optLen)
        (rest.1.map (kind :: ·), rest.2)
      else (none, s)

def parseOptions (data : Mem) (len : U32) (s : PseudoTcp) : PseudoTcp :=
  match optionLoop len.toNat data len.toNat s with
  | (none, s) => s
  | (some optionsSpecified, s) =>
    if TCP_OPT_WND_SCALE ∉ optionsSpecified ∧ 0 < s.rwndScale then
      { s.resizeReceiveBuffer DEFAULT_RCV_BUF_SIZE with swndScale := 0 }
    else s

/-- The control data of a segment: whether it is the connect message, or
`none` if the segment is refused. -/
def processControl (seg : Segment) (s : PseudoTcp) : Option Bool × PseudoTcp :=
  if seg.flags &&& FLAG_CTL = 0 then (some false, s)
  else if seg.len = 0 then (none, s)
  else if seg.data 0 = CTL_CONNECT then
    let s := s.parseOptions (fun i => seg.data (1 + i)) (seg.len - 1)
    if s.state = .TCP_LISTEN then
      (some true, { s with state := .TCP_SYN_RECEIVED }.queueConnectMessage)
    else if s.state = .TCP_SYN_SENT then
      (some true, { s with state := .TCP_ESTABLISHED }.adjustMTU.notify .OnTcpOpen)
    else (some true, s)
  else (none, s)

def updateTimestamp (seg : Segment) (s : PseudoTcp) : PseudoTcp :=
  if seg.seq ≤ s.tsLastack ∧ s.tsLastack < seg.seq + seg.len then { s with tsRecent := seg.tsval }
  else s

/-- The round-trip time; `long` has 64 bits. -/
def updateRtt (seg : Segment) (now : U32) (s : PseudoTcp) : PseudoTcp :=
  let rtt := timeDiff now seg.tsecr
  if seg.tsecr ≠ 0 ∧ 0 ≤ rtt then
    let s :=
      if s.rxSrtt = 0 then
        { s with rxSrtt := BitVec.ofInt 32 rtt, rxRttvar := BitVec.ofInt 32 (rtt / 2) }
      else
        { s with
          rxRttvar := BitVec.ofInt 32
            (((3 * s.rxRttvar).toNat + (rtt - s.rxSrtt.toNat).natAbs) / 4 : Nat)
          rxSrtt := BitVec.ofInt 32 (((7 * s.rxSrtt).toNat + rtt) / 8) }
    { s with rxRto := bound MIN_RTO (s.rxSrtt + uMax 1 (4 * s.rxRttvar)) MAX_RTO }
  else s

/-- The loop that frees acknowledged segments, and `m_largest`. -/
def freeSegments : U32 → List SSegment → U32 → List SSegment × U32
  | _, [], largest => ([], largest)
  | nFree, seg :: rest, largest =>
    if nFree = 0 then (seg :: rest, largest)
    else if nFree < seg.len then ({ seg with len := seg.len - nFree } :: rest, largest)
    else freeSegments (nFree - seg.len) rest (if largest < seg.len then seg.len else largest)

/-- What an ack does to the send queue. A shift by 32 bits or more is undefined
in the source. -/
def acknowledge (seg : Segment) (now : U32) (s : PseudoTcp) : PseudoTcp :=
  let nAcked := seg.ack - s.sndUna
  let freed := freeSegments nAcked s.slist s.largest
  { s with
    sndWnd := seg.wnd.setWidth 32 <<< s.swndScale.toNat
    sndUna := seg.ack
    rtoBase := if seg.ack = s.sndNxt then 0 else now
    sbuf := s.sbuf.consumeReadData nAcked.toNat
    slist := freed.1
    largest := freed.2 }

/-- An ack for data that has been sent; `false` if the connection is closed. -/
def processNewAck (seg : Segment) (now : U32) (s : PseudoTcp) : Bool × PseudoTcp :=
  let nAcked := seg.ack - s.sndUna
  let s := (s.updateRtt seg now).acknowledge seg now
  if 3 ≤ s.dupAcks then
    if s.recover ≤ s.sndUna then
      let nInFlight := s.sndNxt - s.sndUna
      (true, { s with cwnd := uMin s.ssthresh (nInFlight + s.mss), dupAcks := 0 })
    else
      match s.transmit env 0 now with
      | (false, s) => (false, s.closedown .ECONNABORTED)
      | (true, s) => (true, { s with cwnd := s.cwnd + (s.mss - uMin nAcked s.cwnd) })
  else
    (true, { s with
      dupAcks := 0
      cwnd := if s.cwnd < s.ssthresh then s.cwnd + s.mss
        else s.cwnd + uMax 1 (s.mss * s.mss / s.cwnd) })

/-- An ack that repeats the last one. -/
def processDupAck (seg : Segment) (now : U32) (s : PseudoTcp) : Bool × PseudoTcp :=
  let s := { s with sndWnd := seg.wnd.setWidth 32 <<< s.swndScale.toNat }
  if 0 < seg.len then (true, s)
  else if s.sndUna ≠ s.sndNxt then
    let s := { s with dupAcks := s.dupAcks + 1 }
    if s.dupAcks = 3 then
      match s.transmit env 0 now with
      | (false, s) => (false, s.closedown .ECONNABORTED)
      | (true, s) =>
        let nInFlight := s.sndNxt - s.sndUna
        let ssthresh := uMax (nInFlight / 2) (2 * s.mss)
        (true, { s with
          recover := s.sndNxt
          ssthresh := ssthresh
          cwnd := ssthresh + 3 * s.mss })
    else if 3 < s.dupAcks then (true, { s with cwnd := s.cwnd + s.mss })
    else (true, s)
  else (true, { s with dupAcks := 0 })

def processAck (seg : Segment) (now : U32) (s : PseudoTcp) : Bool × PseudoTcp :=
  if s.sndUna < seg.ack ∧ seg.ack ≤ s.sndNxt then s.processNewAck env seg now
  else if seg.ack = s.sndUna then s.processDupAck env seg now
  else (true, s)

/-- The notifications that an ack may cause. -/
def processOpen (bConnect : Bool) (s : PseudoTcp) : PseudoTcp :=
  let s :=
    if s.state = .TCP_SYN_RECEIVED ∧ !bConnect then
      { s with state := .TCP_ESTABLISHED }.adjustMTU.notify .OnTcpOpen
    else s
  if s.bWriteEnable ∧ BitVec.ofNat 32 s.sbuf.getBuffered < (s.sbufLen + s.rbufLen) / 2 then
    { s with bWriteEnable := false }.notify .OnTcpWriteable
  else s

def ackFlags (seg : Segment) (s : PseudoTcp) : SendFlags :=
  if seg.seq ≠ s.rcvNxt then .sfImmediateAck
  else if seg.len ≠ 0 then if s.ackDelay = 0 then .sfImmediateAck else .sfDelayedAck
  else .sfNone

/-- The part of a segment that is new and fits into the receive buffer. -/
def trim (seg : Segment) (s : PseudoTcp) : Segment :=
  let seg :=
    if seg.seq < s.rcvNxt then
      let nAdjust := s.rcvNxt - seg.seq
      if nAdjust < seg.len then
        { seg with
          seq := seg.seq + nAdjust
          data := fun i => seg.data (nAdjust.toNat + i)
          len := seg.len - nAdjust }
      else { seg with len := 0 }
    else seg
  let availableSpace := BitVec.ofNat 32 s.rbuf.getWriteRemaining
  if availableSpace < seg.seq + seg.len - s.rcvNxt then
    let nAdjust := seg.seq + seg.len - s.rcvNxt - availableSpace
    { seg with len := if nAdjust < seg.len then seg.len - nAdjust else 0 }
  else seg

/-- The segments that became contiguous; the flag is whether any of them was
new. -/
def recoverSegments : List RSegment → PseudoTcp → Bool × PseudoTcp
  | [], s => (false, { s with rlist := [] })
  | it :: rest, s =>
    if it.seq ≤ s.rcvNxt then
      if s.rcvNxt < it.seq + it.len then
        let nAdjust := it.seq + it.len - s.rcvNxt
        let recovered := recoverSegments rest { s with
          rbuf := s.rbuf.consumeWriteBuffer nAdjust.toNat
          rcvNxt := s.rcvNxt + nAdjust
          rcvWnd := s.rcvWnd - nAdjust }
        (true, recovered.2)
      else recoverSegments rest s
    else (false, { s with rlist := it :: rest })

/-- The data of a segment that has been trimmed: the flags for the answer, and
whether there is new data. -/
def processData (seg : Segment) (sflags : SendFlags) (s : PseudoTcp) :
    SendFlags × Bool × PseudoTcp :=
  if seg.len = 0 then (sflags, false, s)
  else if seg.flags &&& FLAG_CTL ≠ 0 ∨ s.shutdown ≠ .SD_NONE then
    (sflags, false, if seg.seq = s.rcvNxt then { s with rcvNxt := s.rcvNxt + seg.len } else s)
  else
    let nOffset := seg.seq - s.rcvNxt
    let s := { s with
      rbuf := ((s.rbuf.writeOffset seg.data seg.len.toNat nOffset.toNat).getD (0, s.rbuf)).2 }
    if seg.seq = s.rcvNxt then
      let recovered := recoverSegments s.rlist { s with
        rbuf := s.rbuf.consumeWriteBuffer seg.len.toNat
        rcvNxt := s.rcvNxt + seg.len
        rcvWnd := s.rcvWnd - seg.len }
      (if recovered.1 then .sfImmediateAck else sflags, true, recovered.2)
    else
      (sflags, false, { s with
        rlist := s.rlist.takeWhile (·.seq < seg.seq) ++ [{ seq := seg.seq, len := seg.len }] ++
          s.rlist.dropWhile (·.seq < seg.seq) })

/-- `process` from the end of the ack on. -/
def processRest (seg : Segment) (bConnect : Bool) (s : PseudoTcp) : PseudoTcp :=
  let s := s.processOpen bConnect
  let data := s.processData (s.trim seg) (s.ackFlags seg)
  let s := data.2.2.attemptSend env data.1
  if data.2.1 ∧ s.bReadEnable then { s with bReadEnable := false }.notify .OnTcpReadable else s

def process (seg : Segment) (s : PseudoTcp) : Bool × PseudoTcp :=
  if seg.conv ≠ s.conv then (false, s)
  else
    let (now, s) := s.now env
    let s := { s with lasttraffic := now, lastrecv := now, bOutgoing := false }
    if s.state = .TCP_CLOSED then (false, s)
    else if seg.flags &&& FLAG_RST ≠ 0 then (false, s.closedown .ECONNRESET)
    else
      match s.processControl seg with
      | (none, s) => (false, s)
      | (some bConnect, s) =>
        match (s.updateTimestamp seg).processAck env seg now with
        | (false, s) => (false, s)
        | (true, s) => (true, s.processRest env seg bConnect)

/-- The segment of a datagram. The fields are read wherever the datagram
ends. -/
def segmentOf (buffer : Mem) (size : U32) : Segment where
  conv := be32 buffer 0
  seq := be32 buffer 4
  ack := be32 buffer 8
  flags := buffer 13
  wnd := be16 buffer 14
  tsval := be32 buffer 16
  tsecr := be32 buffer 20
  data := fun i => buffer (HEADER_SIZE.toNat + i)
  len := size - HEADER_SIZE

def parse (buffer : Mem) (size : U32) (s : PseudoTcp) : Bool × PseudoTcp :=
  if size < 12 then (false, s) else s.process env (segmentOf buffer size)

def notifyPacket (buffer : Mem) (len : Nat) (s : PseudoTcp) : Bool × PseudoTcp :=
  if MAX_PACKET.toNat < len then (false, s) else s.parse env buffer (BitVec.ofNat 32 len)

/-! ## The clock -/

/-- The retransmission timer; `false` if the connection is closed. -/
def retransmit (now : U32) (s : PseudoTcp) : Bool × PseudoTcp :=
  if s.rtoBase ≠ 0 ∧ timeDiff (s.rtoBase + s.rxRto) now ≤ 0 ∧ s.slist ≠ [] then
    match s.transmit env 0 now with
    | (false, s) => (false, s.closedown .ECONNABORTED)
    | (true, s) =>
      let nInFlight := s.sndNxt - s.sndUna
      let rtoLimit :=
        if s.state = .TCP_ESTABLISHED ∨ s.state = .TCP_CLOSED then MAX_RTO else DEF_RTO
      (true, { s with
        ssthresh := uMax (nInFlight / 2) (2 * s.mss)
        cwnd := s.mss
        rxRto := uMin rtoLimit (s.rxRto * 2)
        rtoBase := now })
  else (true, s)

/-- The probe of a closed window. -/
def probeWindow (now : U32) (s : PseudoTcp) : Bool × PseudoTcp :=
  if s.sndWnd = 0 ∧ timeDiff (s.lastsend + s.rxRto) now ≤ 0 then
    if 15000 ≤ timeDiff now s.lastrecv then (false, s.closedown .ECONNABORTED)
    else
      let s := (s.packet env (s.sndNxt - 1) 0 0 0).2
      (true, { s with lastsend := now, rxRto := uMin MAX_RTO (s.rxRto * 2) })
  else (true, s)

def notifyClock (now : U32) (s : PseudoTcp) : PseudoTcp :=
  if s.state = .TCP_CLOSED then s
  else
    match s.retransmit env now with
    | (false, s) => s
    | (true, s) =>
      match s.probeWindow env now with
      | (false, s) => s
      | (true, s) =>
        if s.tAck ≠ 0 ∧ timeDiff (s.tAck + s.ackDelay) now ≤ 0 then (s.packet env s.sndNxt 0 0 0).2
        else s

end PseudoTcp

/-! ## Runs -/

/-- The calls of the user, of the network and of the clock. -/
inductive Call where
  | connect
  | send (data : List Byte)
  | recv (len : Nat)
  | close (force : Bool)
  | notifyMTU (mtu : BitVec 16)
  | setOption (opt : PseudoTcp.TcpOption) (value : U32)
  | notifyPacket (buffer : Mem) (len : Nat)
  | notifyClock (now : U32)

def PseudoTcp.call (env : Env) (s : PseudoTcp) : Call → PseudoTcp
  | .connect => (s.connect env).2
  | .send data => (s.send env data).2
  | .recv len => (s.recv env len).2
  | .close force => s.close force
  | .notifyMTU mtu => s.notifyMTU mtu
  | .setOption opt value => s.setOption opt value
  | .notifyPacket buffer len => (s.notifyPacket env buffer len).2
  | .notifyClock now => s.notifyClock env now

def PseudoTcp.run (env : Env) (calls : List Call) (s : PseudoTcp) : PseudoTcp :=
  calls.foldl (fun s c => s.call env c) s

end PerchWebrtc.Tcp
