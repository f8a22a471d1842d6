import PerchWebrtc.Socket.AsyncTcpSocketBase
import PerchWebrtc.Stun.Message

/-!
# STUN and TURN messages over TCP

`AsyncStunTCPSocket` (`asyncstuntcpsocket.cc`) sends messages that tell their own length: a STUN
message in its header, a ChannelData message in its own, with padding behind it that neither
length counts.

* `WholeMessage`: the packets that `Send` accepts; `send_refused`: it places no others;
* `framer`: the frames of the stream, padding included; `frameSocket`: what the peer signals of
  a frame is the message;
* `messages_delivered`: every message that is placed arrives, one sent on an empty out-buffer is
  placed if the stream takes bytes, and no stream makes the peer read outside its buffer or
  fill it.
-/

namespace PerchWebrtc.Socket.AsyncStunTCPSocket

open Framework (Framer)
open Stun (kStunHeaderSize)

def kMaxPacketSize : Nat := 64 * 1024
def kPacketLenSize : Nat := 2
def kPacketLenOffset : Nat := 2
def kBufSize : Nat := kMaxPacketSize + kStunHeaderSize
def kTurnChannelDataHdrSize : Nat := 4

/-- The first two bits of a ChannelData message are `01`. -/
def isStunMessage (msgType : BitVec 16) : Bool := msgType &&& 0xC000 = 0

/-- The length of the message that the data starts with, and of the padding behind it. -/
def getExpectedLength (data : List Byte) : Nat × Nat :=
  let pktLen := (be16 (Mem.ofList data) kPacketLenOffset).toNat
  let msgType := be16 (Mem.ofList data) 0
  if isStunMessage msgType then (kStunHeaderSize + pktLen, 0)
  else
    let expected := kTurnChannelDataHdrSize + pktLen
    (expected, if expected % 4 ≠ 0 then 4 - expected % 4 else 0)

def send (outbuf pv : List Byte) (offer : Int) : Option Sent :=
  let cb := pv.length
  if cb > kBufSize ∨ cb < kPacketLenSize + kPacketLenOffset then some ⟨-1, outbuf, []⟩
  -- a packet that comes while the stream blocks is dropped, whatever it is
  else if outbuf ≠ [] then some ⟨cb, outbuf, []⟩
  else
    let (expected, padBytes) := getExpectedLength pv
    if cb ≠ expected then some ⟨-1, outbuf, []⟩
    else do
      let outbuf ← appendToOutBuffer kBufSize outbuf pv
      let padding ← readRange (List.replicate 4 0) 0 padBytes
      let outbuf ← appendToOutBuffer kBufSize outbuf padding
      some (finishSend outbuf cb offer)

def processInput (data : List Byte) : Option (List (List Byte) × List Byte) :=
  if data.length < kPacketLenOffset + kPacketLenSize then some ([], data)
  else
    let expected := (getExpectedLength data).1
    let actual := expected + (getExpectedLength data).2
    if data.length < actual then some ([], data)
    else do
      let packet ← readRange data 0 expected
      let (packets, rest) ← processInput (data.drop actual)
      some (packet :: packets, rest)
termination_by data.length
decreasing_by
  have hpos : 4 ≤ (getExpectedLength data).1 := by
    simp only [getExpectedLength, kStunHeaderSize, kTurnChannelDataHdrSize]
    split
    · exact Nat.le_add_right_of_le (by decide)
    · exact Nat.le_add_right 4 _
  rw [List.length_drop]
  simp only [kPacketLenOffset, kPacketLenSize] at *
  omega

def socketBase : AsyncTCPSocketBase where
  maxPacketSize := kBufSize
  send := send
  processInput := processInput

/-! ## Lengths -/

section

variable {data : List Byte}

theorem getExpectedLength_append (t : List Byte)
    (h : kPacketLenOffset + kPacketLenSize ≤ data.length) :
    getExpectedLength (data ++ t) = getExpectedLength data := by
  have hbyte : ∀ i < 4, Mem.ofList (data ++ t) i = Mem.ofList data i := fun i hi => by
    simp only [Mem.ofList, List.getD_eq_getElem?_getD]
    rw [List.getElem?_append_left (hi.trans_le h)]
  have hlength : be16 (Mem.ofList (data ++ t)) kPacketLenOffset =
      be16 (Mem.ofList data) kPacketLenOffset :=
    be16_congr fun i hi => hbyte _ (show 2 + i < 4 by omega)
  have htype : be16 (Mem.ofList (data ++ t)) 0 = be16 (Mem.ofList data) 0 :=
    be16_congr fun i hi => hbyte _ (by omega)
  simp only [getExpectedLength, hlength, htype]

theorem le_expectedLength (data : List Byte) :
    kPacketLenOffset + kPacketLenSize ≤ (getExpectedLength data).1 := by
  simp only [getExpectedLength]
  split
  · exact Nat.le_add_right_of_le (by decide)
  · exact Nat.le_add_right 4 _

theorem padBytes_lt (data : List Byte) : (getExpectedLength data).2 < 4 := by
  simp only [getExpectedLength]
  split
  · exact Nat.zero_lt_succ 3
  · split
    · omega
    · exact Nat.zero_lt_succ 3

/-- The largest frame is a STUN message, and the buffer is one byte larger. -/
theorem frame_lt_kBufSize (data : List Byte) :
    (getExpectedLength data).1 + (getExpectedLength data).2 < kBufSize := by
  have hlength := (be16 (Mem.ofList data) kPacketLenOffset).isLt
  have hpad := padBytes_lt data
  change _ < 65556
  simp only [getExpectedLength, kStunHeaderSize, kTurnChannelDataHdrSize] at hpad ⊢
  split
  · omega
  · rename_i htype
    rw [if_neg htype] at hpad
    simp only [] at hpad ⊢
    omega

end

/-! ## The frames of the stream -/

def framer : Framer Byte where
  header := kPacketLenOffset + kPacketLenSize
  size s := (getExpectedLength s).1 + (getExpectedLength s).2
  header_pos := by decide
  header_le s := Nat.le_add_right_of_le (le_expectedLength s)
  size_append t h := by rw [getExpectedLength_append t h]

/-- A STUN message or a ChannelData message, with nothing missing and nothing behind it. -/
def WholeMessage (pv : List Byte) : Prop :=
  kPacketLenOffset + kPacketLenSize ≤ pv.length ∧ pv.length = (getExpectedLength pv).1

/-- What stands in the stream for a message. -/
def frame (pv : List Byte) : List Byte := pv ++ List.replicate (getExpectedLength pv).2 0

/-- The message of a frame. -/
def payload (f : List Byte) : List Byte := f.take (getExpectedLength f).1

theorem processInput_eq (data : List Byte) :
    processInput data = some ((framer.split data).1.map payload, (framer.split data).2) := by
  fun_induction processInput data with
  | case1 data h =>
    rw [framer.split_of_not_complete fun hc => absurd hc.1 (Nat.not_le.mpr h)]
    rfl
  | case2 data h expected actual hshort =>
    rw [framer.split_of_not_complete fun hc => absurd hc.2 (Nat.not_le.mpr hshort)]
    rfl
  | case3 data h expected actual hlong ih =>
    have hcomplete : framer.Complete data := ⟨Nat.not_lt.mp h, Nat.not_lt.mp hlong⟩
    -- the length is read from the message again, of which the frame has all that tells it
    have hlength : getExpectedLength (data.take actual) = getExpectedLength data := by
      have happend := getExpectedLength_append (data.drop actual)
        (hcomplete.isFrame_take framer).1
      rw [show framer.size data = actual from rfl, List.take_append_drop] at happend
      exact happend.symm
    have hrange : readRange data 0 expected = some (payload (data.take actual)) := by
      have hle : expected ≤ actual := Nat.le_add_right _ _
      rw [readRange, if_pos (by omega), List.drop_zero, payload, hlength, List.take_take,
        Nat.min_eq_left hle]
    rw [framer.split_of_complete hcomplete, hrange, ih]
    rfl

theorem frameSocket : FrameSocket socketBase framer WholeMessage frame payload where
  isFrame {pv} h := by
    have hlength := getExpectedLength_append (List.replicate (getExpectedLength pv).2 0) h.1
    refine ⟨h.1.trans (by simp [frame]), ?_⟩
    rw [frame, List.length_append, List.length_replicate]
    exact congrArg (fun p => p.1 + p.2) hlength |>.trans (by rw [← h.2])
  payload_frame {pv} h := by
    rw [payload, frame, getExpectedLength_append _ h.1, ← h.2, List.take_left]
  size_lt := frame_lt_kBufSize
  processInput_eq := processInput_eq

/-! ## What a connection delivers -/

/-- Other packets are not placed; a socket that is not blocked says so. -/
theorem send_refused {pv : List Byte} (h : ¬ WholeMessage pv) (outbuf : List Byte) (offer : Int) :
    ∃ ret, send outbuf pv offer = some ⟨ret, outbuf, []⟩ ∧ (outbuf = [] → ret = -1) := by
  rw [send]
  split
  · exact ⟨_, rfl, fun _ => rfl⟩
  · rename_i hcheck
    split
    · rename_i hout
      exact ⟨_, rfl, fun hempty => absurd hempty hout⟩
    · have hne : pv.length ≠ (getExpectedLength pv).1 :=
        fun heq => h ⟨Nat.not_lt.mp fun hlt => hcheck (.inr hlt), heq⟩
      simp only []
      rw [if_pos hne]
      exact ⟨_, rfl, fun _ => rfl⟩

theorem send_spec (outbuf pv : List Byte) (offer : Int) :
    ∃ s, send outbuf pv offer = some s ∧ SendSpec WholeMessage frame outbuf pv offer s := by
  by_cases hpv : WholeMessage pv
  · by_cases hout : outbuf = []
    · have hsize := frame_lt_kBufSize pv
      have hpad := padBytes_lt pv
      have hpadding : readRange (List.replicate 4 0) 0 (getExpectedLength pv).2 =
          some (List.replicate (getExpectedLength pv).2 0) := by
        rw [readRange, if_pos (by rw [List.length_replicate]; omega), List.drop_zero,
          List.take_replicate, Nat.min_eq_left hpad.le]
      have hcheck : ¬ (pv.length > kBufSize ∨ pv.length < kPacketLenSize + kPacketLenOffset) := by
        have hmin := hpv.1
        have hlen := hpv.2
        simp only [kPacketLenOffset, kPacketLenSize] at hmin ⊢
        omega
      have hframe : frame pv ≠ [] :=
        List.append_ne_nil_of_left_ne_nil (List.ne_nil_of_length_pos (hpv.1.trans' (by decide))) _
      refine ⟨_, ?_, finishSend_spec hpv hout hframe pv.length offer⟩
      rw [send, if_neg hcheck, if_neg (not_not.mpr hout), hout]
      simp only []
      rw [if_neg (not_not.mpr hpv.2), appendToOutBuffer_of_le (by simp only [List.length_nil]; omega),
        hpadding, Option.bind_eq_bind, Option.bind_some, Option.bind_some, List.nil_append,
        appendToOutBuffer_of_le (by rw [List.length_replicate]; exact (hpv.2 ▸ hsize).le)]
      rfl
    · have hbusy : ¬ (outbuf = [] ∧ WholeMessage pv) := mt And.left hout
      by_cases hcheck : pv.length > kBufSize ∨ pv.length < kPacketLenSize + kPacketLenOffset
      · exact ⟨_, if_pos hcheck, sendSpec_unplaced hbusy (-1) offer⟩
      · exact ⟨_, (if_neg hcheck).trans (if_pos hout), sendSpec_unplaced hbusy pv.length offer⟩
  · obtain ⟨ret, hsend, -⟩ := send_refused hpv outbuf offer
    exact ⟨_, hsend, sendSpec_unplaced (mt And.right hpv) ret offer⟩

theorem messages_delivered :
    (∀ inputs, Machine.Always (Machine.attempt (Connection.step socketBase))
      (Machine.Holding (Connection.Delivers socketBase)) (some Connection.start) inputs) ∧
    (∀ (c : Connection) pv offer, c.outbuf = [] → WholeMessage pv → 0 < offer →
      ∃ c', c.step socketBase (.send pv offer) = some c' ∧ c'.placed = c.placed ++ [pv]) ∧
    (∀ pv, ¬ WholeMessage pv → ∀ outbuf offer, ∃ ret,
      send outbuf pv offer = some ⟨ret, outbuf, []⟩ ∧ (outbuf = [] → ret = -1)) ∧
    ∀ stream reads, Machine.Always (Machine.attempt (onReadEvent socketBase))
      (Machine.Holding fun r => r.Cut framer payload stream ∧ r.inbuf.length < kBufSize)
      (some { inbuf := [], wire := stream, signalled := [] }) reads := by
  refine ⟨fun inputs => ?_, fun c pv offer => ?_, fun pv => send_refused,
    receiver_always frameSocket⟩
  · exact connection_always (P := fun _ _ => True) frameSocket
      (fun c pv offer _ => send_spec c.outbuf pv offer)
      (Machine.along_of_forall (fun _ _ _ _ => trivial) _ inputs)
  · exact SendSpec.step_places (send_spec c.outbuf pv offer)

/-- A ChannelData message with three bytes of padding, in two pieces, bytes that are no message, and
a STUN message that the peer reads together with the end of the first. -/
def pieces : List Event :=
  [.send [0x40, 0, 0, 1, 7] 3, .read 10, .write 9, .send [1, 2, 3, 4] 9,
    .send (0 :: 1 :: List.replicate 18 0) 30, .read 4, .read 30]

theorem messages_delivered_pieces :
    ∃ c, Machine.run (Machine.attempt (Connection.step socketBase)) (some Connection.start) pieces
      = some c ∧ c.Delivers socketBase ∧
      c.signalled = [[0x40, 0, 0, 1, 7], 0 :: 1 :: List.replicate 18 0] := by
  obtain ⟨c, hrun, hc⟩ := (messages_delivered.1 pieces).run_take pieces.length
  have hsignalled : (Machine.run (Machine.attempt (Connection.step socketBase))
      (some Connection.start) pieces).map (·.signalled)
      = some [[0x40, 0, 0, 1, 7], 0 :: 1 :: List.replicate 18 0] := by
    decide +kernel
  rw [List.take_length] at hrun
  rw [hrun, Option.map_some, Option.some.injEq] at hsignalled
  exact ⟨c, hrun, hc, hsignalled⟩

end PerchWebrtc.Socket.AsyncStunTCPSocket
