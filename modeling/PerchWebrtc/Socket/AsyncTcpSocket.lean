import PerchWebrtc.Socket.AsyncTcpSocketBase

/-!
# Packets with a length before them

`AsyncTCPSocket` (`asynctcpsocket.cc`) sends each packet behind its length in 16 bits. Its
size check admits packets up to the size of the buffer, which is more than a length
of 16 bits tells, and leaves no room for the length itself.

* `framer`: the frames of the stream; `frameSocket`: what the peer cuts off is what they hold;
* `connection_delivers`: every packet that is placed arrives, if those offered to an empty
  out-buffer have less than 65536 bytes, and such a packet is placed if the stream takes bytes;
* `not_connection_delivers`: a longer packet overruns the out-buffer.
-/

namespace PerchWebrtc.Socket.AsyncTCPSocket

open Framework (Framer)

def kMaxPacketSize : Nat := 64 * 1024
def kPacketLenSize : Nat := 2
def kBufSize : Nat := kMaxPacketSize + kPacketLenSize

/-- `GetBE16`. -/
def packetLength (data : List Byte) : Nat := (be16 (Mem.ofList data) 0).toNat

def send (outbuf pv : List Byte) (offer : Int) : Option Sent :=
  let cb := pv.length
  if cb > kBufSize then some ⟨-1, outbuf, []⟩
  -- a packet that comes while the stream blocks is dropped, and the caller told it was sent
  else if outbuf ≠ [] then some ⟨cb, outbuf, []⟩
  else do
    let outbuf ← appendToOutBuffer kBufSize outbuf (bytes16 (BitVec.ofNat 16 cb))
    let outbuf ← appendToOutBuffer kBufSize outbuf pv
    some (finishSend outbuf cb offer)

def processInput (data : List Byte) : Option (List (List Byte) × List Byte) :=
  if data.length < kPacketLenSize then some ([], data)
  else
    let pktLen := packetLength data
    if data.length < kPacketLenSize + pktLen then some ([], data)
    else do
      let packet ← readRange data kPacketLenSize pktLen
      let (packets, rest) ← processInput (data.drop (kPacketLenSize + pktLen))
      some (packet :: packets, rest)
termination_by data.length
decreasing_by
  rw [List.length_drop]
  simp only [kPacketLenSize] at *
  omega

def socketBase : AsyncTCPSocketBase where
  maxPacketSize := kBufSize
  send := send
  processInput := processInput

/-! ## The frames of the stream -/

theorem packetLength_append {s : List Byte} (t : List Byte) (h : kPacketLenSize ≤ s.length) :
    packetLength (s ++ t) = packetLength s := by
  refine congrArg BitVec.toNat (be16_congr fun i hi => ?_)
  simp only [Mem.ofList, Nat.zero_add, List.getD_eq_getElem?_getD]
  rw [List.getElem?_append_left (hi.trans_le h)]

theorem packetLength_lt (s : List Byte) : packetLength s < 65536 := (be16 (Mem.ofList s) 0).isLt

/-- The length of a longer packet wraps: the peer finds none in front of 65536 bytes. -/
theorem packetLength_bytes16 (n : Nat) (t : List Byte) :
    packetLength (bytes16 (BitVec.ofNat 16 n) ++ t) = n % 65536 := by
  have hholds : (Mem.ofList (bytes16 (BitVec.ofNat 16 n))).Holds 0 (bytes16 (BitVec.ofNat 16 n)) :=
    @Mem.holds_of_eq _ [] _ rfl
  rw [packetLength_append t le_rfl, packetLength, Mem.holds_bytes16.mp hholds, BitVec.toNat_ofNat]

def framer : Framer Byte where
  header := kPacketLenSize
  size s := kPacketLenSize + packetLength s
  header_pos := by decide
  header_le _ := Nat.le_add_right _ _
  size_append t h := by rw [packetLength_append t h]

/-- What stands in the stream for a packet. -/
def frame (pv : List Byte) : List Byte := bytes16 (BitVec.ofNat 16 pv.length) ++ pv

theorem length_frame (pv : List Byte) : (frame pv).length = kPacketLenSize + pv.length := by
  rw [frame, List.length_append, length_bytes16, kPacketLenSize]

/-- `ProcessInput` signals what is behind the length of each frame. -/
theorem processInput_eq (data : List Byte) :
    processInput data =
      some ((framer.split data).1.map (List.drop kPacketLenSize), (framer.split data).2) := by
  fun_induction processInput data with
  | case1 data h =>
    rw [framer.split_of_not_complete fun hc => absurd hc.1 (Nat.not_le.mpr h)]
    rfl
  | case2 data h pktLen hshort =>
    rw [framer.split_of_not_complete fun hc => absurd hc.2 (Nat.not_le.mpr hshort)]
    rfl
  | case3 data h pktLen hlong ih =>
    have hcomplete : framer.Complete data := ⟨Nat.not_lt.mp h, Nat.not_lt.mp hlong⟩
    have hrange : readRange data kPacketLenSize pktLen =
        some ((data.take (kPacketLenSize + pktLen)).drop kPacketLenSize) := by
      rw [readRange, if_pos (Nat.not_lt.mp hlong), List.drop_take, Nat.add_sub_cancel_left]
    rw [framer.split_of_complete hcomplete, hrange, ih]
    rfl

/-- A packet of 65535 bytes is the longest whose length is told. -/
theorem frameSocket : FrameSocket socketBase framer (fun pv => pv.length < 65536) frame
    (List.drop kPacketLenSize) where
  isFrame {pv} h := by
    refine ⟨(Nat.le_add_right _ _).trans (length_frame pv).ge, ?_⟩
    rw [length_frame]
    exact congrArg (kPacketLenSize + ·)
      ((packetLength_bytes16 _ pv).trans (Nat.mod_eq_of_lt h))
  payload_frame _ := rfl
  size_lt s := Nat.add_lt_add_left (packetLength_lt s) 2
  processInput_eq := processInput_eq

/-! ## What a connection delivers -/

/-- A packet offered to an empty out-buffer has a length of 16 bits, unless it is refused. -/
def Fits (c : Connection) : Event → Prop
  | .send pv _ => c.outbuf = [] → pv.length < 65536 ∨ pv.length > kBufSize
  | .write _ => True
  | .read _ => True

theorem append_length (length : BitVec 16) :
    appendToOutBuffer kBufSize [] (bytes16 length) = some (bytes16 length) :=
  appendToOutBuffer_of_le (show 0 + 2 ≤ 65538 by omega)

theorem send_spec {outbuf pv : List Byte}
    (h : outbuf = [] → pv.length < 65536 ∨ pv.length > kBufSize) (offer : Int) :
    ∃ s, send outbuf pv offer = some s ∧
      SendSpec (fun pv => pv.length < 65536) frame outbuf pv offer s := by
  by_cases hbig : pv.length > kBufSize
  · have hlong : ¬ pv.length < 65536 := by
      change pv.length > 65538 at hbig
      omega
    exact ⟨_, if_pos hbig, sendSpec_unplaced (fun hpv => hlong hpv.2) (-1) offer⟩
  by_cases hout : outbuf ≠ []
  · exact ⟨_, (if_neg hbig).trans (if_pos hout), sendSpec_unplaced (fun hpv => hout hpv.1) _ offer⟩
  · have hempty := not_not.mp hout
    have hpv := (h hempty).resolve_right hbig
    have hframe : frame pv ≠ [] := List.append_ne_nil_of_left_ne_nil (List.cons_ne_nil _ _) pv
    refine ⟨_, ?_, finishSend_spec hpv hempty hframe pv.length offer⟩
    have hlen : (bytes16 (BitVec.ofNat 16 pv.length)).length + pv.length ≤ kBufSize := by
      change 2 + pv.length ≤ 65538
      omega
    rw [send, if_neg hbig, if_neg hout, hempty, append_length,
      Option.bind_eq_bind, Option.bind_some, appendToOutBuffer_of_le hlen]
    rfl

theorem connection_delivers {inputs : List Event}
    (h : Machine.Along (Machine.attempt (Connection.step socketBase)) (Machine.Running Fits)
      (some Connection.start) inputs) :
    Machine.Always (Machine.attempt (Connection.step socketBase))
      (Machine.Holding (Connection.Delivers socketBase)) (some Connection.start) inputs ∧
    ∀ (c : Connection) pv offer, c.outbuf = [] → pv.length < 65536 → 0 < offer →
      ∃ c', c.step socketBase (.send pv offer) = some c' ∧ c'.placed = c.placed ++ [pv] :=
  ⟨connection_always frameSocket (fun _ _ offer hfits => send_spec hfits offer) h,
    fun _ _ offer hout hpv hoffer =>
      SendSpec.step_places (send_spec (fun _ => .inl hpv) offer) hout hpv hoffer⟩

/-- Two packets, the first in two pieces, the second dropped by a stream that blocks, and a third
that the peer reads together with the end of the first. -/
def pieces : List Event :=
  [.send [1, 2, 3] 3, .read 10, .send [4] 9, .write 9, .send [5, 6] 9, .read 4, .read 10]

theorem connection_delivers_pieces :
    ∃ c, Machine.run (Machine.attempt (Connection.step socketBase)) (some Connection.start) pieces
      = some c ∧ c.Delivers socketBase ∧ c.signalled = [[1, 2, 3], [5, 6]] := by
  have hfits : ∀ pv : List Byte, pv.length < 65536 → ∀ offer s,
      Machine.Running Fits s (.send pv offer) := fun _ hpv _ _ _ _ _ => .inl hpv
  have hdelivers := @connection_delivers pieces ⟨hfits _ (by decide) _ _,
    fun _ _ => trivial, hfits _ (by decide) _ _, fun _ _ => trivial, hfits _ (by decide) _ _,
    fun _ _ => trivial, fun _ _ => trivial, trivial⟩
  obtain ⟨c, hrun, hc⟩ := hdelivers.1.run_take pieces.length
  have hsignalled : (Machine.run (Machine.attempt (Connection.step socketBase))
      (some Connection.start) pieces).map (·.signalled) = some [[1, 2, 3], [5, 6]] := by
    decide +kernel
  rw [List.take_length] at hrun
  rw [hrun, Option.map_some, Option.some.injEq] at hsignalled
  exact ⟨c, hrun, hc, hsignalled⟩

theorem send_overruns {pv : List Byte} (h : 65536 < pv.length) (hcheck : pv.length ≤ kBufSize)
    (offer : Int) : send [] pv offer = none := by
  have hfull : ¬ (bytes16 (BitVec.ofNat 16 pv.length)).length + pv.length ≤ kBufSize :=
    show ¬ 2 + pv.length ≤ 65538 by omega
  rw [send, if_neg (Nat.not_lt.mpr hcheck), if_neg (by simp), append_length,
    Option.bind_eq_bind, Option.bind_some, appendToOutBuffer, if_neg hfull]
  rfl

/-- A packet of 65537 bytes passes the size check, and its end is written behind the
out-buffer. -/
theorem not_connection_delivers :
    ¬ ∀ inputs, Machine.Always (Machine.attempt (Connection.step socketBase))
      (Machine.Holding (Connection.Delivers socketBase)) (some Connection.start) inputs := by
  intro h
  obtain ⟨pv, hpv⟩ : ∃ pv : List Byte, pv.length = 65537 :=
    ⟨List.replicate 65537 0, List.length_replicate⟩
  obtain ⟨-, c, hc, -⟩ := h [.send pv 1]
  have hfail : Connection.start.step socketBase (.send pv 1) = none := by
    change (send [] pv 1).bind _ = none
    rw [send_overruns (by omega) (by rw [hpv]; decide)]
    rfl
  rw [Machine.attempt, Option.bind_some, hfail] at hc
  cases hc

end PerchWebrtc.Socket.AsyncTCPSocket
