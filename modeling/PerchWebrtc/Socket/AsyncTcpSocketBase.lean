import PerchWebrtc.Framework.Buffer
import PerchWebrtc.Framework.Framing
import PerchWebrtc.Framework.Machine

/-!
# Packet sockets over a TCP stream

`AsyncTCPSocketBase` (`asynctcpsocket.cc`) keeps the part of a packet that the stream has
not taken yet, and the bytes that are not a whole packet yet. A connection is the socket that
sends, the stream, and the peer that receives; its inputs say how many bytes the stream takes
or has at each call. The packets that were placed in the out-buffer and not cleared from
it, those of whose `Send` the stream took bytes, are recorded beside it.

* `FrameSocket`: what a subclass guarantees of `Send` and `ProcessInput`;
* `receiver_always`: the peer never reads outside its buffer, whatever the stream brings;
* `connection_always`: a connection delivers the packets that were placed, in order;
* `SendSpec.step_places`: which packets are placed.
-/

namespace PerchWebrtc.Socket

open Framework (Framer)

/-- What `Send` of a subclass returns, leaves in the out-buffer and gives to the stream. -/
structure Sent where
  ret : Int
  outbuf : List Byte
  taken : List Byte

/-- The virtual functions of a subclass, on the contents of the buffers. They fail if they
use bytes outside them. -/
structure AsyncTCPSocketBase where
  maxPacketSize : Nat
  send : List Byte → List Byte → Int → Option Sent
  processInput : List Byte → Option (List (List Byte) × List Byte)

/-! ## The out-buffer -/

/-- `memcpy` behind the bytes of the buffer. -/
def appendToOutBuffer (outsize : Nat) (outbuf pv : List Byte) : Option (List Byte) :=
  if outbuf.length + pv.length ≤ outsize then some (outbuf ++ pv) else none

/-- What `Send` of the stream returns: no more than it was given. -/
def streamSend (offer : Int) (n : Nat) : Int := min offer n

/-- The result, what stays in the out-buffer, and what the stream takes. -/
def flushOutBuffer (outbuf : List Byte) (offer : Int) : Int × List Byte × List Byte :=
  let res := streamSend offer outbuf.length
  if res ≤ 0 then (res, outbuf, [])
  else if res.toNat ≤ outbuf.length then (res, outbuf.drop res.toNat, outbuf.take res.toNat)
  else (-1, outbuf, [])

theorem flushOutBuffer_append (outbuf : List Byte) (offer : Int) :
    (flushOutBuffer outbuf offer).2.2 ++ (flushOutBuffer outbuf offer).2.1 = outbuf := by
  simp only [flushOutBuffer]
  split
  · simp
  split
  · simp
  · simp

variable {outbuf : List Byte}

theorem flushOutBuffer_of_nonpos {offer : Int} (h : (flushOutBuffer outbuf offer).1 ≤ 0) :
    (flushOutBuffer outbuf offer).2 = (outbuf, []) := by
  simp only [flushOutBuffer] at h ⊢
  split at h
  · rename_i hres
    rw [if_pos hres]
  · rename_i hres
    rw [if_neg hres]
    split at h
    · exact absurd h hres
    · rename_i hlen
      rw [if_neg hlen]

/-- The end of `Send`: the flush of what was placed, and a packet of which the stream took
nothing is cleared. -/
def finishSend (outbuf : List Byte) (cb : Nat) (offer : Int) : Sent :=
  let flushed := flushOutBuffer outbuf offer
  if flushed.1 ≤ 0 then ⟨flushed.1, [], flushed.2.2⟩ else ⟨cb, flushed.2.1, flushed.2.2⟩

/-- The stream takes something of what it is given, if it offers to. -/
theorem flushOutBuffer_pos {offer : Int} (hout : outbuf ≠ []) (hoffer : 0 < offer) :
    ¬ (flushOutBuffer outbuf offer).1 ≤ 0 := by
  have hlen := List.length_pos_of_ne_nil hout
  have hres : ¬ streamSend offer outbuf.length ≤ 0 := by
    rw [streamSend]
    omega
  have hle : (streamSend offer outbuf.length).toNat ≤ outbuf.length := by
    rw [streamSend]
    omega
  rw [flushOutBuffer, if_neg hres, if_pos hle]
  exact hres

theorem flushOutBuffer_taken {offer : Int} (h : ¬ (flushOutBuffer outbuf offer).1 ≤ 0) :
    (flushOutBuffer outbuf offer).2.2 ≠ [] := by
  simp only [flushOutBuffer] at h ⊢
  split at h
  · rename_i hres
    exact absurd hres h
  · rename_i hres
    rw [if_neg hres]
    split at h
    · rename_i hlen
      rw [if_pos hlen]
      refine List.ne_nil_of_length_pos ?_
      rw [List.length_take]
      omega
    · exact absurd (Int.neg_nonpos_of_nonneg Int.one_nonneg) h

theorem appendToOutBuffer_of_le {outsize : Nat} {pv : List Byte}
    (h : outbuf.length + pv.length ≤ outsize) :
    appendToOutBuffer outsize outbuf pv = some (outbuf ++ pv) := if_pos h

/-! ## The side that receives -/

/-- The in-buffer, the bytes that the stream has for it, and the packets it has signalled. -/
structure Receiver where
  inbuf : List Byte
  wire : List Byte
  signalled : List (List Byte)

/-- A range of the buffer that is handed on; it lies in the bytes that were received. -/
def readRange (data : List Byte) (offset n : Nat) : Option (List Byte) :=
  if offset + n ≤ data.length then some ((data.drop offset).take n) else none

/-- What `Recv` of the stream returns: no more than it has, and than it is asked for. -/
def streamRecv (avail : Int) (wire : List Byte) (n : Nat) : Int := min avail (min wire.length n)

def onReadEvent (K : AsyncTCPSocketBase) (r : Receiver) (avail : Int) : Option Receiver :=
  if K.maxPacketSize < r.inbuf.length then none
  else
    let len := streamRecv avail r.wire (K.maxPacketSize - r.inbuf.length)
    if len < 0 then some r
    else do
      let data := r.inbuf ++ r.wire.take len.toNat
      let (packets, rest) ← K.processInput data
      some
        { inbuf := if rest.length ≥ K.maxPacketSize then [] else rest
          wire := r.wire.drop len.toNat
          signalled := r.signalled ++ packets }

/-! ## A connection -/

/-- The out-buffer of one side, and the other side. -/
structure Connection extends Receiver where
  outbuf : List Byte
  placed : List (List Byte)

def Connection.start : Connection where
  inbuf := []
  wire := []
  signalled := []
  outbuf := []
  placed := []

/-- A call of `Send`, or the stream can be written or read. -/
inductive Event where
  | send (pv : List Byte) (offer : Int)
  | write (offer : Int)
  | read (avail : Int)

/-- `OnWriteEvent`. -/
def onWriteEvent (c : Connection) (offer : Int) : Connection :=
  if c.outbuf.length > 0 then
    let flushed := flushOutBuffer c.outbuf offer
    { c with outbuf := flushed.2.1, wire := c.wire ++ flushed.2.2 }
  else c

def Connection.step (K : AsyncTCPSocketBase) (c : Connection) : Event → Option Connection
  | .send pv offer => do
    let s ← K.send c.outbuf pv offer
    some
      { c with
        outbuf := s.outbuf
        wire := c.wire ++ s.taken
        placed := if s.taken = [] then c.placed else c.placed ++ [pv] }
  | .write offer => some (onWriteEvent c offer)
  | .read avail => do
    let r ← onReadEvent K c.toReceiver avail
    some { c with toReceiver := r }

/-! ## What a subclass guarantees -/

/-- The subclass sends frames and cuts the stream into frames; `Accepts` are the packets that it
is meant for. -/
structure FrameSocket (K : AsyncTCPSocketBase) (F : Framer Byte) (Accepts : List Byte → Prop)
    (frame payload : List Byte → List Byte) : Prop where
  isFrame : ∀ {pv}, Accepts pv → F.IsFrame (frame pv)
  payload_frame : ∀ {pv}, Accepts pv → payload (frame pv) = pv
  size_lt : ∀ s, F.size s < K.maxPacketSize
  processInput_eq : ∀ data, K.processInput data =
    some ((F.split data).1.map payload, (F.split data).2)

/-- What one `Send` may do: nothing, or place a packet that it accepts, give the first bytes of
its frame to the stream and keep the others. It does so if the out-buffer is empty and the
stream takes bytes. -/
structure SendSpec (Accepts : List Byte → Prop) (frame : List Byte → List Byte)
    (outbuf pv : List Byte) (offer : Int) (s : Sent) : Prop where
  does : s.outbuf = outbuf ∧ s.taken = [] ∨
    s.taken ≠ [] ∧ Accepts pv ∧ outbuf = [] ∧ s.taken ++ s.outbuf = frame pv
  places : outbuf = [] → Accepts pv → 0 < offer → s.taken ≠ []

section

variable {K : AsyncTCPSocketBase} {F : Framer Byte} {Accepts : List Byte → Prop}
  {frame payload : List Byte → List Byte} {pv : List Byte} {stream : List Byte}

/-- The peer has cut the first frames off the bytes that the stream took. -/
def Receiver.Cut (F : Framer Byte) (payload : List Byte → List Byte) (stream : List Byte)
    (r : Receiver) : Prop :=
  ¬ F.Complete r.inbuf ∧ ∃ frames : List (List Byte), (∀ f ∈ frames, F.IsFrame f) ∧
    r.signalled = frames.map payload ∧ stream = frames.flatten ++ (r.inbuf ++ r.wire)

theorem finishSend_spec (hpv : Accepts pv) (hout : outbuf = []) (hframe : frame pv ≠ []) (cb : Nat)
    (offer : Int) : SendSpec Accepts frame outbuf pv offer (finishSend (frame pv) cb offer) := by
  rw [finishSend]
  by_cases hres : (flushOutBuffer (frame pv) offer).1 ≤ 0
  · rw [if_pos hres]
    refine ⟨.inl ⟨hout.symm, congrArg Prod.snd (flushOutBuffer_of_nonpos hres)⟩, ?_⟩
    exact fun _ _ hoffer => absurd hres (flushOutBuffer_pos hframe hoffer)
  · rw [if_neg hres]
    have htaken := flushOutBuffer_taken hres
    exact ⟨.inr ⟨htaken, hpv, hout, flushOutBuffer_append (frame pv) offer⟩, fun _ _ _ => htaken⟩

/-- A packet that is dropped or refused. -/
theorem sendSpec_unplaced (h : ¬ (outbuf = [] ∧ Accepts pv)) (ret offer : Int) :
    SendSpec Accepts frame outbuf pv offer ⟨ret, outbuf, []⟩ :=
  ⟨.inl ⟨rfl, rfl⟩, fun hout hpv _ => absurd ⟨hout, hpv⟩ h⟩

theorem Receiver.Cut.length_lt (hK : FrameSocket K F Accepts frame payload) {r : Receiver}
    (h : r.Cut F payload stream) : r.inbuf.length < K.maxPacketSize :=
  F.length_lt_of_not_complete hK.size_lt h.1

/-- A read event does not fail, and cuts off the frames that have become whole. -/
theorem onReadEvent_cut (hK : FrameSocket K F Accepts frame payload) {r : Receiver}
    (h : r.Cut F payload stream) (avail : Int) :
    ∃ r', onReadEvent K r avail = some r' ∧ r'.Cut F payload stream := by
  have hlen := h.length_lt hK
  rw [onReadEvent, if_neg (Nat.not_lt.mpr hlen.le)]
  simp only []
  split
  · exact ⟨r, rfl, h⟩
  · generalize (streamRecv avail r.wire (K.maxPacketSize - r.inbuf.length)).toNat = n
    obtain ⟨-, frames, hframes, hsignalled, hstream⟩ := h
    have hrest := F.not_complete_rest (r.inbuf ++ r.wire.take n)
    have hflat := F.flatten_split (r.inbuf ++ r.wire.take n)
    have hnew := F.isFrame_of_mem_split (s := r.inbuf ++ r.wire.take n)
    rw [hK.processInput_eq, Option.bind_eq_bind, Option.bind_some,
      if_neg (Nat.not_le.mpr (F.length_lt_of_not_complete hK.size_lt hrest))]
    generalize F.split (r.inbuf ++ r.wire.take n) = cut at hrest hflat hnew
    refine ⟨_, rfl, hrest, frames ++ cut.1, ?_, ?_, ?_⟩
    · intro f hf
      exact (List.mem_append.mp hf).elim (hframes f) (hnew f)
    · rw [List.map_append, ← hsignalled]
    · -- the bytes that were read join those of the in-buffer
      calc stream = frames.flatten ++ (r.inbuf ++ (r.wire.take n ++ r.wire.drop n)) := by
            rw [List.take_append_drop, hstream]
        _ = frames.flatten ++ ((cut.1.flatten ++ cut.2) ++ r.wire.drop n) := by
            rw [hflat, List.append_assoc]
        _ = (frames ++ cut.1).flatten ++ (cut.2 ++ r.wire.drop n) := by
            simp only [List.flatten_append, List.append_assoc]

theorem cut_start (wire : List Byte) :
    ({ inbuf := [], wire := wire, signalled := [] } : Receiver).Cut F payload wire :=
  ⟨F.not_complete_nil, [], by simp, rfl, rfl⟩

/-- Whatever the stream brings, and in whatever pieces. -/
theorem receiver_always (hK : FrameSocket K F Accepts frame payload) (wire : List Byte)
    (reads : List Int) :
    Machine.Always (Machine.attempt (onReadEvent K))
      (Machine.Holding fun r => r.Cut F payload wire ∧ r.inbuf.length < K.maxPacketSize)
      (some { inbuf := [], wire := wire, signalled := [] }) reads := by
  refine Machine.Always.imp ?_ (Machine.always_attempt (I := Receiver.Cut F payload wire)
    (P := fun _ _ => True) (fun r avail h _ => onReadEvent_cut hK h avail) (cut_start wire)
    (Machine.along_of_forall (fun _ _ _ _ => trivial) _ reads))
  rintro _ ⟨r, rfl, hr⟩
  exact ⟨r, rfl, hr, hr.length_lt hK⟩

/-! ## What a connection delivers -/

/-- The packets placed are those whose frames the stream took or the out-buffer holds. -/
structure Connection.Framed (K : AsyncTCPSocketBase) (F : Framer Byte) (Accepts : List Byte → Prop)
    (frame payload : List Byte → List Byte) (c : Connection) : Prop where
  accepts : ∀ pv ∈ c.placed, Accepts pv
  stream : ∃ stream, c.toReceiver.Cut F payload stream ∧
    (c.placed.map frame).flatten = stream ++ c.outbuf
  outbuf_lt : c.outbuf.length < K.maxPacketSize

/-- The packets signalled are the first of those placed, all of them once nothing is on
its way, and both buffers have room. -/
structure Connection.Delivers (K : AsyncTCPSocketBase) (c : Connection) : Prop where
  signalled : c.signalled <+: c.placed
  all : c.outbuf = [] → c.wire = [] → c.signalled = c.placed
  outbuf_lt : c.outbuf.length < K.maxPacketSize
  inbuf_lt : c.inbuf.length < K.maxPacketSize

variable {c : Connection}

theorem framed_start (hK : FrameSocket K F Accepts frame payload) :
    Connection.start.Framed K F Accepts frame payload where
  accepts := by simp [Connection.start]
  stream := ⟨[], cut_start [], rfl⟩
  outbuf_lt := (Nat.zero_le _).trans_lt (hK.size_lt [])

theorem Connection.Framed.delivers (hK : FrameSocket K F Accepts frame payload)
    (h : c.Framed K F Accepts frame payload) : c.Delivers K := by
  obtain ⟨stream, hcut, hplaced⟩ := h.stream
  obtain ⟨hrest, frames, hframes, hsignalled, hstream⟩ := id hcut
  have hsent : ∀ f ∈ c.placed.map frame, F.IsFrame f := by
    simp only [List.forall_mem_map]
    exact fun pv hpv => hK.isFrame (h.accepts pv hpv)
  have hback : (c.placed.map frame).map payload = c.placed := by
    rw [List.map_map]
    exact (List.map_congr_left fun pv hpv => hK.payload_frame (h.accepts pv hpv)).trans
      (List.map_id _)
  rw [hstream, List.append_assoc] at hplaced
  refine ⟨?_, ?_, h.outbuf_lt, hcut.length_lt hK⟩
  · rw [hsignalled, ← hback]
    exact (F.prefix_of_flatten hsent hframes hplaced).map payload
  · intro hout hwire
    rw [hout, hwire, List.append_nil, List.append_nil] at hplaced
    rw [hsignalled, F.eq_of_flatten hsent hframes hplaced hrest, hback]

/-- The stream has taken more bytes. -/
theorem Receiver.Cut.append {r : Receiver} (h : r.Cut F payload stream) (taken : List Byte) :
    { r with wire := r.wire ++ taken }.Cut F payload (stream ++ taken) := by
  obtain ⟨hrest, frames, hframes, hsignalled, hstream⟩ := h
  refine ⟨hrest, frames, hframes, hsignalled, ?_⟩
  simp only [hstream, List.append_assoc]

theorem framed_send (hK : FrameSocket K F Accepts frame payload)
    (h : c.Framed K F Accepts frame payload) {offer : Int} {s : Sent}
    (hs : SendSpec Accepts frame c.outbuf pv offer s) :
    { c with outbuf := s.outbuf, wire := c.wire ++ s.taken,
             placed := if s.taken = [] then c.placed else c.placed ++ [pv] }.Framed
      K F Accepts frame payload := by
  obtain ⟨haccepts, ⟨stream, hcut, hplaced⟩, hlen⟩ := h
  obtain ⟨hout, htaken⟩ | ⟨htaken, hpv, hout, hframe⟩ := hs.does
  · refine ⟨?_, ⟨stream, ?_, ?_⟩, ?_⟩
    · simpa only [htaken, if_true] using haccepts
    · simpa only [htaken, List.append_nil] using hcut
    · simpa only [htaken, hout, if_true] using hplaced
    · simpa only [hout] using hlen
  · refine ⟨?_, ⟨stream ++ s.taken, hcut.append s.taken, ?_⟩, ?_⟩
    · simp only [if_neg htaken, List.mem_append, List.mem_singleton]
      rintro p (hp | rfl)
      · exact haccepts p hp
      · exact hpv
    · rw [hout, List.append_nil] at hplaced
      simp only [if_neg htaken, List.map_append, List.flatten_append, hplaced, List.map_singleton,
        List.flatten_singleton, List.append_assoc, hframe]
    · -- the out-buffer holds the end of one frame
      have hsize := hK.size_lt (frame pv)
      have hbytes := congrArg List.length hframe
      rw [(hK.isFrame hpv).2] at hsize
      rw [List.length_append] at hbytes
      exact lt_of_le_of_lt (show s.outbuf.length ≤ (frame pv).length by omega) hsize

theorem framed_write (h : c.Framed K F Accepts frame payload) (offer : Int) :
    (onWriteEvent c offer).Framed K F Accepts frame payload := by
  rw [onWriteEvent]
  split
  · obtain ⟨haccepts, ⟨stream, hcut, hplaced⟩, hlen⟩ := h
    have hflush := flushOutBuffer_append c.outbuf offer
    generalize flushOutBuffer c.outbuf offer = flushed at hflush ⊢
    refine ⟨haccepts, ⟨stream ++ flushed.2.2, hcut.append _, ?_⟩, ?_⟩
    · rw [hplaced, ← hflush, List.append_assoc]
    · have hbytes := congrArg List.length hflush
      rw [List.length_append] at hbytes
      exact lt_of_le_of_lt (show flushed.2.1.length ≤ c.outbuf.length by omega) hlen
  · exact h

theorem framed_read (hK : FrameSocket K F Accepts frame payload)
    (h : c.Framed K F Accepts frame payload) (avail : Int) :
    ∃ c', c.step K (.read avail) = some c' ∧ c'.Framed K F Accepts frame payload := by
  obtain ⟨haccepts, ⟨stream, hcut, hplaced⟩, hlen⟩ := h
  obtain ⟨r, hr, hcut'⟩ := onReadEvent_cut hK hcut avail
  refine ⟨{ c with toReceiver := r }, ?_, haccepts, ⟨stream, hcut', hplaced⟩, hlen⟩
  simp only [Connection.step, hr, Option.bind_eq_bind, Option.bind_some]

/-- A packet that is accepted, the out-buffer empty and the stream taking bytes. -/
theorem SendSpec.step_places {offer : Int}
    (hsend : ∃ s, K.send c.outbuf pv offer = some s ∧ SendSpec Accepts frame c.outbuf pv offer s)
    (hout : c.outbuf = []) (hpv : Accepts pv) (hoffer : 0 < offer) :
    ∃ c', c.step K (.send pv offer) = some c' ∧ c'.placed = c.placed ++ [pv] := by
  obtain ⟨s, hs, hspec⟩ := hsend
  have hplaced := hspec.places hout hpv hoffer
  refine ⟨{ c with outbuf := s.outbuf, wire := c.wire ++ s.taken, placed := c.placed ++ [pv] }, ?_, rfl⟩
  simp only [Connection.step, hs, Option.bind_eq_bind, Option.bind_some, if_neg hplaced]

/-- Every run whose calls of `Send` do what a subclass guarantees. -/
theorem connection_always (hK : FrameSocket K F Accepts frame payload)
    {P : Connection → Event → Prop}
    (hsend : ∀ c pv offer, P c (.send pv offer) →
      ∃ s, K.send c.outbuf pv offer = some s ∧ SendSpec Accepts frame c.outbuf pv offer s)
    {inputs : List Event}
    (h : Machine.Along (Machine.attempt (Connection.step K)) (Machine.Running P)
      (some Connection.start) inputs) :
    Machine.Always (Machine.attempt (Connection.step K))
      (Machine.Holding (Connection.Delivers K)) (some Connection.start) inputs := by
  refine Machine.Always.imp ?_ (Machine.always_attempt
    (I := Connection.Framed K F Accepts frame payload) ?_ (framed_start hK) h)
  · rintro _ ⟨c, rfl, hc⟩
    exact ⟨c, rfl, hc.delivers hK⟩
  · intro c i hc hP
    cases i with
    | send pv offer =>
      obtain ⟨s, hs, hspec⟩ := hsend c pv offer hP
      refine ⟨_, ?_, framed_send hK hc hspec⟩
      rw [Connection.step, hs]
      rfl
    | write offer => exact ⟨_, rfl, framed_write hc offer⟩
    | read avail => exact framed_read hK hc avail

end

end PerchWebrtc.Socket
