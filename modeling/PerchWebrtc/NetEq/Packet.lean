import PerchWebrtc.Framework.Bytes
import PerchWebrtc.Framework.Int32

/-!
# Packets of the audio jitter buffer

`Packet` (`packet.h` of NetEq): the part of an RTP header that is used, and a payload
of its own. A payload is the memory from its first byte on; its length is an `int`,
and nothing but the code that sets it makes it the number of bytes that are valid.
-/

namespace PerchWebrtc.NetEq

structure RTPHeader where
  payloadType : Byte := 0
  sequenceNumber : BitVec 16 := 0
  timestamp : BitVec 32 := 0
  ssrc : BitVec 32 := 0
  deriving DecidableEq

structure Packet where
  header : RTPHeader := {}
  /-- `none` for a null pointer. -/
  payload : Option Mem := none
  payloadLength : Int := 0
  primary : Bool := true

namespace Packet

abbrev timestamp (p : Packet) : BitVec 32 := p.header.timestamp

abbrev sequenceNumber (p : Packet) : BitVec 16 := p.header.sequenceNumber

/-- `operator<`. -/
def lt (p rhs : Packet) : Bool :=
  if p.timestamp = rhs.timestamp then
    if p.sequenceNumber = rhs.sequenceNumber then p.primary && !rhs.primary
    else (rhs.sequenceNumber - p.sequenceNumber).toNat < 0xFFFF / 2
  else (rhs.timestamp - p.timestamp).toNat < 0xFFFFFFFF / 2

end Packet

end PerchWebrtc.NetEq
