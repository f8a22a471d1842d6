import PerchWebrtc.Rtcp.Parser

/-!
# What the RTCP receiver makes of feedback

`HandleNACK` and `HandleRPSI` of `RTCPReceiver` (`rtcp_receiver.cc`), which
drive the parser, and the `RTCPPacketInformation` they fill in.
-/

namespace PerchWebrtc.Rtcp

def kSendSideNackListSizeSanity : Nat := 20000

def kRtcpNack : BitVec 32 := 0x0020
def kRtcpRpsi : BitVec 32 := 0x8000

/-- Next to the fields of the class, every picture id that was reported. -/
structure RTCPPacketInformation where
  rtcpPacketTypeFlags : BitVec 32 := 0
  nackSequenceNumbers : List (BitVec 16) := []
  rpsiPictureId : BitVec 64 := 0
  rpsiReports : List (BitVec 64) := []

namespace RTCPPacketInformation

variable (info : RTCPPacketInformation)

def addNACKPacket (packetID : BitVec 16) : RTCPPacketInformation :=
  if info.nackSequenceNumbers.length ≥ kSendSideNackListSizeSanity then info
  else { info with nackSequenceNumbers := info.nackSequenceNumbers ++ [packetID] }

def resetNACKPacketIdArray : RTCPPacketInformation := { info with nackSequenceNumbers := [] }

/-- The bit of round `i` is bit `i - 1` of the mask. -/
def handleNACKItem (packetID bitMask : BitVec 16) : RTCPPacketInformation :=
  let info := (List.range' 1 16).foldl (fun info i =>
    if bitMask.getLsbD (i - 1) then info.addNACKPacket (packetID + BitVec.ofNat 16 i) else info)
    (info.addNACKPacket packetID)
  { info with rtcpPacketTypeFlags := info.rtcpPacketTypeFlags ||| kRtcpNack }

/-- The picture id of a bit string of `numberOfBytes`. The source reads what
lies behind the string where this is more than its length. -/
def pictureIdOf (nativeBitString : List Byte) (numberOfBytes : Nat) : BitVec 64 :=
  let group (n : Nat) : BitVec 64 := ((nativeBitString.getD n 0) &&& 0x7f).setWidth 64
  (List.range (numberOfBytes - 1)).foldl (fun id n => (id + group n) <<< 7) 0 +
    group (numberOfBytes - 1)

/-- The bit string of an RPSI that was returned. -/
def handleRPSIItem (rpsi : RTCPPacketPSFBRPSI) : RTCPPacketInformation :=
  let id := pictureIdOf rpsi.NativeBitString ((rpsi.NumberOfValidBits / 8).setWidth 8).toNat
  { info with rpsiPictureId := id, rpsiReports := info.rpsiReports ++ [id] }

end RTCPPacketInformation

namespace RTCPReceiver

open RTCPParserV2

variable (m : Mem) (dataEnd : Nat)

/-- The loop of `HandleNACK`, with a bound of its rounds: an item that is
returned moves the read pointer. -/
def handleNACKItems : Nat → RTCPParserV2 → RTCPPacketInformation →
    RTCPParserV2 × RTCPPacketInformation
  | 0, p, info => (p, info)
  | fuel + 1, p, info =>
    match p.packetType, p.packet with
    | .kRtcpRtpfbNackItemCode, .NACKItem packetID bitMask =>
      handleNACKItems fuel (iterate m dataEnd p) (info.handleNACKItem packetID bitMask)
    | _, _ => (p, info)

/-- The NACK that the parser has returned, by a receiver with this SSRC. -/
def handleNACK (ssrc : BitVec 32) (p : RTCPParserV2) (info : RTCPPacketInformation) :
    RTCPParserV2 × RTCPPacketInformation :=
  match p.packet with
  | .NACK _ mediaSSRC =>
    -- Not to us.
    if ssrc ≠ mediaSSRC then (iterate m dataEnd p, info)
    else handleNACKItems m dataEnd (dataEnd + 1) (iterate m dataEnd p) info.resetNACKPacketIdArray
  | _ => (p, info)

def handleRPSI (p : RTCPParserV2) (info : RTCPPacketInformation) :
    RTCPParserV2 × RTCPPacketInformation :=
  let p := iterate m dataEnd p
  match p.packetType, p.packet with
  | .kRtcpPsfbRpsiCode, .RPSI rpsi =>
    let info := { info with rtcpPacketTypeFlags := info.rtcpPacketTypeFlags ||| kRtcpRpsi }
    if rpsi.NumberOfValidBits % 8 ≠ 0 then (iterate m dataEnd p, info) -- to us unknown
    else (p, info.handleRPSIItem rpsi)
  | _, _ => (p, info)

/-- The loop of `IncomingRTCPPacket` over the packets that the parser returns,
the first of which it has returned. Of the other handlers there is only that
they call `Iterate`. -/
def incomingRTCPPacket : Nat → RTCPParserV2 → RTCPPacketInformation → RTCPPacketInformation
  | 0, _, info => info
  | rounds + 1, p, info =>
    if p.packetType = .kRtcpNotValidCode then info
    else if p.packetType = .kRtcpPsfbRpsiCode then
      let handled := handleRPSI m dataEnd p info
      incomingRTCPPacket rounds handled.1 handled.2
    else incomingRTCPPacket rounds (iterate m dataEnd p) info

end RTCPReceiver

end PerchWebrtc.Rtcp
