import PerchWebrtc.Framework.Bytes

/-!
# RTCP packets as the parser reports them

The packet types, states and packet records of `rtcp_utility.h`. The union
`RTCPPacket` is an inductive type: the parser reads a member only if it was
the last one written.
-/

namespace PerchWebrtc.Rtcp

def RTCP_RPSI_DATA_SIZE : Nat := 30
def kRtcpAppCode_DATA_SIZE : Nat := 128

inductive RTCPPacketTypes where
  | kRtcpNotValidCode
  | kRtcpRrCode
  | kRtcpSrCode
  | kRtcpReportBlockItemCode
  | kRtcpSdesCode
  | kRtcpSdesChunkCode
  | kRtcpByeCode
  | kRtcpExtendedIjCode
  | kRtcpExtendedIjItemCode
  | kRtcpRtpfbNackCode
  | kRtcpRtpfbNackItemCode
  | kRtcpPsfbPliCode
  | kRtcpPsfbRpsiCode
  | kRtcpPsfbSliCode
  | kRtcpPsfbSliItemCode
  | kRtcpPsfbAppCode
  | kRtcpPsfbRembCode
  | kRtcpPsfbRembItemCode
  | kRtcpRtpfbTmmbrCode
  | kRtcpRtpfbTmmbrItemCode
  | kRtcpRtpfbTmmbnCode
  | kRtcpRtpfbTmmbnItemCode
  | kRtcpPsfbFirCode
  | kRtcpPsfbFirItemCode
  | kRtcpRtpfbSrReqCode
  | kRtcpXrVoipMetricCode
  | kRtcpAppCode
  | kRtcpAppItemCode
  deriving DecidableEq, Repr

/-! `RTCPPT`. -/

def PT_IJ : Byte := 195
def PT_SR : Byte := 200
def PT_RR : Byte := 201
def PT_SDES : Byte := 202
def PT_BYE : Byte := 203
def PT_APP : Byte := 204
def PT_RTPFB : Byte := 205
def PT_PSFB : Byte := 206
def PT_XR : Byte := 207

inductive ParseState where
  | TopLevel
  | ReportBlockItem
  | SDESChunk
  | BYEItem
  | ExtendedJitterItem
  | RTPFB_NACKItem
  | RTPFB_TMMBRItem
  | RTPFB_TMMBNItem
  | PSFB_SLIItem
  | PSFB_RPSIItem
  | PSFB_FIRItem
  | PSFB_AppItem
  | PSFB_REMBItem
  | XRItem
  | AppItem
  deriving DecidableEq, Repr

structure RTCPCommonHeader where
  V : Byte
  P : Bool
  IC : Byte
  PT : Byte
  LengthInOctets : BitVec 16

structure RTCPPacketSR where
  SenderSSRC : BitVec 32
  NumberOfReportBlocks : Nat
  NTPMostSignificant : BitVec 32
  NTPLeastSignificant : BitVec 32
  RTPTimestamp : BitVec 32
  SenderPacketCount : BitVec 32
  SenderOctetCount : BitVec 32

structure RTCPPacketReportBlockItem where
  SSRC : BitVec 32
  FractionLost : Byte
  CumulativeNumOfPacketsLost : BitVec 32
  ExtendedHighestSequenceNumber : BitVec 32
  Jitter : BitVec 32
  LastSR : BitVec 32
  DelayLastSR : BitVec 32

structure RTCPPacketXRVOIPMetricItem where
  SSRC : BitVec 32
  lossRate : Byte
  discardRate : Byte
  burstDensity : Byte
  gapDensity : Byte
  burstDuration : BitVec 16
  gapDuration : BitVec 16
  roundTripDelay : BitVec 16
  endSystemDelay : BitVec 16
  signalLevel : Byte
  noiseLevel : Byte
  RERL : Byte
  Gmin : Byte
  Rfactor : Byte
  extRfactor : Byte
  MOSLQ : Byte
  MOSCQ : Byte
  RXconfig : Byte
  JBnominal : BitVec 16
  JBmax : BitVec 16
  JBabsMax : BitVec 16

/-- `RTCPPacketRTPFBTMMBRItem` and `RTCPPacketRTPFBTMMBNItem`. -/
structure RTCPPacketRTPFBTMMBItem where
  SSRC : BitVec 32
  MaxTotalMediaBitRate : BitVec 32
  MeasuredOverhead : BitVec 32

structure RTCPPacketPSFBRPSI where
  SenderSSRC : BitVec 32
  MediaSSRC : BitVec 32
  PayloadType : Byte
  NumberOfValidBits : BitVec 16
  NativeBitString : List Byte

structure RTCPPacketAPP where
  SubType : Byte
  Name : BitVec 32
  Data : List Byte
  Size : BitVec 16

inductive RTCPPacket where
  | empty
  | RR (SenderSSRC : BitVec 32) (NumberOfReportBlocks : Nat)
  | SR (sr : RTCPPacketSR)
  | ReportBlockItem (item : RTCPPacketReportBlockItem)
  | CName (SenderSSRC : BitVec 32) (CName : List Byte)
  | BYE (SenderSSRC : BitVec 32)
  | ExtendedJitterReportItem (Jitter : BitVec 32)
  | NACK (SenderSSRC MediaSSRC : BitVec 32)
  | NACKItem (PacketID BitMask : BitVec 16)
  | PLI (SenderSSRC MediaSSRC : BitVec 32)
  | SLI (SenderSSRC MediaSSRC : BitVec 32)
  | SLIItem (FirstMB NumberOfMB : BitVec 16) (PictureId : Byte)
  | RPSI (rpsi : RTCPPacketPSFBRPSI)
  | PSFBAPP (SenderSSRC MediaSSRC : BitVec 32)
  | REMBItem (BitRate : BitVec 32) (SSRCs : List (BitVec 32))
  | TMMBR (SenderSSRC MediaSSRC : BitVec 32)
  | TMMBRItem (item : RTCPPacketRTPFBTMMBItem)
  | TMMBN (SenderSSRC MediaSSRC : BitVec 32)
  | TMMBNItem (item : RTCPPacketRTPFBTMMBItem)
  | FIR (SenderSSRC MediaSSRC : BitVec 32)
  | FIRItem (SSRC : BitVec 32) (CommandSequenceNumber : Byte)
  | XR (OriginatorSSRC : BitVec 32)
  | XRVOIPMetricItem (item : RTCPPacketXRVOIPMetricItem)
  | APP (app : RTCPPacketAPP)

end PerchWebrtc.Rtcp
