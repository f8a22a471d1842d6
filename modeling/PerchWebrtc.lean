import PerchWebrtc.Rtp.HeaderUpdate
import PerchWebrtc.Rtcp.Bounds
import PerchWebrtc.Fec.Soundness
import PerchWebrtc.Fec.Encoding
import PerchWebrtc.Fec.Translation
import PerchWebrtc.Fec.Delivery
import PerchWebrtc.Video.Assembly
import PerchWebrtc.Video.Completeness
import PerchWebrtc.Vp8.Signalling
import PerchWebrtc.Tcp.SendQueue
import PerchWebrtc.Video.NackList
import PerchWebrtc.Vp8.Parser
import PerchWebrtc.Rtp.Traversal
import PerchWebrtc.Rtcp.ReceiveInformation
import PerchWebrtc.Rtcp.Bitrate
import PerchWebrtc.Rtcp.Compound
import PerchWebrtc.Rtp.PacketHistory
import PerchWebrtc.Tcp.ReceiveSide
import PerchWebrtc.Tcp.Datagram
import PerchWebrtc.Rtp.ReceiveStatistics
import PerchWebrtc.Net.SocketAddress
import PerchWebrtc.Stun.ByteBuffer
import PerchWebrtc.Stun.Message
import PerchWebrtc.Stun.RoundTrip
import PerchWebrtc.Stun.Framing
import PerchWebrtc.Stun.Verification
import PerchWebrtc.Stun.Integrity
import PerchWebrtc.Framework.SearchTree
import PerchWebrtc.Turn.Connections
import PerchWebrtc.Turn.Permissions
import PerchWebrtc.Relay.Server
import PerchWebrtc.Relay.ConnectionMap
import PerchWebrtc.Ice.RoleConflict
import PerchWebrtc.Ice.Resolution
import PerchWebrtc.Framework.Machine
import PerchWebrtc.Srtp.SrtpFilter
import PerchWebrtc.Srtp.Activation
import PerchWebrtc.Srtp.Atomicity
import PerchWebrtc.Srtp.Agreement
import PerchWebrtc.NetEq.PacketBuffer
import PerchWebrtc.NetEq.TimestampScaler
import PerchWebrtc.NetEq.DtmfBuffer
import PerchWebrtc.NetEq.RedSplitting
import PerchWebrtc.NetEq.AudioSplitting
import PerchWebrtc.NetEq.Insertion
import PerchWebrtc.Ice.Channel
import PerchWebrtc.Tcp.ReceiveWindow
import PerchWebrtc.Bitrate.Controller
import PerchWebrtc.Pacing.PacedSender
import PerchWebrtc.NetEq.DelayManager
import PerchWebrtc.Framework.RangeCode
import PerchWebrtc.Isac.BitstreamEncoder
import PerchWebrtc.Isac.BitstreamDecoder
import PerchWebrtc.Isac.HistDecoders
import PerchWebrtc.Isac.HistRoundTrip
import PerchWebrtc.Isac.Piecewise
import PerchWebrtc.Isac.SquareRoots
import PerchWebrtc.Isac.Logistic
import PerchWebrtc.Isac.LogisticRoundTrip
import PerchWebrtc.Isac.Envelope
import PerchWebrtc.Framework.Decoding
import PerchWebrtc.Isac.ArbitraryStreams
import PerchWebrtc.Session.Description
import PerchWebrtc.Session.Bundle
import PerchWebrtc.Session.Negotiation
import PerchWebrtc.Session.Answer
import PerchWebrtc.Framework.Ensures
import PerchWebrtc.Vp8.ReferenceBuffers
import PerchWebrtc.Vp8.TemporalLayers
import PerchWebrtc.Vp8.ReferencePictureSelection
import PerchWebrtc.Framework.Framing
import PerchWebrtc.Socket.AsyncTcpSocketBase
import PerchWebrtc.Socket.AsyncTcpSocket
import PerchWebrtc.Socket.AsyncStunTcpSocket
import PerchWebrtc.Framework.Heap
import PerchWebrtc.Thread.MessageQueue
import PerchWebrtc.Thread.Delivery
import PerchWebrtc.Turn.Port
import PerchWebrtc.Framework.Numerals
import PerchWebrtc.Session.UsedIds
import PerchWebrtc.Session.CodecsToOffer
import PerchWebrtc.Session.PayloadTypes
import PerchWebrtc.Sdp.Line
import PerchWebrtc.Sdp.Candidate
import PerchWebrtc.NetEq.RedPayload
import PerchWebrtc.NetEq.AudioChunks
import PerchWebrtc.Rtcp.TMMBRCandidates
import PerchWebrtc.Framework.BranchAndBound
import PerchWebrtc.Vp8.Grouping
import PerchWebrtc.Framework.Loops
import PerchWebrtc.Rtcp.ParserLoops
import PerchWebrtc.Rtcp.Incoming
import PerchWebrtc.Video.MakeDecodable
import PerchWebrtc.Video.Fragmentation
import PerchWebrtc.Video.NackListLimits
import PerchWebrtc.Fec.Gaps
import PerchWebrtc.AudioCoding.Nack
import PerchWebrtc.AudioCoding.NackList
import PerchWebrtc.NetEq.PacketQueries
import PerchWebrtc.NetEq.AudioMultiVector
import PerchWebrtc.NetEq.SyncBuffer
import PerchWebrtc.Pacing.Budget
import PerchWebrtc.Bitrate.Estimation
import PerchWebrtc.Ice.Pruning
import PerchWebrtc.Ice.Priority
import PerchWebrtc.Turn.Channels
import PerchWebrtc.Turn.Lifetime
import PerchWebrtc.Framework.ByteOrder
import PerchWebrtc.Base.ByteBuffer
import PerchWebrtc.Base.ByteQueue
import PerchWebrtc.Base.Stream
import PerchWebrtc.Framework.Ring
import PerchWebrtc.Base.FifoBuffer
import PerchWebrtc.Base.Base64
import PerchWebrtc.Base.HexEncode
import PerchWebrtc.Framework.Transcribe
import PerchWebrtc.Base.StringEncode
import PerchWebrtc.Base.XmlText
import PerchWebrtc.Base.StringSafety
import PerchWebrtc.Base.Utf8
import PerchWebrtc.Base.StringRoundTrip
import PerchWebrtc.Bitrate.Allocation
import PerchWebrtc.Framework.Commuting
import PerchWebrtc.Session.CodecParams
import PerchWebrtc.Sdp.Codecs
import PerchWebrtc.Sdp.CodecUpdates
import PerchWebrtc.Sdp.CodecOrder
import PerchWebrtc.Stun.Requests
