import Mathlib.Data.List.Nodup

/-!
# Session descriptions

`codec.cc`, `streamparams.cc`, `sessiondescription.cc` and the data types of `mediasession.h`:
a description has contents, transport infos and groups, each found by name. A content that is
media has a description of the audio, video or data codecs, the streams and the cryptos.
-/

namespace PerchWebrtc.Session

/-! ## C strings -/

/-- The characters of `c_str()`, up to the first zero. -/
def cStr (s : String) : List Char := s.toList.takeWhile (· ≠ '\x00')

/-- `stricmp(a, b) == 0`. -/
def stricmpEq (a b : String) : Bool := (cStr a).map Char.toLower == (cStr b).map Char.toLower

/-- `talk_base::starts_with`. -/
def startsWith (s t : String) : Bool := t.toList.isPrefixOf (cStr s)

/-! ## Codecs -/

def kRtxCodecName : String := "rtx"
def kComfortNoiseCodecName : String := "CN"
def kCodecParamAssociatedPayloadType : String := "apt"
def kMaxStaticPayloadId : Int := 95

structure FeedbackParam where
  id : String
  param : String
deriving DecidableEq, Repr

/-- `FeedbackParam::operator==`. -/
def FeedbackParam.same (self other : FeedbackParam) : Bool :=
  stricmpEq other.id self.id && stricmpEq other.param self.param

/-- `CodecParameterMap`: one entry for a name. -/
abbrev CodecParameterMap := List (String × String)

/-- `params[name] = value`. -/
def CodecParameterMap.set (params : CodecParameterMap) (name value : String) : CodecParameterMap :=
  (name, value) :: params.filter (·.1 ≠ name)

theorem CodecParameterMap.lookup_set (params : CodecParameterMap) (name value : String) :
    (params.set name value).lookup name = some value := by
  simp [CodecParameterMap.set]

structure Codec where
  id : Int
  name : String
  clockrate : Int
  preference : Int
  params : CodecParameterMap
  feedbackParams : List FeedbackParam
deriving DecidableEq, Repr

namespace Codec

/-- `Codec::Matches`. -/
def matchesCodec (self codec : Codec) : Bool :=
  if codec.id ≤ kMaxStaticPayloadId then self.id == codec.id else stricmpEq self.name codec.name

def getParam (self : Codec) (name : String) : Option String := self.params.lookup name

def setParam (self : Codec) (name value : String) : Codec :=
  { self with params := self.params.set name value }

@[simp] theorem getParam_setParam (self : Codec) (name value : String) :
    (self.setParam name value).getParam name = some value :=
  CodecParameterMap.lookup_set ..

def intersectFeedbackParams (self other : Codec) : Codec :=
  { self with feedbackParams := self.feedbackParams.filter fun p =>
      other.feedbackParams.any (p.same ·) }

end Codec

structure AudioCodec extends Codec where
  bitrate : Int
  channels : Int
deriving DecidableEq, Repr

structure VideoCodec extends Codec where
  width : Int
  height : Int
  framerate : Int
deriving DecidableEq, Repr

structure DataCodec extends Codec
deriving DecidableEq, Repr

/-- `AudioCodec::Matches`. -/
def AudioCodec.matchesCodec (self codec : AudioCodec) : Bool :=
  self.toCodec.matchesCodec codec.toCodec
    && (codec.clockrate == 0 || self.clockrate == codec.clockrate)
    && (codec.bitrate == 0 || decide (self.bitrate ≤ 0) || self.bitrate == codec.bitrate)
    && ((decide (codec.channels < 2) && decide (self.channels < 2))
      || self.channels == codec.channels)

/-- What the templates over a codec type use of it. -/
class CodecType (C : Type) where
  codec : C → Codec
  withCodec : C → Codec → C
  /-- The `Matches` of the type. -/
  isMatch : C → C → Bool
  codec_withCodec (c : C) (k : Codec) : codec (withCodec c k) = k

instance : CodecType AudioCodec where
  codec c := c.toCodec
  withCodec c k := { c with toCodec := k }
  isMatch := AudioCodec.matchesCodec
  codec_withCodec _ _ := rfl

instance : CodecType VideoCodec where
  codec c := c.toCodec
  withCodec c k := { c with toCodec := k }
  isMatch c d := c.toCodec.matchesCodec d.toCodec
  codec_withCodec _ _ := rfl

instance : CodecType DataCodec where
  codec c := c.toCodec
  withCodec c k := { c with toCodec := k }
  isMatch c d := c.toCodec.matchesCodec d.toCodec
  codec_withCodec _ _ := rfl

attribute [simp] CodecType.codec_withCodec

/-- `IsRtxCodec`. -/
def isRtxCodec {C : Type} [CodecType C] (codec : C) : Bool :=
  stricmpEq (CodecType.codec codec).name kRtxCodecName

/-! ## Streams and cryptos -/

def kFidSsrcGroupSemantics : String := "FID"

structure SsrcGroup where
  semantics : String
  ssrcs : List (BitVec 32)
deriving DecidableEq, Repr

structure StreamParams where
  groupid : String := ""
  id : String := ""
  ssrcs : List (BitVec 32) := []
  ssrcGroups : List SsrcGroup := []
  type : String := ""
  display : String := ""
  cname : String := ""
  syncLabel : String := ""
deriving DecidableEq, Repr

namespace StreamParams

def createLegacy (ssrc : BitVec 32) : StreamParams := { ssrcs := [ssrc] }

def hasSsrc (s : StreamParams) (ssrc : BitVec 32) : Bool := s.ssrcs.contains ssrc

/-- `AddFidSsrc`, that is `AddSecondarySsrc` with the FID semantics. -/
def addFidSsrc (s : StreamParams) (primarySsrc fidSsrc : BitVec 32) : StreamParams :=
  if s.hasSsrc primarySsrc then
    { s with
      ssrcs := s.ssrcs ++ [fidSsrc]
      ssrcGroups := s.ssrcGroups ++ [⟨kFidSsrcGroupSemantics, [primarySsrc, fidSsrc]⟩] }
  else s

end StreamParams

/-- `GetStreamBySsrc`: an SSRC of zero selects by the empty ids (`StreamSelector::Matches`). -/
def getStreamBySsrc (streams : List StreamParams) (ssrc : BitVec 32) : Option StreamParams :=
  streams.find? fun s =>
    if ssrc = 0 then s.groupid == "" && s.id == "" else s.hasSsrc ssrc

def getStreamByIds (streams : List StreamParams) (groupid id : String) : Option StreamParams :=
  streams.find? fun s => s.groupid == groupid && s.id == id

structure CryptoParams where
  tag : Int
  cipherSuite : String
  keyParams : String
  sessionParams : String
deriving DecidableEq, Repr

def CryptoParams.isMatch (self params : CryptoParams) : Bool :=
  self.tag == params.tag && self.cipherSuite == params.cipherSuite

structure RtpHeaderExtension where
  uri : String
  id : Int
deriving DecidableEq, Repr

/-! ## Contents -/

def NS_JINGLE_RTP : String := "urn:xmpp:jingle:apps:rtp:1"
def NS_JINGLE_DRAFT_SCTP : String := "google:jingle:sctp"
def kMediaProtocolAvpf : String := "RTP/AVPF"
def kMediaProtocolSavpf : String := "RTP/SAVPF"
def kMediaProtocolRtpPrefix : String := "RTP/"
def kMediaProtocolSctp : String := "SCTP"
def kMediaProtocolDtlsSctp : String := "DTLS/SCTP"

inductive MediaType
  | audio
  | video
  | data
deriving DecidableEq, Repr

inductive MediaContentDirection
  | inactive
  | sendonly
  | recvonly
  | sendrecv
deriving DecidableEq, Repr

/-- The codecs of an audio, video or data content description. -/
inductive MediaCodecs
  | audio (codecs : List AudioCodec)
  | video (codecs : List VideoCodec)
  | data (codecs : List DataCodec)
deriving DecidableEq, Repr

structure MediaContentDescription where
  codecs : MediaCodecs
  rtcpMux : Bool := false
  bandwidth : Int := -1
  protocol : String := ""
  cryptos : List CryptoParams := []
  cryptoRequired : Bool := false
  rtpHeaderExtensions : List RtpHeaderExtension := []
  rtpHeaderExtensionsSet : Bool := false
  multistream : Bool := false
  streams : List StreamParams := []
  direction : MediaContentDirection := .sendrecv
deriving DecidableEq, Repr

def MediaContentDescription.type (d : MediaContentDescription) : MediaType :=
  match d.codecs with
  | .audio _ => .audio
  | .video _ => .video
  | .data _ => .data

/-- A content; the description of one that is not media is never read. -/
structure ContentInfo where
  name : String
  type : String
  rejected : Bool := false
  description : Option MediaContentDescription
deriving DecidableEq, Repr

def isMediaContent (content : ContentInfo) : Bool :=
  content.type == NS_JINGLE_RTP || content.type == NS_JINGLE_DRAFT_SCTP

def isMediaContentOfType (content : ContentInfo) (mediaType : MediaType) : Bool :=
  isMediaContent content && content.description.any (·.type == mediaType)

/-! ## Transports and groups -/

def GROUP_TYPE_BUNDLE : String := "BUNDLE"

inductive IceMode
  | full
  | lite
deriving DecidableEq, Repr

structure SSLFingerprint where
  algorithm : String
  digest : List (BitVec 8)
deriving DecidableEq, Repr

structure TransportDescription where
  transportType : String := ""
  transportOptions : List String := []
  iceUfrag : String := ""
  icePwd : String := ""
  iceMode : IceMode := .full
  identityFingerprint : Option SSLFingerprint := none
deriving DecidableEq, Repr

structure TransportInfo where
  contentName : String
  description : TransportDescription
deriving DecidableEq, Repr

/-- A group names a content once: `AddContentName` is the only way to add a name. -/
structure ContentGroup where
  semantics : String
  contentNames : List String
  nodup : contentNames.Nodup

namespace ContentGroup

def new (semantics : String) : ContentGroup := ⟨semantics, [], List.nodup_nil⟩

def firstContentName (g : ContentGroup) : Option String := g.contentNames.head?

def hasContentName (g : ContentGroup) (contentName : String) : Bool :=
  g.contentNames.contains contentName

def addContentName (g : ContentGroup) (contentName : String) : ContentGroup :=
  if h : contentName ∈ g.contentNames then g
  else
    { g with
      contentNames := g.contentNames ++ [contentName]
      nodup := List.nodup_append.mpr ⟨g.nodup, List.nodup_singleton _, by
        intro a ha b hb hab
        rw [List.mem_singleton.mp hb] at hab
        exact h (hab ▸ ha)⟩ }

end ContentGroup

structure SessionDescription where
  contents : List ContentInfo := []
  transportInfos : List TransportInfo := []
  contentGroups : List ContentGroup := []

namespace SessionDescription

def getContentByName (s : SessionDescription) (name : String) : Option ContentInfo :=
  s.contents.find? (·.name == name)

def getTransportInfoByName (s : SessionDescription) (name : String) : Option TransportInfo :=
  s.transportInfos.find? (·.contentName == name)

def addContent (s : SessionDescription) (name type : String) (rejected : Bool)
    (description : MediaContentDescription) : SessionDescription :=
  { s with contents := s.contents ++ [⟨name, type, rejected, some description⟩] }

/-- `AddTransportInfo`; `none` where it returns false. -/
def addTransportInfo (s : SessionDescription) (info : TransportInfo) :
    Option SessionDescription :=
  if (s.getTransportInfoByName info.contentName).isSome then none
  else some { s with transportInfos := s.transportInfos ++ [info] }

def hasGroup (s : SessionDescription) (name : String) : Bool :=
  s.contentGroups.any (·.semantics == name)

def getGroupByName (s : SessionDescription) (name : String) : Option ContentGroup :=
  s.contentGroups.find? (·.semantics == name)

def addGroup (s : SessionDescription) (group : ContentGroup) : SessionDescription :=
  { s with contentGroups := s.contentGroups ++ [group] }

/-- `GetFirstMediaContent`. -/
def getFirstMediaContent (s : SessionDescription) (mediaType : MediaType) : Option ContentInfo :=
  s.contents.find? (isMediaContentOfType · mediaType)

theorem addTransportInfo_contents {s s' : SessionDescription} {info : TransportInfo}
    (h : s.addTransportInfo info = some s') : s'.contents = s.contents := by
  simp only [addTransportInfo] at h
  split at h
  · cases h
  · cases h
    rfl

end SessionDescription

end PerchWebrtc.Session
