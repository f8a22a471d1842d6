import PerchWebrtc.Framework.Commuting
import PerchWebrtc.Sdp.Candidate
import PerchWebrtc.Session.CodecParams

/-!
# Codecs of a media section

`ParseContent` (`webrtcsdp.cc`), for the codecs: the `a=rtpmap`, `a=fmtp` and `a=rtcp-fb` lines
find or make the codec of their payload type, feedback for all payload types waits in a codec
of its own, and what the codecs became is verified behind the last line. The other lines are
read into a state of their own.

A section is given by its lines, each the text in front of a line feed. An integer that is read
from a text with only blanks is not stored; the variable is what it was.
-/

namespace PerchWebrtc.Sdp

open Framework (put streamInt)
open Session (AudioCodec Codec CodecParameterMap CodecType DataCodec FeedbackParam MediaCodecs
  MediaType VideoCodec stricmpEq)
open Session.CodecType (codec withCodec)

def kLineTypeMedia : Char := 'm'
def kSdpDelimiterSemicolon : Char := ';'

def kAttributeMid : String := "mid"
def kAttributeIceUfrag : String := "ice-ufrag"
def kAttributeIcePwd : String := "ice-pwd"
def kAttributeIceOption : String := "ice-options"
def kAttributeFmtp : String := "fmtp"
def kAttributeFingerprint : String := "fingerprint"
def kAttributeRtcpMux : String := "rtcp-mux"
def kAttributeSsrcGroup : String := "ssrc-group"
def kAttributeSsrc : String := "ssrc"
def kAttributeCrypto : String := "crypto"
def kAttributeRtpmap : String := "rtpmap"
def kAttributeRtcpFb : String := "rtcp-fb"
def kCodecParamPTime : String := "ptime"
def kCodecParamMaxPTime : String := "maxptime"

def kWildcardPayloadType : Int := -1
def kVideoCodecClockrate : Int := 90000
def kDataCodecClockrate : Int := 90000
def kMaxVideoCodecWidth : Int := 1280
def kMaxVideoCodecHeight : Int := 720
def kDefaultVideoCodecFramerate : Int := 30
def kIsacCodecName : String := "ISAC"
def kIsacWbDefaultRate : Int := 32000
def kIsacSwbDefaultRate : Int := 56000

/-! ## Lists of codecs -/

/-- What an `a=rtpmap` line says. -/
structure Rtpmap where
  payloadType : Int
  preference : Int
  encodingName : String
  clockRate : Int
  /-- The encoding parameters, one if there are none. -/
  channels : Int
deriving DecidableEq

/-- The bitrate of an audio codec, which is fixed for ISAC. -/
def Rtpmap.bitrate (m : Rtpmap) : Int :=
  if stricmpEq m.encodingName kIsacCodecName then
    if m.clockRate ≤ 16000 then kIsacWbDefaultRate else kIsacSwbDefaultRate
  else 0

/-- The codecs that are made from the lines. -/
class SectionCodec (C : Type) extends CodecType C where
  /-- The default constructor. -/
  empty : C
  /-- The codec with the fields of an `a=rtpmap` line, as `UpdateCodec` has them. -/
  mapped : Rtpmap → C → C

open SectionCodec (empty mapped)

instance : SectionCodec AudioCodec where
  empty :=
    { id := 0, name := "", clockrate := 0, preference := 0, params := [], feedbackParams := []
      bitrate := 0, channels := 0 }
  mapped m c :=
    { c with
      name := m.encodingName
      clockrate := m.clockRate
      bitrate := m.bitrate
      channels := m.channels
      preference := m.preference }

instance : SectionCodec VideoCodec where
  empty :=
    { id := 0, name := "", clockrate := kVideoCodecClockrate, preference := 0, params := []
      feedbackParams := [], width := 0, height := 0, framerate := 0 }
  mapped m c :=
    { c with
      name := m.encodingName
      width := kMaxVideoCodecWidth
      height := kMaxVideoCodecHeight
      framerate := kDefaultVideoCodecFramerate
      preference := m.preference }

section

variable {C : Type} [SectionCodec C]

/-- The payload type of a codec. -/
def payloadTypeOf {C : Type} [CodecType C] (c : C) : Int := (codec c).id

/-- The empty codec with a payload type. -/
def emptyWithId (payloadType : Int) : C :=
  withCodec (empty : C) { codec (empty : C) with id := payloadType }

def getCodec (codecs : List C) (payloadType : Int) : C :=
  (codecs.find? (payloadTypeOf · = payloadType)).getD (emptyWithId payloadType)

def addOrReplaceCodec (codecs : List C) (c : C) : List C := put payloadTypeOf c codecs

/-- `UpdateCodec`, in each of its forms. -/
def updateCodec (codecs : List C) (payloadType : Int) (update : C → C) : List C :=
  addOrReplaceCodec codecs (update (getCodec codecs payloadType))

def addParameters (parameters : CodecParameterMap) (c : C) : C :=
  withCodec c ((codec c).setParams parameters)

def addFeedbackParameter (param : FeedbackParam) (c : C) : C :=
  withCodec c ((codec c).addFeedbackParam param)

/-- `VerifyAudioCodecs` and `VerifyVideoCodecs`: each codec has a name. -/
def verifyCodecs (codecs : List C) : Bool := codecs.all fun c => (codec c).name ≠ ""

end

/-- What a line says of the codecs. -/
inductive CodecAttribute
  | rtpmap (m : Rtpmap)
  | fmtp (payloadType : Int) (parameters : CodecParameterMap)
  | rtcpFb (payloadType : Int) (param : FeedbackParam)

def CodecAttribute.update {C : Type} [SectionCodec C] (codecs : List C) : CodecAttribute → List C
  | rtpmap m => updateCodec codecs m.payloadType (mapped m)
  | fmtp payloadType parameters => updateCodec codecs payloadType (addParameters parameters)
  | rtcpFb payloadType param => updateCodec codecs payloadType (addFeedbackParameter param)

/-- Data codecs are added only. -/
def CodecAttribute.addDataCodec (codecs : List DataCodec) : CodecAttribute → List DataCodec
  | rtpmap m =>
    codecs ++ [{
      id := m.payloadType
      name := m.encodingName
      clockrate := kDataCodecClockrate
      preference := m.preference
      params := []
      feedbackParams := [] }]
  | _ => codecs

def updateMediaCodecs (codecs : MediaCodecs) (said : CodecAttribute) : MediaCodecs :=
  match codecs with
  | .audio codecs => .audio (said.update codecs)
  | .video codecs => .video (said.update codecs)
  | .data codecs => .data (said.addDataCodec codecs)

/-! ## Lines -/

/-- `FromString<int>`, of a variable that was `unset`. -/
def fromStringInt (unset : Int) (text : Text) : Int := (streamInt unset text).1

/-- What the sections of a description are read with. -/
structure SectionParser (σ : Type) where
  mediaType : MediaType
  protocol : String
  /-- The payload types of the `m=` line. -/
  codecPreference : List Int
  unset : Int
  /-- The lines that do not concern codecs: bandwidth and attributes. -/
  other : Text → σ → Except SdpParseError σ

namespace SectionParser

variable {σ : Type} (p : SectionParser σ)

def isRtp : Bool := p.protocol = "" || Session.startsWith p.protocol Session.kMediaProtocolRtpPrefix

/-- The fields of an attribute. -/
def attributeFields (line : Text) : List Text :=
  split (line.drop kLinePrefixLength) kSdpDelimiterSpace

def rtpmapPayloadType (line : Text) : Except SdpParseError Int :=
  let fields := attributeFields line
  if fields.length < 2 then .error (parseFailedExpectMinFieldNum line 2)
  else (getValue (fields.getD 0 []) kAttributeRtpmap).map (fromStringInt p.unset)

/-- From the end of the list, zero for a payload type that is not there. -/
def preference (payloadType : Int) : Nat :=
  p.codecPreference.length - p.codecPreference.idxOf payloadType

/-- What an `a=rtpmap` line says, nothing if its payload type is not in the `m=` line. -/
def readRtpmap (line : Text) : Except SdpParseError (Option Rtpmap) := do
  let payloadType ← p.rtpmapPayloadType line
  if p.preference payloadType = 0 then .ok none
  else
    let codecParams := split ((attributeFields line).getD 1 []) '/'
    if codecParams.length < 2 || 3 < codecParams.length then
      .error (parseFailed line
        "Expected format \"<encoding name>/<clock rate>[/<encodingparameters>]\".")
    else
      .ok (some {
        payloadType
        preference := p.preference payloadType
        encodingName := String.ofList (codecParams.getD 0 [])
        clockRate := fromStringInt p.unset (codecParams.getD 1 [])
        channels :=
          if codecParams.length = 3 then fromStringInt p.unset (codecParams.getD 2 []) else 1 })

def parseRtpmapAttribute (line : Text) (codecs : MediaCodecs) : Except SdpParseError MediaCodecs :=
  (p.readRtpmap line).map fun m => m.elim codecs fun m => updateMediaCodecs codecs (.rtpmap m)

/-- `PruneRight`. -/
def pruneRight (delimiter : Char) (message : Text) : Text := message.takeWhile (· ≠ delimiter)

def parseFmtpParam (line : Text) : Except SdpParseError (Text × Text) :=
  match splitByDelimiter line kSdpDelimiterEqual with
  | none => .error (parseFailed line "Unable to parse fmtp parameter. '=' missing.")
  | some (parameter, value) => .ok (parameter, pruneRight kSdpDelimiterSemicolon value)

/-- The parameters of the fields that have an equals sign. -/
def parseFmtpParams : List Text → CodecParameterMap → Except SdpParseError CodecParameterMap
  | [], codecParams => .ok codecParams
  | field :: fields, codecParams =>
    if kSdpDelimiterEqual ∈ field then do
      let (name, value) ← parseFmtpParam field
      parseFmtpParams fields (codecParams.set (String.ofList name) (String.ofList value))
    else parseFmtpParams fields codecParams

/-- The payload type and the parameters of an `a=fmtp` line. -/
def readFmtp (line : Text) : Except SdpParseError (Int × CodecParameterMap) :=
  let fields := attributeFields line
  if fields.length < 2 then .error (parseFailedExpectMinFieldNum line 2)
  else do
    let payloadType ← getValue (fields.getD 0 []) kAttributeFmtp
    let codecParams ← parseFmtpParams fields.tail []
    .ok (fromStringInt p.unset payloadType, codecParams)

def parseFmtpAttributes (line : Text) (codecs : MediaCodecs) : Except SdpParseError MediaCodecs :=
  if p.mediaType = .data then .ok codecs
  else (p.readFmtp line).map fun (payloadType, codecParams) =>
    updateMediaCodecs codecs (.fmtp payloadType codecParams)

/-- The payload type and the parameter of an `a=rtcp-fb` line. -/
def readRtcpFb (line : Text) : Except SdpParseError (Int × FeedbackParam) :=
  let rtcpFbFields := split (cStr line) kSdpDelimiterSpace
  if rtcpFbFields.length < 2 then .error (parseFailedGetValue line kAttributeRtcpFb)
  else (getValue (rtcpFbFields.getD 0 []) kAttributeRtcpFb).map fun payloadType =>
    (if payloadType = ['*'] then kWildcardPayloadType else fromStringInt p.unset payloadType,
      ⟨String.ofList (rtcpFbFields.getD 1 []), String.ofList (rtcpFbFields.drop 2).flatten⟩)

def parseRtcpFbAttribute (line : Text) (codecs : MediaCodecs) : Except SdpParseError MediaCodecs :=
  if p.mediaType = .data then .ok codecs
  else (p.readRtcpFb line).map fun (payloadType, param) =>
    updateMediaCodecs codecs (.rtcpFb payloadType param)

end SectionParser

/-! ## Sections -/

/-- What a section has but for its codecs. -/
structure SectionAttributes (σ : Type) where
  maxptime : Text := []
  ptime : Text := []
  other : σ

structure MediaSection (σ : Type) where
  codecs : MediaCodecs
  attributes : SectionAttributes σ

/-- The first attributes that are looked for. -/
def kCommonAttributes : List String :=
  [kAttributeMid, kAttributeCandidate, kAttributeIceUfrag, kAttributeIcePwd, kAttributeIceOption]

/-- The first that are looked for in RTP sections only. -/
def kRtpAttributes : List String :=
  [kAttributeRtcpMux, kAttributeSsrcGroup, kAttributeSsrc, kAttributeCrypto]

def isAttribute (line : Text) (attr : String) : Bool := hasAttribute line attr.toList

namespace SectionParser

variable {σ : Type} (p : SectionParser σ)

def parseOther (line : Text) (s : MediaSection σ) : Except SdpParseError (MediaSection σ) :=
  (p.other line s.attributes.other).map fun other =>
    { s with attributes := { s.attributes with other } }

def parseMaxPTime (line : Text) (s : MediaSection σ) : Except SdpParseError (MediaSection σ) :=
  (getValue line kCodecParamMaxPTime).map fun maxptime =>
    { s with attributes := { s.attributes with maxptime } }

def parsePTime (line : Text) (s : MediaSection σ) : Except SdpParseError (MediaSection σ) :=
  (getValue line kCodecParamPTime).map fun ptime =>
    { s with attributes := { s.attributes with ptime } }

/-- One line of a section. -/
def parseLine (line : Text) (s : MediaSection σ) : Except SdpParseError (MediaSection σ) :=
  if !isLineType line kLineTypeAttributes then p.parseOther line s
  else if kCommonAttributes.any (isAttribute line) then p.parseOther line s
  else if isAttribute line kAttributeFmtp then
    (p.parseFmtpAttributes line s.codecs).map fun codecs => { s with codecs }
  else if isAttribute line kAttributeFingerprint then p.parseOther line s
  else if !p.isRtp then .ok s
  else if kRtpAttributes.any (isAttribute line) then p.parseOther line s
  else if isAttribute line kAttributeRtpmap then
    (p.parseRtpmapAttribute line s.codecs).map fun codecs => { s with codecs }
  else if isAttribute line kCodecParamMaxPTime then parseMaxPTime line s
  else if isAttribute line kAttributeRtcpFb then
    (p.parseRtcpFbAttribute line s.codecs).map fun codecs => { s with codecs }
  else if isAttribute line kCodecParamPTime then parsePTime line s
  else p.parseOther line s

/-- `GetLine`. -/
def takeLine (raw : Text) : Except SdpParseError Text :=
  match getLine (raw ++ [kNewLine]) with
  | none => .error (parseFailed (raw ++ [kNewLine]) "Can't find valid SDP line.")
  | some line => .ok line

/-- The loop, which ends at the next `m=` line. -/
def parseLines : List Text → MediaSection σ → Except SdpParseError (MediaSection σ)
  | [], s => .ok s
  | raw :: lines, s =>
    if isLineType raw kLineTypeMedia then .ok s
    else do
      let line ← takeLine raw
      let s ← p.parseLine line s
      parseLines lines s

def addAudioAttribute (name : String) (value : Text) (codecs : List AudioCodec) : List AudioCodec :=
  if value = [] then codecs
  else codecs.map fun c => withCodec c ((codec c).setParam name (String.ofList value))

/-- `PopWildcardCodec`: the codec, and those that are left. -/
def popWildcardCodec (codecs : List VideoCodec) : Option (VideoCodec × List VideoCodec) :=
  (codecs.find? (payloadTypeOf · = kWildcardPayloadType)).map fun wildcard =>
    (wildcard, codecs.eraseP (payloadTypeOf · = kWildcardPayloadType))

/-- `AddFeedbackParameters`. -/
def addFeedbackParameters (params : List FeedbackParam) (c : VideoCodec) : VideoCodec :=
  withCodec c { codec c with
    feedbackParams := Session.FeedbackParams.addAll (codec c).feedbackParams params }

def updateFromWildcardVideoCodecs (codecs : List VideoCodec) : List VideoCodec :=
  match popWildcardCodec codecs with
  | none => codecs
  | some (wildcard, codecs) => codecs.map (addFeedbackParameters (codec wildcard).feedbackParams)

/-- The end of `ParseContent`. -/
def finishCodecs (s : MediaSection σ) : Except SdpParseError (MediaSection σ) :=
  match s.codecs with
  | .audio codecs =>
    if verifyCodecs codecs then
      .ok { s with
        codecs := .audio (addAudioAttribute kCodecParamPTime s.attributes.ptime
          (addAudioAttribute kCodecParamMaxPTime s.attributes.maxptime codecs)) }
    else .error (parseFailed [] "Failed to parse audio codecs correctly.")
  | .video codecs =>
    if verifyCodecs (updateFromWildcardVideoCodecs codecs) then
      .ok { s with codecs := .video (updateFromWildcardVideoCodecs codecs) }
    else .error (parseFailed [] "Failed to parse video codecs correctly.")
  | .data _ => .ok s

def noCodecs : MediaType → MediaCodecs
  | .audio => .audio []
  | .video => .video []
  | .data => .data []

/-- `ParseContent`, of the lines behind an `m=` line. -/
def parseContent (lines : List Text) (other : σ) : Except SdpParseError (MediaSection σ) := do
  let s ← p.parseLines lines { codecs := noCodecs p.mediaType, attributes := { other } }
  finishCodecs s

end SectionParser

end PerchWebrtc.Sdp
