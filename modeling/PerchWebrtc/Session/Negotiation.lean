import PerchWebrtc.Session.Bundle
import Mathlib.Data.List.Sort

/-!
# Negotiating one media content

`mediasession.cc`: the codecs, header extensions, crypto and streams of a content of the answer.
Random values come from a sequence of draws; a loop that draws until the value is free has a
number of tries, and a computation that fails, or does not get its value, gives `none`.
-/

namespace PerchWebrtc.Session

open CodecType (codec withCodec isMatch)

/-! ## Random values -/

/-- The draws of the random generator: the `n`th string of a length (`none` where the generator
fails) and the `n`th number. -/
structure Random where
  string : Nat → Nat → Option String
  id : Nat → BitVec 32
  /-- How often a loop draws. -/
  tries : Nat

/-- A computation that counts its draws. -/
abbrev Gen := StateT Nat Option

def Random.createRandomString (r : Random) (len : Nat) : Gen (Option String) :=
  fun n => some (r.string n len, n + 1)

def Random.createRandomId (r : Random) : Gen (BitVec 32) := fun n => some (r.id n, n + 1)

/-- `do { .. } while (again)`. -/
def drawWhile {α : Type} (draw : Gen α) (again : α → Bool) : Nat → Gen α
  | 0 => failure
  | tries + 1 => do
    let value ← draw
    if again value then drawWhile draw again tries else pure value

def Random.createRandomNonZeroId (r : Random) : Gen (BitVec 32) :=
  drawWhile r.createRandomId (· == 0) r.tries

/-! ## Codecs -/

/-- What `NegotiateCodecs` puts in the list for a codec of ours and one of theirs. -/
def negotiateOne {C : Type} [CodecType C] (ours theirs : C) : Option C :=
  if isMatch ours theirs then
    let negotiated := (codec ours).intersectFeedbackParams (codec theirs)
    if stricmpEq negotiated.name kRtxCodecName then
      -- only negotiate RTX if the associated payload type has been set
      match (codec theirs).getParam kCodecParamAssociatedPayloadType with
      | none => none
      | some aptValue =>
        some (withCodec ours
          { negotiated.setParam kCodecParamAssociatedPayloadType aptValue with
            id := (codec theirs).id })
    else some (withCodec ours { negotiated with id := (codec theirs).id })
  else none

/-- `NegotiateCodecs`. -/
def negotiateCodecs {C : Type} [CodecType C] (localCodecs offeredCodecs : List C) : List C :=
  localCodecs.flatMap fun ours => offeredCodecs.filterMap (negotiateOne ours)

/-- `SortCodecs`, by falling preference. -/
def sortCodecs {C : Type} [CodecType C] (codecs : List C) : List C :=
  codecs.insertionSort fun a b => (codec a).preference ≥ (codec b).preference

/-- `StripCNCodecs`. -/
def stripCNCodecs (audioCodecs : List AudioCodec) : List AudioCodec :=
  audioCodecs.filter fun c => !stricmpEq c.name kComfortNoiseCodecName

/-- `ContainsRtxCodec`. -/
def MediaCodecs.containsRtx : MediaCodecs → Bool
  | .audio codecs => codecs.any isRtxCodec
  | .video codecs => codecs.any isRtxCodec
  | .data codecs => codecs.any isRtxCodec

/-! ## Header extensions and cryptos -/

def findByUri (extensions : List RtpHeaderExtension) (ext : RtpHeaderExtension) :
    Option RtpHeaderExtension :=
  extensions.find? (·.uri == ext.uri)

/-- `NegotiateRtpHeaderExtensions`: the answer has their ids. -/
def negotiateRtpHeaderExtensions (localExtensions offeredExtensions : List RtpHeaderExtension) :
    List RtpHeaderExtension :=
  localExtensions.filterMap (findByUri offeredExtensions)

inductive SecurePolicy
  | disabled
  | enabled
  | required
deriving DecidableEq, Repr

def CS_AES_CM_128_HMAC_SHA1_80 : String := "AES_CM_128_HMAC_SHA1_80"
def CS_AES_CM_128_HMAC_SHA1_32 : String := "AES_CM_128_HMAC_SHA1_32"
def SRTP_MASTER_KEY_BASE64_LEN : Nat := 40
def kInline : String := "inline:"

/-- `CreateCryptoParams`; `none` where it returns false. -/
def createCryptoParams (r : Random) (tag : Int) (cipher : String) : Gen (Option CryptoParams) := do
  match ← r.createRandomString SRTP_MASTER_KEY_BASE64_LEN with
  | none => pure none
  | some key => pure (some ⟨tag, cipher, kInline ++ key, ""⟩)

/-- `SelectCrypto`. -/
def selectCrypto (r : Random) (offer : MediaContentDescription) (bundle : Bool) :
    Gen (Option CryptoParams) :=
  let audio := offer.type == .audio
  match offer.cryptos.find? fun i => CS_AES_CM_128_HMAC_SHA1_80 == i.cipherSuite
      || (CS_AES_CM_128_HMAC_SHA1_32 == i.cipherSuite && audio && !bundle) with
  | none => pure none
  | some i => createCryptoParams r i.tag i.cipherSuite

/-- No crypto is selected when SDES is disabled. -/
def selectSdesCrypto (r : Random) (offer : MediaContentDescription) (bundle : Bool)
    (sdesPolicy : SecurePolicy) : Gen (Option CryptoParams) :=
  if sdesPolicy = .disabled then pure none else selectCrypto r offer bundle

/-- `FindMatchingCrypto`. -/
def findMatchingCrypto (cryptos : List CryptoParams) (crypto : CryptoParams) :
    Option CryptoParams :=
  cryptos.find? (crypto.isMatch ·)

/-- The cryptos of the answer: the crypto selected, or the one we have for it. -/
def answerCryptos (currentCryptos : Option (List CryptoParams)) :
    Option CryptoParams → List CryptoParams
  | none => []
  | some crypto => [(currentCryptos.bind (findMatchingCrypto · crypto)).getD crypto]

/-! ## Streams -/

def kMaxSctpSid : Nat := 9

/-- `MediaSessionOptions::Stream`. -/
structure StreamOption where
  type : MediaType
  id : String
  syncLabel : String
deriving DecidableEq, Repr

def isSctp (desc : MediaContentDescription) : Bool :=
  desc.protocol == kMediaProtocolSctp || desc.protocol == kMediaProtocolDtlsSctp

/-- `GenerateCname`: the name of a stream with the same label, or a new one. -/
def generateCname (r : Random) (paramsVec : List StreamParams) (streams : List StreamOption)
    (synchLabel : String) : Gen String :=
  match streams.findSome? fun stream =>
      if synchLabel ≠ stream.syncLabel then none
      else (getStreamByIds paramsVec "" stream.id).map (·.cname) with
  | some cname => pure cname
  | none =>
    drawWhile (do
        match ← r.createRandomString 16 with
        | none => failure
        | some cname => pure cname)
      (fun cname => paramsVec.any (·.cname == cname)) r.tries

/-- `GenerateSsrcs`, the numbers still to make given. -/
def generateSsrcs (r : Random) (paramsVec : List StreamParams) :
    Nat → List (BitVec 32) → Gen (List (BitVec 32))
  | 0, ssrcs => pure ssrcs
  | n + 1, ssrcs => do
    let candidate ← drawWhile r.createRandomNonZeroId
      (fun c => (getStreamBySsrc paramsVec c).isSome || ssrcs.contains c) r.tries
    generateSsrcs r paramsVec n (ssrcs ++ [candidate])

/-- `GenerateSctpSids`: nothing is added when there are too many streams. -/
def generateSctpSids (r : Random) (paramsVec : List StreamParams) : Gen (List (BitVec 32)) :=
  if paramsVec.length > kMaxSctpSid then pure []
  else do
    let sid ← drawWhile
      (do pure (BitVec.ofNat 32 ((← r.createRandomNonZeroId).toNat % kMaxSctpSid)))
      (fun c => (getStreamBySsrc paramsVec c).isSome) r.tries
    pure [sid]

/-- The ids of a new stream. -/
def generateIds (r : Random) (desc : MediaContentDescription) (includeRtxStream : Bool)
    (paramsVec : List StreamParams) : Gen (List (BitVec 32)) :=
  if isSctp desc then generateSctpSids r paramsVec
  else generateSsrcs r paramsVec (if includeRtxStream then 2 else 1) []

/-- `ssrcs[i]`; there is no value outside of the vector. -/
def ssrcAt (ssrcs : List (BitVec 32)) (i : Nat) : Gen (BitVec 32) := fun n => do
  some (← ssrcs[i]?, n)

/-- `AddFidSsrc(ssrcs[0], ssrcs[1])`, where there is an RTX codec. -/
def addFid (includeRtxStream : Bool) (ssrcs : List (BitVec 32)) (ssrc : BitVec 32)
    (param : StreamParams) : Gen StreamParams :=
  if includeRtxStream then do pure (param.addFidSsrc ssrc (← ssrcAt ssrcs 1)) else pure param

/-- One stream of the loop of `AddStreamParams`. -/
def addStream (r : Random) (mediaType : MediaType) (streams : List StreamOption)
    (includeRtxStream : Bool) (stream : StreamOption)
    (state : List StreamParams × MediaContentDescription) :
    Gen (List StreamParams × MediaContentDescription) := do
  let (currentStreams, desc) := state
  if stream.type ≠ mediaType then pure state
  else
    match getStreamByIds currentStreams "" stream.id with
    | some param => pure (currentStreams, { desc with streams := desc.streams ++ [param] })
    | none =>
      let cname ← generateCname r currentStreams streams stream.syncLabel
      let ssrcs ← generateIds r desc includeRtxStream currentStreams
      let ssrc ← ssrcAt ssrcs 0
      let param ← addFid includeRtxStream ssrcs ssrc { id := stream.id, ssrcs := [ssrc] }
      let param := { param with cname := cname, syncLabel := stream.syncLabel }
      pure (currentStreams ++ [param],
        { desc with
          multistream := desc.multistream || includeRtxStream
          streams := desc.streams ++ [param] })

/-- `AddStreamParams`: the streams known after it and the description. -/
def addStreamParams (r : Random) (mediaType : MediaType) (streams : List StreamOption)
    (currentStreams : List StreamParams) (desc : MediaContentDescription)
    (addLegacyStream : Bool) : Gen (List StreamParams × MediaContentDescription) :=
  let includeRtxStream := desc.codecs.containsRtx
  if streams.isEmpty && addLegacyStream then do
    let ssrcs ← generateIds r desc includeRtxStream currentStreams
    let ssrc ← ssrcAt ssrcs 0
    let legacy ← addFid includeRtxStream ssrcs ssrc (.createLegacy ssrc)
    pure (currentStreams,
      { desc with
        multistream := desc.multistream || includeRtxStream
        streams := desc.streams ++ [legacy] })
  else
    streams.foldlM (fun state stream => addStream r mediaType streams includeRtxStream stream state)
      (currentStreams, desc)

/-! ## The content of the answer -/

inductive DataChannelType
  | none
  | rtp
  | sctp
deriving DecidableEq, Repr

structure MediaSessionOptions where
  hasAudio : Bool := true
  hasVideo : Bool := false
  dataChannelType : DataChannelType := .none
  vadEnabled : Bool := true
  rtcpMuxEnabled : Bool := true
  bundleEnabled : Bool := false
  videoBandwidth : Int := -1
  dataBandwidth : Int := 30720
  /-- `transport_options.ice_restart`. -/
  iceRestart : Bool := false
  streams : List StreamOption := []
deriving DecidableEq, Repr

def MediaSessionOptions.hasData (o : MediaSessionOptions) : Bool := o.dataChannelType != .none

/-- The direction of the answer for one of the offer. -/
def MediaContentDirection.answer : MediaContentDirection → MediaContentDirection
  | .inactive => .inactive
  | .sendonly => .recvonly
  | .recvonly => .sendonly
  | .sendrecv => .sendrecv

/-- `CreateMediaContentAnswer` for the negotiated codecs: the streams known after it and the
answer. -/
def createMediaContentAnswer (r : Random) (offer : MediaContentDescription)
    (options : MediaSessionOptions) (negotiatedCodecs : MediaCodecs) (sdesPolicy : SecurePolicy)
    (currentCryptos : Option (List CryptoParams)) (localRtpExtensions : List RtpHeaderExtension)
    (currentStreams : List StreamParams) (addLegacyStream bundleEnabled : Bool) :
    Gen (List StreamParams × MediaContentDescription) := do
  let answer : MediaContentDescription :=
    { codecs := negotiatedCodecs
      protocol := offer.protocol
      rtpHeaderExtensions :=
        negotiateRtpHeaderExtensions localRtpExtensions offer.rtpHeaderExtensions
      rtpHeaderExtensionsSet := true
      rtcpMux := options.rtcpMuxEnabled && offer.rtcpMux }
  let selected ← selectSdesCrypto r offer bundleEnabled sdesPolicy
  let answer := { answer with cryptos := answerCryptos currentCryptos selected }
  if answer.cryptos.isEmpty && (offer.cryptoRequired || sdesPolicy = .required) then failure
  else
    let (currentStreams, answer) ← addStreamParams r answer.type options.streams currentStreams
      answer addLegacyStream
    pure (currentStreams, { answer with direction := offer.direction.answer })

/-- `IsMediaProtocolSupported`. -/
def isMediaProtocolSupported (type : MediaType) (protocol : String) : Bool :=
  (type == .data && (protocol == kMediaProtocolSctp || protocol == kMediaProtocolDtlsSctp))
    || protocol == kMediaProtocolAvpf || protocol == kMediaProtocolSavpf || protocol.isEmpty

end PerchWebrtc.Session
