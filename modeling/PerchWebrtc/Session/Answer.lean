import PerchWebrtc.Framework.Ensures
import PerchWebrtc.Session.Negotiation
import Mathlib.Data.List.Find

/-!
# The m-lines of an answer

`mediasession.cc`, `transportdescriptionfactory.cc`: `CreateAnswer` answers the first audio, the
first video and the first data content of the offer, in this order, and puts them in the answer,
rejected or not.

* `createAnswer_mLines`: the m-lines of every answer;
* `matchesMLines_iff`: for which offers they are the m-lines of the offer.
-/

namespace PerchWebrtc.Session

open SessionDescription
open Framework (Ensures)

/-! ## The transport of an answer -/

def NS_JINGLE_ICE_UDP : String := "urn:xmpp:jingle:transports:ice-udp:1"
def NS_GINGLE_P2P : String := "http://www.google.com/transport/p2p"
def ICE_OPTION_GICE : String := "google-ice"
def ICE_UFRAG_LENGTH : Nat := 16
def ICE_PWD_LENGTH : Nat := 24

inductive TransportProtocol
  | google
  | hybrid
  | rfc5245
deriving DecidableEq, Repr

/-- `TransportDescriptionFactory`, with the fingerprint of its identity (`none` where there is
no identity or no digest of it). -/
structure TransportDescriptionFactory where
  protocol : TransportProtocol := .google
  secure : SecurePolicy := .disabled
  identityDigest : Option SSLFingerprint := none
deriving DecidableEq, Repr

/-- The ICE variant that `CreateAnswer` negotiates. -/
def TransportDescriptionFactory.answerType (f : TransportDescriptionFactory)
    (offer : Option TransportDescription) : Option String :=
  match offer with
  | some offer =>
    if offer.transportType == NS_JINGLE_ICE_UDP
        && (f.protocol == .rfc5245 || f.protocol == .hybrid) then
      some NS_JINGLE_ICE_UDP
    else if offer.transportType == NS_JINGLE_ICE_UDP
        && offer.transportOptions.contains ICE_OPTION_GICE && f.protocol == .google then
      some NS_GINGLE_P2P
    else if offer.transportType == NS_GINGLE_P2P
        && (f.protocol == .hybrid || f.protocol == .google) then
      some NS_GINGLE_P2P
    else none
  | none =>
    if f.protocol == .hybrid || f.protocol == .google then some NS_GINGLE_P2P else none

/-- `TransportDescriptionFactory::CreateAnswer`. -/
def TransportDescriptionFactory.createAnswer (f : TransportDescriptionFactory) (r : Random)
    (offer : Option TransportDescription) (iceRestart : Bool)
    (currentDescription : Option TransportDescription) : Gen TransportDescription := do
  match f.answerType offer with
  | none => failure
  | some transportType =>
    let desc : TransportDescription := { transportType := transportType }
    let desc ← match currentDescription, iceRestart with
      | some current, false =>
        pure { desc with iceUfrag := current.iceUfrag, icePwd := current.icePwd }
      | _, _ => do
        let iceUfrag := (← r.createRandomString ICE_UFRAG_LENGTH).getD ""
        let icePwd := (← r.createRandomString ICE_PWD_LENGTH).getD ""
        pure { desc with iceUfrag := iceUfrag, icePwd := icePwd }
    if (offer.bind (·.identityFingerprint)).isSome then
      if f.secure = .disabled then pure desc
      else
        match f.identityDigest with
        | none => failure
        | some digest => pure { desc with identityFingerprint := some digest }
    else if f.secure = .required then failure
    else pure desc

/-! ## The answer -/

/-- `MediaSessionDescriptionFactory`. -/
structure MediaSessionDescriptionFactory where
  audioCodecs : List AudioCodec := []
  audioRtpExtensions : List RtpHeaderExtension := []
  videoCodecs : List VideoCodec := []
  videoRtpExtensions : List RtpHeaderExtension := []
  dataCodecs : List DataCodec := []
  secure : SecurePolicy := .disabled
  addLegacy : Bool := true
  transportDescFactory : Option TransportDescriptionFactory
deriving DecidableEq, Repr

/-- `GetCurrentStreamParams`. -/
def getCurrentStreamParams (sdesc : Option SessionDescription) : List StreamParams :=
  match sdesc with
  | none => []
  | some sdesc => (sdesc.contents.filter isMediaContent).flatMap fun content =>
    (content.description.map (·.streams)).getD []

/-- `GetTransportDescription`. -/
def getTransportDescription (contentName : String) (sdesc : Option SessionDescription) :
    Option TransportDescription :=
  (sdesc.bind (·.getTransportInfoByName contentName)).map (·.description)

/-- `CreateTransportAnswer`. -/
def MediaSessionDescriptionFactory.createTransportAnswer (f : MediaSessionDescriptionFactory)
    (r : Random) (contentName : String) (offer : SessionDescription)
    (options : MediaSessionOptions) (current : Option SessionDescription) :
    Gen TransportDescription :=
  match f.transportDescFactory with
  | none => failure
  | some factory =>
    factory.createAnswer r (getTransportDescription contentName (some offer)) options.iceRestart
      (getTransportDescription contentName current)

/-- The codecs of `local` and of the offer that match, of the kind of content offered. -/
def negotiateMediaCodecs (audioCodecs : List AudioCodec) (videoCodecs : List VideoCodec)
    (dataCodecs : List DataCodec) : MediaCodecs → MediaCodecs
  | .audio offered => .audio (sortCodecs (negotiateCodecs audioCodecs offered))
  | .video offered => .video (sortCodecs (negotiateCodecs videoCodecs offered))
  | .data offered => .data (sortCodecs (negotiateCodecs dataCodecs offered))

/-- What the blocks of `CreateAnswer` for the three kinds of content have of their own. -/
structure AnswerBlock where
  mediaType : MediaType
  hasMedia : Bool
  rtpExtensions : List RtpHeaderExtension
  /-- Whether a failure to add the transport fails the answer. -/
  checksTransport : Bool
  bandwidth : Option Int

def AnswerBlock.setBandwidth (block : AnswerBlock) (d : MediaContentDescription) :
    MediaContentDescription :=
  { d with bandwidth := block.bandwidth.getD d.bandwidth }

/-- The answer and the streams known while it is made. -/
abbrev AnswerState := SessionDescription × List StreamParams

/-- One block of `CreateAnswer`. -/
def MediaSessionDescriptionFactory.answerBlock (f : MediaSessionDescriptionFactory) (r : Random)
    (offer : SessionDescription) (options : MediaSessionOptions)
    (current : Option SessionDescription) (bundleEnabled : Bool) (block : AnswerBlock)
    (state : AnswerState) : Gen AnswerState := do
  let (answer, currentStreams) := state
  match offer.getFirstMediaContent block.mediaType with
  | none => pure state
  | some content =>
    match content.description with
    | none => pure state
    | some offered =>
      let transport ← f.createTransportAnswer r content.name offer options current
      let audioCodecs := if options.vadEnabled then f.audioCodecs else stripCNCodecs f.audioCodecs
      -- no SDES cryptos if DTLS is used
      let sdesPolicy := if transport.identityFingerprint.isSome then .disabled else f.secure
      let currentCryptos := ((current.bind (·.getFirstMediaContent block.mediaType)).bind
        (·.description)).map (·.cryptos)
      let (currentStreams, description) ← createMediaContentAnswer r offered options
        (negotiateMediaCodecs audioCodecs f.videoCodecs f.dataCodecs offered.codecs) sdesPolicy
        currentCryptos block.rtpExtensions currentStreams f.addLegacy bundleEnabled
      let rejected := !block.hasMedia || content.rejected
        || !isMediaProtocolSupported block.mediaType description.protocol
      if rejected then
        pure (answer.addContent content.name content.type true description, currentStreams)
      else
        match answer.addTransportInfo ⟨content.name, transport⟩ with
        | none =>
          if block.checksTransport then failure
          else pure (answer.addContent content.name content.type false
            (block.setBandwidth description), currentStreams)
        | some answer => pure (answer.addContent content.name content.type false
            (block.setBandwidth description), currentStreams)

def MediaSessionDescriptionFactory.audioBlock (f : MediaSessionDescriptionFactory)
    (options : MediaSessionOptions) : AnswerBlock :=
  ⟨.audio, options.hasAudio, f.audioRtpExtensions, false, none⟩

def MediaSessionDescriptionFactory.videoBlock (f : MediaSessionDescriptionFactory)
    (options : MediaSessionOptions) : AnswerBlock :=
  ⟨.video, options.hasVideo, f.videoRtpExtensions, true, some options.videoBandwidth⟩

def dataBlock (options : MediaSessionOptions) : AnswerBlock :=
  ⟨.data, options.hasData, [], true, some options.dataBandwidth⟩

/-- The BUNDLE group of the answer. -/
def bundleAnswer (offer : SessionDescription) (options : MediaSessionOptions)
    (answer : SessionDescription) : Option SessionDescription :=
  match offer.getGroupByName GROUP_TYPE_BUNDLE with
  | none => some answer
  | some offerBundle =>
    if options.bundleEnabled then
      let answerBundle := (answer.contents.filter fun content =>
          !content.rejected && offerBundle.hasContentName content.name).foldl
        (fun group content => group.addContentName content.name) (.new GROUP_TYPE_BUNDLE)
      if answerBundle.firstContentName.isSome then
        match updateTransportInfoForBundle answerBundle (answer.addGroup answerBundle) with
        | none => none
        | some answer =>
          let (ok, answer) := updateCryptoParamsForBundle answerBundle answer
          if ok then some answer else none
      else some answer
    else some answer

/-- `MediaSessionDescriptionFactory::CreateAnswer`. -/
def MediaSessionDescriptionFactory.createAnswer (f : MediaSessionDescriptionFactory) (r : Random)
    (offer : SessionDescription) (options : MediaSessionOptions)
    (currentDescription : Option SessionDescription) : Gen SessionDescription := do
  let bundleEnabled := offer.hasGroup GROUP_TYPE_BUNDLE && options.bundleEnabled
  let block := f.answerBlock r offer options currentDescription bundleEnabled
  let state ← block (f.audioBlock options) ({}, getCurrentStreamParams currentDescription)
  let state ← block (f.videoBlock options) state
  let (answer, _) ← block (dataBlock options) state
  fun n => (bundleAnswer offer options answer).map (·, n)

/-! ## The m-lines -/

/-- The name and the media type of an m-line. -/
def mLine (content : ContentInfo) : String × Option MediaType :=
  (content.name, if isMediaContent content then content.description.map (·.type) else none)

/-- The m-lines of a description, in order. -/
def mLines (sdesc : SessionDescription) : List (String × Option MediaType) :=
  sdesc.contents.map mLine

/-- The m-line of the first content of a media type. -/
def firstMLine (offer : SessionDescription) (mediaType : MediaType) :
    List (String × Option MediaType) :=
  ((offer.getFirstMediaContent mediaType).map mLine).toList

theorem addStream_codecs (r : Random) (mediaType : MediaType) (streams : List StreamOption)
    (includeRtxStream : Bool) (stream : StreamOption) (codecs : MediaCodecs)
    (state : List StreamParams × MediaContentDescription) (h : state.2.codecs = codecs) :
    Ensures (addStream r mediaType streams includeRtxStream stream state)
      fun state' => state'.2.codecs = codecs := by
  unfold addStream
  obtain ⟨currentStreams, desc⟩ := state
  dsimp only
  split
  · exact Ensures.pure h
  · split
    · exact Ensures.pure h
    · refine Ensures.bind_any fun cname => Ensures.bind_any fun ssrcs =>
        Ensures.bind_any fun ssrc => Ensures.bind_any fun param => Ensures.pure h

/-- The streams do not touch the codecs. -/
theorem addStreamParams_codecs (r : Random) (mediaType : MediaType) (streams : List StreamOption)
    (currentStreams : List StreamParams) (desc : MediaContentDescription) (addLegacy : Bool) :
    Ensures (addStreamParams r mediaType streams currentStreams desc addLegacy)
      fun state => state.2.codecs = desc.codecs := by
  unfold addStreamParams
  split
  · exact Ensures.bind_any fun ssrcs => Ensures.bind_any fun ssrc =>
      Ensures.bind_any fun legacy => Ensures.pure rfl
  · exact Ensures.foldlM streams (fun state stream h =>
      addStream_codecs r mediaType streams _ stream desc.codecs state h) rfl

theorem createMediaContentAnswer_codecs (r : Random) (offer : MediaContentDescription)
    (options : MediaSessionOptions) (negotiated : MediaCodecs) (sdesPolicy : SecurePolicy)
    (currentCryptos : Option (List CryptoParams)) (extensions : List RtpHeaderExtension)
    (currentStreams : List StreamParams) (addLegacy bundleEnabled : Bool) :
    Ensures (createMediaContentAnswer r offer options negotiated sdesPolicy currentCryptos
      extensions currentStreams addLegacy bundleEnabled)
      fun state => state.2.codecs = negotiated := by
  unfold createMediaContentAnswer
  refine Ensures.bind_any fun selected => ?_
  dsimp only
  split
  · exact Ensures.failure
  · exact Ensures.bind (addStreamParams_codecs _ _ _ _ _ _) fun state h => Ensures.pure h

theorem type_of_codecs {d d' : MediaContentDescription} {a : List AudioCodec} {v : List VideoCodec}
    {t : List DataCodec} (h : d.codecs = negotiateMediaCodecs a v t d'.codecs) :
    d.type = d'.type := by
  simp only [MediaContentDescription.type, h]
  cases d'.codecs <;> rfl

theorem mLines_addContent (sdesc : SessionDescription) (name type : String) (rejected : Bool)
    (d : MediaContentDescription) :
    mLines (sdesc.addContent name type rejected d) =
      mLines sdesc ++ [mLine ⟨name, type, rejected, some d⟩] := by
  simp [mLines, addContent]

/-- A block adds the m-line of the first content of its kind. -/
theorem answerBlock_mLines (f : MediaSessionDescriptionFactory) (r : Random)
    (offer : SessionDescription) (options : MediaSessionOptions)
    (current : Option SessionDescription) (bundleEnabled : Bool) (block : AnswerBlock)
    (state : AnswerState) :
    Ensures (f.answerBlock r offer options current bundleEnabled block state)
      fun state' => mLines state'.1 = mLines state.1 ++ firstMLine offer block.mediaType := by
  unfold MediaSessionDescriptionFactory.answerBlock firstMLine
  dsimp only
  split
  · rename_i hnone
    exact Ensures.pure (by simp [hnone])
  · rename_i content hfirst
    have hmedia : isMediaContentOfType content block.mediaType = true := by
      simp only [getFirstMediaContent] at hfirst
      exact List.find?_some (p := (isMediaContentOfType · block.mediaType)) hfirst
    simp only [isMediaContentOfType, Bool.and_eq_true] at hmedia
    split
    · rename_i hdesc
      simp [hdesc] at hmedia
    · rename_i offered hoffered
      refine Ensures.bind_any fun transport => Ensures.bind
        (createMediaContentAnswer_codecs _ _ _ _ _ _ _ _ _ _) fun made hcodecs => ?_
      have hline (rejected : Bool) (d : MediaContentDescription) (hd : d.type = offered.type) :
          [mLine ⟨content.name, content.type, rejected, some d⟩] =
            ((offer.getFirstMediaContent block.mediaType).map mLine).toList := by
        rw [hfirst]
        have hmade : isMediaContent ⟨content.name, content.type, rejected, some d⟩ = true :=
          hmedia.1
        simp [mLine, hmedia.1, hmade, hoffered, hd]
      have htype := type_of_codecs hcodecs
      split
      · exact Ensures.pure (by rw [mLines_addContent, hline _ _ htype])
      · split
        · split
          · exact Ensures.failure
          · exact Ensures.pure (by
              rw [mLines_addContent, hline false (block.setBandwidth made.2) htype])
        · rename_i answer hadd
          refine Ensures.pure ?_
          rw [mLines_addContent, hline false (block.setBandwidth made.2) htype, mLines, mLines,
            addTransportInfo_contents hadd]

/-! ## The bundle of the answer -/

theorem setCryptosByName_mLines (name : String) (cryptos : List CryptoParams)
    (contents : List ContentInfo) :
    (setCryptosByName name cryptos contents).map mLine = contents.map mLine := by
  induction contents with
  | nil => rfl
  | cons content contents ih =>
    simp only [setCryptosByName]
    split
    · simp only [List.map_cons, mLine, isMediaContent, Option.map_map]
      rfl
    · simp [ih]

theorem setCommonCryptos_mLines (common : List CryptoParams) (names : List String)
    (sdesc : SessionDescription) :
    mLines (names.foldl (setCommonCryptos common) sdesc) = mLines sdesc := by
  induction names generalizing sdesc with
  | nil => rfl
  | cons name names ih =>
    rw [List.foldl_cons, ih, setCommonCryptos]
    split
    · exact setCryptosByName_mLines ..
    · rfl

theorem updateTransportInfoForBundle_contents {g : ContentGroup}
    {sdesc sdesc' : SessionDescription} (h : updateTransportInfoForBundle g sdesc = some sdesc') :
    sdesc'.contents = sdesc.contents := by
  simp only [updateTransportInfoForBundle] at h
  split at h
  · cases h
  · split at h
    · cases h
    · cases h
      rfl

theorem updateCryptoParamsForBundle_mLines (g : ContentGroup) (sdesc : SessionDescription) :
    mLines (updateCryptoParamsForBundle g sdesc).2 = mLines sdesc := by
  simp only [updateCryptoParamsForBundle]
  split
  · rfl
  · split
    · rfl
    · split
      · rfl
      · exact setCommonCryptos_mLines ..

theorem bundleAnswer_mLines {offer answer answer' : SessionDescription}
    {options : MediaSessionOptions} (h : bundleAnswer offer options answer = some answer') :
    mLines answer' = mLines answer := by
  simp only [bundleAnswer] at h
  split at h
  · cases h
    rfl
  · split at h
    · split at h
      · split at h
        · cases h
        · rename_i hupdate
          split at h
          · cases h
            rw [updateCryptoParamsForBundle_mLines, mLines,
              updateTransportInfoForBundle_contents hupdate]
            rfl
          · cases h
      · cases h
        rfl
    · cases h
      rfl

/-! ## The answer -/

/-- The m-lines of every answer: the first audio, video and data m-line of the offer. -/
theorem createAnswer_mLines (f : MediaSessionDescriptionFactory) (r : Random)
    (offer : SessionDescription) (options : MediaSessionOptions)
    (current : Option SessionDescription) :
    Ensures (f.createAnswer r offer options current) fun answer =>
      mLines answer =
        firstMLine offer .audio ++ firstMLine offer .video ++ firstMLine offer .data := by
  unfold MediaSessionDescriptionFactory.createAnswer
  have hblock (block : AnswerBlock) (state : AnswerState) := answerBlock_mLines f r offer options
    current (offer.hasGroup GROUP_TYPE_BUNDLE && options.bundleEnabled) block state
  refine Ensures.bind (hblock _ _) fun s₁ h₁ => Ensures.bind (hblock _ _) fun s₂ h₂ =>
    Ensures.bind (hblock _ _) fun s₃ h₃ => ?_
  have hstart : mLines ({} : SessionDescription) = [] := rfl
  rw [h₂, h₁, hstart, List.nil_append] at h₃
  intro n answer n' h
  simp only [Option.map_eq_some_iff, Prod.mk.injEq] at h
  obtain ⟨answer', hbundle, rfl, -⟩ := h
  rw [bundleAnswer_mLines hbundle]
  exact h₃

/-- The contents of the offer are at most one audio content, then at most one video content,
then at most one data content. -/
def OneOfEach (offer : SessionDescription) : Prop :=
  ((mLines offer).map (·.2)).Sublist [some .audio, some .video, some .data]

theorem firstMLine_eq (offer : SessionDescription) (mediaType : MediaType) :
    firstMLine offer mediaType = ((mLines offer).find? (·.2 == some mediaType)).toList := by
  have hkind (content : ContentInfo) :
      isMediaContentOfType content mediaType = ((mLine content).2 == some mediaType) := by
    cases hmedia : isMediaContent content <;> cases hdesc : content.description <;>
      simp [isMediaContentOfType, mLine, hmedia, hdesc]
  rw [firstMLine, getFirstMediaContent, mLines, List.find?_map]
  congr 2
  exact List.find?_congr fun content _ => hkind content

theorem firstMLine_sublist (offer : SessionDescription) (mediaType : MediaType) :
    ((firstMLine offer mediaType).map (·.2)).Sublist [some mediaType] := by
  rw [firstMLine_eq]
  cases h : (mLines offer).find? (·.2 == some mediaType) with
  | none => simp
  | some line =>
    have := List.find?_some h
    simp only [beq_iff_eq] at this
    simp [this]

/-- Rows whose keys are some of a list of different keys, in its order, are found by the keys. -/
theorem flatMap_find_of_sublist {α β : Type} [BEq β] [LawfulBEq β] {keys : List β}
    (hkeys : keys.Nodup) {rows : List (α × β)} (h : (rows.map (·.2)).Sublist keys) :
    (keys.flatMap fun key => (rows.find? (·.2 == key)).toList) = rows := by
  induction keys generalizing rows with
  | nil =>
    rw [List.sublist_nil, List.map_eq_nil_iff] at h
    simp [h]
  | cons key keys ih =>
    obtain ⟨hkey, hrest⟩ := List.nodup_cons.mp hkeys
    rw [List.flatMap_cons]
    rcases List.sublist_cons_iff.mp h with hskip | ⟨later, hlater, hsub⟩
    · have hnone : rows.find? (·.2 == key) = none := by
        rw [List.find?_eq_none]
        intro row hrow heq
        have hmem := hskip.subset (List.mem_map_of_mem hrow)
        rw [eq_of_beq heq] at hmem
        exact hkey hmem
      rw [hnone, ih hrest hskip]
      rfl
    · cases rows with
      | nil => simp at hlater
      | cons row rows =>
        simp only [List.map_cons, List.cons.injEq] at hlater
        have hsub' : (rows.map (·.2)).Sublist keys := hlater.2 ▸ hsub
        have hothers : (keys.flatMap fun k => ((row :: rows).find? (·.2 == k)).toList) = rows := by
          conv => rhs; rw [← ih hrest hsub']
          refine List.flatMap_congr fun k hk => ?_
          have hne : (row.2 == k) = false := by
            rw [hlater.1, beq_eq_false_iff_ne]
            rintro rfl
            exact hkey hk
          rw [List.find?_cons, hne]
        rw [hothers, List.find?_cons, hlater.1, beq_self_eq_true]
        rfl

/-- **The m-lines of an answer are those of the offer** exactly if the offer has at most one
content of each kind, in the order audio, video, data. -/
theorem matchesMLines_iff {f : MediaSessionDescriptionFactory} {r : Random}
    {offer answer : SessionDescription} {options : MediaSessionOptions}
    {current : Option SessionDescription} {n n' : Nat}
    (h : f.createAnswer r offer options current n = some (answer, n')) :
    mLines answer = mLines offer ↔ OneOfEach offer := by
  rw [createAnswer_mLines f r offer options current n answer n' h]
  constructor
  · intro heq
    rw [OneOfEach, ← heq, List.map_append, List.map_append]
    exact ((firstMLine_sublist offer .audio).append (firstMLine_sublist offer .video)).append
      (firstMLine_sublist offer .data)
  · intro hone
    have hfound := flatMap_find_of_sublist (by decide) hone
    simpa [firstMLine_eq] using hfound

/-- A factory without codecs, for transports of the Google variant. -/
def plainFactory : MediaSessionDescriptionFactory :=
  { addLegacy := false, transportDescFactory := some {} }

def plainRandom : Random := ⟨fun _ _ => some "x", fun n => BitVec.ofNat 32 (n + 1), 1⟩

def audioContent : ContentInfo := ⟨"audio", NS_JINGLE_RTP, false, some { codecs := .audio [] }⟩

def videoContent : ContentInfo := ⟨"video", NS_JINGLE_RTP, false, some { codecs := .video [] }⟩

theorem matchesMLines_audio_video :
    ∃ answer n', plainFactory.createAnswer plainRandom { contents := [audioContent, videoContent] }
      { hasVideo := true } none 0 = some (answer, n') ∧
      (mLines answer = mLines { contents := [audioContent, videoContent] } ↔
        OneOfEach { contents := [audioContent, videoContent] }) :=
  have hanswer := rfl
  ⟨_, _, hanswer, matchesMLines_iff hanswer⟩

/-- An offer of a video and then an audio content is answered with the audio content first. -/
theorem not_matchesMLines :
    ¬ ∀ (f : MediaSessionDescriptionFactory) (r : Random) (offer : SessionDescription)
        (options : MediaSessionOptions) (current : Option SessionDescription) (n : Nat)
        (answer : SessionDescription) (n' : Nat),
      f.createAnswer r offer options current n = some (answer, n') →
        mLines answer = mLines offer := by
  intro h
  have := h plainFactory plainRandom { contents := [videoContent, audioContent] }
    { hasVideo := true } none 0 _ _ rfl
  exact absurd this (by decide)

end PerchWebrtc.Session
