import PerchWebrtc.Sdp.CodecUpdates

/-!
# The codec lines of a media section in another order

A line of a section is a codec line or changes the other attributes only (`parseLine_codec`,
`parseLine_other`), so that the codec lines can be read by themselves (`parseLines_iff`). In
another order of them a section that is accepted is accepted again, with the same codecs
(`parseContent_reordered`).
-/

namespace PerchWebrtc.Sdp

open Framework (bind_eq_ok foldlM_read foldlM_sides map_eq_ok perm_of_entryOf readStep said)
open Session (AudioCodec CodecType DataCodec MediaCodecs MediaType VideoCodec)
open Session.CodecType (codec withCodec)

/-! ## Attributes -/

variable {attr : String}

theorem isAttribute_iff {line : Text} :
    isAttribute line attr = true ↔ attr.toList <+: line.drop kLinePrefixLength := by
  rw [isAttribute, hasAttribute, decide_eq_true_eq, List.prefix_iff_eq_take, eq_comm]

/-- A line has no two attributes none of which is the start of the other. -/
theorem isAttribute_unique {line : Text} {other : String} (h : isAttribute line attr = true)
    (hne : ¬ attr.toList <+: other.toList) (hne' : ¬ other.toList <+: attr.toList) :
    isAttribute line other = false :=
  Bool.eq_false_iff.mpr fun hother =>
    (List.prefix_or_prefix_of_prefix (isAttribute_iff.mp h) (isAttribute_iff.mp hother)).elim
      hne hne'

theorem any_isAttribute {line : Text} {attrs : List String} (h : isAttribute line attr = true)
    (hne : ∀ other ∈ attrs, ¬ attr.toList <+: other.toList ∧ ¬ other.toList <+: attr.toList) :
    attrs.any (isAttribute line) = false :=
  List.any_eq_false.mpr fun other hother =>
    Bool.eq_false_iff.mp (isAttribute_unique h (hne other hother).1 (hne other hother).2)

/-- An `a=rtpmap`, `a=fmtp` or `a=rtcp-fb` line. -/
def isCodecAttribute (line : Text) : Bool :=
  isLineType line kLineTypeAttributes &&
    (isAttribute line kAttributeFmtp || isAttribute line kAttributeRtpmap
      || isAttribute line kAttributeRtcpFb)

/-- The attributes that are looked for before those of RTP codecs. -/
theorem isAttribute_rtpCodec {line : Text} (hattr : attr ∈ [kAttributeRtpmap, kAttributeRtcpFb])
    (h : isAttribute line attr = true) :
    kCommonAttributes.any (isAttribute line) = false ∧
      kRtpAttributes.any (isAttribute line) = false ∧
      isAttribute line kAttributeFmtp = false ∧ isAttribute line kAttributeFingerprint = false := by
  have happart : ∀ attr ∈ [kAttributeRtpmap, kAttributeRtcpFb],
      ∀ other ∈ kCommonAttributes ++ kRtpAttributes ++ [kAttributeFmtp, kAttributeFingerprint],
        ¬ attr.toList <+: other.toList ∧ ¬ other.toList <+: attr.toList := by decide
  have hnone := any_isAttribute h (happart attr hattr)
  simpa only [List.any_append, List.any_cons, List.any_nil, Bool.or_false, Bool.or_eq_false_iff,
    and_assoc] using hnone

namespace SectionParser

variable {σ : Type} (p : SectionParser σ)

/-- What a codec line says. -/
def readAttribute (line : Text) : Except SdpParseError (Option CodecAttribute) :=
  if isAttribute line kAttributeFmtp then
    if p.mediaType = .data then .ok none
    else (p.readFmtp line).map fun said => some (.fmtp said.1 said.2)
  else if !p.isRtp then .ok none
  else if isAttribute line kAttributeRtpmap then
    (p.readRtpmap line).map (Option.map .rtpmap)
  else if p.mediaType = .data then .ok none
  else (p.readRtcpFb line).map fun said => some (.rtcpFb said.1 said.2)

theorem map_map {ε α β γ : Type} (x : Except ε α) (f : α → β) (g : β → γ) :
    (x.map f).map g = x.map (g ∘ f) := by
  cases x <;> rfl

section

variable {line : Text} (htype : isLineType line kLineTypeAttributes = true) (codecs : MediaCodecs)
  (attributes : SectionAttributes σ)

include htype

theorem parseLine_fmtp (h : isAttribute line kAttributeFmtp = true) :
    p.parseLine line ⟨codecs, attributes⟩
      = (readStep p.readAttribute updateMediaCodecs codecs line).map (⟨·, attributes⟩) := by
  have hcommon : kCommonAttributes.any (isAttribute line) = false := any_isAttribute h (by decide)
  rw [parseLine, htype, hcommon, h]
  simp only [Bool.not_true, Bool.false_eq_true, if_false, if_true, parseFmtpAttributes, readStep,
    readAttribute, h]
  by_cases hdata : p.mediaType = .data
  · rw [if_pos hdata, if_pos hdata]
    rfl
  · rw [if_neg hdata, if_neg hdata, map_map, map_map, map_map]
    rfl

theorem parseLine_rtpmap (h : isAttribute line kAttributeRtpmap = true) :
    p.parseLine line ⟨codecs, attributes⟩
      = (readStep p.readAttribute updateMediaCodecs codecs line).map (⟨·, attributes⟩) := by
  obtain ⟨hcommon, hrtp, hfmtp, hfingerprint⟩ := isAttribute_rtpCodec (by decide) h
  rw [parseLine, htype, hcommon, hfmtp, hfingerprint, hrtp, h]
  simp only [Bool.not_true, Bool.false_eq_true, if_false, if_true, parseRtpmapAttribute, readStep,
    readAttribute, hfmtp, h]
  cases p.isRtp with
  | false => rfl
  | true =>
    simp only [Bool.not_true, Bool.false_eq_true, if_false, map_map]
    refine congrArg (Except.map · _) (funext fun m => ?_)
    cases m <;> rfl

theorem parseLine_rtcpFb (h : isAttribute line kAttributeRtcpFb = true) :
    p.parseLine line ⟨codecs, attributes⟩
      = (readStep p.readAttribute updateMediaCodecs codecs line).map (⟨·, attributes⟩) := by
  obtain ⟨hcommon, hrtp, hfmtp, hfingerprint⟩ := isAttribute_rtpCodec (by decide) h
  have hrtpmap : isAttribute line kAttributeRtpmap = false :=
    isAttribute_unique h (by decide) (by decide)
  have hmaxptime : isAttribute line kCodecParamMaxPTime = false :=
    isAttribute_unique h (by decide) (by decide)
  rw [parseLine, htype, hcommon, hfmtp, hfingerprint, hrtp, hrtpmap, hmaxptime, h]
  simp only [Bool.not_true, Bool.false_eq_true, if_false, if_true, parseRtcpFbAttribute, readStep,
    readAttribute, hfmtp, hrtpmap]
  cases p.isRtp with
  | false => rfl
  | true =>
    simp only [Bool.not_true, Bool.false_eq_true, if_false]
    by_cases hdata : p.mediaType = .data
    · rw [if_pos hdata, if_pos hdata]
      rfl
    · rw [if_neg hdata, if_neg hdata, map_map, map_map, map_map]
      rfl

end

/-- A codec line is read, and what it says updates the codecs. -/
theorem parseLine_codec {line : Text} (h : isCodecAttribute line = true) (codecs : MediaCodecs)
    (attributes : SectionAttributes σ) :
    p.parseLine line ⟨codecs, attributes⟩
      = (readStep p.readAttribute updateMediaCodecs codecs line).map (⟨·, attributes⟩) := by
  rw [isCodecAttribute, Bool.and_eq_true, Bool.or_eq_true, Bool.or_eq_true] at h
  obtain ⟨htype, (hfmtp | hrtpmap) | hrtcpFb⟩ := h
  · exact p.parseLine_fmtp htype codecs attributes hfmtp
  · exact p.parseLine_rtpmap htype codecs attributes hrtpmap
  · exact p.parseLine_rtcpFb htype codecs attributes hrtcpFb

/-- What another line makes of the attributes. -/
def parseAttributes (attributes : SectionAttributes σ) (line : Text) :
    Except SdpParseError (SectionAttributes σ) :=
  (p.parseLine line ⟨noCodecs p.mediaType, attributes⟩).map (·.attributes)

/-- Any other line leaves the codecs as they are. -/
theorem parseLine_other {line : Text} (h : isCodecAttribute line = false) (codecs : MediaCodecs)
    (attributes : SectionAttributes σ) :
    p.parseLine line ⟨codecs, attributes⟩
      = (p.parseAttributes attributes line).map (⟨codecs, ·⟩) := by
  rw [parseAttributes]
  cases htype : isLineType line kLineTypeAttributes with
  | false =>
    rw [parseLine, parseLine, htype]
    simp only [Bool.not_false, if_true, parseOther, map_map]
    rfl
  | true =>
    rw [isCodecAttribute, htype, Bool.true_and, Bool.or_eq_false_iff, Bool.or_eq_false_iff] at h
    obtain ⟨⟨hfmtp, hrtpmap⟩, hrtcpFb⟩ := h
    rw [parseLine, parseLine, htype, hfmtp, hrtpmap, hrtcpFb]
    simp only [Bool.not_true, Bool.false_eq_true, if_false]
    split_ifs <;> first
      | rfl
      | (simp only [parseOther, parseMaxPTime, parsePTime, map_map]; rfl)

/-! ## Sections -/

/-- The lines up to the next `m=` line. -/
def mediaSection (lines : List Text) : List Text :=
  lines.takeWhile fun raw => !isLineType raw kLineTypeMedia

def isCodecLine (raw : Text) : Bool :=
  match takeLine raw with
  | .ok line => isCodecAttribute line
  | .error _ => false

def parseRaw (s : MediaSection σ) (raw : Text) : Except SdpParseError (MediaSection σ) := do
  p.parseLine (← takeLine raw) s

def readCodecLine (raw : Text) : Except SdpParseError (Option CodecAttribute) := do
  p.readAttribute (← takeLine raw)

def parseOtherLine (attributes : SectionAttributes σ) (raw : Text) :
    Except SdpParseError (SectionAttributes σ) := do
  p.parseAttributes attributes (← takeLine raw)

theorem parseLines_eq : ∀ (lines : List Text) (s : MediaSection σ),
    p.parseLines lines s = (mediaSection lines).foldlM p.parseRaw s
  | [], s => rfl
  | raw :: lines, s => by
    rw [parseLines, mediaSection, List.takeWhile_cons]
    cases hmedia : isLineType raw kLineTypeMedia with
    | true => rfl
    | false =>
      simp only [Bool.false_eq_true, if_false, Bool.not_false, if_true, List.foldlM_cons, parseRaw]
      cases takeLine raw with
      | error e => rfl
      | ok line =>
        show (p.parseLine line s >>= _) = (p.parseLine line s >>= _)
        refine congrArg _ (funext fun s' => ?_)
        exact parseLines_eq lines s'

theorem parseRaw_codec {raw : Text} (h : isCodecLine raw = true) (codecs : MediaCodecs)
    (attributes : SectionAttributes σ) :
    p.parseRaw ⟨codecs, attributes⟩ raw
      = (readStep p.readCodecLine updateMediaCodecs codecs raw).map (⟨·, attributes⟩) := by
  rw [isCodecLine] at h
  rw [parseRaw, readStep, readCodecLine]
  cases htake : takeLine raw with
  | error e => rfl
  | ok line =>
    rw [htake] at h
    exact p.parseLine_codec h codecs attributes

theorem parseRaw_other {raw : Text} (h : isCodecLine raw = false) (codecs : MediaCodecs)
    (attributes : SectionAttributes σ) :
    p.parseRaw ⟨codecs, attributes⟩ raw
      = (p.parseOtherLine attributes raw).map (⟨codecs, ·⟩) := by
  rw [isCodecLine] at h
  rw [parseRaw, parseOtherLine]
  cases htake : takeLine raw with
  | error e => rfl
  | ok line =>
    rw [htake] at h
    exact p.parseLine_other h codecs attributes

/-- The codec lines are all read, and what they say makes the codecs; the other lines make the
other attributes. -/
theorem parseLines_iff {lines : List Text} {codecs : MediaCodecs}
    {attributes : SectionAttributes σ} {s : MediaSection σ} :
    p.parseLines lines ⟨codecs, attributes⟩ = .ok s ↔
      ∃ attributes',
        s = ⟨(said p.readCodecLine ((mediaSection lines).filter isCodecLine)).foldl
          updateMediaCodecs codecs, attributes'⟩ ∧
        (∀ raw ∈ (mediaSection lines).filter isCodecLine, ∃ i, p.readCodecLine raw = .ok i) ∧
        ((mediaSection lines).filter fun raw => !isCodecLine raw).foldlM p.parseOtherLine attributes
          = .ok attributes' := by
  rw [parseLines_eq, foldlM_sides (fun b c _ h => p.parseRaw_codec h b c)
    (fun b c _ h => p.parseRaw_other h b c)]
  simp only [foldlM_read]
  constructor
  · rintro ⟨codecs', attributes', rfl, ⟨hread, rfl⟩, hother⟩
    exact ⟨attributes', rfl, hread, hother⟩
  · rintro ⟨attributes', rfl, hread, hother⟩
    exact ⟨_, attributes', rfl, ⟨hread, rfl⟩, hother⟩

/-! ## One line for a payload type -/

/-- The payload type of an `a=rtpmap` line. -/
def rtpmapOf (raw : Text) : Option Int :=
  match takeLine raw with
  | .ok line =>
    if isLineType line kLineTypeAttributes && isAttribute line kAttributeRtpmap then
      (p.rtpmapPayloadType line).toOption
    else none
  | .error _ => none

/-- The payload type and the name of each parameter of an `a=fmtp` line. -/
def fmtpEntriesOf (raw : Text) : List (Int × String) :=
  match takeLine raw with
  | .ok line =>
    if isLineType line kLineTypeAttributes && isAttribute line kAttributeFmtp then
      match p.readFmtp line with
      | .ok (payloadType, codecParams) => codecParams.map fun entry => (payloadType, entry.1)
      | .error _ => []
    else []
  | .error _ => []

variable {p}

theorem readRtpmap_payloadType {line : Text} {m : Rtpmap} (h : p.readRtpmap line = .ok (some m)) :
    p.rtpmapPayloadType line = .ok m.payloadType := by
  obtain ⟨payloadType, hpayload, hrest⟩ := bind_eq_ok.mp h
  rw [hpayload]
  split at hrest
  · cases hrest
  · dsimp only at hrest
    split at hrest
    · cases hrest
    · cases hrest
      rfl

/-- What a codec line says, by its attribute. -/
theorem readCodecLine_cases {raw : Text} {a : CodecAttribute} (hcodec : isCodecLine raw = true)
    (h : p.readCodecLine raw = .ok (some a)) :
    (∃ m, a = .rtpmap m ∧ p.rtpmapOf raw = some m.payloadType) ∨
      (∃ payloadType parameters, a = .fmtp payloadType parameters ∧
        p.fmtpEntriesOf raw = parameters.map fun entry => (payloadType, entry.1)) ∨
      ∃ payloadType param, a = .rtcpFb payloadType param := by
  obtain ⟨line, hline, hread⟩ := bind_eq_ok.mp h
  rw [isCodecLine, hline] at hcodec
  have htype : isLineType line kLineTypeAttributes = true := (Bool.and_eq_true _ _ ▸ hcodec).1
  rw [readAttribute] at hread
  split at hread
  next hfmtp =>
    split at hread
    · cases hread
    · obtain ⟨⟨payloadType, parameters⟩, hparams, ha⟩ := map_eq_ok.mp hread
      cases ha
      refine .inr (.inl ⟨payloadType, parameters, rfl, ?_⟩)
      rw [fmtpEntriesOf, hline]
      dsimp only
      rw [htype, hfmtp, Bool.and_true, if_pos rfl, hparams]
  next =>
    split at hread
    · cases hread
    · split at hread
      next hrtpmap =>
        obtain ⟨m, hm, ha⟩ := map_eq_ok.mp hread
        cases m with
        | none => cases ha
        | some m =>
          cases ha
          refine .inl ⟨m, rfl, ?_⟩
          rw [rtpmapOf, hline]
          dsimp only
          rw [htype, hrtpmap, Bool.and_true, if_pos rfl, readRtpmap_payloadType hm]
          rfl
      next =>
        split at hread
        · cases hread
        · obtain ⟨⟨payloadType, param⟩, -, ha⟩ := map_eq_ok.mp hread
          cases ha
          exact .inr (.inr ⟨payloadType, param, rfl⟩)

theorem independent_of_entries {payloadType payloadType' : Int}
    {parameters parameters' : Session.CodecParameterMap}
    (h : (parameters.map fun entry => (payloadType, entry.1)).Disjoint
      (parameters'.map fun entry => (payloadType', entry.1))) :
    CodecAttribute.Independent (.fmtp payloadType parameters) (.fmtp payloadType' parameters') := by
  rintro rfl name
  have hmem : ∀ {m : Session.CodecParameterMap}, m.lookup name ≠ none →
      (payloadType, name) ∈ m.map fun entry => (payloadType, entry.1) := fun {m} hne => by
    obtain ⟨entry, hentry, hname⟩ := List.lookup_isSome_iff.mp (Option.isSome_iff_ne_none.mpr hne)
    exact List.mem_map.mpr ⟨entry, hentry, congrArg (payloadType, ·) (eq_of_beq hname).symm⟩
  by_contra hboth
  obtain ⟨hleft, hright⟩ := not_or.mp hboth
  exact h (hmem hleft) (hmem hright)

theorem pairwise_said {lines : List Text} (hrtpmap : (lines.filterMap p.rtpmapOf).Nodup)
    (hfmtp : (lines.flatMap p.fmtpEntriesOf).Nodup) :
    (said p.readCodecLine (lines.filter isCodecLine)).Pairwise CodecAttribute.Independent := by
  rw [said, List.pairwise_filterMap]
  have hpair := (List.pairwise_filterMap.mp hrtpmap).and (List.nodup_flatMap.mp hfmtp).2
  refine (hpair.filter isCodecLine).imp_of_mem fun {raw raw'} hraw hraw' hdisjoint a ha b hb => ?_
  have hread : ∀ {raw : Text} {a : CodecAttribute}, (p.readCodecLine raw).toOption.join = some a →
      p.readCodecLine raw = .ok (some a) := fun {raw a} h => by
    cases hr : p.readCodecLine raw with
    | error e =>
      rw [hr] at h
      cases h
    | ok i =>
      rw [hr] at h
      exact congrArg Except.ok h
  obtain ⟨m, rfl, hm⟩ | ⟨payloadType, parameters, rfl, hentries⟩ | ⟨_, _, rfl⟩ :=
    readCodecLine_cases (List.mem_filter.mp hraw).2 (hread ha) <;>
  obtain ⟨m', rfl, hm'⟩ | ⟨payloadType', parameters', rfl, hentries'⟩ | ⟨_, _, rfl⟩ :=
    readCodecLine_cases (List.mem_filter.mp hraw').2 (hread hb)
  · exact hdisjoint.1 _ hm _ hm'
  · trivial
  · trivial
  · trivial
  · refine independent_of_entries ?_
    have hdisj := hdisjoint.2
    rwa [Function.onFun, hentries, hentries'] at hdisj
  all_goals trivial

end SectionParser

/-! ## Codecs in any order -/

/-- The same codecs up to their order: equal fields, among them the ids, names, clock rates and
channels, equal values of all parameters and equal sets of feedback parameters. -/
def SameCodecs : MediaCodecs → MediaCodecs → Prop
  | .audio codecs, .audio codecs' => (codecs.map described).Perm (codecs'.map described)
  | .video codecs, .video codecs' => (codecs.map described).Perm (codecs'.map described)
  | .data codecs, .data codecs' => (codecs.map described).Perm (codecs'.map described)
  | _, _ => False

section

variable {C : Type} [SectionCodec C]

theorem verifyCodecs_eq (codecs : List C) :
    verifyCodecs codecs = (codecs.map described).all fun d => (codec d.fields).name ≠ "" := by
  rw [verifyCodecs, List.all_map]
  congr 1
  funext c
  show _ = decide ((codec (bare c)).name ≠ "")
  rw [bare, CodecType.codec_withCodec]

theorem verifyCodecs_perm {codecs codecs' : List C}
    (h : (codecs.map described).Perm (codecs'.map described)) :
    verifyCodecs codecs = verifyCodecs codecs' := by
  rw [verifyCodecs_eq, verifyCodecs_eq, h.all_eq]

end

namespace SectionParser

theorem described_setParam (name : String) (value : Text) (c : AudioCodec) :
    described (withCodec c ((codec c).setParam name (String.ofList value)))
      = (CodecAttribute.fmtp 0 [(name, String.ofList value)]).act (described c) :=
  described_addParameters 0 [(name, String.ofList value)] c

theorem addAudioAttribute_perm {codecs codecs' : List AudioCodec} (name : String) (value : Text)
    (h : (codecs.map described).Perm (codecs'.map described)) :
    ((addAudioAttribute name value codecs).map described).Perm
      ((addAudioAttribute name value codecs').map described) := by
  rw [addAudioAttribute, addAudioAttribute]
  split
  · exact h
  · rw [List.map_map, List.map_map]
    have hact : (described ∘ fun c : AudioCodec =>
          withCodec c ((codec c).setParam name (String.ofList value)))
        = (CodecAttribute.fmtp 0 [(name, String.ofList value)]).act ∘ described :=
      funext (described_setParam name value)
    rw [hact, ← List.map_map, ← List.map_map]
    exact h.map _

variable {σ : Type} {p : SectionParser σ} {as bs : List CodecAttribute}
  {attributes : SectionAttributes σ} {s : MediaSection σ}

/-- What makes the codecs of a section, behind its last line. -/
def finished (codecs : MediaCodecs) (as : List CodecAttribute) (attributes : SectionAttributes σ) :
    Except SdpParseError (MediaSection σ) :=
  finishCodecs ⟨as.foldl updateMediaCodecs codecs, attributes⟩

theorem foldl_audio (as : List CodecAttribute) (codecs : List AudioCodec) :
    as.foldl updateMediaCodecs (.audio codecs) = .audio (as.foldl CodecAttribute.update codecs) :=
  List.foldl_hom MediaCodecs.audio fun _ _ => rfl

theorem foldl_video (as : List CodecAttribute) (codecs : List VideoCodec) :
    as.foldl updateMediaCodecs (.video codecs) = .video (as.foldl CodecAttribute.update codecs) :=
  List.foldl_hom MediaCodecs.video fun _ _ => rfl

theorem foldl_data (as : List CodecAttribute) (codecs : List DataCodec) :
    as.foldl updateMediaCodecs (.data codecs)
      = .data (as.foldl CodecAttribute.addDataCodec codecs) :=
  List.foldl_hom MediaCodecs.data fun _ _ => rfl

theorem addDataCodec_eq (a : CodecAttribute) (codecs : List DataCodec) :
    a.addDataCodec codecs = codecs ++ a.addDataCodec [] := by
  cases a with
  | rtpmap m => rfl
  | fmtp => exact (List.append_nil codecs).symm
  | rtcpFb => exact (List.append_nil codecs).symm

theorem foldl_addDataCodec : ∀ (as : List CodecAttribute) (codecs : List DataCodec),
    as.foldl CodecAttribute.addDataCodec codecs
      = codecs ++ as.flatMap fun a => a.addDataCodec []
  | [], codecs => (List.append_nil codecs).symm
  | a :: as, codecs => by
    rw [List.foldl_cons, foldl_addDataCodec as, addDataCodec_eq, List.flatMap_cons,
      List.append_assoc]

theorem finished_audio (hperm : as.Perm bs) (h : as.Pairwise CodecAttribute.Independent)
    (hs : finished (.audio []) as attributes = .ok s) :
    ∃ s', finished (.audio []) bs attributes = .ok s' ∧ SameCodecs s.codecs s'.codecs ∧
      s.attributes = s'.attributes := by
  have hcodecs : ((as.foldl CodecAttribute.update ([] : List AudioCodec)).map described).Perm
      ((bs.foldl CodecAttribute.update []).map described) :=
    perm_of_entryOf (Kept.updates as kept_nil).nodup (Kept.updates bs kept_nil).nodup
      (entryOf_updates_perm hperm h [])
  rw [finished, foldl_audio, finishCodecs] at hs
  rw [finished, foldl_audio, finishCodecs]
  dsimp only at hs ⊢
  rw [← verifyCodecs_perm hcodecs]
  split at hs
  next hverify =>
    cases hs
    rw [if_pos hverify]
    exact ⟨_, rfl, addAudioAttribute_perm _ _ (addAudioAttribute_perm _ _ hcodecs), rfl⟩
  next => cases hs

theorem finished_video (hperm : as.Perm bs) (h : as.Pairwise CodecAttribute.Independent)
    (hs : finished (.video []) as attributes = .ok s) :
    ∃ s', finished (.video []) bs attributes = .ok s' ∧ SameCodecs s.codecs s'.codecs ∧
      s.attributes = s'.attributes := by
  have has : Kept (as.foldl CodecAttribute.update ([] : List VideoCodec)) :=
    Kept.updates as kept_nil
  have hbs : Kept (bs.foldl CodecAttribute.update ([] : List VideoCodec)) :=
    Kept.updates bs kept_nil
  have hcodecs := perm_of_entryOf (f := described) (nodup_updateFromWildcard has)
    (nodup_updateFromWildcard hbs) (by
      rw [entryOf_updateFromWildcard has, entryOf_updateFromWildcard hbs,
        entryOf_updates_perm hperm h])
  rw [finished, foldl_video, finishCodecs] at hs
  rw [finished, foldl_video, finishCodecs]
  dsimp only at hs ⊢
  rw [← verifyCodecs_perm hcodecs]
  split at hs
  next hverify =>
    cases hs
    rw [if_pos hverify]
    exact ⟨_, rfl, hcodecs, rfl⟩
  next => cases hs

theorem finished_data (hperm : as.Perm bs) (hs : finished (.data []) as attributes = .ok s) :
    ∃ s', finished (.data []) bs attributes = .ok s' ∧ SameCodecs s.codecs s'.codecs ∧
      s.attributes = s'.attributes := by
  rw [finished, foldl_data, finishCodecs] at hs
  rw [finished, foldl_data, finishCodecs]
  cases hs
  refine ⟨_, rfl, ?_, rfl⟩
  show ((as.foldl CodecAttribute.addDataCodec []).map described).Perm
    ((bs.foldl CodecAttribute.addDataCodec []).map described)
  rw [foldl_addDataCodec, foldl_addDataCodec]
  exact (hperm.flatMap_right _).map described

/-- The section has the same lines, the codec lines perhaps in another order and elsewhere. -/
structure Reordered (lines lines' : List Text) : Prop where
  codecLines : (lines.filter isCodecLine).Perm (lines'.filter isCodecLine)
  others : (lines.filter fun raw => !isCodecLine raw) = lines'.filter fun raw => !isCodecLine raw

/-- The codec lines commute: where no payload type has two `a=rtpmap` lines and no parameter of a
payload type is given twice, the section is accepted in any other order of them, with the same
codecs and other attributes. -/
theorem parseContent_reordered (p : SectionParser σ) {lines lines' : List Text} {other : σ}
    {s : MediaSection σ} (hreordered : Reordered (mediaSection lines) (mediaSection lines'))
    (hrtpmap : ((mediaSection lines).filterMap p.rtpmapOf).Nodup)
    (hfmtp : ((mediaSection lines).flatMap p.fmtpEntriesOf).Nodup)
    (haccepted : p.parseContent lines other = .ok s) :
    ∃ s', p.parseContent lines' other = .ok s' ∧ SameCodecs s.codecs s'.codecs ∧
      s.attributes = s'.attributes := by
  obtain ⟨unfinished, hparse, hfinish⟩ := bind_eq_ok.mp haccepted
  obtain ⟨attributes, rfl, hread, hother⟩ := p.parseLines_iff.mp hparse
  have hsaid : (said p.readCodecLine ((mediaSection lines).filter isCodecLine)).Perm
      (said p.readCodecLine ((mediaSection lines').filter isCodecLine)) :=
    hreordered.codecLines.filterMap _
  have hpairwise := pairwise_said hrtpmap hfmtp
  have hfinished : ∃ s', finished (noCodecs p.mediaType)
        (said p.readCodecLine ((mediaSection lines').filter isCodecLine)) attributes = .ok s' ∧
      SameCodecs s.codecs s'.codecs ∧ s.attributes = s'.attributes := by
    cases htype : p.mediaType with
    | audio =>
      rw [htype] at hfinish
      exact finished_audio hsaid hpairwise hfinish
    | video =>
      rw [htype] at hfinish
      exact finished_video hsaid hpairwise hfinish
    | data =>
      rw [htype] at hfinish
      exact finished_data hsaid hfinish
  obtain ⟨s', hs', hsame⟩ := hfinished
  refine ⟨s', bind_eq_ok.mpr ⟨_, p.parseLines_iff.mpr ⟨attributes, rfl, ?_, ?_⟩, hs'⟩, hsame⟩
  · exact fun raw hraw => hread raw (hreordered.codecLines.mem_iff.mpr hraw)
  · rw [← hreordered.others]
    exact hother

/-- A section of video, of which no attributes but those of the codecs are read. -/
def videoParser : SectionParser Unit where
  mediaType := .video
  protocol := Session.kMediaProtocolSavpf
  codecPreference := [100, 116]
  unset := 0
  other := fun _ _ => .ok ()

def videoLines : List Text :=
  ["a=rtpmap:100 VP8/90000".toList, "a=fmtp:100 x-google-min-bitrate=30".toList,
    "a=rtcp-fb:100 ccm fir".toList, "a=rtcp-fb:* nack".toList, "a=mid:video".toList,
    "a=rtpmap:116 red/90000".toList]

def videoLinesReordered : List Text :=
  ["a=rtcp-fb:* nack".toList, "a=rtcp-fb:100 ccm fir".toList, "a=mid:video".toList,
    "a=rtpmap:116 red/90000".toList, "a=fmtp:100 x-google-min-bitrate=30".toList,
    "a=rtpmap:100 VP8/90000".toList]

theorem parseContent_reordered_video :
    ∃ s s', videoParser.parseContent videoLines () = .ok s ∧
      videoParser.parseContent videoLinesReordered () = .ok s' ∧
      SameCodecs s.codecs s'.codecs ∧ s.attributes = s'.attributes := by
  have haccepted : (videoParser.parseContent videoLines ()).toBool = true := by decide +kernel
  have hreordered : Reordered (mediaSection videoLines) (mediaSection videoLinesReordered) :=
    ⟨by decide +kernel, by decide +kernel⟩
  cases hs : videoParser.parseContent videoLines () with
  | error e =>
    rw [hs] at haccepted
    cases haccepted
  | ok s =>
    obtain ⟨s', hs', hsame⟩ :=
      parseContent_reordered videoParser hreordered (by decide +kernel) (by decide +kernel) hs
    exact ⟨s, s', rfl, hs', hsame⟩

end SectionParser

end PerchWebrtc.Sdp
