import PerchWebrtc.Sdp.Codecs

/-!
# What the lines say of the codecs

A list of codecs as a table: for a payload type the fields of its codec, the value of each
parameter and the set of feedback parameters. What a line says changes one entry of the table
(`entryOf_update`), and lines that do not map a payload type twice and do not give a parameter
twice change it in any order (`entryOf_updates_perm`). So does the codec for all payload types,
which leaves the table at the end (`entryOf_updateFromWildcard`).
-/

namespace PerchWebrtc.Sdp

open Framework (alter alter_comm entryOf entryOf_eraseP entryOf_map entryOf_put nodup_put)
open Session (AudioCodec Codec CodecParameterMap CodecType FeedbackParam MediaCodecs VideoCodec)
open Session.FeedbackParams (Named has has_add has_addAll named_add)
open Session.CodecType (codec withCodec)
open SectionCodec (empty mapped)

/-! ## Descriptions -/

/-- A codec, its parameters as a map and its feedback parameters as a set. -/
@[ext]
structure CodecDescription (C : Type) where
  /-- The codec without parameters: id, name, clock rate, channels and so on. -/
  fields : C
  param : String → Option String
  feedback : FeedbackParam → Bool

/-- The codec without its parameters. -/
def bare {C : Type} [CodecType C] (c : C) : C :=
  withCodec c { codec c with params := [], feedbackParams := [] }

def described {C : Type} [CodecType C] (c : C) : CodecDescription C where
  fields := bare c
  param := (codec c).getParam
  feedback := (codec c).hasFeedbackParam

/-- Codecs whose fields are set one apart from the other. -/
class LawfulCodec (C : Type) [SectionCodec C] : Prop where
  withCodec_withCodec (c : C) (k k' : Codec) : withCodec (withCodec c k) k' = withCodec c k'
  codec_mapped (m : Rtpmap) (c : C) : (codec (mapped m c)).id = (codec c).id ∧
    (codec (mapped m c)).params = (codec c).params ∧
    (codec (mapped m c)).feedbackParams = (codec c).feedbackParams
  bare_mapped (m : Rtpmap) (c : C) : bare (mapped m c) = mapped m (bare c)
  named_empty : Named (codec (empty : C)).feedbackParams

instance : LawfulCodec AudioCodec where
  withCodec_withCodec _ _ _ := rfl
  codec_mapped _ _ := ⟨rfl, rfl, rfl⟩
  bare_mapped _ _ := rfl
  named_empty := List.forall_mem_nil _

instance : LawfulCodec VideoCodec where
  withCodec_withCodec _ _ _ := rfl
  codec_mapped _ _ := ⟨rfl, rfl, rfl⟩
  bare_mapped _ _ := rfl
  named_empty := List.forall_mem_nil _

namespace CodecAttribute

def payloadType : CodecAttribute → Int
  | rtpmap m => m.payloadType
  | fmtp payloadType _ => payloadType
  | rtcpFb payloadType _ => payloadType

/-- What a line says of the codec of its payload type. -/
def act {C : Type} [SectionCodec C] (d : CodecDescription C) : CodecAttribute → CodecDescription C
  | rtpmap m => { d with fields := mapped m d.fields }
  | fmtp _ parameters => { d with param := fun name => (parameters.lookup name).or (d.param name) }
  | rtcpFb _ param =>
    { d with feedback := fun q => d.feedback q || (decide (param.id ≠ "") && param.same q) }

/-- No payload type is mapped twice, and no parameter of it given twice. -/
def Independent : CodecAttribute → CodecAttribute → Prop
  | rtpmap m, rtpmap m' => m.payloadType ≠ m'.payloadType
  | fmtp payloadType parameters, fmtp payloadType' parameters' => payloadType = payloadType' →
      ∀ name, parameters.lookup name = none ∨ parameters'.lookup name = none
  | _, _ => True

theorem act_comm {C : Type} [SectionCodec C] {a b : CodecAttribute} (h : Independent a b)
    (hsame : a.payloadType = b.payloadType) (d : CodecDescription C) :
    b.act (a.act d) = a.act (b.act d) := by
  cases a with
  | rtpmap m =>
    cases b with
    | rtpmap m' => exact absurd hsame h
    | fmtp => rfl
    | rtcpFb => rfl
  | fmtp payloadType parameters =>
    cases b with
    | rtpmap => rfl
    | fmtp payloadType' parameters' =>
      refine CodecDescription.ext rfl (funext fun name => ?_) rfl
      show (parameters'.lookup name).or ((parameters.lookup name).or (d.param name))
        = (parameters.lookup name).or ((parameters'.lookup name).or (d.param name))
      rcases h hsame name with hnone | hnone <;> rw [hnone, Option.none_or, Option.none_or]
    | rtcpFb => rfl
  | rtcpFb payloadType param =>
    cases b with
    | rtpmap => rfl
    | fmtp => rfl
    | rtcpFb payloadType' param' =>
      exact CodecDescription.ext rfl rfl (funext fun q => Bool.or_right_comm _ _ _)

end CodecAttribute

/-! ## Updates -/

section

variable {C : Type} [SectionCodec C]

theorem payloadTypeOf_getCodec (codecs : List C) (payloadType : Int) :
    payloadTypeOf (getCodec codecs payloadType) = payloadType := by
  rw [getCodec]
  cases hfind : codecs.find? (payloadTypeOf · = payloadType) with
  | none => exact congrArg Codec.id (CodecType.codec_withCodec _ _)
  | some c => exact of_decide_eq_true (List.find?_some (p := (payloadTypeOf · = payloadType)) hfind)

/-- The description of the empty codec of a payload type. -/
def freshDescription (payloadType : Int) : CodecDescription C := described (emptyWithId payloadType)

theorem entryOf_updateCodec {codecs : List C} {payloadType : Int} {f : C → C}
    {g : CodecDescription C → CodecDescription C} (hid : ∀ c, payloadTypeOf (f c) = payloadTypeOf c)
    (hf : ∀ c, described (f c) = g (described c)) :
    entryOf payloadTypeOf described (updateCodec codecs payloadType f)
      = alter freshDescription payloadType g (entryOf payloadTypeOf described codecs) := by
  rw [updateCodec, addOrReplaceCodec, entryOf_put, hid, payloadTypeOf_getCodec, hf, alter]
  congr 3
  rw [getCodec, entryOf]
  cases codecs.find? (payloadTypeOf · = payloadType) <;> rfl

/-- The change of the codec of its payload type. -/
def CodecAttribute.change : CodecAttribute → C → C
  | rtpmap m => mapped m
  | fmtp _ parameters => addParameters parameters
  | rtcpFb _ param => addFeedbackParameter param

theorem CodecAttribute.update_eq (a : CodecAttribute) (codecs : List C) :
    a.update codecs = updateCodec codecs a.payloadType a.change := by
  cases a <;> rfl

variable [LawfulCodec C]

theorem setParams_eq (k : Codec) (parameters : CodecParameterMap) :
    k.setParams parameters = { k with params := (k.setParams parameters).params } := by
  induction parameters with
  | nil => rfl
  | cons entry parameters ih =>
    show ((k.setParams parameters).setParam entry.1 entry.2) = _
    rw [ih]
    rfl

theorem described_mapped (m : Rtpmap) (c : C) :
    described (mapped m c) = (CodecAttribute.rtpmap m).act (described c) := by
  obtain ⟨-, hparams, hfeedback⟩ := LawfulCodec.codec_mapped m c
  refine CodecDescription.ext (LawfulCodec.bare_mapped m c) (funext fun name => ?_)
    (funext fun q => ?_)
  · show (codec (mapped m c)).params.lookup name = (codec c).params.lookup name
    rw [hparams]
  · show has (codec (mapped m c)).feedbackParams q = has (codec c).feedbackParams q
    rw [hfeedback]

theorem bare_withCodec {c : C} {k : Codec}
    (h : { k with params := [], feedbackParams := [] } =
      { codec c with params := [], feedbackParams := [] }) : bare (withCodec c k) = bare c := by
  rw [bare, CodecType.codec_withCodec, LawfulCodec.withCodec_withCodec, h]
  rfl

theorem described_addParameters (payloadType : Int) (parameters : CodecParameterMap) (c : C) :
    described (addParameters parameters c)
      = (CodecAttribute.fmtp payloadType parameters).act (described c) := by
  have hkeep := setParams_eq (codec c) parameters
  refine CodecDescription.ext (bare_withCodec ?_) (funext fun name => ?_) (funext fun q => ?_)
  · rw [hkeep]
  · show (codec (addParameters parameters c)).getParam name = _
    rw [addParameters, CodecType.codec_withCodec]
    exact Codec.getParam_setParams (codec c) name parameters
  · show (codec (addParameters parameters c)).hasFeedbackParam q = (codec c).hasFeedbackParam q
    rw [addParameters, CodecType.codec_withCodec, hkeep]
    rfl

theorem described_addFeedbackParameter (payloadType : Int) (param : FeedbackParam) (c : C) :
    described (addFeedbackParameter param c)
      = (CodecAttribute.rtcpFb payloadType param).act (described c) := by
  refine CodecDescription.ext (bare_withCodec rfl) (funext fun name => ?_) (funext fun q => ?_)
  · show (codec (addFeedbackParameter param c)).getParam name = (codec c).getParam name
    rw [addFeedbackParameter, CodecType.codec_withCodec]
    rfl
  · show (codec (addFeedbackParameter param c)).hasFeedbackParam q = _
    rw [addFeedbackParameter, CodecType.codec_withCodec]
    exact has_add (codec c).feedbackParams param q

theorem payloadTypeOf_change (a : CodecAttribute) (c : C) :
    payloadTypeOf (a.change c) = payloadTypeOf c := by
  cases a with
  | rtpmap m => exact (LawfulCodec.codec_mapped m c).1
  | fmtp _ parameters =>
    show (codec (addParameters parameters c)).id = (codec c).id
    rw [addParameters, CodecType.codec_withCodec, setParams_eq]
  | rtcpFb _ param =>
    show (codec (addFeedbackParameter param c)).id = (codec c).id
    rw [addFeedbackParameter, CodecType.codec_withCodec]
    rfl

theorem described_change (a : CodecAttribute) (c : C) :
    described (a.change c) = a.act (described c) := by
  cases a with
  | rtpmap m => exact described_mapped m c
  | fmtp payloadType parameters => exact described_addParameters payloadType parameters c
  | rtcpFb payloadType param => exact described_addFeedbackParameter payloadType param c

theorem named_change {a : CodecAttribute} {c : C} (h : Named (codec c).feedbackParams) :
    Named (codec (a.change c)).feedbackParams := by
  cases a with
  | rtpmap m => exact (LawfulCodec.codec_mapped m c).2.2 ▸ h
  | fmtp _ parameters =>
    show Named (codec (addParameters parameters c)).feedbackParams
    rw [addParameters, CodecType.codec_withCodec, setParams_eq]
    exact h
  | rtcpFb _ param =>
    show Named (codec (addFeedbackParameter param c)).feedbackParams
    rw [addFeedbackParameter, CodecType.codec_withCodec]
    exact named_add h param

/-! ## Any number of lines -/

/-- A line changes the entry of its payload type. -/
theorem entryOf_update (a : CodecAttribute) (codecs : List C) :
    entryOf payloadTypeOf described (a.update codecs)
      = alter freshDescription a.payloadType a.act (entryOf payloadTypeOf described codecs) := by
  rw [a.update_eq]
  exact entryOf_updateCodec (payloadTypeOf_change a) (described_change a)

/-- One codec for a payload type; no feedback parameter without an id. -/
structure Kept (codecs : List C) : Prop where
  nodup : (codecs.map payloadTypeOf).Nodup
  named : ∀ c ∈ codecs, Named (codec c).feedbackParams

theorem named_getCodec {codecs : List C} (h : Kept codecs) (payloadType : Int) :
    Named (codec (getCodec codecs payloadType)).feedbackParams := by
  rw [getCodec]
  cases hfind : codecs.find? (payloadTypeOf · = payloadType) with
  | none =>
    show Named (codec (emptyWithId payloadType : C)).feedbackParams
    rw [emptyWithId, CodecType.codec_withCodec]
    exact LawfulCodec.named_empty
  | some c => exact h.named c (List.mem_of_find?_eq_some hfind)

theorem Kept.update {codecs : List C} (h : Kept codecs) (a : CodecAttribute) :
    Kept (a.update codecs) := by
  rw [a.update_eq]
  refine ⟨nodup_put payloadTypeOf _ h.nodup, fun c hc => ?_⟩
  obtain rfl | hc := Framework.mem_put payloadTypeOf hc
  · exact named_change (named_getCodec h a.payloadType)
  · exact h.named c hc

theorem Kept.updates : ∀ (as : List CodecAttribute) {codecs : List C}, Kept codecs →
    Kept (as.foldl CodecAttribute.update codecs)
  | [], _, h => h
  | a :: as, _, h => Kept.updates as (h.update a)

omit [LawfulCodec C] in
theorem kept_nil : Kept ([] : List C) := ⟨List.nodup_nil, List.forall_mem_nil _⟩

theorem entryOf_updates : ∀ (as : List CodecAttribute) (codecs : List C),
    entryOf payloadTypeOf described (as.foldl CodecAttribute.update codecs)
      = as.foldl (fun table a => alter freshDescription a.payloadType a.act table)
        (entryOf payloadTypeOf described codecs)
  | [], _ => rfl
  | a :: as, codecs => by
    rw [List.foldl_cons, List.foldl_cons, entryOf_updates as, entryOf_update]

/-- What the lines say makes the same table in any order. -/
theorem entryOf_updates_perm {as bs : List CodecAttribute} (hperm : as.Perm bs)
    (h : as.Pairwise CodecAttribute.Independent) (codecs : List C) :
    entryOf payloadTypeOf described (as.foldl CodecAttribute.update codecs)
      = entryOf payloadTypeOf described (bs.foldl CodecAttribute.update codecs) := by
  rw [entryOf_updates, entryOf_updates]
  refine Framework.foldl_perm_of_pairwise hperm (h.imp fun hab table => ?_) _
  exact alter_comm (fun hsame d => CodecAttribute.act_comm hab hsame d) table

end

/-! ## Feedback for all payload types -/

/-- A description with more feedback parameters. -/
def CodecDescription.withFeedback {C : Type} (feedback : FeedbackParam → Bool)
    (d : CodecDescription C) : CodecDescription C :=
  { d with feedback := fun q => d.feedback q || feedback q }

/-- The wildcard leaves the table, and its feedback goes to all other payload types. -/
def spread {C : Type} (table : Int → Option (CodecDescription C)) :
    Int → Option (CodecDescription C) :=
  match table kWildcardPayloadType with
  | none => table
  | some wildcard => fun payloadType =>
    (Function.update table kWildcardPayloadType none payloadType).map
      (.withFeedback wildcard.feedback)

open SectionParser (addFeedbackParameters popWildcardCodec updateFromWildcardVideoCodecs)

theorem described_addFeedbackParameters {params : List FeedbackParam} (h : Named params)
    (c : VideoCodec) :
    described (addFeedbackParameters params c) = (described c).withFeedback (has params) :=
  CodecDescription.ext rfl rfl (funext fun q => has_addAll q h (codec c).feedbackParams)

theorem entryOf_updateFromWildcard {codecs : List VideoCodec} (h : Kept codecs) :
    entryOf payloadTypeOf described (updateFromWildcardVideoCodecs codecs)
      = spread (entryOf payloadTypeOf described codecs) := by
  rw [updateFromWildcardVideoCodecs, popWildcardCodec, spread]
  cases hfind : codecs.find? (payloadTypeOf · = kWildcardPayloadType) with
  | none =>
    have hentry : entryOf payloadTypeOf described codecs kWildcardPayloadType = none := by
      rw [entryOf, hfind]
      rfl
    rw [hentry]
    rfl
  | some wildcard =>
    have hentry : entryOf payloadTypeOf described codecs kWildcardPayloadType
        = some (described wildcard) := by
      rw [entryOf, hfind]
      rfl
    have hnamed := h.named wildcard (List.mem_of_find?_eq_some hfind)
    rw [hentry]
    funext payloadType
    refine (entryOf_map payloadTypeOf (h := addFeedbackParameters (codec wildcard).feedbackParams)
      (fun _ => rfl) (described_addFeedbackParameters hnamed) _ _).trans ?_
    rw [entryOf_eraseP payloadTypeOf described h.nodup]
    rfl

theorem nodup_updateFromWildcard {codecs : List VideoCodec} (h : Kept codecs) :
    ((updateFromWildcardVideoCodecs codecs).map payloadTypeOf).Nodup := by
  rw [updateFromWildcardVideoCodecs, popWildcardCodec]
  cases codecs.find? (payloadTypeOf · = kWildcardPayloadType) with
  | none => exact h.nodup
  | some wildcard =>
    show ((List.map _ _).map payloadTypeOf).Nodup
    rw [List.map_map]
    exact h.nodup.sublist (List.eraseP_sublist.map payloadTypeOf)

end PerchWebrtc.Sdp
