import PerchWebrtc.Framework.Machine
import PerchWebrtc.Framework.Numerals
import PerchWebrtc.Framework.Ordered
import PerchWebrtc.Session.Answer
import PerchWebrtc.Session.UsedIds

/-!
# The codecs of an offer

`FindCodecsToOffer` and `GetCodecsToOffer` (`mediasession.cc`): the codecs of the current
description, and behind them ours that they do not match. A payload type that is in use is
replaced, and an RTX codec that refers to a new codec gets its new payload type.
-/

namespace PerchWebrtc.Session

open CodecType (codec withCodec isMatch)
open Framework (streamInt showInt InInt)

/-! ## Strings and numbers -/

/-- `FromString` for an `int` that was zero. -/
def readStringInt (s : String) : Int × Bool := streamInt 0 s.toList

def fromStringInt (s : String) : Option Int :=
  if (readStringInt s).2 then some (readStringInt s).1 else none

/-- `ToString`. -/
def toStringInt (n : Int) : String := String.ofList (showInt n)

theorem fromStringInt_toStringInt {n : Int} (h : InInt n) :
    fromStringInt (toStringInt n) = some n := by
  have hvalue : readStringInt (toStringInt n) = (n, true) := by
    rw [readStringInt, toStringInt, String.toList_ofList]
    exact Framework.streamInt_showInt 0 h
  rw [fromStringInt, hvalue]
  rfl

theorem readStringInt_of_fromStringInt {s : String} {n : Int} (h : fromStringInt s = some n) :
    (readStringInt s).1 = n ∧ InInt n := by
  unfold fromStringInt at h
  split at h
  · rename_i hgood
    have hvalue : (readStringInt s).1 = n := Option.some.inj h
    exact ⟨hvalue, Framework.streamInt_inInt (Prod.ext hvalue hgood)⟩
  · exact absurd h (Option.some_ne_none n).symm

/-! ## Payload types -/

def kDynamicPayloadTypeMin : Int := 96
def kDynamicPayloadTypeMax : Int := 127

/-- `UsedPayloadTypes`. -/
def usedPayloadTypes : UsedIds := UsedIds.new kDynamicPayloadTypeMin kDynamicPayloadTypeMax

section

variable {C : Type} [CodecType C]

def setId (c : C) (id : Int) : C := withCodec c { codec c with id }

def setApt (c : C) (value : String) : C :=
  withCodec c ((codec c).setParam kCodecParamAssociatedPayloadType value)

/-- The payload type that an RTX codec refers to. -/
def associated (c : C) : Option Int :=
  ((codec c).getParam kCodecParamAssociatedPayloadType).bind fromStringInt

/-- `FindAndSetIdUsed` of all codecs of a list. -/
def findAndSetIdsUsed (u : UsedIds) : List C → UsedIds × List C
  | [] => (u, [])
  | c :: cs =>
    let r := u.findAndSetIdUsed (codec c).id
    let rs := findAndSetIdsUsed r.1 cs
    (rs.1, setId c r.2 :: rs.2)

/-- `FindMatchingCodec`. -/
def findMatchingCodec (codecs : List C) (c : C) : Bool := codecs.any (isMatch · c)

/-- A new RTX codec under the payload type that it referred to among our codecs. -/
structure RtxReference (C : Type) where
  referenced : Int
  original : C
  codec : C

/-- The list so far, the payload types in use, and the new RTX codecs. -/
structure OfferState (C : Type) where
  offered : List C
  used : UsedIds
  rtx : List (RtxReference C)

/-- `params[..]` gives a codec without the parameter an empty one. -/
def rtxReference (c : C) : RtxReference C :=
  match (codec c).getParam kCodecParamAssociatedPayloadType with
  | some value => ⟨(readStringInt value).1, c, c⟩
  | none => ⟨(readStringInt "").1, c, setApt c ""⟩

/-- The map of the new RTX codecs; one for each payload type that they refer to. -/
def newRtxCodecs (referenceCodecs offeredCodecs : List C) : List (RtxReference C) :=
  (referenceCodecs.filter fun c => !findMatchingCodec offeredCodecs c && isRtxCodec c).foldl
    (fun rtx c => Ordered.insert (· < ·) (·.referenced) (rtxReference c) rtx) []

/-- A new codec that is not RTX. -/
def addCodec (s : OfferState C) (c : C) : OfferState C :=
  if findMatchingCodec s.offered c || isRtxCodec c then s
  else
    let r := s.used.findAndSetIdUsed (codec c).id
    { offered := s.offered ++ [setId c r.2]
      used := r.1
      rtx := s.rtx.map fun x =>
        if x.referenced = (codec c).id then { x with codec := setApt x.codec (toStringInt r.2) }
        else x }

def addRtxCodec (s : OfferState C) (x : RtxReference C) : OfferState C :=
  let r := s.used.findAndSetIdUsed (codec x.codec).id
  { offered := s.offered ++ [setId x.codec r.2]
    used := r.1
    rtx := s.rtx ++ [{ x with codec := setId x.codec r.2 }] }

/-- The codecs after the loop over those that are not RTX. -/
def addCodecs (referenceCodecs offeredCodecs : List C) (used : UsedIds) (seen : List C) :
    OfferState C :=
  seen.foldl addCodec ⟨offeredCodecs, used, newRtxCodecs referenceCodecs offeredCodecs⟩

/-- `FindCodecsToOffer`, with the RTX codecs as they were added. -/
def findCodecsToOffer (referenceCodecs offeredCodecs : List C) (used : UsedIds) : OfferState C :=
  let s := addCodecs referenceCodecs offeredCodecs used referenceCodecs
  s.rtx.foldl addRtxCodec { s with rtx := [] }

end

/-! ## All media -/

/-- The codecs of the first content of a type, if there is one. -/
def currentCodecs (current : Option SessionDescription) (mediaType : MediaType) :
    Option MediaCodecs :=
  ((current.bind (·.getFirstMediaContent mediaType)).bind (·.description)).map (·.codecs)

def currentAudioCodecs (current : Option SessionDescription) : List AudioCodec :=
  match currentCodecs current .audio with
  | some (.audio codecs) => codecs
  | _ => []

def currentVideoCodecs (current : Option SessionDescription) : List VideoCodec :=
  match currentCodecs current .video with
  | some (.video codecs) => codecs
  | _ => []

def currentDataCodecs (current : Option SessionDescription) : List DataCodec :=
  match currentCodecs current .data with
  | some (.data codecs) => codecs
  | _ => []

/-- The codecs to offer, and those of the current description among them. -/
structure CodecsToOffer where
  currentAudio : List AudioCodec
  currentVideo : List VideoCodec
  currentData : List DataCodec
  audio : OfferState AudioCodec
  video : OfferState VideoCodec
  data : OfferState DataCodec

def MediaSessionDescriptionFactory.getCodecsToOffer (f : MediaSessionDescriptionFactory)
    (current : Option SessionDescription) : CodecsToOffer :=
  let audio := findAndSetIdsUsed usedPayloadTypes (currentAudioCodecs current)
  let video := findAndSetIdsUsed audio.1 (currentVideoCodecs current)
  let data := findAndSetIdsUsed video.1 (currentDataCodecs current)
  let audioOffer := findCodecsToOffer f.audioCodecs audio.2 data.1
  let videoOffer := findCodecsToOffer f.videoCodecs video.2 audioOffer.used
  let dataOffer := findCodecsToOffer f.dataCodecs data.2 videoOffer.used
  ⟨audio.2, video.2, data.2, audioOffer, videoOffer, dataOffer⟩

section

variable {C : Type} [CodecType C]

/-! ## What is handed out -/

@[simp] theorem codec_setId (c : C) (id : Int) : codec (setId c id) = { codec c with id } :=
  CodecType.codec_withCodec ..

@[simp] theorem associated_setId (c : C) (id : Int) : associated (setId c id) = associated c := by
  rw [associated, codec_setId]
  rfl

@[simp] theorem setApt_id (c : C) (value : String) : (codec (setApt c value)).id = (codec c).id := by
  rw [setApt, CodecType.codec_withCodec]
  rfl

@[simp] theorem associated_setApt (c : C) (value : String) :
    associated (setApt c value) = fromStringInt value := by
  rw [associated, setApt, CodecType.codec_withCodec, Codec.getParam_setParam, Option.bind_some]

/-- The payload types that can be replaced. -/
def Dynamic (id : Int) : Prop := kDynamicPayloadTypeMin ≤ id ∧ id ≤ kDynamicPayloadTypeMax

instance (id : Int) : Decidable (Dynamic id) := inferInstanceAs (Decidable (_ ∧ _))

def ids (cs : List C) : List Int := cs.map fun c => (codec c).id

def dynamicCodecs (cs : List C) : Nat := (ids cs).countP (Dynamic ·)

/-- There are ids for so many codecs more. -/
structure Budget (u : UsedIds) (n : Nat) : Prop where
  valid : u.Valid
  min : u.minAllowedId = kDynamicPayloadTypeMin
  max : u.maxAllowedId = kDynamicPayloadTypeMax
  room : u.idSet.card + n ≤ 32

theorem Budget.inRange {u : UsedIds} {n : Nat} (h : Budget u n) (id : Int) :
    u.InRange id ↔ Dynamic id := by
  rw [UsedIds.InRange, h.min, h.max]
  rfl

theorem Budget.mono {u : UsedIds} {n m : Nat} (h : Budget u n) (hle : m ≤ n) : Budget u m :=
  { h with room := (Nat.add_le_add_left hle _).trans h.room }

theorem budget_usedPayloadTypes {n : Nat} (h : n ≤ 32) : Budget usedPayloadTypes n where
  valid := UsedIds.new_valid ..
  min := rfl
  max := rfl
  room := (Nat.zero_add n).le.trans h

theorem Budget.handsOut {u : UsedIds} {n : Nat} {id : Int}
    (h : Budget u (n + if Dynamic id then 1 else 0)) :
    UsedIds.HandsOut u id (u.findAndSetIdUsed id) := by
  refine UsedIds.findAndSetIdUsed_spec h.valid fun hin => ?_
  have hroom := h.room
  rw [if_pos ((h.inRange id).mp hin)] at hroom
  rw [UsedIds.HasRoom, h.min, h.max]
  exact Nat.lt_of_lt_of_eq (by omega) (show 32 = _ from rfl)

theorem Budget.step {u : UsedIds} {n : Nat} {id : Int}
    (h : Budget u (n + if Dynamic id then 1 else 0)) : Budget (u.findAndSetIdUsed id).1 n := by
  have hout := h.handsOut
  refine ⟨hout.valid, hout.range.1.trans h.min, hout.range.2.trans h.max, ?_⟩
  have hcard := hout.card_le
  have hroom := h.room
  simp only [h.inRange] at hcard
  omega

theorem Budget.inInt {u : UsedIds} {n : Nat} {id : Int}
    (h : Budget u (n + if Dynamic id then 1 else 0)) (hint : InInt id) :
    InInt (u.findAndSetIdUsed id).2 := by
  have hout := h.handsOut
  by_cases hdyn : Dynamic id
  · obtain ⟨hmin, hmax⟩ := (h.inRange _).mp (hout.inside ((h.inRange id).mpr hdyn)).1
    rw [kDynamicPayloadTypeMin] at hmin
    rw [kDynamicPayloadTypeMax] at hmax
    exact ⟨by omega, by omega⟩
  · rwa [(hout.outside (mt (h.inRange id).mp hdyn)).1]

/-- The dynamic payload types of a list are in use. -/
def InUse (u : UsedIds) (codecs : List C) : Prop := ∀ id ∈ ids codecs, Dynamic id → id ∈ u.idSet

/-- A codec that is put behind a list, with the id that is handed out for it. -/
theorem inUse_push {u : UsedIds} {n : Nat} {codecs : List C} {c : C}
    (h : Budget u (n + if Dynamic (codec c).id then 1 else 0)) (hused : InUse u codecs) :
    InUse (u.findAndSetIdUsed (codec c).id).1
      (codecs ++ [setId c (u.findAndSetIdUsed (codec c).id).2]) := by
  have hout := h.handsOut
  intro id hid hdyn
  rw [ids, List.map_append, List.mem_append] at hid
  rcases hid with hid | hid
  · exact hout.subset (hused id hid hdyn)
  · obtain rfl : id = (u.findAndSetIdUsed (codec c).id).2 := by simpa using hid
    have hin := hout.inRange_iff.mp ((h.inRange _).mpr hdyn)
    rw [(hout.inside hin).2.2.1]
    exact Finset.mem_insert_self ..

theorem nodup_push {u : UsedIds} {n : Nat} {codecs : List C} {c : C}
    (h : Budget u (n + if Dynamic (codec c).id then 1 else 0)) (hused : InUse u codecs) :
    (ids (codecs ++ [setId c (u.findAndSetIdUsed (codec c).id).2])).Nodup ↔
      (ids codecs).Nodup ∧ (Dynamic (codec c).id ∨ (codec c).id ∉ ids codecs) := by
  have hmem := h.handsOut.mem_iff (ids codecs) fun j hj hin =>
    hused j hj ((h.inRange j).mp hin)
  rw [h.inRange] at hmem
  have hids : ids (codecs ++ [setId c (u.findAndSetIdUsed (codec c).id).2])
      = ids codecs ++ [(u.findAndSetIdUsed (codec c).id).2] := by
    simp [ids]
  rw [hids, ← List.concat_eq_append, List.nodup_concat, and_comm, hmem, not_and_or, not_not]

/-! ## The codecs of the current description -/

/-- One step of `findAndSetIdsUsed`. -/
def useCodec (u : UsedIds) (c : C) : UsedIds := (u.findAndSetIdUsed (codec c).id).1

theorem dynamicCodecs_cons (c : C) (cs : List C) :
    dynamicCodecs (c :: cs) = dynamicCodecs cs + if Dynamic (codec c).id then 1 else 0 := by
  simp [dynamicCodecs, ids, List.countP_cons]

section

variable {cs : List C} {u : UsedIds} {n : Nat}

theorem budget_cons {c : C} (h : Budget u (dynamicCodecs (c :: cs) + n)) :
    Budget u (dynamicCodecs cs + n + if Dynamic (codec c).id then 1 else 0) := by
  rw [dynamicCodecs_cons, Nat.add_right_comm] at h
  exact h

theorem findAndSetIdsUsed_budget (h : Budget u (dynamicCodecs cs + n)) :
    Budget (findAndSetIdsUsed u cs).1 n := by
  induction cs generalizing u with
  | nil =>
    rw [show dynamicCodecs ([] : List C) = 0 from rfl, Nat.zero_add] at h
    exact h
  | cons c cs ih => exact ih (budget_cons h).step

theorem findAndSetIdsUsed_subset (h : Budget u (dynamicCodecs cs + n)) :
    u.idSet ⊆ (findAndSetIdsUsed u cs).1.idSet := by
  induction cs generalizing u with
  | nil => exact Finset.Subset.refl _
  | cons c cs ih => exact (budget_cons h).handsOut.subset.trans (ih (budget_cons h).step)

/-- What is dynamic among them was not in use before, and is now; the rest is as it was. -/
theorem findAndSetIdsUsed_ids (h : Budget u (dynamicCodecs cs + n)) :
    ∀ id ∈ ids (findAndSetIdsUsed u cs).2,
      Dynamic id ∧ id ∉ u.idSet ∧ id ∈ (findAndSetIdsUsed u cs).1.idSet ∨
        ¬ Dynamic id ∧ id ∈ ids cs := by
  induction cs generalizing u with
  | nil => exact fun id hid => absurd hid List.not_mem_nil
  | cons c cs ih =>
    have hc := budget_cons h
    have hout := hc.handsOut
    intro id hid
    rcases List.mem_cons.mp hid with rfl | hid
    · simp only [codec_setId]
      by_cases hdyn : Dynamic (codec c).id
      · obtain ⟨hin, hfresh, hset, -⟩ := hout.inside ((hc.inRange _).mpr hdyn)
        refine .inl ⟨(hc.inRange _).mp hin, hfresh, findAndSetIdsUsed_subset hc.step ?_⟩
        rw [hset]
        exact Finset.mem_insert_self ..
      · rw [(hout.outside (mt (hc.inRange _).mp hdyn)).1]
        exact .inr ⟨hdyn, List.mem_cons_self⟩
    · rcases ih hc.step id hid with ⟨hdyn, hfresh, hset⟩ | ⟨hdyn, hmem⟩
      · exact .inl ⟨hdyn, fun hused => hfresh (hout.subset hused), hset⟩
      · exact .inr ⟨hdyn, List.mem_cons_of_mem _ hmem⟩

theorem findAndSetIdsUsed_inUse (h : Budget u (dynamicCodecs cs + n)) :
    InUse (findAndSetIdsUsed u cs).1 (findAndSetIdsUsed u cs).2 := by
  intro id hid hdyn
  rcases findAndSetIdsUsed_ids h id hid with ⟨-, -, hset⟩ | ⟨hnot, -⟩
  · exact hset
  · exact absurd hdyn hnot

theorem findAndSetIdsUsed_nodup (h : Budget u (dynamicCodecs cs + n)) (hnodup : (ids cs).Nodup) :
    (ids (findAndSetIdsUsed u cs).2).Nodup := by
  induction cs generalizing u with
  | nil => exact List.nodup_nil
  | cons c cs ih =>
    have hc := budget_cons h
    have hout := hc.handsOut
    obtain ⟨hnot, hnodup⟩ := List.nodup_cons.mp hnodup
    refine List.nodup_cons.mpr ⟨fun hmem => ?_, ih hc.step hnodup⟩
    simp only [codec_setId] at hmem
    by_cases hdyn : Dynamic (codec c).id
    · obtain ⟨hin, -, hset, -⟩ := hout.inside ((hc.inRange _).mpr hdyn)
      rcases findAndSetIdsUsed_ids hc.step _ hmem with ⟨-, hfresh, -⟩ | ⟨hnot', -⟩
      · exact hfresh (hset ▸ Finset.mem_insert_self ..)
      · exact hnot' ((hc.inRange _).mp hin)
    · rw [(hout.outside (mt (hc.inRange _).mp hdyn)).1] at hmem
      rcases findAndSetIdsUsed_ids hc.step _ hmem with ⟨hdyn', -⟩ | ⟨-, hmem⟩
      · exact hdyn hdyn'
      · exact hnot hmem

theorem findAndSetIdsUsed_zip (u : UsedIds) (cs : List C) :
    ∀ p ∈ cs.zip (findAndSetIdsUsed u cs).2, ∃ id, p.2 = setId p.1 id := by
  induction cs generalizing u with
  | nil => exact fun p hp => absurd hp List.not_mem_nil
  | cons c cs ih =>
    intro p hp
    rcases List.mem_cons.mp hp with rfl | hp
    · exact ⟨_, rfl⟩
    · exact ih _ p hp

theorem findAndSetIdsUsed_length (u : UsedIds) (cs : List C) :
    (findAndSetIdsUsed u cs).2.length = cs.length := by
  induction cs generalizing u with
  | nil => rfl
  | cons c cs ih => exact congrArg (· + 1) (ih _)

/-- Codecs keep their payload types exactly if these are free when they are reached. -/
theorem findAndSetIdsUsed_kept_iff {P : C → Prop} (h : Budget u (dynamicCodecs cs + n)) :
    (∀ p ∈ cs.zip (findAndSetIdsUsed u cs).2, P p.1 → (codec p.2).id = (codec p.1).id) ↔
      Machine.Along useCodec (fun u c => P c → (codec c).id ∉ u.idSet) u cs := by
  induction cs generalizing u with
  | nil => exact iff_of_true (fun p hp => absurd hp List.not_mem_nil) trivial
  | cons c cs ih =>
    have hc := budget_cons h
    have hkept := hc.handsOut.eq_iff h.valid
    rw [findAndSetIdsUsed, List.zip_cons_cons, List.forall_mem_cons, ih hc.step, codec_setId]
    exact and_congr_left' (imp_congr_right fun _ => hkept)

end

/-! ## New RTX codecs -/

theorem rtxReference_original (c : C) : (rtxReference c).original = c := by
  unfold rtxReference
  split <;> rfl

theorem rtxReference_id (c : C) : (codec (rtxReference c).codec).id = (codec c).id := by
  unfold rtxReference
  split
  · rfl
  · exact setApt_id ..

/-- A codec that refers to a payload type is kept under it. -/
theorem rtxReference_of_associated {c : C} {id : Int} (h : associated c = some id) :
    (rtxReference c).referenced = id ∧ (rtxReference c).codec = c ∧ InInt id := by
  obtain ⟨value, hvalue, hread⟩ := Option.bind_eq_some_iff.mp h
  obtain ⟨hid, hint⟩ := readStringInt_of_fromStringInt hread
  rw [rtxReference, hvalue]
  exact ⟨hid, rfl, hint⟩

section

variable {ours offered : List C}

/-- The RTX codecs of ours that the list does not match, all but those that refer to the same
payload type as one before. -/
theorem newRtxCodecs_subperm (ours offered : List C) :
    (newRtxCodecs ours offered).Subperm
      ((ours.filter fun c => !findMatchingCodec offered c && isRtxCodec c).map rtxReference) := by
  suffices h : ∀ (cs : List C) (rtx : List (RtxReference C)),
      (cs.foldl (fun rtx c => Ordered.insert (· < ·) (·.referenced) (rtxReference c) rtx) rtx).Subperm
        (cs.map rtxReference ++ rtx) by
    exact (h _ []).trans (List.append_nil _ ▸ List.Subperm.refl _)
  intro cs
  induction cs with
  | nil => exact fun rtx => List.Subperm.refl _
  | cons c cs ih =>
    intro rtx
    refine (ih _).trans (((List.subperm_append_left _).mpr (Ordered.insert_subperm ..)).trans ?_)
    exact List.perm_middle.subperm

theorem mem_newRtxCodecs {x : RtxReference C} (h : x ∈ newRtxCodecs ours offered) :
    x = rtxReference x.original ∧ x.original ∈ ours ∧ isRtxCodec x.original = true := by
  obtain ⟨c, hc, rfl⟩ := List.mem_map.mp ((newRtxCodecs_subperm ours offered).subset h)
  obtain ⟨hmem, hcond⟩ := List.mem_filter.mp hc
  rw [rtxReference_original]
  exact ⟨rfl, hmem, (Bool.and_eq_true_iff.mp hcond).2⟩

/-- Codecs of ours that are not RTX, and new RTX codecs, are no more than all of ours. -/
theorem dynamicCodecs_new_le (ours offered : List C) :
    dynamicCodecs (ours.filter (!isRtxCodec ·))
        + dynamicCodecs ((newRtxCodecs ours offered).map (·.codec)) ≤ dynamicCodecs ours := by
  have hrtx : dynamicCodecs ((newRtxCodecs ours offered).map (·.codec))
      ≤ dynamicCodecs (ours.filter isRtxCodec) := by
    have hsub := (newRtxCodecs_subperm ours offered).countP_le
      fun x : RtxReference C => decide (Dynamic (codec x.codec).id)
    calc dynamicCodecs ((newRtxCodecs ours offered).map (·.codec))
        = (newRtxCodecs ours offered).countP fun x => Dynamic (codec x.codec).id := by
          simp [dynamicCodecs, ids, List.countP_map, Function.comp_def]
      _ ≤ ((ours.filter fun c => !findMatchingCodec offered c && isRtxCodec c).map
            rtxReference).countP fun x => Dynamic (codec x.codec).id := hsub
      _ = (ours.filter fun c => !findMatchingCodec offered c && isRtxCodec c).countP
            fun c => Dynamic (codec c).id := by
          simp [List.countP_map, Function.comp_def, rtxReference_id]
      _ ≤ (ours.filter isRtxCodec).countP fun c => Dynamic (codec c).id := by
          refine (List.monotone_filter_right ours fun c hc => ?_).countP_le
          exact (Bool.and_eq_true_iff.mp hc).2
      _ = dynamicCodecs (ours.filter isRtxCodec) := by
          simp [dynamicCodecs, ids, List.countP_map, Function.comp_def]
  have hsplit : dynamicCodecs ours
      = dynamicCodecs (ours.filter (!isRtxCodec ·)) + dynamicCodecs (ours.filter isRtxCodec) := by
    have h := List.countP_eq_countP_filter_add ours (fun c => decide (Dynamic (codec c).id))
      (!isRtxCodec ·)
    simpa [dynamicCodecs, ids, List.countP_map, Function.comp_def] using h
  omega

theorem newRtxCodecs_nodup (h : (ids ours).Nodup) :
    ((newRtxCodecs ours offered).map (·.original)).Nodup := by
  obtain ⟨l, hperm, hsub⟩ := newRtxCodecs_subperm ours offered
  have hmap : ((ours.filter fun c => !findMatchingCodec offered c && isRtxCodec c).map
      rtxReference).map (·.original)
      = ours.filter fun c => !findMatchingCodec offered c && isRtxCodec c := by
    simp [List.map_map, Function.comp_def, rtxReference_original]
  refine (hperm.map _).nodup_iff.mp ((hsub.map _).nodup ?_)
  rw [hmap]
  exact (List.Nodup.of_map _ h).filter _

end

/-! ## The loops -/

/-- The list and the payload types in use, with those for so many codecs more. -/
structure OfferState.Ready (s : OfferState C) (n : Nat) : Prop where
  budget : Budget s.used n
  inUse : InUse s.used s.offered

section

variable {s : OfferState C} {c : C} {x : RtxReference C} {n : Nat} {xs : List (RtxReference C)}
  {cs : List C}

theorem dynamicCodecs_filter_cons (c : C) (cs : List C) :
    dynamicCodecs ((c :: cs).filter (!isRtxCodec ·)) = dynamicCodecs (cs.filter (!isRtxCodec ·)) +
      if isRtxCodec c = false ∧ Dynamic (codec c).id then 1 else 0 := by
  cases hrtx : isRtxCodec c <;> simp [hrtx, dynamicCodecs_cons]

/-- A codec that the loop does not add. -/
def PassedOver (s : OfferState C) (c : C) : Prop :=
  findMatchingCodec s.offered c = true ∨ isRtxCodec c = true

instance (s : OfferState C) (c : C) : Decidable (PassedOver s c) :=
  inferInstanceAs (Decidable (_ ∨ _))

theorem addCodec_of_passedOver (h : PassedOver s c) : addCodec s c = s :=
  if_pos (Bool.or_eq_true_iff.mpr h)

theorem addCodec_of_not_passedOver (h : ¬ PassedOver s c) :
    addCodec s c =
      { offered := s.offered ++ [setId c (s.used.findAndSetIdUsed (codec c).id).2]
        used := (s.used.findAndSetIdUsed (codec c).id).1
        rtx := s.rtx.map fun x =>
          if x.referenced = (codec c).id then
            { x with
              codec := setApt x.codec (toStringInt (s.used.findAndSetIdUsed (codec c).id).2) }
          else x } :=
  if_neg (mt Bool.or_eq_true_iff.mp h)

theorem ready_cons (h : s.Ready (dynamicCodecs ((c :: cs).filter (!isRtxCodec ·)) + n))
    (hnew : ¬ PassedOver s c) :
    s.Ready (dynamicCodecs (cs.filter (!isRtxCodec ·)) + n
      + if Dynamic (codec c).id then 1 else 0) := by
  have hrtx : isRtxCodec c = false := Bool.eq_false_iff.mpr fun h => hnew (.inr h)
  rw [dynamicCodecs_filter_cons, Nat.add_right_comm] at h
  simpa only [hrtx, true_and] using h

theorem addCodec_ready (h : s.Ready (dynamicCodecs ((c :: cs).filter (!isRtxCodec ·)) + n)) :
    (addCodec s c).Ready (dynamicCodecs (cs.filter (!isRtxCodec ·)) + n) := by
  by_cases hpass : PassedOver s c
  · rw [addCodec_of_passedOver hpass]
    refine ⟨h.budget.mono ?_, h.inUse⟩
    rw [dynamicCodecs_filter_cons]
    omega
  · have hready := ready_cons h hpass
    rw [addCodec_of_not_passedOver hpass]
    exact ⟨hready.budget.step, inUse_push hready.budget hready.inUse⟩

/-- Payload types stay apart if a codec that is added is dynamic, or has one that is not in the
list. -/
theorem addCodec_nodup (h : s.Ready (dynamicCodecs ((c :: cs).filter (!isRtxCodec ·)) + n)) :
    (ids (addCodec s c).offered).Nodup ↔ (ids s.offered).Nodup ∧
      (¬ PassedOver s c → Dynamic (codec c).id ∨ (codec c).id ∉ ids s.offered) := by
  by_cases hpass : PassedOver s c
  · rw [addCodec_of_passedOver hpass]
    exact (and_iff_left fun h => absurd hpass h).symm
  · have hready := ready_cons h hpass
    rw [addCodec_of_not_passedOver hpass]
    exact (nodup_push hready.budget hready.inUse).trans
      (and_congr_right' (imp_iff_right hpass).symm)

theorem addCodec_extends (s : OfferState C) (c : C) : s.offered <+: (addCodec s c).offered := by
  by_cases hpass : PassedOver s c
  · rw [addCodec_of_passedOver hpass]
  · rw [addCodec_of_not_passedOver hpass]
    exact List.prefix_append ..

/-- The RTX codecs are the same but for what they refer to. -/
theorem addCodec_rtx (s : OfferState C) (c : C) :
    (addCodec s c).rtx.map (fun x => (x.referenced, x.original, (codec x.codec).id))
      = s.rtx.map fun x => (x.referenced, x.original, (codec x.codec).id) := by
  by_cases hpass : PassedOver s c
  · rw [addCodec_of_passedOver hpass]
  · rw [addCodec_of_not_passedOver hpass, List.map_map]
    refine List.map_congr_left fun x _ => ?_
    rw [Function.comp_apply]
    split <;> simp

theorem addRtxCodec_ready (h : s.Ready (dynamicCodecs ((x :: xs).map (·.codec)) + n)) :
    (addRtxCodec s x).Ready (dynamicCodecs (xs.map (·.codec)) + n) := by
  have hready := budget_cons h.budget
  exact ⟨hready.step, inUse_push hready h.inUse⟩

theorem addRtxCodec_nodup (h : s.Ready (dynamicCodecs ((x :: xs).map (·.codec)) + n)) :
    (ids (addRtxCodec s x).offered).Nodup ↔ (ids s.offered).Nodup ∧
      (Dynamic (codec x.codec).id ∨ (codec x.codec).id ∉ ids s.offered) :=
  nodup_push (budget_cons h.budget) h.inUse

theorem run_addCodec_ready {before after : List C}
    (h : s.Ready (dynamicCodecs ((before ++ after).filter (!isRtxCodec ·)) + n)) :
    (Machine.run addCodec s before).Ready (dynamicCodecs (after.filter (!isRtxCodec ·)) + n) :=
  Machine.run_invariant
    (I := fun (s : OfferState C) cs => s.Ready (dynamicCodecs (cs.filter (!isRtxCodec ·)) + n))
    (fun _ _ _ h => addCodec_ready h) h

theorem run_addCodec_subset (h : s.Ready (dynamicCodecs (cs.filter (!isRtxCodec ·)) + n)) :
    s.used.idSet ⊆ (Machine.run addCodec s cs).used.idSet := by
  induction cs generalizing s with
  | nil => exact Finset.Subset.refl _
  | cons c cs ih =>
    refine Finset.Subset.trans ?_ (ih (addCodec_ready h))
    by_cases hpass : PassedOver s c
    · rw [addCodec_of_passedOver hpass]
    · rw [addCodec_of_not_passedOver hpass]
      exact (ready_cons h hpass).budget.handsOut.subset

theorem run_addCodec_extends (s : OfferState C) (cs : List C) :
    s.offered <+: (Machine.run addCodec s cs).offered := by
  induction cs generalizing s with
  | nil => exact List.prefix_refl _
  | cons c cs ih => exact (addCodec_extends s c).trans (ih (addCodec s c))

theorem run_addCodec_rtx (s : OfferState C) (cs : List C) :
    (Machine.run addCodec s cs).rtx.map (fun x => (x.referenced, x.original, (codec x.codec).id))
      = s.rtx.map fun x => (x.referenced, x.original, (codec x.codec).id) := by
  induction cs generalizing s with
  | nil => rfl
  | cons c cs ih => exact (ih (addCodec s c)).trans (addCodec_rtx s c)

theorem run_addRtxCodec_ready {before after : List (RtxReference C)}
    (h : s.Ready (dynamicCodecs ((before ++ after).map (·.codec)) + n)) :
    (Machine.run addRtxCodec s before).Ready (dynamicCodecs (after.map (·.codec)) + n) :=
  Machine.run_invariant
    (I := fun (s : OfferState C) (xs : List (RtxReference C)) =>
      s.Ready (dynamicCodecs (xs.map (·.codec)) + n))
    (fun _ _ _ h => addRtxCodec_ready h) h

theorem run_addRtxCodec_subset (h : s.Ready (dynamicCodecs (xs.map (·.codec)) + n)) :
    s.used.idSet ⊆ (Machine.run addRtxCodec s xs).used.idSet := by
  induction xs generalizing s with
  | nil => exact Finset.Subset.refl _
  | cons x xs ih =>
    exact (budget_cons h.budget).handsOut.subset.trans (ih (addRtxCodec_ready h))

theorem run_addRtxCodec_extends (s : OfferState C) (xs : List (RtxReference C)) :
    s.offered <+: (Machine.run addRtxCodec s xs).offered := by
  induction xs generalizing s with
  | nil => exact List.prefix_refl _
  | cons x xs ih => exact (List.prefix_append ..).trans (ih (addRtxCodec s x))

/-- Each RTX codec gets the payload type that is handed out at its turn. -/
theorem mem_run_addRtxCodec {x' : RtxReference C} :
    x' ∈ (Machine.run addRtxCodec s xs).rtx ↔ x' ∈ s.rtx ∨ ∃ before x after,
      xs = before ++ x :: after ∧ x' = { x with
        codec := setId x.codec
          ((Machine.run addRtxCodec s before).used.findAndSetIdUsed (codec x.codec).id).2 } := by
  induction xs generalizing s with
  | nil =>
    refine (or_iff_left fun ⟨before, x, after, h, _⟩ => ?_).symm
    exact List.append_ne_nil_of_right_ne_nil _ (List.cons_ne_nil _ _) h.symm
  | cons y xs ih =>
    refine ih.trans ?_
    have hrtx : (addRtxCodec s y).rtx = s.rtx ++ [{ y with
        codec := setId y.codec (s.used.findAndSetIdUsed (codec y.codec).id).2 }] := rfl
    rw [hrtx, List.mem_append, List.mem_singleton, or_assoc]
    refine or_congr_right ⟨?_, ?_⟩
    · rintro (rfl | ⟨before, x, after, rfl, rfl⟩)
      · exact ⟨[], y, xs, rfl, rfl⟩
      · exact ⟨y :: before, x, after, rfl, rfl⟩
    · rintro ⟨before, x, after, heq, rfl⟩
      cases before with
      | nil =>
        obtain ⟨rfl, -⟩ := List.cons.inj heq
        exact .inl rfl
      | cons z before =>
        obtain ⟨rfl, htail⟩ := List.cons.inj heq
        exact .inr ⟨before, x, after, htail, rfl⟩

theorem run_addRtxCodec_originals (s : OfferState C) (xs : List (RtxReference C)) :
    (Machine.run addRtxCodec s xs).rtx.map (fun x => (x.referenced, x.original))
      = (s.rtx ++ xs).map fun x => (x.referenced, x.original) := by
  induction xs generalizing s with
  | nil => rw [List.append_nil]; rfl
  | cons x xs ih => exact (ih (addRtxCodec s x)).trans (by simp [addRtxCodec])

end

/-! ## Where an RTX codec refers to -/

/-- The new RTX codecs under a payload type, and what they refer to now. -/
def referring (id : Int) (rtx : List (RtxReference C)) : List (C × Option Int) :=
  (rtx.filter (·.referenced = id)).map fun x => (x.original, associated x.codec)

section

variable {s : OfferState C} {c : C} {id : Int}

theorem referring_addCodec_of_ne (h : isRtxCodec c = true ∨ (codec c).id ≠ id) :
    referring id (addCodec s c).rtx = referring id s.rtx := by
  by_cases hpass : PassedOver s c
  · rw [addCodec_of_passedOver hpass]
  · have hne : (codec c).id ≠ id := h.resolve_left fun hrtx => hpass (.inr hrtx)
    rw [addCodec_of_not_passedOver hpass, referring, referring, List.filter_map, List.map_map]
    have hsame : ∀ x : RtxReference C, (if x.referenced = (codec c).id then
        { x with codec := setApt x.codec (toStringInt (s.used.findAndSetIdUsed (codec c).id).2) }
        else x).referenced = x.referenced := fun x => by split <;> rfl
    simp only [Function.comp_def, hsame]
    refine List.map_congr_left fun x hx => ?_
    have hx : x.referenced = id := of_decide_eq_true (List.mem_filter.mp hx).2
    rw [if_neg fun heq => hne (heq.symm.trans hx)]

theorem referring_run_of_ne {cs : List C} (h : ∀ c ∈ cs, isRtxCodec c = true ∨ (codec c).id ≠ id) :
    referring id (Machine.run addCodec s cs).rtx = referring id s.rtx := by
  induction cs generalizing s with
  | nil => rfl
  | cons c cs ih =>
    calc referring id (Machine.run addCodec (addCodec s c) cs).rtx
        = referring id (addCodec s c).rtx := ih fun c' hc' => h c' (List.mem_cons_of_mem _ hc')
      _ = referring id s.rtx := referring_addCodec_of_ne (h c List.mem_cons_self)

/-- The codec that they refer to is added under a new payload type. -/
theorem referring_addCodec_self (h : ¬ PassedOver s c)
    (hint : InInt (s.used.findAndSetIdUsed (codec c).id).2) :
    referring (codec c).id (addCodec s c).rtx = (referring (codec c).id s.rtx).map fun a =>
      (a.1, some (s.used.findAndSetIdUsed (codec c).id).2) := by
  rw [addCodec_of_not_passedOver h]
  induction s.rtx with
  | nil => rfl
  | cons x rtx ih =>
    rw [referring, referring] at ih ⊢
    by_cases hx : x.referenced = (codec c).id
    · simpa [hx, fromStringInt_toStringInt hint] using ih
    · simpa [hx] using ih

theorem referring_addRtxCodec (id : Int) (s : OfferState C) (x : RtxReference C) :
    referring id (addRtxCodec s x).rtx = referring id (s.rtx ++ [x]) := by
  simp [referring, addRtxCodec, List.filter_append, List.filter_cons, apply_ite]

theorem referring_run_addRtxCodec (s : OfferState C) (xs : List (RtxReference C)) :
    referring id (Machine.run addRtxCodec s xs).rtx = referring id (s.rtx ++ xs) := by
  induction xs generalizing s with
  | nil => rw [List.append_nil]; rfl
  | cons x xs ih =>
    have hhead := referring_addRtxCodec id s x
    calc referring id (Machine.run addRtxCodec (addRtxCodec s x) xs).rtx
        = referring id ((addRtxCodec s x).rtx ++ xs) := ih _
      _ = referring id (s.rtx ++ x :: xs) := by
          simp only [referring, List.filter_append, List.map_append] at hhead ⊢
          rw [hhead, List.append_assoc, ← List.map_append, ← List.filter_append]
          rfl

end

end

end PerchWebrtc.Session
