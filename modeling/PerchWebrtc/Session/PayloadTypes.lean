import PerchWebrtc.Session.CodecsToOffer
import Mathlib.Data.List.Nodup

/-!
# The payload types of a list of codecs

In a list that `NegotiateCodecs` or `GetCodecsToOffer` makes, payload types are to be distinct,
and an RTX codec is to refer to what its codec has become.

* `negotiatedKept_iff`: for which lists `NegotiateCodecs` does so;
* `offerKept_iff`: when `FindCodecsToOffer` does so;
* `payloadTypesKept_iff`: both, for all media.
-/

namespace PerchWebrtc.Session

open CodecType (codec withCodec isMatch)
open Framework (InInt)

section

variable {C : Type} [CodecType C]

/-! ## Answers -/

/-- A codec of ours and one of theirs make a codec of the answer. -/
def Keeps (ours theirs : C) : Prop :=
  isMatch ours theirs = true ∧ (isRtxCodec ours = true →
    ((codec theirs).getParam kCodecParamAssociatedPayloadType).isSome = true)

instance (ours theirs : C) : Decidable (Keeps ours theirs) := inferInstanceAs (Decidable (_ ∧ _))

/-- What `negotiateOne` makes, for a codec that is RTX and one that is not. -/
theorem negotiateOne_of_keeps {ours theirs : C} (h : Keeps ours theirs) :
    ∃ y, negotiateOne ours theirs = some y ∧ (codec y).id = (codec theirs).id ∧
      isRtxCodec y = isRtxCodec ours ∧
      (isRtxCodec ours = true → associated y = associated theirs) := by
  obtain ⟨hmatch, hapt⟩ := h
  unfold negotiateOne isRtxCodec at *
  rw [if_pos hmatch]
  dsimp only
  by_cases hrtx :
    stricmpEq ((codec ours).intersectFeedbackParams (codec theirs)).name kRtxCodecName = true
  · obtain ⟨value, hvalue⟩ := Option.isSome_iff_exists.mp (hapt hrtx)
    rw [if_pos hrtx, hvalue]
    refine ⟨_, rfl, ?_, ?_, fun _ => ?_⟩
    · rw [CodecType.codec_withCodec]
    · rw [CodecType.codec_withCodec]
      rfl
    · rw [associated, associated, hvalue, CodecType.codec_withCodec]
      exact congrArg (Option.bind · fromStringInt) (Codec.getParam_setParam ..)
  · rw [if_neg hrtx]
    refine ⟨_, rfl, ?_, ?_, fun h => absurd h hrtx⟩ <;> rw [CodecType.codec_withCodec]
    rfl

theorem negotiateOne_of_not_keeps {ours theirs : C} (h : ¬ Keeps ours theirs) :
    negotiateOne ours theirs = none := by
  unfold negotiateOne
  split
  · rename_i hmatch
    dsimp only
    split
    · rename_i hrtx
      split
      · rfl
      · rename_i value hvalue
        exact absurd ⟨hmatch, fun _ => Option.isSome_of_eq_some hvalue⟩ h
    · rename_i hrtx
      exact absurd ⟨hmatch, fun h => absurd h hrtx⟩ h
  · rfl

theorem keeps_iff {ours theirs : C} :
    Keeps ours theirs ↔ ∃ y, negotiateOne ours theirs = some y := by
  refine ⟨fun h => ?_, fun ⟨y, hy⟩ => ?_⟩
  · obtain ⟨y, hy, -⟩ := negotiateOne_of_keeps h
    exact ⟨y, hy⟩
  · by_contra h
    rw [negotiateOne_of_not_keeps h] at hy
    exact Option.some_ne_none y hy.symm

theorem negotiateOne_spec {ours theirs y : C} (h : negotiateOne ours theirs = some y) :
    (codec y).id = (codec theirs).id ∧ isRtxCodec y = isRtxCodec ours ∧
      (isRtxCodec ours = true → associated y = associated theirs) := by
  obtain ⟨y', hy', hspec⟩ := negotiateOne_of_keeps (keeps_iff.mpr ⟨y, h⟩)
  rwa [← Option.some.inj (h.symm.trans hy')] at hspec

/-- A codec of the answer that one of the offer has become. -/
def Becomes (ours : List C) (theirs y : C) : Prop := ∃ c ∈ ours, negotiateOne c theirs = some y

/-- The codecs of an answer. -/
structure NegotiatedKept (ours offered : List C) : Prop where
  nodup : (ids (negotiateCodecs ours offered)).Nodup
  rtx : ∀ t ∈ offered, ∀ y, Becomes ours t y → isRtxCodec y = true →
    ∀ d ∈ offered, associated t = some (codec d).id →
      ∃ y', Becomes ours d y' ∧ associated y = some (codec y').id

structure NegotiatedKeptWhen (ours offered : List C) : Prop where
  nodup : ours.Pairwise fun c c' => ∀ t ∈ offered, ¬ (Keeps c t ∧ Keeps c' t)
  rtx : ∀ c ∈ ours, ∀ t ∈ offered, Keeps c t → isRtxCodec c = true →
    ∀ d ∈ offered, associated t = some (codec d).id → ∃ c' ∈ ours, Keeps c' d

theorem ids_filterMap_negotiateOne (ours : C) (offered : List C) :
    ids (offered.filterMap (negotiateOne ours)) = ids (offered.filter (Keeps ours ·)) := by
  induction offered with
  | nil => rfl
  | cons t offered ih =>
    by_cases hkeeps : Keeps ours t
    · obtain ⟨y, hy, hid, -⟩ := negotiateOne_of_keeps hkeeps
      rw [List.filterMap_cons_some hy, List.filter_cons, if_pos (decide_eq_true hkeeps)]
      exact congrArg₂ List.cons hid ih
    · rw [List.filterMap_cons_none (negotiateOne_of_not_keeps hkeeps),
        List.filter_cons,
        if_neg (mt of_decide_eq_true hkeeps), ih]

theorem ids_negotiateCodecs (ours offered : List C) :
    ids (negotiateCodecs ours offered) = ours.flatMap fun c => ids (offered.filter (Keeps c ·)) := by
  rw [ids, negotiateCodecs, List.map_flatMap]
  exact congrArg (ours.flatMap ·) (funext fun c => ids_filterMap_negotiateOne c offered)

/-- Two codecs of ours give the same payload type exactly if both keep one codec of theirs. -/
theorem disjoint_kept_iff {offered : List C} (h : (ids offered).Nodup) (c c' : C) :
    List.Disjoint (ids (offered.filter (Keeps c ·))) (ids (offered.filter (Keeps c' ·))) ↔
      ∀ t ∈ offered, ¬ (Keeps c t ∧ Keeps c' t) := by
  constructor
  · rintro hdisj t ht ⟨hc, hc'⟩
    refine hdisj (a := (codec t).id) ?_ ?_
    · exact List.mem_map_of_mem (List.mem_filter.mpr ⟨ht, decide_eq_true hc⟩)
    · exact List.mem_map_of_mem (List.mem_filter.mpr ⟨ht, decide_eq_true hc'⟩)
  · intro hnot id hid hid'
    obtain ⟨t, ht, rfl⟩ := List.mem_map.mp hid
    obtain ⟨t', ht', heq⟩ := List.mem_map.mp hid'
    obtain ⟨htmem, hkeeps⟩ := List.mem_filter.mp ht
    obtain ⟨htmem', hkeeps'⟩ := List.mem_filter.mp ht'
    obtain rfl := List.inj_on_of_nodup_map h htmem' htmem heq
    exact hnot t' htmem ⟨of_decide_eq_true hkeeps, of_decide_eq_true hkeeps'⟩

theorem nodup_negotiateCodecs_iff {ours offered : List C} (h : (ids offered).Nodup) :
    (ids (negotiateCodecs ours offered)).Nodup ↔
      ours.Pairwise fun c c' => ∀ t ∈ offered, ¬ (Keeps c t ∧ Keeps c' t) := by
  have hsub : ∀ c ∈ ours, (ids (offered.filter (Keeps c ·))).Nodup := fun c _ =>
    h.sublist (List.filter_sublist.map _)
  rw [ids_negotiateCodecs, List.nodup_flatMap, and_iff_right hsub]
  exact List.Pairwise.iff fun {c c'} => disjoint_kept_iff h c c'

/-- An RTX codec of the answer refers to a payload type of the answer exactly if the codec of
the offer with this payload type is kept. -/
theorem negotiatedKept_iff {ours offered : List C} (h : (ids offered).Nodup) :
    NegotiatedKept ours offered ↔ NegotiatedKeptWhen ours offered := by
  constructor
  · rintro ⟨hnodup, hrtx⟩
    refine ⟨(nodup_negotiateCodecs_iff h).mp hnodup, fun c hc t ht hkeeps hisRtx d hd hrefers => ?_⟩
    obtain ⟨y, hy, -, hname, -⟩ := negotiateOne_of_keeps hkeeps
    obtain ⟨y', ⟨c', hc', hy'⟩, -⟩ := hrtx t ht y ⟨c, hc, hy⟩ (hname.trans hisRtx) d hd hrefers
    exact ⟨c', hc', keeps_iff.mpr ⟨y', hy'⟩⟩
  · rintro ⟨hpairwise, hrtx⟩
    refine ⟨(nodup_negotiateCodecs_iff h).mpr hpairwise, ?_⟩
    rintro t ht y ⟨c, hc, hy⟩ hisRtx d hd hrefers
    obtain ⟨-, hname, happ⟩ := negotiateOne_spec hy
    have hisRtx' : isRtxCodec c = true := hname.symm.trans hisRtx
    obtain ⟨c', hc', hkeeps⟩ := hrtx c hc t ht (keeps_iff.mpr ⟨y, hy⟩) hisRtx' d hd hrefers
    obtain ⟨y', hy', hid, -⟩ := negotiateOne_of_keeps hkeeps
    refine ⟨y', ⟨c', hc', hy'⟩, ?_⟩
    rw [happ hisRtx', hid, hrefers]

/-! ## Offers -/

/-- A codec matches itself under another payload type, if its own is not static. -/
class LawfulCodecType (C : Type) [CodecType C] : Prop where
  isMatch_setId (c : C) (id : Int) :
    ((codec c).id ≤ kMaxStaticPayloadId → id = (codec c).id) → isMatch (setId c id) c = true

/-- The codec of the offer that one of ours has become: the codec that was added for it, or else
the first one that it was passed over for. -/
def StandsFor (current : List C) (offer : OfferState C) (d y : C) : Prop :=
  if isRtxCodec d = true then
    (∃ x ∈ offer.rtx, x.original = d ∧ y = x.codec) ∨
      (∀ x ∈ offer.rtx, x.original ≠ d) ∧ current.find? (isMatch · d) = some y
  else offer.offered.find? (isMatch · d) = some y

/-- The codecs of an offer, behind those of the current description. -/
structure OfferKept (ours current : List C) (offer : OfferState C) : Prop where
  nodup : (ids offer.offered).Nodup
  rtx : ∀ x ∈ offer.rtx, ∀ d ∈ ours, associated x.original = some (codec d).id →
    ∃ y, StandsFor current offer d y ∧ associated x.codec = some (codec y).id

/-- A new RTX codec refers to the codec. -/
def Referenced (rtx : List (RtxReference C)) (c : C) : Prop :=
  ∃ x ∈ rtx, associated x.original = some (codec c).id

/-- The turn of a codec of ours in the loop over those that are not RTX. -/
def KeepsCodec (rtx : List (RtxReference C)) (s : OfferState C) (c : C) : Prop :=
  (¬ PassedOver s c → Dynamic (codec c).id ∨ (codec c).id ∉ ids s.offered) ∧
    (isRtxCodec c = false → Referenced rtx c →
      ∀ y ∈ s.offered.find? (isMatch · c), (codec y).id = (codec c).id)

/-- The turn of a new RTX codec. -/
def KeepsRtxCodec (rtx : List (RtxReference C)) (s : OfferState C) (x : RtxReference C) : Prop :=
  (Dynamic (codec x.codec).id ∨ (codec x.codec).id ∉ ids s.offered) ∧
    (Referenced rtx x.original → (codec x.codec).id ∉ s.used.idSet)

structure OfferKeptWhen (ours current : List C) (used : UsedIds) : Prop where
  codecs : Machine.Along addCodec (KeepsCodec (newRtxCodecs ours current))
    ⟨current, used, newRtxCodecs ours current⟩ ours
  rtx : Machine.Along addRtxCodec (KeepsRtxCodec (newRtxCodecs ours current))
    { addCodecs ours current used ours with rtx := [] } (addCodecs ours current used ours).rtx
  /-- An RTX codec of ours that is not new, and that a new one refers to. -/
  known : ∀ d ∈ ours, isRtxCodec d = true → Referenced (newRtxCodecs ours current) d →
    (∀ x ∈ newRtxCodecs ours current, x.original ≠ d) →
      ∃ y ∈ current.find? (isMatch · d), (codec y).id = (codec d).id

section

variable {ours current : List C} {used : UsedIds} {n : Nat}

/-- Before the loops. -/
def startState (ours current : List C) (used : UsedIds) : OfferState C :=
  ⟨current, used, newRtxCodecs ours current⟩

/-- Before the last loop. -/
def rtxState (ours current : List C) (used : UsedIds) : OfferState C :=
  { addCodecs ours current used ours with rtx := [] }

theorem findCodecsToOffer_eq (ours current : List C) (used : UsedIds) :
    findCodecsToOffer ours current used = Machine.run addRtxCodec (rtxState ours current used)
      (addCodecs ours current used ours).rtx := rfl

section

variable (hbudget : Budget used (dynamicCodecs ours + n)) (hused : InUse used current)

include hbudget hused

theorem startState_ready :
    (startState ours current used).Ready (dynamicCodecs (ours.filter (!isRtxCodec ·)) +
      (dynamicCodecs ((newRtxCodecs ours current).map (·.codec)) + n)) := by
  have hle := dynamicCodecs_new_le ours current
  exact ⟨hbudget.mono (by omega), hused⟩

theorem rtxState_ready :
    (rtxState ours current used).Ready
      (dynamicCodecs ((addCodecs ours current used ours).rtx.map (·.codec)) + n) := by
  have hend : (addCodecs ours current used ours).Ready
      (dynamicCodecs (([] : List C).filter (!isRtxCodec ·)) +
        (dynamicCodecs ((newRtxCodecs ours current).map (·.codec)) + n)) :=
    run_addCodec_ready (by rw [List.append_nil]; exact startState_ready hbudget hused)
  have hids : ids ((addCodecs ours current used ours).rtx.map (·.codec))
      = ids ((newRtxCodecs ours current).map (·.codec)) := by
    have hrtx := congrArg (List.map (·.2.2)) (run_addCodec_rtx (startState ours current used) ours)
    rw [List.map_map, List.map_map] at hrtx
    rw [ids, ids, List.map_map, List.map_map]
    exact hrtx
  rw [dynamicCodecs, hids]
  exact ⟨hend.budget.mono (Nat.le_add_left ..), hend.inUse⟩

theorem findCodecsToOffer_budget :
    Budget (findCodecsToOffer ours current used).used n := by
  have hready := rtxState_ready hbudget hused
  have hend : (findCodecsToOffer ours current used).Ready
      (dynamicCodecs (([] : List (RtxReference C)).map (·.codec)) + n) :=
    run_addRtxCodec_ready (by rw [List.append_nil]; exact hready)
  exact hend.budget.mono (Nat.le_add_left ..)

theorem findCodecsToOffer_subset :
    used.idSet ⊆ (findCodecsToOffer ours current used).used.idSet :=
  (run_addCodec_subset (startState_ready hbudget hused)).trans
    (run_addRtxCodec_subset (rtxState_ready hbudget hused))

/-- Payload types are distinct exactly if each codec that is added is dynamic, or has one that
is not in the list. -/
theorem nodup_findCodecsToOffer :
    (ids (findCodecsToOffer ours current used).offered).Nodup ↔
      ((ids current).Nodup ∧ Machine.Along addCodec (fun s c => ¬ PassedOver s c →
        Dynamic (codec c).id ∨ (codec c).id ∉ ids s.offered) (startState ours current used) ours) ∧
      Machine.Along addRtxCodec (fun s x =>
        Dynamic (codec x.codec).id ∨ (codec x.codec).id ∉ ids s.offered)
        (rtxState ours current used) (addCodecs ours current used ours).rtx := by
  have hcodecs := Machine.run_iff_along
    (I := fun (s : OfferState C) cs => s.Ready (dynamicCodecs (cs.filter (!isRtxCodec ·)) +
      (dynamicCodecs ((newRtxCodecs ours current).map (·.codec)) + n)))
    (Q := fun s => (ids s.offered).Nodup) (fun _ _ _ h => addCodec_ready h)
    (fun _ _ _ h => addCodec_nodup h) (startState_ready hbudget hused)
  have hrtx := Machine.run_iff_along
    (I := fun (s : OfferState C) (xs : List (RtxReference C)) =>
      s.Ready (dynamicCodecs (xs.map (·.codec)) + n))
    (Q := fun s => (ids s.offered).Nodup) (fun _ _ _ h => addRtxCodec_ready h)
    (fun _ _ _ h => addRtxCodec_nodup h) (rtxState_ready hbudget hused)
  exact hrtx.trans (and_congr_left' hcodecs)

end

/-! ### What new RTX codecs refer to -/

/-- A new RTX codec refers to the codec that it did among ours. -/
theorem referring_newRtxCodecs {a : C × Option Int} {id : Int}
    (ha : a ∈ referring id (newRtxCodecs ours current)) (h : associated a.1 = some id) :
    a.2 = some id := by
  obtain ⟨x, hx, rfl⟩ := List.mem_map.mp ha
  obtain ⟨hx', -, -⟩ := mem_newRtxCodecs (List.mem_filter.mp hx).1
  obtain ⟨-, hcodec, -⟩ := rtxReference_of_associated h
  rw [hx', hcodec]
  exact h

theorem referenced_iff {c : C} :
    Referenced (newRtxCodecs ours current) c ↔
      ∃ a ∈ referring (codec c).id (newRtxCodecs ours current), associated a.1 = some (codec c).id := by
  constructor
  · rintro ⟨x, hx, h⟩
    refine ⟨_, List.mem_map_of_mem (List.mem_filter.mpr ⟨hx, decide_eq_true ?_⟩), h⟩
    rw [(mem_newRtxCodecs hx).1]
    exact (rtxReference_of_associated h).1
  · rintro ⟨a, ha, h⟩
    obtain ⟨x, hx, rfl⟩ := List.mem_map.mp ha
    exact ⟨x, (List.mem_filter.mp hx).1, h⟩

theorem findCodecsToOffer_originals (ours current : List C) (used : UsedIds) :
    (findCodecsToOffer ours current used).rtx.map (fun x => (x.referenced, x.original))
      = (newRtxCodecs ours current).map fun x => (x.referenced, x.original) := by
  have hcodecs := congrArg (List.map fun a => (a.1, a.2.1))
    (run_addCodec_rtx (startState ours current used) ours)
  rw [List.map_map, List.map_map] at hcodecs
  exact (run_addRtxCodec_originals (rtxState ours current used) _).trans hcodecs

/-- What the new RTX codecs with a reference to `d` refer to, by the list of those that do. -/
theorem rtx_iff_referring {d : C} {P : Option Int → Prop} :
    (∀ x ∈ (findCodecsToOffer ours current used).rtx, associated x.original = some (codec d).id →
      P (associated x.codec)) ↔
    ∀ a ∈ referring (codec d).id (findCodecsToOffer ours current used).rtx,
      associated a.1 = some (codec d).id → P a.2 := by
  constructor
  · intro h a ha hd
    obtain ⟨x, hx, rfl⟩ := List.mem_map.mp ha
    exact h x (List.mem_filter.mp hx).1 hd
  · intro h x hx hd
    refine h _ (List.mem_map_of_mem (List.mem_filter.mpr ⟨hx, decide_eq_true ?_⟩)) hd
    obtain ⟨x', hx', heq⟩ := List.mem_map.mp
      (findCodecsToOffer_originals ours current used ▸ List.mem_map_of_mem hx)
    obtain ⟨href, horiginal⟩ := Prod.mk.inj heq
    rw [← href, (mem_newRtxCodecs hx').1, horiginal]
    exact (rtxReference_of_associated hd).1

theorem findMatchingCodec_iff {codecs : List C} {c : C} :
    findMatchingCodec codecs c = true ↔ (codecs.find? (isMatch · c)).isSome = true := by
  rw [findMatchingCodec, List.any_eq_true, List.find?_isSome]

section Turn

variable (current used) {before after : List C} {d : C} (hsplit : ours = before ++ d :: after)

include hsplit

theorem addCodecs_split :
    addCodecs ours current used ours = Machine.run addCodec
      (addCodec (Machine.run addCodec (startState ours current used) before) d) after := by
  calc addCodecs ours current used ours
      = Machine.run addCodec (startState ours current used) (before ++ d :: after) :=
        congrArg (Machine.run addCodec _) hsplit
    _ = _ := Machine.run_append_cons ..

/-- What is in the list after the turn of a codec stays at the front of it. -/
theorem turn_extends :
    (addCodec (Machine.run addCodec (startState ours current used) before) d).offered <+:
      (findCodecsToOffer ours current used).offered := by
  have hcodecs : (addCodec (Machine.run addCodec (startState ours current used) before) d).offered
      <+: (addCodecs ours current used ours).offered := by
    rw [addCodecs_split current used hsplit]
    exact run_addCodec_extends ..
  exact hcodecs.trans (run_addRtxCodec_extends (rtxState ours current used) _)

theorem referring_turn (hours : (ids ours).Nodup) :
    referring (codec d).id (findCodecsToOffer ours current used).rtx = referring (codec d).id
      (addCodec (Machine.run addCodec (startState ours current used) before) d).rtx ∧
    referring (codec d).id (Machine.run addCodec (startState ours current used) before).rtx
      = referring (codec d).id (newRtxCodecs ours current) := by
  have hnot : (codec d).id ∉ ids before ++ ids after := by
    rw [hsplit, ids, List.map_append, List.map_cons, List.nodup_middle] at hours
    exact (List.nodup_cons.mp hours).1
  have hbefore : ∀ c ∈ before, (codec c).id ≠ (codec d).id := fun c hc heq =>
    hnot (List.mem_append_left _ (heq ▸ List.mem_map_of_mem hc))
  have hafter : ∀ c ∈ after, (codec c).id ≠ (codec d).id := fun c hc heq =>
    hnot (List.mem_append_right _ (heq ▸ List.mem_map_of_mem hc))
  refine ⟨?_, referring_run_of_ne fun c hc => .inr (hbefore c hc)⟩
  rw [findCodecsToOffer_eq, referring_run_addRtxCodec]
  calc referring (codec d).id (addCodecs ours current used ours).rtx
      = referring (codec d).id (Machine.run addCodec (addCodec
          (Machine.run addCodec (startState ours current used) before) d) after).rtx := by
        rw [addCodecs_split current used hsplit]
    _ = _ := referring_run_of_ne fun c hc => .inr (hafter c hc)

/-- A codec that is passed over: an RTX codec refers to the first codec that matches it exactly
if this has its payload type. -/
theorem rtx_iff_of_match (hours : (ids ours).Nodup) (hd : isRtxCodec d = false) {y : C}
    (hy : (Machine.run addCodec (startState ours current used) before).offered.find?
      (isMatch · d) = some y) :
    (∀ x ∈ (findCodecsToOffer ours current used).rtx, associated x.original = some (codec d).id →
      ∃ y, StandsFor current (findCodecsToOffer ours current used) d y ∧
        associated x.codec = some (codec y).id) ↔
      (Referenced (newRtxCodecs ours current) d → (codec y).id = (codec d).id) := by
  have hpass : PassedOver (Machine.run addCodec (startState ours current used) before) d :=
    .inl (findMatchingCodec_iff.mpr (Option.isSome_of_eq_some hy))
  obtain ⟨hafter, hbefore⟩ := referring_turn current used hsplit hours
  have hextends := turn_extends current used hsplit
  rw [addCodec_of_passedOver hpass] at hafter hextends
  have hstands : ∀ y', StandsFor current (findCodecsToOffer ours current used) d y' ↔ y = y' := by
    intro y'
    rw [StandsFor, if_neg (by simp [hd]), hextends.find?_eq_some hy, Option.some_inj]
  rw [rtx_iff_referring (P := fun a => ∃ y, StandsFor current _ d y ∧ a = some (codec y).id),
    hafter, hbefore, referenced_iff]
  simp only [hstands, exists_eq_left']
  constructor
  · rintro h ⟨a, ha, hrefers⟩
    exact (Option.some.inj ((referring_newRtxCodecs ha hrefers).symm.trans (h a ha hrefers))).symm
  · intro h a ha hrefers
    rw [referring_newRtxCodecs ha hrefers, h ⟨a, ha, hrefers⟩]

/-- A codec that is added: RTX codecs refer to its new payload type. -/
theorem rtx_of_added [LawfulCodecType C] (hours : (ids ours).Nodup)
    (hbudget : Budget used (dynamicCodecs ours + n)) (hused : InUse used current)
    (hnew : ¬ PassedOver (Machine.run addCodec (startState ours current used) before) d) :
    ∀ x ∈ (findCodecsToOffer ours current used).rtx, associated x.original = some (codec d).id →
      ∃ y, StandsFor current (findCodecsToOffer ours current used) d y ∧
        associated x.codec = some (codec y).id := by
  have hbefore : (Machine.run addCodec (startState ours current used) before).Ready
      (dynamicCodecs ((d :: after).filter (!isRtxCodec ·)) +
        (dynamicCodecs ((newRtxCodecs ours current).map (·.codec)) + n)) :=
    run_addCodec_ready (by rw [← hsplit]; exact startState_ready hbudget hused)
  have hready := ready_cons hbefore hnew
  have hout := hready.budget.handsOut
  obtain ⟨hafter, -⟩ := referring_turn current used hsplit hours
  have hextends := turn_extends current used hsplit
  generalize Machine.run addCodec (startState ours current used) before = s at *
  rw [addCodec_of_not_passedOver hnew] at hextends
  have hnone : s.offered.find? (isMatch · d) = none :=
    Option.not_isSome_iff_eq_none.mp fun h => hnew (.inl (findMatchingCodec_iff.mpr h))
  have hmatch : isMatch (setId d (s.used.findAndSetIdUsed (codec d).id).2) d = true := by
    refine LawfulCodecType.isMatch_setId d _ fun hstatic => (hout.outside fun hin => ?_).1
    exact absurd (((hready.budget.inRange _).mp hin).1.trans hstatic) (by decide)
  have hstands : StandsFor current (findCodecsToOffer ours current used) d
      (setId d (s.used.findAndSetIdUsed (codec d).id).2) := by
    rw [StandsFor, if_neg fun hrtx => hnew (.inr hrtx)]
    refine hextends.find?_eq_some ?_
    rw [List.find?_append, hnone, Option.none_or, List.find?_singleton, if_pos hmatch]
  refine (rtx_iff_referring (P := fun a => ∃ y, StandsFor current _ d y ∧
    a = some (codec y).id)).mpr fun a ha hrefers => ⟨_, hstands, ?_⟩
  have hint : InInt (s.used.findAndSetIdUsed (codec d).id).2 :=
    hready.budget.inInt (rtxReference_of_associated hrefers).2.2
  rw [hafter, referring_addCodec_self hnew hint] at ha
  obtain ⟨a', -, rfl⟩ := List.mem_map.mp ha
  rw [codec_setId]

end Turn

/-- The RTX codecs that are added, and the payload types handed out for them. -/
theorem mem_addCodecs_rtx {x : RtxReference C} (h : x ∈ (addCodecs ours current used ours).rtx) :
    (codec x.codec).id = (codec x.original).id ∧
      ∃ x' ∈ newRtxCodecs ours current, x'.original = x.original := by
  have hmem := List.mem_map_of_mem (f := fun x => (x.referenced, x.original, (codec x.codec).id)) h
  rw [addCodecs, ← Machine.run, run_addCodec_rtx] at hmem
  obtain ⟨x', hx', heq⟩ := List.mem_map.mp hmem
  obtain ⟨-, heq⟩ := Prod.mk.inj heq
  obtain ⟨horiginal, hid⟩ := Prod.mk.inj heq
  refine ⟨?_, x', hx', horiginal⟩
  rw [← hid, ← horiginal, (mem_newRtxCodecs hx').1, rtxReference_id, rtxReference_original]

theorem originals_nodup (hours : (ids ours).Nodup) :
    ((findCodecsToOffer ours current used).rtx.map (·.original)).Nodup := by
  have hmap := congrArg (List.map (·.2)) (findCodecsToOffer_originals ours current used)
  rw [List.map_map, List.map_map] at hmap
  have hnodup : ((newRtxCodecs ours current).map (·.original)).Nodup := newRtxCodecs_nodup hours
  exact (show _ = (newRtxCodecs ours current).map (·.original) from hmap) ▸ hnodup

theorem exists_original_iff {d : C} :
    (∃ x ∈ (findCodecsToOffer ours current used).rtx, x.original = d) ↔
      ∃ x ∈ newRtxCodecs ours current, x.original = d := by
  have hmap := congrArg (List.map (·.2)) (findCodecsToOffer_originals ours current used)
  rw [List.map_map, List.map_map] at hmap
  have hmem : d ∈ (findCodecsToOffer ours current used).rtx.map (·.original) ↔
      d ∈ (newRtxCodecs ours current).map (·.original) := iff_of_eq (congrArg (d ∈ ·) hmap)
  rwa [List.mem_map, List.mem_map] at hmem

theorem mem_findCodecsToOffer_rtx {x' : RtxReference C} :
    x' ∈ (findCodecsToOffer ours current used).rtx ↔ ∃ before x after,
      (addCodecs ours current used ours).rtx = before ++ x :: after ∧ x' = { x with
        codec := setId x.codec ((Machine.run addRtxCodec (rtxState ours current used)
          before).used.findAndSetIdUsed (codec x.codec).id).2 } :=
  (mem_run_addRtxCodec (s := rtxState ours current used)).trans (or_iff_right List.not_mem_nil)

/-- An RTX codec that refers to another one. -/
theorem rtx_iff_of_rtx (hours : (ids ours).Nodup) (hbudget : Budget used (dynamicCodecs ours + n))
    (hused : InUse used current) {d : C} (hmem : d ∈ ours) (hd : isRtxCodec d = true) :
    (∀ x ∈ (findCodecsToOffer ours current used).rtx, associated x.original = some (codec d).id →
      ∃ y, StandsFor current (findCodecsToOffer ours current used) d y ∧
        associated x.codec = some (codec y).id) ↔
      (Referenced (newRtxCodecs ours current) d →
        (∀ before x after, (addCodecs ours current used ours).rtx = before ++ x :: after →
          x.original = d → (codec d).id ∉
            (Machine.run addRtxCodec (rtxState ours current used) before).used.idSet) ∧
        ((∀ x ∈ newRtxCodecs ours current, x.original ≠ d) →
          ∃ y, current.find? (isMatch · d) = some y ∧ (codec y).id = (codec d).id)) := by
  have hreferring : referring (codec d).id (findCodecsToOffer ours current used).rtx
      = referring (codec d).id (newRtxCodecs ours current) := by
    rw [findCodecsToOffer_eq, referring_run_addRtxCodec]
    refine referring_run_of_ne fun c hc => or_iff_not_imp_right.mpr fun heq => ?_
    rwa [List.inj_on_of_nodup_map hours hc hmem (not_not.mp heq)]
  -- the payload type at the turn of an RTX codec
  have hturn : ∀ before x after, (addCodecs ours current used ours).rtx = before ++ x :: after →
      x.original = d →
      (((Machine.run addRtxCodec (rtxState ours current used) before).used.findAndSetIdUsed
        (codec x.codec).id).2 = (codec d).id ↔
      (codec d).id ∉ (Machine.run addRtxCodec (rtxState ours current used) before).used.idSet) := by
    intro before x after hsplit horiginal
    have hready := rtxState_ready hbudget hused
    rw [hsplit] at hready
    have hbudget := (run_addRtxCodec_ready hready).budget
    have hid : (codec x.codec).id = (codec d).id := by
      rw [← horiginal]
      exact (mem_addCodecs_rtx (hsplit ▸ List.mem_append_right _ List.mem_cons_self)).1
    rw [← hid]
    exact (budget_cons hbudget).handsOut.eq_iff hbudget.valid
  have hstands : (∃ y, StandsFor current (findCodecsToOffer ours current used) d y ∧
      (codec y).id = (codec d).id) ↔
      (∀ before x after, (addCodecs ours current used ours).rtx = before ++ x :: after →
        x.original = d → (codec d).id ∉
          (Machine.run addRtxCodec (rtxState ours current used) before).used.idSet) ∧
      ((∀ x ∈ newRtxCodecs ours current, x.original ≠ d) →
        ∃ y, current.find? (isMatch · d) = some y ∧ (codec y).id = (codec d).id) := by
    simp only [StandsFor, if_pos hd]
    constructor
    · rintro ⟨y, ⟨x', hx', horiginal, rfl⟩ | ⟨hnone, hy⟩, hid⟩
      · refine ⟨fun before x after hsplit hx => (hturn before x after hsplit hx).mp ?_,
          fun hnone => ?_⟩
        · have hadded := mem_findCodecsToOffer_rtx.mpr ⟨before, x, after, hsplit, rfl⟩
          have heq := List.inj_on_of_nodup_map (originals_nodup hours) hx' hadded
            (horiginal.trans hx.symm)
          rw [heq, codec_setId] at hid
          exact hid
        · obtain ⟨x₀, hx₀, h⟩ := exists_original_iff.mp ⟨x', hx', horiginal⟩
          exact absurd h (hnone x₀ hx₀)
      · refine ⟨fun before x after hsplit hx => ?_, fun _ => ⟨y, hy, hid⟩⟩
        have hadded := mem_findCodecsToOffer_rtx.mpr ⟨before, x, after, hsplit, rfl⟩
        exact (hnone _ hadded hx).elim
    · rintro ⟨hfree, hknown⟩
      by_cases hnew : ∃ x ∈ (addCodecs ours current used ours).rtx, x.original = d
      · obtain ⟨x, hx, horiginal⟩ := hnew
        obtain ⟨before, after, hsplit⟩ := List.append_of_mem hx
        have hadded := mem_findCodecsToOffer_rtx.mpr ⟨before, x, after, hsplit, rfl⟩
        refine ⟨_, .inl ⟨_, hadded, horiginal, rfl⟩, ?_⟩
        rw [codec_setId]
        exact (hturn before x after hsplit horiginal).mpr (hfree before x after hsplit horiginal)
      · have hnone : ∀ x' ∈ (findCodecsToOffer ours current used).rtx, x'.original ≠ d := by
          rintro _ hx' horiginal
          obtain ⟨before, x, after, hsplit, rfl⟩ := mem_findCodecsToOffer_rtx.mp hx'
          exact hnew ⟨x, hsplit ▸ List.mem_append_right _ List.mem_cons_self, horiginal⟩
        obtain ⟨y, hy, hid⟩ := hknown fun x hx horiginal => by
          obtain ⟨x', hx', h⟩ := exists_original_iff.mpr ⟨x, hx, horiginal⟩
          exact hnone x' hx' h
        exact ⟨y, .inr ⟨hnone, hy⟩, hid⟩
  rw [rtx_iff_referring (P := fun a => ∃ y, StandsFor current _ d y ∧ a = some (codec y).id),
    hreferring, ← hstands, referenced_iff]
  constructor
  · rintro h ⟨a, ha, hrefers⟩
    obtain ⟨y, hy, hid⟩ := h a ha hrefers
    exact ⟨y, hy, (Option.some.inj ((referring_newRtxCodecs ha hrefers).symm.trans hid)).symm⟩
  · intro h a ha hrefers
    obtain ⟨y, hy, hid⟩ := h ⟨a, ha, hrefers⟩
    exact ⟨y, hy, by rw [referring_newRtxCodecs ha hrefers, hid]⟩

/-- When `FindCodecsToOffer` keeps payload types distinct, and what RTX codecs refer to. -/
theorem offerKept_iff [LawfulCodecType C] (hours : (ids ours).Nodup)
    (hcurrent : (ids current).Nodup) (hbudget : Budget used (dynamicCodecs ours + n))
    (hused : InUse used current) :
    OfferKept ours current (findCodecsToOffer ours current used) ↔
      OfferKeptWhen ours current used := by
  have hnodup := nodup_findCodecsToOffer hbudget hused
  rw [and_iff_right hcurrent] at hnodup
  constructor
  · rintro ⟨hdistinct, hrefers⟩
    obtain ⟨hcodecs, hrtx⟩ := hnodup.mp hdistinct
    have hdrefers : ∀ d ∈ ours, ∀ x ∈ (findCodecsToOffer ours current used).rtx,
        associated x.original = some (codec d).id →
        ∃ y, StandsFor current (findCodecsToOffer ours current used) d y ∧
          associated x.codec = some (codec y).id := fun d hd x hx => hrefers x hx d hd
    refine ⟨Machine.along_and.mpr ⟨hcodecs, Machine.along_iff_forall.mpr ?_⟩,
      Machine.along_and.mpr ⟨hrtx, Machine.along_iff_forall.mpr ?_⟩, ?_⟩
    · intro before d after hsplit hd hreferenced y hy
      have hmem : d ∈ ours := hsplit ▸ List.mem_append_right _ List.mem_cons_self
      exact (rtx_iff_of_match current used hsplit hours hd hy).mp (hdrefers d hmem) hreferenced
    · intro before x after hsplit hreferenced
      have hx : x ∈ (addCodecs ours current used ours).rtx :=
        hsplit ▸ List.mem_append_right _ List.mem_cons_self
      obtain ⟨hid, x', hx', horiginal⟩ := mem_addCodecs_rtx hx
      obtain ⟨-, hmem, hd⟩ := mem_newRtxCodecs hx'
      rw [horiginal] at hmem hd
      rw [hid]
      exact ((rtx_iff_of_rtx hours hbudget hused hmem hd).mp (hdrefers _ hmem) hreferenced).1
        before x after hsplit rfl
    · intro d hmem hd hreferenced
      exact ((rtx_iff_of_rtx hours hbudget hused hmem hd).mp (hdrefers d hmem) hreferenced).2
  · rintro ⟨hcodecs, hrtx, hknown⟩
    obtain ⟨hcodecs, hmatched⟩ := Machine.along_and.mp hcodecs
    obtain ⟨hrtx, hfree⟩ := Machine.along_and.mp hrtx
    refine ⟨hnodup.mpr ⟨hcodecs, hrtx⟩, fun x hx d hmem => ?_⟩
    revert x
    by_cases hd : isRtxCodec d = true
    · refine (rtx_iff_of_rtx hours hbudget hused hmem hd).mpr fun hreferenced =>
        ⟨fun before x after hsplit horiginal => ?_, hknown d hmem hd hreferenced⟩
      have hx : x ∈ (addCodecs ours current used ours).rtx :=
        hsplit ▸ List.mem_append_right _ List.mem_cons_self
      have hnot := Machine.along_iff_forall.mp hfree before x after hsplit (horiginal ▸ hreferenced)
      rwa [(mem_addCodecs_rtx hx).1, horiginal] at hnot
    · obtain ⟨before, after, hsplit⟩ := List.append_of_mem hmem
      by_cases hpass : PassedOver (Machine.run addCodec (startState ours current used) before) d
      · obtain ⟨y, hy⟩ := Option.isSome_iff_exists.mp
          (findMatchingCodec_iff.mp (hpass.resolve_right hd))
        exact (rtx_iff_of_match current used hsplit hours (Bool.eq_false_iff.mpr hd) hy).mpr
          fun hreferenced => Machine.along_iff_forall.mp hmatched before d after hsplit
            (Bool.eq_false_iff.mpr hd) hreferenced y hy
      · exact rtx_of_added current used hsplit hours hbudget hused hpass

end

/-! ### The codecs of the current description -/

/-- A codec of the current description and what it has become: an RTX codec still refers to its
codec. -/
def CurrentKept (given current : List C) : Prop :=
  ∀ p ∈ given.zip current, isRtxCodec p.1 = true → ∀ q ∈ given.zip current,
    associated p.1 = some (codec q.1).id → associated p.2 = some (codec q.2).id

/-- The turn of a codec of the current description: if an RTX codec of the list refers to it, its
payload type is not in use. -/
def KeepsCurrent (given : List C) (u : UsedIds) (c : C) : Prop :=
  (∃ r ∈ given, isRtxCodec r = true ∧ associated r = some (codec c).id) → (codec c).id ∉ u.idSet

theorem currentKept_iff {given : List C} {u : UsedIds} {n : Nat}
    (h : Budget u (dynamicCodecs given + n)) :
    CurrentKept given (findAndSetIdsUsed u given).2 ↔
      Machine.Along useCodec (KeepsCurrent given) u given := by
  have hzip := findAndSetIdsUsed_zip u given
  refine Iff.trans ?_ (findAndSetIdsUsed_kept_iff h)
  constructor
  · rintro hkept q hq ⟨r, hr, hrtx, hrefers⟩
    have hfst := List.map_fst_zip (findAndSetIdsUsed_length u given).ge
    obtain ⟨p, hp, rfl⟩ := List.mem_map.mp (hfst ▸ hr)
    have hnew := hkept p hp hrtx q hq hrefers
    obtain ⟨id, hid⟩ := hzip p hp
    rw [hid, associated_setId, hrefers] at hnew
    exact (Option.some.inj hnew).symm
  · intro hkept p hp hrtx q hq hrefers
    have hmem : p.1 ∈ given := (List.of_mem_zip hp).1
    obtain ⟨id, hid⟩ := hzip p hp
    rw [hid, associated_setId, hkept q hq ⟨p.1, hmem, hrtx, hrefers⟩]
    exact hrefers

end

/-! ## All media -/

theorem Codec.matchesCodec_id (c : Codec) (id : Int)
    (h : c.id ≤ kMaxStaticPayloadId → id = c.id) :
    ({ c with id } : Codec).matchesCodec c = true := by
  unfold matchesCodec
  split
  · rename_i hstatic
    exact beq_iff_eq.mpr (h hstatic)
  · exact beq_self_eq_true _

instance : LawfulCodecType AudioCodec where
  isMatch_setId c id h := by
    have hmatch := c.toCodec.matchesCodec_id id h
    simp [isMatch, AudioCodec.matchesCodec, setId, withCodec, codec, hmatch]

instance : LawfulCodecType VideoCodec where
  isMatch_setId c id h := c.toCodec.matchesCodec_id id h

instance : LawfulCodecType DataCodec where
  isMatch_setId c id h := c.toCodec.matchesCodec_id id h

def MediaCodecs.ids : MediaCodecs → List Int
  | .audio codecs => Session.ids codecs
  | .video codecs => Session.ids codecs
  | .data codecs => Session.ids codecs

/-- Our lists, those of the current description and those of an offer, each with distinct payload
types; the dynamic codecs of ours and of the current description are not more than there are
dynamic payload types. -/
structure DistinctPayloadTypes (f : MediaSessionDescriptionFactory)
    (current : Option SessionDescription) (offer : SessionDescription) : Prop where
  audio : (ids f.audioCodecs).Nodup
  video : (ids f.videoCodecs).Nodup
  data : (ids f.dataCodecs).Nodup
  currentAudio : (ids (currentAudioCodecs current)).Nodup
  currentVideo : (ids (currentVideoCodecs current)).Nodup
  currentData : (ids (currentDataCodecs current)).Nodup
  dynamic : dynamicCodecs (currentAudioCodecs current) + dynamicCodecs (currentVideoCodecs current)
    + dynamicCodecs (currentDataCodecs current) + dynamicCodecs f.audioCodecs
    + dynamicCodecs f.videoCodecs + dynamicCodecs f.dataCodecs ≤ 32
  offer : ∀ content ∈ offer.contents, ∀ description ∈ content.description,
    description.codecs.ids.Nodup

/-- The codecs of an answer to a content. -/
def AnswerKept (f : MediaSessionDescriptionFactory) : MediaCodecs → Prop
  | .audio offered => NegotiatedKept f.audioCodecs offered
  | .video offered => NegotiatedKept f.videoCodecs offered
  | .data offered => NegotiatedKept f.dataCodecs offered

def AnswerKeptWhen (f : MediaSessionDescriptionFactory) : MediaCodecs → Prop
  | .audio offered => NegotiatedKeptWhen f.audioCodecs offered
  | .video offered => NegotiatedKeptWhen f.videoCodecs offered
  | .data offered => NegotiatedKeptWhen f.dataCodecs offered

/-- The lists that `GetCodecsToOffer` and `NegotiateCodecs` make. -/
structure PayloadTypesKept (f : MediaSessionDescriptionFactory)
    (current : Option SessionDescription) (offer : SessionDescription) : Prop where
  currentAudio : CurrentKept (currentAudioCodecs current) (f.getCodecsToOffer current).currentAudio
  currentVideo : CurrentKept (currentVideoCodecs current) (f.getCodecsToOffer current).currentVideo
  currentData : CurrentKept (currentDataCodecs current) (f.getCodecsToOffer current).currentData
  audio : OfferKept f.audioCodecs (f.getCodecsToOffer current).currentAudio
    (f.getCodecsToOffer current).audio
  video : OfferKept f.videoCodecs (f.getCodecsToOffer current).currentVideo
    (f.getCodecsToOffer current).video
  data : OfferKept f.dataCodecs (f.getCodecsToOffer current).currentData
    (f.getCodecsToOffer current).data
  answer : ∀ content ∈ offer.contents, ∀ description ∈ content.description,
    AnswerKept f description.codecs

def usedByAudio (current : Option SessionDescription) : UsedIds :=
  (findAndSetIdsUsed usedPayloadTypes (currentAudioCodecs current)).1

def usedByVideo (current : Option SessionDescription) : UsedIds :=
  (findAndSetIdsUsed (usedByAudio current) (currentVideoCodecs current)).1

def usedByCurrent (current : Option SessionDescription) : UsedIds :=
  (findAndSetIdsUsed (usedByVideo current) (currentDataCodecs current)).1

structure PayloadTypesKeptWhen (f : MediaSessionDescriptionFactory)
    (current : Option SessionDescription) (offer : SessionDescription) : Prop where
  currentAudio : Machine.Along useCodec (KeepsCurrent (currentAudioCodecs current))
    usedPayloadTypes (currentAudioCodecs current)
  currentVideo : Machine.Along useCodec (KeepsCurrent (currentVideoCodecs current))
    (usedByAudio current) (currentVideoCodecs current)
  currentData : Machine.Along useCodec (KeepsCurrent (currentDataCodecs current))
    (usedByVideo current) (currentDataCodecs current)
  audio : OfferKeptWhen f.audioCodecs (f.getCodecsToOffer current).currentAudio
    (usedByCurrent current)
  video : OfferKeptWhen f.videoCodecs (f.getCodecsToOffer current).currentVideo
    (f.getCodecsToOffer current).audio.used
  data : OfferKeptWhen f.dataCodecs (f.getCodecsToOffer current).currentData
    (f.getCodecsToOffer current).video.used
  answer : ∀ content ∈ offer.contents, ∀ description ∈ content.description,
    AnswerKeptWhen f description.codecs

theorem answerKept_iff {f : MediaSessionDescriptionFactory} {codecs : MediaCodecs}
    (h : codecs.ids.Nodup) : AnswerKept f codecs ↔ AnswerKeptWhen f codecs := by
  cases codecs with
  | audio offered => exact negotiatedKept_iff h
  | video offered => exact negotiatedKept_iff h
  | data offered => exact negotiatedKept_iff h

/-- The lists keep their payload types distinct, and RTX codecs what they refer to, exactly if no
turn of the loops goes wrong. -/
theorem payloadTypesKept_iff {f : MediaSessionDescriptionFactory}
    {current : Option SessionDescription} {offer : SessionDescription}
    (h : DistinctPayloadTypes f current offer) :
    PayloadTypesKept f current offer ↔ PayloadTypesKeptWhen f current offer := by
  have hdynamic := h.dynamic
  have haudio : Budget usedPayloadTypes (dynamicCodecs (currentAudioCodecs current) +
      (dynamicCodecs (currentVideoCodecs current) + (dynamicCodecs (currentDataCodecs current) +
        (dynamicCodecs f.audioCodecs + (dynamicCodecs f.videoCodecs
          + (dynamicCodecs f.dataCodecs + 0)))))) := budget_usedPayloadTypes (by omega)
  have hvideo := findAndSetIdsUsed_budget haudio
  have hdata := findAndSetIdsUsed_budget hvideo
  have hused := findAndSetIdsUsed_budget hdata
  have hvideoSubset := findAndSetIdsUsed_subset hvideo
  have hdataSubset := findAndSetIdsUsed_subset hdata
  -- what is in use when the codecs of ours are added
  have hinAudio : InUse (usedByCurrent current) (f.getCodecsToOffer current).currentAudio :=
    fun id hid hdyn => hdataSubset (hvideoSubset (findAndSetIdsUsed_inUse haudio id hid hdyn))
  have haudioOffer := findCodecsToOffer_budget hused hinAudio
  have haudioSubset := findCodecsToOffer_subset hused hinAudio
  have hinVideo : InUse (f.getCodecsToOffer current).audio.used
      (f.getCodecsToOffer current).currentVideo := fun id hid hdyn =>
    haudioSubset (hdataSubset (findAndSetIdsUsed_inUse hvideo id hid hdyn))
  have hvideoOffer := findCodecsToOffer_budget haudioOffer hinVideo
  have hvideoSubset' := findCodecsToOffer_subset haudioOffer hinVideo
  have hinData : InUse (f.getCodecsToOffer current).video.used
      (f.getCodecsToOffer current).currentData := fun id hid hdyn =>
    hvideoSubset' (haudioSubset (findAndSetIdsUsed_inUse hdata id hid hdyn))
  have hcurrentAudio := currentKept_iff haudio
  have hcurrentVideo := currentKept_iff hvideo
  have hcurrentData := currentKept_iff hdata
  have hofferAudio := offerKept_iff h.audio (findAndSetIdsUsed_nodup haudio h.currentAudio)
    hused hinAudio
  have hofferVideo := offerKept_iff h.video (findAndSetIdsUsed_nodup hvideo h.currentVideo)
    haudioOffer hinVideo
  have hofferData := offerKept_iff h.data (findAndSetIdsUsed_nodup hdata h.currentData)
    hvideoOffer hinData
  constructor
  · intro hkept
    exact ⟨hcurrentAudio.mp hkept.currentAudio, hcurrentVideo.mp hkept.currentVideo,
      hcurrentData.mp hkept.currentData, hofferAudio.mp hkept.audio, hofferVideo.mp hkept.video,
      hofferData.mp hkept.data, fun content hcontent description hdescription =>
        (answerKept_iff (h.offer content hcontent description hdescription)).mp
          (hkept.answer content hcontent description hdescription)⟩
  · intro hwhen
    exact ⟨hcurrentAudio.mpr hwhen.currentAudio, hcurrentVideo.mpr hwhen.currentVideo,
      hcurrentData.mpr hwhen.currentData, hofferAudio.mpr hwhen.audio,
      hofferVideo.mpr hwhen.video, hofferData.mpr hwhen.data,
      fun content hcontent description hdescription =>
        (answerKept_iff (h.offer content hcontent description hdescription)).mpr
          (hwhen.answer content hcontent description hdescription)⟩

section Decidable

variable {C : Type} [CodecType C]

instance (ours offered : List C) : Decidable (NegotiatedKeptWhen ours offered) :=
  decidable_of_iff ((ours.Pairwise fun c c' => ∀ t ∈ offered, ¬ (Keeps c t ∧ Keeps c' t)) ∧
    ∀ c ∈ ours, ∀ t ∈ offered, Keeps c t → isRtxCodec c = true →
      ∀ d ∈ offered, associated t = some (codec d).id → ∃ c' ∈ ours, Keeps c' d)
    ⟨fun h => ⟨h.1, h.2⟩, fun h => ⟨h.1, h.2⟩⟩

instance (rtx : List (RtxReference C)) (c : C) : Decidable (Referenced rtx c) :=
  inferInstanceAs (Decidable (∃ x ∈ rtx, _))

instance (rtx : List (RtxReference C)) (s : OfferState C) (c : C) :
    Decidable (KeepsCodec rtx s c) := inferInstanceAs (Decidable (_ ∧ _))

instance (rtx : List (RtxReference C)) (s : OfferState C) (x : RtxReference C) :
    Decidable (KeepsRtxCodec rtx s x) := inferInstanceAs (Decidable (_ ∧ _))

instance (given : List C) (u : UsedIds) (c : C) : Decidable (KeepsCurrent given u c) :=
  inferInstanceAs (Decidable (_ → _))

instance [DecidableEq C] (ours current : List C) (used : UsedIds) :
    Decidable (OfferKeptWhen ours current used) :=
  decidable_of_iff (Machine.Along addCodec (KeepsCodec (newRtxCodecs ours current))
      ⟨current, used, newRtxCodecs ours current⟩ ours ∧
    Machine.Along addRtxCodec (KeepsRtxCodec (newRtxCodecs ours current))
      { addCodecs ours current used ours with rtx := [] } (addCodecs ours current used ours).rtx ∧
    ∀ d ∈ ours, isRtxCodec d = true → Referenced (newRtxCodecs ours current) d →
      (∀ x ∈ newRtxCodecs ours current, x.original ≠ d) →
        ∃ y ∈ current.find? (isMatch · d), (codec y).id = (codec d).id)
    ⟨fun h => ⟨h.1, h.2.1, h.2.2⟩, fun h => ⟨h.1, h.2, h.3⟩⟩

end Decidable

instance (f : MediaSessionDescriptionFactory) : ∀ codecs, Decidable (AnswerKeptWhen f codecs)
  | .audio offered => inferInstanceAs (Decidable (NegotiatedKeptWhen f.audioCodecs offered))
  | .video offered => inferInstanceAs (Decidable (NegotiatedKeptWhen f.videoCodecs offered))
  | .data offered => inferInstanceAs (Decidable (NegotiatedKeptWhen f.dataCodecs offered))

/-! ## Two lists -/

def videoCodec (id : Int) (name : String) : VideoCodec :=
  ⟨⟨id, name, 90000, 0, [], []⟩, 640, 400, 30⟩

def rtxFor (id : Int) (apt : String) : VideoCodec :=
  ⟨⟨id, "rtx", 90000, 0, [("apt", apt)], []⟩, 0, 0, 0⟩

def videoFactory (codecs : List VideoCodec) : MediaSessionDescriptionFactory :=
  { videoCodecs := codecs, transportDescFactory := none }

def videoOffer (codecs : List VideoCodec) : SessionDescription :=
  { contents := [⟨"video", NS_JINGLE_RTP, false, some { codecs := .video codecs }⟩] }

/-- VP8 and its RTX codec, with a VP8 codec in the current description that has no RTX codec. -/
theorem payloadTypesKept_rtx :
    PayloadTypesKept (videoFactory [videoCodec 96 "VP8", rtxFor 97 "96"])
      (some (videoOffer [videoCodec 96 "VP8"]))
      (videoOffer [videoCodec 100 "VP8", rtxFor 101 "100"]) :=
  (payloadTypesKept_iff ⟨by decide, by decide, by decide, by decide +kernel, by decide +kernel,
    by decide +kernel, by decide +kernel, by decide +kernel⟩).mpr
    ⟨by decide +kernel, by decide +kernel, by decide +kernel, by decide +kernel,
      by decide +kernel, by decide +kernel, by decide +kernel⟩

def twoRtx : List VideoCodec :=
  [videoCodec 100 "VP8", rtxFor 101 "100", videoCodec 102 "H264", rtxFor 103 "102"]

/-- Two RTX codecs of ours match the one of the offer. -/
theorem not_payloadTypesKept :
    ¬ ∀ (f : MediaSessionDescriptionFactory) (current : Option SessionDescription)
        (offer : SessionDescription),
      DistinctPayloadTypes f current offer → PayloadTypesKept f current offer := by
  intro h
  have hkept := h (videoFactory twoRtx) none (videoOffer (twoRtx.take 2))
    ⟨by decide, by decide, by decide, by decide +kernel, by decide +kernel, by decide +kernel,
      by decide +kernel, by decide +kernel⟩
  have hanswer : NegotiatedKept twoRtx (twoRtx.take 2) := hkept.answer _ List.mem_cons_self _ rfl
  exact absurd hanswer.nodup (by decide +kernel)

end PerchWebrtc.Session
