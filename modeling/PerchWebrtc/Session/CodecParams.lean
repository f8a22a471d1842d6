import PerchWebrtc.Session.Description

/-!
# Parameters of a codec

`Codec` and `FeedbackParams` (`codec.cc`): the parameters that a name has, and the feedback
parameters, which are kept once each whatever the case of their letters.

* `getParam_setParams`: the values that are set come before those that were there;
* `has_add`, `has_addAll`: the feedback parameters as a set.
-/

namespace PerchWebrtc.Session

/-! ## Feedback -/

/-- What `FeedbackParam::operator==` compares. -/
def FeedbackParam.caseless (p : FeedbackParam) : List Char × List Char :=
  ((cStr p.id).map Char.toLower, (cStr p.param).map Char.toLower)

theorem FeedbackParam.same_iff {p q : FeedbackParam} :
    p.same q = true ↔ p.caseless = q.caseless := by
  rw [same, Bool.and_eq_true, stricmpEq, stricmpEq, beq_iff_eq, beq_iff_eq, caseless, caseless,
    Prod.mk.injEq]
  exact and_congr eq_comm eq_comm

theorem FeedbackParam.same_congr {p q : FeedbackParam} (h : p.same q = true) (r : FeedbackParam) :
    p.same r = q.same r :=
  Bool.eq_iff_iff.mpr (by rw [same_iff, same_iff, same_iff.mp h])

namespace FeedbackParams

/-- `FeedbackParams::Has`. -/
def has (params : List FeedbackParam) (param : FeedbackParam) : Bool := params.any (·.same param)

/-- `FeedbackParams::Add`. -/
def add (params : List FeedbackParam) (param : FeedbackParam) : List FeedbackParam :=
  if param.id = "" then params else if has params param then params else params ++ [param]

variable {params : List FeedbackParam}

theorem has_of_same {p q : FeedbackParam} (h : has params p = true) (hsame : p.same q = true) :
    has params q = true := by
  obtain ⟨r, hr, hrp⟩ := List.any_eq_true.mp h
  exact List.any_eq_true.mpr ⟨r, hr, (FeedbackParam.same_congr hrp q).trans hsame⟩

theorem has_add (params : List FeedbackParam) (p q : FeedbackParam) :
    has (add params p) q = (has params q || (decide (p.id ≠ "") && p.same q)) := by
  rw [add]
  by_cases hid : p.id = ""
  · simp [hid]
  · rw [if_neg hid]
    by_cases hp : has params p = true
    · rw [if_pos hp]
      cases hsame : p.same q with
      | true => simp [has_of_same hp hsame]
      | false => simp
    · rw [if_neg hp, has, has, List.any_append]
      simp [hid]

/-- Every parameter has an id. -/
def Named (params : List FeedbackParam) : Prop := ∀ p ∈ params, p.id ≠ ""

theorem named_add (h : Named params) (p : FeedbackParam) : Named (add params p) := by
  rw [add]
  split
  · exact h
  · next hid =>
    split
    · exact h
    · exact fun q hq => (List.mem_append.mp hq).elim (h q)
        fun hq => (List.mem_singleton.mp hq) ▸ hid

/-- `AddFeedbackParameters`. -/
def addAll (params others : List FeedbackParam) : List FeedbackParam := others.foldl add params

theorem has_addAll (q : FeedbackParam) : ∀ {others : List FeedbackParam}, Named others →
    ∀ params : List FeedbackParam,
      has (addAll params others) q = (has params q || has others q)
  | [], _, params => by simp [addAll, has]
  | p :: others, h, params => by
    obtain ⟨hp, hothers⟩ := List.forall_mem_cons.mp h
    have hrest := has_addAll q hothers (add params p)
    rw [addAll] at hrest
    rw [addAll, List.foldl_cons, hrest, has_add, decide_eq_true hp, Bool.true_and, Bool.or_assoc]
    rfl

end FeedbackParams

/-! ## Parameters -/

theorem CodecParameterMap.lookup_filter_ne {name other : String} (h : other ≠ name) :
    ∀ params : CodecParameterMap, (params.filter (·.1 ≠ name)).lookup other = params.lookup other
  | [] => rfl
  | (key, value) :: params => by
    have ih := lookup_filter_ne h params
    by_cases hkey : key = name
    · have hne : (other == key) = false := beq_eq_false_iff_ne.mpr (hkey ▸ h)
      rw [List.filter_cons_of_neg (by simp [hkey]), List.lookup_cons, hne]
      exact ih
    · rw [List.filter_cons_of_pos (by simp [hkey]), List.lookup_cons, List.lookup_cons, ih]

theorem CodecParameterMap.lookup_set_of_ne (params : CodecParameterMap) {name other : String}
    (value : String) (h : other ≠ name) :
    (params.set name value).lookup other = params.lookup other := by
  rw [set, List.lookup_cons, beq_eq_false_iff_ne.mpr h]
  exact lookup_filter_ne h params

namespace Codec

def hasFeedbackParam (self : Codec) (param : FeedbackParam) : Bool :=
  FeedbackParams.has self.feedbackParams param

def addFeedbackParam (self : Codec) (param : FeedbackParam) : Codec :=
  { self with feedbackParams := FeedbackParams.add self.feedbackParams param }

/-- `AddParameters`: there is one entry for a name, so that the order makes no difference. -/
def setParams (self : Codec) (parameters : CodecParameterMap) : Codec :=
  parameters.foldr (fun entry codec => codec.setParam entry.1 entry.2) self

theorem getParam_setParam_of_ne (self : Codec) {name other : String} (value : String)
    (h : other ≠ name) : (self.setParam name value).getParam other = self.getParam other :=
  CodecParameterMap.lookup_set_of_ne self.params value h

theorem getParam_setParams (self : Codec) (name : String) : ∀ parameters : CodecParameterMap,
    (self.setParams parameters).getParam name = (parameters.lookup name).or (self.getParam name)
  | [] => rfl
  | (other, value) :: parameters => by
    rw [setParams, List.foldr_cons, List.lookup_cons]
    by_cases h : name = other
    · subst h
      rw [beq_self_eq_true]
      exact getParam_setParam _ name value
    · rw [beq_eq_false_iff_ne.mpr h]
      exact (getParam_setParam_of_ne _ value h).trans (getParam_setParams self name parameters)

end Codec

end PerchWebrtc.Session
