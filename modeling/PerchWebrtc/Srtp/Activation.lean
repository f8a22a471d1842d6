import PerchWebrtc.Srtp.SrtpFilter

/-!
# Active filters have keys

A filter is active from the value of its state on; whether its sessions have keys
is another matter.

* `setKey_new`: a new session has the key that is accepted;
* `setKeys_sendKey`, `setKeys_recvKey`: what is left of new sessions, also where a
  key is refused;
* `always_keyed_iff`: in every run, every active state has both keys if and only if
  every call meets `KeepsKeys`.
-/

namespace PerchWebrtc.Srtp

/-- The key of a new session, if it is accepted. -/
def newKey (env : Env) (call : Nat) (type : SsrcType) (cs : String) (key : Option (List Byte)) :
    Option SrtpKey :=
  if cs ≠ CS_AES_CM_128_HMAC_SHA1_80 ∧ cs ≠ CS_AES_CM_128_HMAC_SHA1_32 then none
  else
    (key.map fun key => (⟨type, cs, key⟩ : SrtpKey)).filter fun key =>
      decide (key.key.length = SRTP_MASTER_KEY_LEN) && env.srtpCreate call key

theorem setKey_new (env : Env) (call : Nat) (type : SsrcType) (cs : String)
    (key : Option (List Byte)) :
    ({} : SrtpSession).setKey env call type cs key =
      ((newKey env call type cs key).isSome, ⟨newKey env call type cs key⟩) := by
  unfold SrtpSession.setKey newKey
  rw [if_neg (not_not.mpr rfl)]
  by_cases hcs : cs ≠ CS_AES_CM_128_HMAC_SHA1_80 ∧ cs ≠ CS_AES_CM_128_HMAC_SHA1_32
  · rw [if_pos hcs, if_pos hcs]
    rfl
  · rw [if_neg hcs, if_neg hcs]
    cases key with
    | none => rfl
    | some key =>
      dsimp only [Option.map_some]
      by_cases hlen : key.length = SRTP_MASTER_KEY_LEN
      · rw [if_neg (not_not.mpr hlen), Option.filter_some]
        cases env.srtpCreate call ⟨type, cs, key⟩ with
        | true => simp [hlen]
        | false => simp
      · rw [if_pos hlen, Option.filter_some, decide_eq_false hlen]
        rfl

namespace SrtpFilter

/-- The key that RTP is sent with. -/
def sendKey (s : SrtpFilter) : Option SrtpKey := s.sendSession.bind (·.session)

/-- The key that RTP is received with. -/
def recvKey (s : SrtpFilter) : Option SrtpKey := s.recvSession.bind (·.session)

/-- Both sessions exist and have keys. -/
def Keyed (s : SrtpFilter) : Prop := s.sendKey.isSome ∧ s.recvKey.isSome

instance (s : SrtpFilter) : Decidable s.Keyed := inferInstanceAs (Decidable (_ ∧ _))

/-! ## New sessions -/

section NewSessions

variable (env : Env) (s : SrtpFilter) (sendCs : String) (sendKey : Option (List Byte))
  (recvCs : String) (recvKey : Option (List Byte))

/-- The key that new sessions send with. -/
def newSendKey : Option SrtpKey := newKey env s.setKeyCalls .ssrc_any_outbound sendCs sendKey

/-- The key that new sessions receive with, once there is one to send with. -/
def newRecvKey : Option SrtpKey :=
  newKey env (s.setKeyCalls + 1) .ssrc_any_inbound recvCs recvKey

/-- Both keys are accepted. -/
def Accepts : Prop :=
  (s.newSendKey env sendCs sendKey).isSome ∧ (s.newRecvKey env recvCs recvKey).isSome

instance : Decidable (s.Accepts env sendCs sendKey recvCs recvKey) :=
  inferInstanceAs (Decidable (_ ∧ _))

/-- A filter with new sessions. -/
def renewed (send recv : Option SrtpKey) (calls : Nat) : SrtpFilter :=
  { s.createSrtpSessions with
    sendSession := some ⟨send⟩
    recvSession := some ⟨recv⟩
    setKeyCalls := calls }

theorem setKeys_eq : s.setKeys env sendCs sendKey recvCs recvKey =
    if (s.newSendKey env sendCs sendKey).isSome then
      ((s.newRecvKey env recvCs recvKey).isSome,
        s.renewed (s.newSendKey env sendCs sendKey) (s.newRecvKey env recvCs recvKey)
          (s.setKeyCalls + 2))
    else (false, s.renewed none none (s.setKeyCalls + 1)) := by
  unfold setKeys setSend
  dsimp only [createSrtpSessions, Option.getD_some]
  rw [setKey_new]
  dsimp only
  unfold newSendKey newRecvKey
  cases newKey env s.setKeyCalls .ssrc_any_outbound sendCs sendKey with
  | none => rfl
  | some key =>
    dsimp only [Option.isSome_some, setRecv, Option.getD_some]
    rw [setKey_new]
    rfl

theorem setKeys_fst : (s.setKeys env sendCs sendKey recvCs recvKey).1 = true ↔
    s.Accepts env sendCs sendKey recvCs recvKey := by
  rw [setKeys_eq]
  unfold Accepts
  split
  · rename_i h
    exact ⟨fun h' => ⟨h, h'⟩, fun h' => h'.2⟩
  · rename_i h
    exact ⟨fun h' => (by cases h'), fun h' => absurd h'.1 h⟩

theorem setKeys_state : (s.setKeys env sendCs sendKey recvCs recvKey).2.state = s.state := by
  rw [setKeys_eq]
  split
  · rfl
  · rfl

theorem setKeys_sendKey : (s.setKeys env sendCs sendKey recvCs recvKey).2.sendKey =
    s.newSendKey env sendCs sendKey := by
  rw [setKeys_eq]
  split
  · rfl
  · rename_i h
    exact (Option.not_isSome_iff_eq_none.mp h).symm

theorem setKeys_recvKey : (s.setKeys env sendCs sendKey recvCs recvKey).2.recvKey =
    if (s.newSendKey env sendCs sendKey).isSome then s.newRecvKey env recvCs recvKey else none := by
  rw [setKeys_eq]
  split
  · rfl
  · rfl

theorem setKeys_keyed : (s.setKeys env sendCs sendKey recvCs recvKey).2.Keyed ↔
    s.Accepts env sendCs sendKey recvCs recvKey := by
  unfold Keyed Accepts
  rw [setKeys_sendKey, setKeys_recvKey]
  refine and_congr_right fun h => ?_
  rw [if_pos h]

theorem setRtpParams_inactive (h : s.state ≠ .ST_ACTIVE) :
    s.setRtpParams env sendCs sendKey recvCs recvKey =
      let set := s.setKeys env sendCs sendKey recvCs recvKey
      if set.1 then (true, { set.2 with state := .ST_ACTIVE }) else (false, set.2) := by
  unfold setRtpParams
  rw [if_neg h]
  generalize s.setKeys env sendCs sendKey recvCs recvKey = set
  obtain ⟨_ | _, s₁⟩ := set
  · rfl
  · rfl

/-- The parameters were applied last, or a key is not parsed, or new sessions are made. -/
theorem applyParams_cases (sendParams recvParams : CryptoParams) :
    s.Applied sendParams recvParams ∧ s.applyParams env sendParams recvParams = (true, s) ∨
      ¬ s.Applied sendParams recvParams ∧
        (parseKeyParams env sendParams.keyParams = none ∨
          parseKeyParams env recvParams.keyParams = none) ∧
        s.applyParams env sendParams recvParams = (false, s) ∨
      ¬ s.Applied sendParams recvParams ∧ ∃ sendKey recvKey,
        parseKeyParams env sendParams.keyParams = some sendKey ∧
        parseKeyParams env recvParams.keyParams = some recvKey ∧
        s.applyParams env sendParams recvParams =
          let set := s.setKeys env sendParams.cipherSuite (some sendKey) recvParams.cipherSuite
            (some recvKey)
          if set.1 then
            (true, { set.2 with appliedSendParams := sendParams, appliedRecvParams := recvParams })
          else (false, set.2) := by
  unfold applyParams
  by_cases happlied : s.Applied sendParams recvParams
  · exact .inl ⟨happlied, if_pos happlied⟩
  · rw [if_neg happlied]
    cases hsend : parseKeyParams env sendParams.keyParams with
    | none => exact .inr (.inl ⟨happlied, .inl rfl, rfl⟩)
    | some sendKey =>
      cases hrecv : parseKeyParams env recvParams.keyParams with
      | none => exact .inr (.inl ⟨happlied, .inr rfl, rfl⟩)
      | some recvKey =>
        refine .inr (.inr ⟨happlied, sendKey, recvKey, rfl, rfl, ?_⟩)
        dsimp only
        generalize s.setKeys env sendParams.cipherSuite (some sendKey) recvParams.cipherSuite
          (some recvKey) = set
        obtain ⟨_ | _, s₁⟩ := set
        · rfl
        · rfl

end NewSessions

/-! ## Answers -/

/-- The state after an answer that is accepted. -/
def answered (source : ContentSource) (final : Bool) (s : SrtpFilter) : SrtpFilter :=
  if final then { s with offerParams := [], state := .ST_ACTIVE }
  else { s with state := if source = .CS_LOCAL then .ST_SENTPRANSWER else .ST_RECEIVEDPRANSWER }

/-- An answer with one set of parameters. -/
theorem doSetAnswer_single {env : Env} {s : SrtpFilter} {answer selected : CryptoParams}
    {source : ContentSource} (hexpect : s.expectAnswer source = true)
    (hfind : s.offerParams.find? (fun offer => answer.Matches offer) = some selected)
    (final : Bool) :
    s.doSetAnswer env [answer] source final =
      let params := directed source answer selected
      if (s.applyParams env params.1 params.2).1 then
        (true, (s.applyParams env params.1 params.2).2.answered source final)
      else (false, (s.applyParams env params.1 params.2).2) := by
  unfold doSetAnswer
  rw [if_neg (not_not.mpr hexpect)]
  dsimp only [negotiateParams]
  rw [hfind]
  dsimp only
  generalize s.applyParams env (directed source answer selected).1
    (directed source answer selected).2 = applied
  obtain ⟨_ | _, s₁⟩ := applied
  · rfl
  · cases final <;> rfl

/-! ## What a call asks of the state -/

/-- New keys are accepted, or the filter is not active. -/
def RenewsKeys (env : Env) (sendCs : String) (sendKey : Option (List Byte)) (recvCs : String)
    (recvKey : Option (List Byte)) (s : SrtpFilter) : Prop :=
  s.Accepts env sendCs sendKey recvCs recvKey ∨ ¬ s.isActive

/-- For parameters that were applied last there are keys; others are not parsed, or
their keys are accepted, or the filter is not active. -/
def AppliesKeys (env : Env) (sendParams recvParams : CryptoParams) (s : SrtpFilter) : Prop :=
  if s.Applied sendParams recvParams then s.Keyed
  else
    ∀ sendKey recvKey, parseKeyParams env sendParams.keyParams = some sendKey →
      parseKeyParams env recvParams.keyParams = some recvKey →
      s.RenewsKeys env sendParams.cipherSuite (some sendKey) recvParams.cipherSuite (some recvKey)

/-- The same for an answer, if it gets that far. -/
def AnswersKeys (env : Env) (answerParams : List CryptoParams) (source : ContentSource)
    (s : SrtpFilter) : Prop :=
  s.expectAnswer source → ∀ answer selected, answerParams = [answer] →
    s.offerParams.find? (fun offer => answer.Matches offer) = some selected →
    s.AppliesKeys env (directed source answer selected).1 (directed source answer selected).2

/-- An offer that is accepted while there is a session or another offer needs keys. -/
def KeepsKeys (env : Env) (s : SrtpFilter) : Call → Prop
  | .setOffer _ source => s.expectOffer source → s.state ≠ .ST_INIT → s.Keyed
  | .setProvisionalAnswer params source => s.AnswersKeys env params source
  | .setAnswer params source => s.AnswersKeys env params source
  | .setRtpParams sendCs sendKey recvCs recvKey =>
    s.state ≠ .ST_ACTIVE → s.RenewsKeys env sendCs sendKey recvCs recvKey
  | .setRtcpParams .. => True

/-! ## Steps -/

/-- Active means that there are keys. -/
def ActiveKeyed (s : SrtpFilter) : Prop := s.isActive → s.Keyed

variable {env : Env} {s : SrtpFilter} {sendParams : CryptoParams} {recvParams : CryptoParams}

theorem isActive_congr {s s' : SrtpFilter} (h : s'.state = s.state) : s'.isActive = s.isActive := by
  unfold isActive
  rw [h]

theorem storeParams_isActive (params : List CryptoParams) (source : ContentSource) :
    (s.storeParams params source).isActive = decide (s.state ≠ .ST_INIT) := by
  unfold storeParams isActive
  by_cases hinit : s.state = .ST_INIT
  · rw [if_pos hinit, decide_eq_false (not_not.mpr hinit)]
    cases source with
    | CS_LOCAL => rfl
    | CS_REMOTE => rfl
  · rw [if_neg hinit, decide_eq_true hinit]
    cases source with
    | CS_LOCAL => rfl
    | CS_REMOTE => rfl

theorem setOffer_activeKeyed (h : s.ActiveKeyed) (params : List CryptoParams)
    (source : ContentSource) :
    (s.setOffer params source).2.ActiveKeyed ↔
      (s.expectOffer source → s.state ≠ .ST_INIT → s.Keyed) := by
  unfold setOffer
  by_cases hexpect : s.expectOffer source
  · rw [if_pos hexpect]
    unfold ActiveKeyed
    dsimp only
    rw [storeParams_isActive, decide_eq_true_iff]
    exact ⟨fun hkeyed _ => hkeyed, fun hkeyed => hkeyed hexpect⟩
  · rw [if_neg hexpect]
    exact iff_of_true h fun h' => absurd h' hexpect

/-- New sessions of which one has no key. -/
theorem setKeys_activeKeyed {sendCs recvCs : String} {sendKey recvKey : Option (List Byte)}
    (h : ¬ s.Accepts env sendCs sendKey recvCs recvKey) :
    (s.setKeys env sendCs sendKey recvCs recvKey).2.ActiveKeyed ↔
      s.RenewsKeys env sendCs sendKey recvCs recvKey := by
  unfold ActiveKeyed RenewsKeys
  rw [isActive_congr (s.setKeys_state env sendCs sendKey recvCs recvKey), setKeys_keyed,
    or_iff_right h]
  exact ⟨fun hkeep hactive => h (hkeep hactive), fun hinactive hactive => absurd hactive hinactive⟩

theorem setRtpParams_activeKeyed (h : s.ActiveKeyed) (sendCs : String)
    (sendKey : Option (List Byte)) (recvCs : String) (recvKey : Option (List Byte)) :
    (s.setRtpParams env sendCs sendKey recvCs recvKey).2.ActiveKeyed ↔
      (s.state ≠ .ST_ACTIVE → s.RenewsKeys env sendCs sendKey recvCs recvKey) := by
  by_cases hactive : s.state = .ST_ACTIVE
  · unfold setRtpParams
    rw [if_pos hactive]
    exact iff_of_true h fun hne => absurd hactive hne
  · rw [s.setRtpParams_inactive env sendCs sendKey recvCs recvKey hactive]
    dsimp only
    by_cases haccepts : s.Accepts env sendCs sendKey recvCs recvKey
    · rw [if_pos ((s.setKeys_fst env sendCs sendKey recvCs recvKey).mpr haccepts)]
      have hkeyed := (s.setKeys_keyed env sendCs sendKey recvCs recvKey).mpr haccepts
      exact iff_of_true (fun _ => hkeyed) fun _ => .inl haccepts
    · rw [if_neg (mt (s.setKeys_fst env sendCs sendKey recvCs recvKey).mp haccepts),
        setKeys_activeKeyed haccepts]
      exact ⟨fun hrenews _ => hrenews, fun hrenews => hrenews hactive⟩

theorem setRtcpParams_activeKeyed (h : s.ActiveKeyed) (sendCs : String)
    (sendKey : Option (List Byte)) (recvCs : String) (recvKey : Option (List Byte)) :
    (s.setRtcpParams env sendCs sendKey recvCs recvKey).2.ActiveKeyed := by
  unfold setRtcpParams
  split
  · exact h
  · dsimp only
    split
    · exact h
    · exact h

theorem appliesKeys_parsed {sendKey recvKey : List Byte}
    (happlied : ¬ s.Applied sendParams recvParams)
    (hsend : parseKeyParams env sendParams.keyParams = some sendKey)
    (hrecv : parseKeyParams env recvParams.keyParams = some recvKey) :
    s.AppliesKeys env sendParams recvParams ↔
      s.RenewsKeys env sendParams.cipherSuite (some sendKey) recvParams.cipherSuite
        (some recvKey) := by
  unfold AppliesKeys
  rw [if_neg happlied, hsend, hrecv]
  constructor
  · exact fun hall => hall sendKey recvKey rfl rfl
  · intro hrenews sendKey' recvKey' hsend' hrecv'
    cases hsend'
    cases hrecv'
    exact hrenews

theorem applyParams_keyed (h : (s.applyParams env sendParams recvParams).1 = true) :
    (s.applyParams env sendParams recvParams).2.Keyed ↔ s.AppliesKeys env sendParams recvParams := by
  rcases s.applyParams_cases env sendParams recvParams with ⟨happlied, heq⟩ | ⟨-, -, heq⟩ |
    ⟨happlied, sendKey, recvKey, hsend, hrecv, heq⟩
  · rw [heq]
    unfold AppliesKeys
    rw [if_pos happlied]
  · rw [heq] at h
    cases h
  · rw [heq] at h ⊢
    rw [appliesKeys_parsed happlied hsend hrecv]
    by_cases haccepts : s.Accepts env sendParams.cipherSuite (some sendKey) recvParams.cipherSuite
      (some recvKey)
    · dsimp only
      rw [if_pos ((setKeys_fst ..).mpr haccepts)]
      exact iff_of_true ((setKeys_keyed ..).mpr haccepts) (.inl haccepts)
    · dsimp only at h
      rw [if_neg (mt (setKeys_fst ..).mp haccepts)] at h
      cases h

theorem applyParams_activeKeyed (hs : s.ActiveKeyed)
    (h : (s.applyParams env sendParams recvParams).1 = false) :
    (s.applyParams env sendParams recvParams).2.ActiveKeyed ↔
      s.AppliesKeys env sendParams recvParams := by
  rcases s.applyParams_cases env sendParams recvParams with ⟨-, heq⟩ | ⟨happlied, hnone, heq⟩ |
    ⟨happlied, sendKey, recvKey, hsend, hrecv, heq⟩
  · rw [heq] at h
    cases h
  · rw [heq]
    unfold AppliesKeys
    rw [if_neg happlied]
    refine iff_of_true hs fun sendKey recvKey hsend hrecv => ?_
    rw [hsend, hrecv] at hnone
    rcases hnone with hnone | hnone
    · cases hnone
    · cases hnone
  · rw [heq] at h ⊢
    rw [appliesKeys_parsed happlied hsend hrecv]
    by_cases haccepts : s.Accepts env sendParams.cipherSuite (some sendKey) recvParams.cipherSuite
      (some recvKey)
    · dsimp only at h
      rw [if_pos ((setKeys_fst ..).mpr haccepts)] at h
      cases h
    · dsimp only
      rw [if_neg (mt (setKeys_fst ..).mp haccepts)]
      exact setKeys_activeKeyed haccepts

theorem answered_activeKeyed (source : ContentSource) (final : Bool) :
    (s.answered source final).ActiveKeyed ↔ s.Keyed := by
  have hactive : (s.answered source final).isActive = true := by
    cases final with
    | true => rfl
    | false => cases source <;> rfl
  unfold ActiveKeyed
  rw [hactive]
  cases final with
  | true => exact ⟨fun hkeep => hkeep rfl, fun hkeep _ => hkeep⟩
  | false => exact ⟨fun hkeep => hkeep rfl, fun hkeep _ => hkeep⟩

theorem doSetAnswer_activeKeyed (h : s.ActiveKeyed) (params : List CryptoParams)
    (source : ContentSource) (final : Bool) :
    (s.doSetAnswer env params source final).2.ActiveKeyed ↔ s.AnswersKeys env params source := by
  unfold AnswersKeys
  by_cases hexpect : s.expectAnswer source
  · rcases params with _ | ⟨answer, _ | ⟨answer', rest⟩⟩
    · unfold doSetAnswer
      rw [if_neg (not_not.mpr hexpect)]
      refine iff_of_true ?_ fun _ _ _ hnil => by cases hnil
      dsimp only
      cases final with
      | true => exact fun hactive => absurd hactive Bool.false_ne_true
      | false =>
        cases source with
        | CS_LOCAL => exact fun hactive => absurd hactive Bool.false_ne_true
        | CS_REMOTE => exact fun hactive => absurd hactive Bool.false_ne_true
    · cases hfind : s.offerParams.find? fun offer => answer.Matches offer with
      | none =>
        unfold doSetAnswer
        rw [if_neg (not_not.mpr hexpect)]
        dsimp only [negotiateParams]
        rw [hfind]
        refine iff_of_true h fun _ answer' selected hanswer hselected => ?_
        cases hanswer
        rw [hfind] at hselected
        cases hselected
      | some selected =>
        have hanswers : (s.expectAnswer source = true → ∀ answer' selected',
            [answer] = [answer'] →
            s.offerParams.find? (fun offer => answer'.Matches offer) = some selected' →
            s.AppliesKeys env (directed source answer' selected').1
              (directed source answer' selected').2) ↔
            s.AppliesKeys env (directed source answer selected).1
              (directed source answer selected).2 := by
          constructor
          · exact fun hall => hall hexpect answer selected rfl hfind
          · intro happlies _ answer' selected' hanswer hselected
            cases hanswer
            rw [hfind] at hselected
            cases hselected
            exact happlies
        rw [doSetAnswer_single hexpect hfind, hanswers]
        dsimp only
        split
        · rename_i happlied
          rw [answered_activeKeyed]
          exact applyParams_keyed happlied
        · rename_i hrefused
          exact applyParams_activeKeyed h (Bool.eq_false_iff.mpr hrefused)
    · unfold doSetAnswer
      rw [if_neg (not_not.mpr hexpect)]
      refine iff_of_true h fun _ _ _ hsingle => ?_
      cases hsingle
  · unfold doSetAnswer
    rw [if_pos hexpect]
    exact iff_of_true h fun h' => absurd h' hexpect

theorem step_activeKeyed_iff (h : s.ActiveKeyed) (c : Call) :
    (s.step env c).ActiveKeyed ↔ s.KeepsKeys env c := by
  cases c with
  | setOffer params source => exact setOffer_activeKeyed h params source
  | setProvisionalAnswer params source => exact doSetAnswer_activeKeyed h params source false
  | setAnswer params source => exact doSetAnswer_activeKeyed h params source true
  | setRtpParams sendCs sendKey recvCs recvKey =>
    exact setRtpParams_activeKeyed h sendCs sendKey recvCs recvKey
  | setRtcpParams sendCs sendKey recvCs recvKey =>
    exact iff_of_true (setRtcpParams_activeKeyed h sendCs sendKey recvCs recvKey) trivial

/-! ## Runs -/

/-- In every state of a run of a new filter, active means that there are keys, if
and only if every call meets the condition in the state before it. -/
theorem always_keyed_iff (env : Env) (calls : List Call) :
    Machine.Always (step env) (fun s => s.isActive → s.Keyed) {} calls ↔
      Machine.Along (step env) (KeepsKeys env) {} calls :=
  Machine.always_iff_along (I := fun _ => True) (Q := ActiveKeyed) (fun _ _ _ => trivial)
    (fun _ c _ hs => step_activeKeyed_iff hs c) trivial
    fun hactive => absurd hactive Bool.false_ne_true

/-- Two offers of one side, before any answer. -/
theorem not_always_keyed : ¬ ∀ (env : Env) (calls : List Call),
    Machine.Always (step env) (fun s => s.isActive → s.Keyed) {} calls := by
  intro h
  have htwo := h ⟨fun _ _ => true, fun _ => none⟩ [.setOffer [] .CS_LOCAL, .setOffer [] .CS_LOCAL]
  exact absurd (htwo.2.2 rfl) (by decide)

end SrtpFilter

end PerchWebrtc.Srtp
