import PerchWebrtc.Srtp.Activation

/-!
# The keys after a call that fails

Which keys a filter protects and unprotects packets with (`keys`), and when a call
that returns false leaves them.

* `setKeys_keys_iff`: what new sessions that are not completed change;
* `call_failed_keys_iff`: for every state and call, the keys are kept on failure if
  and only if the call meets `FailsSafely`.
-/

namespace PerchWebrtc.Srtp

/-- The keys that the four methods use; none if the filter refuses the packet. -/
structure Keys where
  protectRtp : Option SrtpKey := none
  unprotectRtp : Option SrtpKey := none
  protectRtcp : Option SrtpKey := none
  unprotectRtcp : Option SrtpKey := none
  deriving DecidableEq

namespace SrtpFilter

/-- A session for RTCP takes the place of the one for RTP. -/
def rtcpKey (rtcpSession : Option SrtpSession) (rtpKey : Option SrtpKey) : Option SrtpKey :=
  match rtcpSession with
  | some session => session.session
  | none => rtpKey

def keys (s : SrtpFilter) : Keys :=
  if s.isActive then
    { protectRtp := s.sendKey
      unprotectRtp := s.recvKey
      protectRtcp := rtcpKey s.sendRtcpSession s.sendKey
      unprotectRtcp := rtcpKey s.recvRtcpSession s.recvKey }
  else {}

theorem keys_of_inactive {s : SrtpFilter} (h : ¬ s.isActive) : s.keys = {} := if_neg h

theorem keys_of_active {s : SrtpFilter} (h : s.isActive) :
    s.keys = ⟨s.sendKey, s.recvKey, rtcpKey s.sendRtcpSession s.sendKey,
      rtcpKey s.recvRtcpSession s.recvKey⟩ := if_pos h

/-! ## What a call asks of the state -/

/-- New keys are accepted, or the filter is not active, or an earlier failure has
left it with the keys that this one would leave. -/
def KeepsKeysRefused (env : Env) (sendCs : String) (sendKey : Option (List Byte))
    (recvCs : String) (recvKey : Option (List Byte)) (s : SrtpFilter) : Prop :=
  s.Accepts env sendCs sendKey recvCs recvKey ∨ ¬ s.isActive ∨
    s.sendKey = s.newSendKey env sendCs sendKey ∧ s.recvKey = none

/-- The same for the parameters that an answer selects, where they are new and can
be parsed. -/
def AnswerFailsSafely (env : Env) (answerParams : List CryptoParams) (source : ContentSource)
    (s : SrtpFilter) : Prop :=
  s.expectAnswer source → ∀ answer selected, answerParams = [answer] →
    s.offerParams.find? (fun offer => answer.Matches offer) = some selected →
    let params := directed source answer selected
    ¬ s.Applied params.1 params.2 →
    ∀ sendKey recvKey, parseKeyParams env params.1.keyParams = some sendKey →
      parseKeyParams env params.2.keyParams = some recvKey →
      s.KeepsKeysRefused env params.1.cipherSuite (some sendKey) params.2.cipherSuite
        (some recvKey)

/-- Both keys are those of sessions for receiving. -/
def RtcpFailsSafely (env : Env) (sendCs : String) (sendKey : Option (List Byte))
    (recvCs : String) (recvKey : Option (List Byte)) (s : SrtpFilter) : Prop :=
  let newSendKey := newKey env s.setKeyCalls .ssrc_any_inbound sendCs sendKey
  newSendKey.isSome ∧
      (newKey env (s.setKeyCalls + 1) .ssrc_any_inbound recvCs recvKey).isSome ∨
    ¬ s.isActive ∨ s.sendKey = newSendKey ∧ (newSendKey.isSome → s.recvKey = none)

def FailsSafely (env : Env) (s : SrtpFilter) : Call → Prop
  | .setOffer .. => True
  | .setProvisionalAnswer params source => s.AnswerFailsSafely env params source
  | .setAnswer params source => s.AnswerFailsSafely env params source
  | .setRtpParams sendCs sendKey recvCs recvKey =>
    s.state ≠ .ST_ACTIVE → s.KeepsKeysRefused env sendCs sendKey recvCs recvKey
  | .setRtcpParams sendCs sendKey recvCs recvKey =>
    s.sendRtcpSession = none → s.recvRtcpSession = none →
      s.RtcpFailsSafely env sendCs sendKey recvCs recvKey

/-! ## New sessions -/

section NewSessions

variable (env : Env) (s : SrtpFilter) (sendCs : String) (sendKey : Option (List Byte))
  (recvCs : String) (recvKey : Option (List Byte))

/-- Sessions that are not completed have no key to receive with. -/
theorem setKeys_failed (h : ¬ s.Accepts env sendCs sendKey recvCs recvKey) :
    (s.setKeys env sendCs sendKey recvCs recvKey).2.recvKey = none := by
  rw [setKeys_recvKey]
  split
  · rename_i hsend
    exact Option.not_isSome_iff_eq_none.mp fun hrecv => h ⟨hsend, hrecv⟩
  · rfl

theorem setKeys_rtcp :
    (s.setKeys env sendCs sendKey recvCs recvKey).2.sendRtcpSession = s.sendRtcpSession ∧
      (s.setKeys env sendCs sendKey recvCs recvKey).2.recvRtcpSession = s.recvRtcpSession := by
  rw [setKeys_eq]
  split
  · exact ⟨rfl, rfl⟩
  · exact ⟨rfl, rfl⟩

theorem setKeys_keys_iff (h : ¬ s.Accepts env sendCs sendKey recvCs recvKey) :
    (s.setKeys env sendCs sendKey recvCs recvKey).2.keys = s.keys ↔
      s.KeepsKeysRefused env sendCs sendKey recvCs recvKey := by
  have hstate := isActive_congr (s.setKeys_state env sendCs sendKey recvCs recvKey)
  have hsend := s.setKeys_sendKey env sendCs sendKey recvCs recvKey
  have hrecv := s.setKeys_failed env sendCs sendKey recvCs recvKey h
  obtain ⟨hsendRtcp, hrecvRtcp⟩ := s.setKeys_rtcp env sendCs sendKey recvCs recvKey
  generalize (s.setKeys env sendCs sendKey recvCs recvKey).2 = s₁ at *
  unfold KeepsKeysRefused
  by_cases hactive : s.isActive
  · rw [keys_of_active hactive, keys_of_active (hstate.trans hactive), hsend, hrecv, hsendRtcp,
      hrecvRtcp]
    constructor
    · intro heq
      exact .inr (.inr ⟨(congrArg Keys.protectRtp heq).symm, (congrArg Keys.unprotectRtp heq).symm⟩)
    · intro hkeeps
      obtain ⟨hsame, hnone⟩ := (hkeeps.resolve_left h).resolve_left (not_not.mpr hactive)
      rw [hsame, hnone]
  · rw [keys_of_inactive hactive, keys_of_inactive (hstate ▸ hactive)]
    exact iff_of_true rfl (.inr (.inl hactive))

end NewSessions

/-! ## Calls -/

variable {env : Env} {s : SrtpFilter}

theorem setRtpParams_failed_iff (sendCs : String) (sendKey : Option (List Byte)) (recvCs : String)
    (recvKey : Option (List Byte)) :
    ((s.setRtpParams env sendCs sendKey recvCs recvKey).1 = false →
        (s.setRtpParams env sendCs sendKey recvCs recvKey).2.keys = s.keys) ↔
      (s.state ≠ .ST_ACTIVE → s.KeepsKeysRefused env sendCs sendKey recvCs recvKey) := by
  by_cases hactive : s.state = .ST_ACTIVE
  · unfold setRtpParams
    rw [if_pos hactive]
    exact iff_of_true (fun _ => rfl) fun hne => absurd hactive hne
  · rw [s.setRtpParams_inactive env sendCs sendKey recvCs recvKey hactive]
    dsimp only
    by_cases haccepts : s.Accepts env sendCs sendKey recvCs recvKey
    · rw [if_pos ((setKeys_fst ..).mpr haccepts)]
      exact iff_of_true (fun hfalse => by cases hfalse) fun _ => .inl haccepts
    · rw [if_neg (mt (setKeys_fst ..).mp haccepts)]
      dsimp only
      rw [setKeys_keys_iff env s sendCs sendKey recvCs recvKey haccepts]
      exact ⟨fun hkeep _ => hkeep rfl, fun hkeep _ => hkeep hactive⟩

theorem applyParams_failed_iff (sendParams recvParams : CryptoParams) :
    ((s.applyParams env sendParams recvParams).1 = false →
        (s.applyParams env sendParams recvParams).2.keys = s.keys) ↔
      (¬ s.Applied sendParams recvParams → ∀ sendKey recvKey,
        parseKeyParams env sendParams.keyParams = some sendKey →
        parseKeyParams env recvParams.keyParams = some recvKey →
        s.KeepsKeysRefused env sendParams.cipherSuite (some sendKey) recvParams.cipherSuite
          (some recvKey)) := by
  rcases s.applyParams_cases env sendParams recvParams with ⟨happlied, heq⟩ | ⟨-, hnone, heq⟩ |
    ⟨happlied, sendKey, recvKey, hsend, hrecv, heq⟩
  · rw [heq]
    exact iff_of_true (fun hfalse => by cases hfalse) fun hnot => absurd happlied hnot
  · rw [heq]
    refine iff_of_true (fun _ => rfl) fun _ sendKey recvKey hsend hrecv => ?_
    rw [hsend, hrecv] at hnone
    rcases hnone with hnone | hnone
    · cases hnone
    · cases hnone
  · have hparsed : (¬ s.Applied sendParams recvParams → ∀ sendKey' recvKey',
        parseKeyParams env sendParams.keyParams = some sendKey' →
        parseKeyParams env recvParams.keyParams = some recvKey' →
        s.KeepsKeysRefused env sendParams.cipherSuite (some sendKey') recvParams.cipherSuite
          (some recvKey')) ↔
        s.KeepsKeysRefused env sendParams.cipherSuite (some sendKey) recvParams.cipherSuite
          (some recvKey) := by
      rw [hsend, hrecv]
      constructor
      · exact fun hall => hall happlied sendKey recvKey rfl rfl
      · intro hkeeps _ sendKey' recvKey' hsend' hrecv'
        cases hsend'
        cases hrecv'
        exact hkeeps
    rw [heq, hparsed]
    dsimp only
    by_cases haccepts : s.Accepts env sendParams.cipherSuite (some sendKey) recvParams.cipherSuite
      (some recvKey)
    · rw [if_pos ((setKeys_fst ..).mpr haccepts)]
      exact iff_of_true (fun hfalse => by cases hfalse) (.inl haccepts)
    · rw [if_neg (mt (setKeys_fst ..).mp haccepts)]
      dsimp only
      rw [setKeys_keys_iff env s _ _ _ _ haccepts]
      exact ⟨fun hkeep => hkeep rfl, fun hkeep _ => hkeep⟩

theorem doSetAnswer_failed_iff (params : List CryptoParams) (source : ContentSource)
    (final : Bool) :
    ((s.doSetAnswer env params source final).1 = false →
        (s.doSetAnswer env params source final).2.keys = s.keys) ↔
      s.AnswerFailsSafely env params source := by
  unfold AnswerFailsSafely
  by_cases hexpect : s.expectAnswer source
  · rcases params with _ | ⟨answer, _ | ⟨answer', rest⟩⟩
    · unfold doSetAnswer
      rw [if_neg (not_not.mpr hexpect)]
      refine iff_of_true ?_ fun _ _ _ hnil => by cases hnil
      cases final with
      | true => exact fun hfalse => by cases hfalse
      | false => exact fun hfalse => by cases hfalse
    · cases hfind : s.offerParams.find? fun offer => answer.Matches offer with
      | none =>
        unfold doSetAnswer
        rw [if_neg (not_not.mpr hexpect)]
        dsimp only [negotiateParams]
        rw [hfind]
        refine iff_of_true (fun _ => rfl) fun _ answer' selected hanswer hselected => ?_
        cases hanswer
        rw [hfind] at hselected
        cases hselected
      | some selected =>
        have happly := @applyParams_failed_iff env s (directed source answer selected).1
          (directed source answer selected).2
        rw [doSetAnswer_single hexpect hfind]
        dsimp only
        split
        · rename_i happlied
          refine iff_of_true (fun hfalse => by cases hfalse) fun _ answer' selected' hanswer
            hselected => ?_
          cases hanswer
          rw [hfind] at hselected
          cases hselected
          exact happly.mp fun hrefused => by rw [happlied] at hrefused; cases hrefused
        · rename_i hrefused
          have hfalse := Bool.eq_false_iff.mpr hrefused
          constructor
          · intro hkeep _ answer' selected' hanswer hselected
            cases hanswer
            rw [hfind] at hselected
            cases hselected
            exact happly.mp fun _ => hkeep rfl
          · exact fun hsafe _ => happly.mpr (hsafe hexpect answer selected rfl hfind) hfalse
    · unfold doSetAnswer
      rw [if_neg (not_not.mpr hexpect)]
      refine iff_of_true (fun _ => rfl) fun _ _ _ hsingle => ?_
      cases hsingle
  · unfold doSetAnswer
    rw [if_pos hexpect]
    exact iff_of_true (fun _ => rfl) fun h' => absurd h' hexpect

theorem setRtcpParams_failed_iff (sendCs : String) (sendKey : Option (List Byte)) (recvCs : String)
    (recvKey : Option (List Byte)) :
    ((s.setRtcpParams env sendCs sendKey recvCs recvKey).1 = false →
        (s.setRtcpParams env sendCs sendKey recvCs recvKey).2.keys = s.keys) ↔
      (s.sendRtcpSession = none → s.recvRtcpSession = none →
        s.RtcpFailsSafely env sendCs sendKey recvCs recvKey) := by
  unfold setRtcpParams RtcpFailsSafely
  by_cases hsessions : s.sendRtcpSession ≠ none ∨ s.recvRtcpSession ≠ none
  · rw [if_pos hsessions]
    refine iff_of_true (fun _ => rfl) fun hsend hrecv => ?_
    rcases hsessions with hne | hne
    · exact absurd hsend hne
    · exact absurd hrecv hne
  · have hsendNone : s.sendRtcpSession = none := by
      by_contra hne
      exact hsessions (.inl hne)
    have hrecvNone : s.recvRtcpSession = none := by
      by_contra hne
      exact hsessions (.inr hne)
    rw [if_neg hsessions, setKey_new]
    dsimp only
    rw [setKey_new]
    generalize newKey env s.setKeyCalls .ssrc_any_inbound sendCs sendKey = newSend
    generalize newKey env (s.setKeyCalls + 1) .ssrc_any_inbound recvCs recvKey = newRecv
    by_cases hactive : s.isActive
    · have hkeys : s.keys = ⟨s.sendKey, s.recvKey, s.sendKey, s.recvKey⟩ := by
        rw [keys_of_active hactive, hsendNone, hrecvNone]
        rfl
      cases newSend with
      | none =>
        -- Only the session for sending has been made.
        let left := { s with sendRtcpSession := some ⟨none⟩, setKeyCalls := s.setKeyCalls + 1 }
        have hleft : left.keys = ⟨s.sendKey, s.recvKey, none, s.recvKey⟩ := by
          rw [keys_of_active (s := left) hactive, show left.recvRtcpSession = none from hrecvNone]
          rfl
        constructor
        · intro hkeep _ _
          have heq := hleft.symm.trans ((hkeep rfl).trans hkeys)
          exact .inr (.inr ⟨(congrArg Keys.protectRtcp heq).symm, fun hsome => by cases hsome⟩)
        · intro hsafe _
          have hsafe := (hsafe hsendNone hrecvNone).resolve_left fun hsome => by cases hsome.1
          refine hleft.trans ?_
          rw [hkeys, (hsafe.resolve_left (not_not.mpr hactive)).1]
      | some send =>
        cases newRecv with
        | none =>
          let left := { s with
            sendRtcpSession := some ⟨some send⟩
            recvRtcpSession := some ⟨none⟩
            setKeyCalls := s.setKeyCalls + 1 + 1 }
          have hleft : left.keys = ⟨s.sendKey, s.recvKey, some send, none⟩ :=
            keys_of_active (s := left) hactive
          constructor
          · intro hkeep _ _
            have heq := hleft.symm.trans ((hkeep rfl).trans hkeys)
            exact .inr (.inr ⟨(congrArg Keys.protectRtcp heq).symm,
              fun _ => (congrArg Keys.unprotectRtcp heq).symm⟩)
          · intro hsafe _
            have hsafe := (hsafe hsendNone hrecvNone).resolve_left fun hsome => by cases hsome.2
            obtain ⟨hsend, hrecv⟩ := hsafe.resolve_left (not_not.mpr hactive)
            refine hleft.trans ?_
            rw [hkeys, hsend, hrecv rfl]
        | some recv =>
          exact iff_of_true (fun hfalse => by cases hfalse) fun _ _ => .inl ⟨rfl, rfl⟩
    · refine iff_of_true (fun _ => ?_) fun _ _ => .inr (.inl hactive)
      rw [keys_of_inactive hactive]
      split
      · exact keys_of_inactive hactive
      · exact keys_of_inactive hactive

theorem call_failed_keys_iff (env : Env) (s : SrtpFilter) (c : Call) :
    ((s.call env c).1 = false → (s.call env c).2.keys = s.keys) ↔ s.FailsSafely env c := by
  cases c with
  | setOffer params source =>
    refine iff_of_true ?_ trivial
    unfold call setOffer
    dsimp only
    split
    · exact fun hfalse => by cases hfalse
    · exact fun _ => rfl
  | setProvisionalAnswer params source => exact doSetAnswer_failed_iff params source false
  | setAnswer params source => exact doSetAnswer_failed_iff params source true
  | setRtpParams sendCs sendKey recvCs recvKey =>
    exact setRtpParams_failed_iff sendCs sendKey recvCs recvKey
  | setRtcpParams sendCs sendKey recvCs recvKey =>
    exact setRtcpParams_failed_iff sendCs sendKey recvCs recvKey

/-- A libsrtp that takes every key, and a decoder that knows 40 times the same
letter. -/
def zeroEnv : Env where
  srtpCreate := fun _ _ => true
  base64Decode := fun cs =>
    if cs = List.replicate 40 'A' then some (List.replicate SRTP_MASTER_KEY_LEN 0) else none

/-- Parameters with a suite that is not supported. -/
def unsupportedParams : CryptoParams where
  tag := 1
  cipherSuite := "F8_128_HMAC_SHA1_80"
  keyParams := "inline:AAAAAAAAAAAAAAAAAAAAAAAAAAAAAAAAAAAAAAAA"

/-- A filter with keys, which offers a suite that is not supported. -/
def rekeyingCalls : List Call :=
  [.setRtpParams CS_AES_CM_128_HMAC_SHA1_80 (some (List.replicate 30 1))
      CS_AES_CM_128_HMAC_SHA1_80 (some (List.replicate 30 2)),
    .setOffer [unsupportedParams] .CS_LOCAL]

/-- The answer is refused, and the filter goes on without keys. -/
theorem keys_lost_on_failure : ¬ ∀ (env : Env) (calls : List Call) (c : Call),
    let s := Machine.run (step env) {} calls
    (s.call env c).1 = false → (s.call env c).2.keys = s.keys := by
  intro h
  have hlost := h zeroEnv rekeyingCalls (.setAnswer [unsupportedParams] .CS_REMOTE)
    (by decide +kernel)
  exact absurd hlost (by decide +kernel)

end SrtpFilter

end PerchWebrtc.Srtp
