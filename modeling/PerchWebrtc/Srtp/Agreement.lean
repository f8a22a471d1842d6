import PerchWebrtc.Srtp.Activation

/-!
# Two filters that negotiate

Two filters take the same offers and answers, what is local to one being remote to
the other. Each has a libsrtp of its own, which may refuse keys.

* `Mirrored`: the states, the offers and the applied parameters of one side are
  those of the other, seen from there; `Mirrored.step`;
* `HoldsApplied`: the keys in use are those of the parameters applied last;
* `answers_agree`: while no signal is accepted by one filter and refused by the
  other, an accepted answer leaves both sides with the same keys.
-/

namespace PerchWebrtc.Srtp

inductive Body where
  | offer (params : List CryptoParams)
  | provisionalAnswer (params : List CryptoParams)
  | answer (params : List CryptoParams)

/-- A signal of one of the sides. -/
structure Signal where
  fromFirst : Bool
  body : Body

def ContentSource.flip : ContentSource → ContentSource
  | CS_LOCAL => CS_REMOTE
  | CS_REMOTE => CS_LOCAL

/-- What a signal is to the first side. -/
def Signal.source (signal : Signal) : ContentSource :=
  if signal.fromFirst then .CS_LOCAL else .CS_REMOTE

def SrtpFilter.process (env : Env) (source : ContentSource) (s : SrtpFilter) :
    Body → Bool × SrtpFilter
  | .offer params => s.setOffer params source
  | .provisionalAnswer params => s.setProvisionalAnswer env params source
  | .answer params => s.setAnswer env params source

/-- The libraries of two sides: each its libsrtp, and the decoder. -/
structure Libraries where
  srtpCreateFirst : Nat → SrtpKey → Bool
  srtpCreateSecond : Nat → SrtpKey → Bool
  base64Decode : List Char → Option (List Byte)

def Libraries.first (l : Libraries) : Env := ⟨l.srtpCreateFirst, l.base64Decode⟩

def Libraries.second (l : Libraries) : Env := ⟨l.srtpCreateSecond, l.base64Decode⟩

structure Negotiation where
  first : SrtpFilter := {}
  second : SrtpFilter := {}

namespace Negotiation

variable (l : Libraries)

def atFirst (n : Negotiation) (signal : Signal) : Bool × SrtpFilter :=
  n.first.process l.first signal.source signal.body

def atSecond (n : Negotiation) (signal : Signal) : Bool × SrtpFilter :=
  n.second.process l.second signal.source.flip signal.body

def step (n : Negotiation) (signal : Signal) : Negotiation :=
  { first := (n.atFirst l signal).2, second := (n.atSecond l signal).2 }

/-- Both sides accept a signal, or both refuse it. -/
def Alike (n : Negotiation) (signal : Signal) : Prop :=
  (n.atFirst l signal).1 = (n.atSecond l signal).1

instance (n : Negotiation) (signal : Signal) : Decidable (n.Alike l signal) :=
  inferInstanceAs (Decidable (_ = _))

/-- Both sides accept a signal, and are active afterwards. -/
def Activates (n : Negotiation) (signal : Signal) : Prop :=
  (n.atFirst l signal).1 = true ∧ (n.atSecond l signal).1 = true ∧
    (n.step l signal).first.isActive ∧ (n.step l signal).second.isActive

/-- Each side sends with the suite and the key that the other receives with. -/
def Agrees (n : Negotiation) : Prop :=
  n.first.sendKey.map (fun key => (key.cipherSuite, key.key)) =
      n.second.recvKey.map (fun key => (key.cipherSuite, key.key)) ∧
    n.second.sendKey.map (fun key => (key.cipherSuite, key.key)) =
      n.first.recvKey.map (fun key => (key.cipherSuite, key.key))

instance (n : Negotiation) : Decidable n.Agrees := inferInstanceAs (Decidable (_ ∧ _))

end Negotiation

/-! ## Mirrored states -/

/-- A state as the other side has it. -/
def State.mirror : State → State
  | ST_INIT => ST_INIT
  | ST_SENTOFFER => ST_RECEIVEDOFFER
  | ST_RECEIVEDOFFER => ST_SENTOFFER
  | ST_SENTPRANSWER_NO_CRYPTO => ST_RECEIVEDPRANSWER_NO_CRYPTO
  | ST_RECEIVEDPRANSWER_NO_CRYPTO => ST_SENTPRANSWER_NO_CRYPTO
  | ST_ACTIVE => ST_ACTIVE
  | ST_SENTUPDATEDOFFER => ST_RECEIVEDUPDATEDOFFER
  | ST_RECEIVEDUPDATEDOFFER => ST_SENTUPDATEDOFFER
  | ST_SENTPRANSWER => ST_RECEIVEDPRANSWER
  | ST_RECEIVEDPRANSWER => ST_SENTPRANSWER

namespace SrtpFilter

/-- Nothing has been applied to the sessions, or they have the keys of the
parameters that were applied. -/
def HoldsApplied (env : Env) (s : SrtpFilter) : Prop :=
  s.appliedSendParams = {} ∧ s.appliedRecvParams = {} ∨
    ∃ sendKey recvKey,
      parseKeyParams env s.appliedSendParams.keyParams = some sendKey ∧
      parseKeyParams env s.appliedRecvParams.keyParams = some recvKey ∧
      s.sendKey = some ⟨.ssrc_any_outbound, s.appliedSendParams.cipherSuite, sendKey⟩ ∧
      s.recvKey = some ⟨.ssrc_any_inbound, s.appliedRecvParams.cipherSuite, recvKey⟩

/-- What two filters that took the same signals have in common. -/
structure Mirrored (l : Libraries) (s s' : SrtpFilter) : Prop where
  state : s'.state = s.state.mirror
  offerParams : s'.offerParams = s.offerParams
  sendParams : s'.appliedSendParams = s.appliedRecvParams
  recvParams : s'.appliedRecvParams = s.appliedSendParams
  holds : s.HoldsApplied l.first
  holds' : s'.HoldsApplied l.second

theorem expectOffer_mirror {s s' : SrtpFilter} (h : s'.state = s.state.mirror)
    (source : ContentSource) : s'.expectOffer source.flip = s.expectOffer source := by
  unfold expectOffer
  rw [h]
  generalize s.state = state
  cases state <;> cases source <;> rfl

theorem expectAnswer_mirror {s s' : SrtpFilter} (h : s'.state = s.state.mirror)
    (source : ContentSource) : s'.expectAnswer source.flip = s.expectAnswer source := by
  unfold expectAnswer
  rw [h]
  generalize s.state = state
  cases state <;> cases source <;> rfl

/-! ## Keys -/

section Keys

variable (env : Env) (s : SrtpFilter) (sendCs : String) (sendKey : Option (List Byte))
  (recvCs : String) (recvKey : Option (List Byte))

theorem newKey_some {call : Nat} {type : SsrcType} {cs : String} {key : List Byte} {k : SrtpKey}
    (h : newKey env call type cs (some key) = some k) : k = ⟨type, cs, key⟩ := by
  unfold newKey at h
  split at h
  · cases h
  · rw [Option.map_some, Option.filter_some] at h
    split at h
    · cases h
      rfl
    · cases h

theorem setKeys_applied :
    (s.setKeys env sendCs sendKey recvCs recvKey).2.appliedSendParams = {} ∧
      (s.setKeys env sendCs sendKey recvCs recvKey).2.appliedRecvParams = {} := by
  rw [setKeys_eq]
  split
  · exact ⟨rfl, rfl⟩
  · exact ⟨rfl, rfl⟩

theorem setKeys_offerParams :
    (s.setKeys env sendCs sendKey recvCs recvKey).2.offerParams = s.offerParams := by
  rw [setKeys_eq]
  split
  · rfl
  · rfl

end Keys

/-- What `applyParams` leaves: nothing changed, new sessions without keys, or new
sessions with the keys of the parameters. -/
theorem applyParams_holds (env : Env) {s : SrtpFilter} (h : s.HoldsApplied env)
    (sendParams recvParams : CryptoParams) :
    let applied := s.applyParams env sendParams recvParams
    applied.2.HoldsApplied env ∧ applied.2.state = s.state ∧
      applied.2.offerParams = s.offerParams ∧
      (applied.1 = true → applied.2.Applied sendParams recvParams) := by
  dsimp only
  rcases s.applyParams_cases env sendParams recvParams with ⟨happlied, heq⟩ | ⟨-, -, heq⟩ |
    ⟨-, sendKey, recvKey, hsend, hrecv, heq⟩
  · rw [heq]
    exact ⟨h, rfl, rfl, fun _ => happlied⟩
  · rw [heq]
    exact ⟨h, rfl, rfl, fun hfalse => by cases hfalse⟩
  · have hstate := s.setKeys_state env sendParams.cipherSuite (some sendKey)
      recvParams.cipherSuite (some recvKey)
    have hoffer := s.setKeys_offerParams env sendParams.cipherSuite (some sendKey)
      recvParams.cipherSuite (some recvKey)
    rw [heq]
    dsimp only
    by_cases haccepts : s.Accepts env sendParams.cipherSuite (some sendKey) recvParams.cipherSuite
      (some recvKey)
    · rw [if_pos ((setKeys_fst ..).mpr haccepts)]
      obtain ⟨hsendSome, hrecvSome⟩ := haccepts
      obtain ⟨send, hnewSend⟩ := Option.isSome_iff_exists.mp hsendSome
      obtain ⟨recv, hnewRecv⟩ := Option.isSome_iff_exists.mp hrecvSome
      have hsendKey := s.setKeys_sendKey env sendParams.cipherSuite (some sendKey)
        recvParams.cipherSuite (some recvKey)
      have hrecvKey := s.setKeys_recvKey env sendParams.cipherSuite (some sendKey)
        recvParams.cipherSuite (some recvKey)
      rw [if_pos hsendSome] at hrecvKey
      refine ⟨.inr ⟨sendKey, recvKey, hsend, hrecv, ?_, ?_⟩, hstate, hoffer, fun _ =>
        ⟨rfl, rfl, rfl, rfl⟩⟩
      · refine hsendKey.trans (hnewSend.trans ?_)
        rw [newKey_some env hnewSend]
      · refine hrecvKey.trans (hnewRecv.trans ?_)
        rw [newKey_some env hnewRecv]
    · rw [if_neg (mt (setKeys_fst ..).mp haccepts)]
      exact ⟨.inl (setKeys_applied ..), hstate, hoffer, fun hfalse => by cases hfalse⟩

/-- The parameters that are applied, after the same result on both sides. -/
theorem applyParams_mirrored {l : Libraries} {s s' : SrtpFilter} (h : Mirrored l s s')
    {sendParams recvParams : CryptoParams}
    (halike : (s.applyParams l.first sendParams recvParams).1 =
      (s'.applyParams l.second recvParams sendParams).1) :
    Mirrored l (s.applyParams l.first sendParams recvParams).2
      (s'.applyParams l.second recvParams sendParams).2 := by
  obtain ⟨hholds, hstate, hoffer, -⟩ := applyParams_holds l.first h.holds sendParams recvParams
  obtain ⟨hholds', hstate', hoffer', -⟩ := applyParams_holds l.second h.holds' recvParams sendParams
  have hparams : (s'.applyParams l.second recvParams sendParams).2.appliedSendParams =
        (s.applyParams l.first sendParams recvParams).2.appliedRecvParams ∧
      (s'.applyParams l.second recvParams sendParams).2.appliedRecvParams =
        (s.applyParams l.first sendParams recvParams).2.appliedSendParams := by
    have happlied : s'.Applied recvParams sendParams ↔ s.Applied sendParams recvParams := by
      unfold Applied
      rw [h.sendParams, h.recvParams]
      tauto
    unfold applyParams at halike ⊢
    by_cases hs : s.Applied sendParams recvParams
    · rw [if_pos hs, if_pos (happlied.mpr hs)]
      exact ⟨h.sendParams, h.recvParams⟩
    · rw [if_neg hs, if_neg fun hs' => hs (happlied.mp hs')] at halike ⊢
      have hparse (params : String) :
          parseKeyParams l.second params = parseKeyParams l.first params := rfl
      rw [hparse, hparse] at halike ⊢
      cases hsend : parseKeyParams l.first sendParams.keyParams with
      | none =>
        cases parseKeyParams l.first recvParams.keyParams with
        | none => exact ⟨h.sendParams, h.recvParams⟩
        | some recvKey => exact ⟨h.sendParams, h.recvParams⟩
      | some sendKey =>
        cases hrecv : parseKeyParams l.first recvParams.keyParams with
        | none => exact ⟨h.sendParams, h.recvParams⟩
        | some recvKey =>
          rw [hsend, hrecv] at halike
          dsimp only at halike ⊢
          have hdefault := s.setKeys_applied l.first sendParams.cipherSuite (some sendKey)
            recvParams.cipherSuite (some recvKey)
          have hdefault' := s'.setKeys_applied l.second recvParams.cipherSuite (some recvKey)
            sendParams.cipherSuite (some sendKey)
          generalize s.setKeys l.first sendParams.cipherSuite (some sendKey)
            recvParams.cipherSuite (some recvKey) = set at halike hdefault
          generalize s'.setKeys l.second recvParams.cipherSuite (some recvKey)
            sendParams.cipherSuite (some sendKey) = set' at halike hdefault'
          obtain ⟨_ | _, s₁⟩ := set
          · obtain ⟨_ | _, s₁'⟩ := set'
            · exact ⟨hdefault'.1.trans hdefault.2.symm, hdefault'.2.trans hdefault.1.symm⟩
            · cases halike
          · obtain ⟨_ | _, s₁'⟩ := set'
            · cases halike
            · exact ⟨rfl, rfl⟩
  exact
    { state := by rw [hstate, hstate', h.state]
      offerParams := by rw [hoffer, hoffer', h.offerParams]
      sendParams := hparams.1
      recvParams := hparams.2
      holds := hholds
      holds' := hholds' }

/-! ## Signals -/

variable {l : Libraries} {s s' : SrtpFilter}

theorem setOffer_mirrored (h : Mirrored l s s') (params : List CryptoParams)
    (source : ContentSource) :
    Mirrored l (s.setOffer params source).2 (s'.setOffer params source.flip).2 := by
  unfold setOffer
  rw [expectOffer_mirror h.state]
  split
  · exact
      { state := by
          show (s'.storeParams params source.flip).state = (s.storeParams params source).state.mirror
          unfold storeParams
          rw [h.state]
          generalize s.state = state
          cases state <;> cases source <;> rfl
        offerParams := rfl
        sendParams := h.sendParams
        recvParams := h.recvParams
        holds := h.holds
        holds' := h.holds' }
  · exact h

theorem directed_flip (source : ContentSource) (answer selected : CryptoParams) :
    directed source.flip answer selected =
      ((directed source answer selected).2, (directed source answer selected).1) := by
  cases source <;> rfl

theorem answered_mirrored (h : Mirrored l s s') (source : ContentSource) (final : Bool) :
    Mirrored l (s.answered source final) (s'.answered source.flip final) := by
  cases final with
  | true => exact ⟨rfl, rfl, h.sendParams, h.recvParams, h.holds, h.holds'⟩
  | false =>
    refine ⟨?_, h.offerParams, h.sendParams, h.recvParams, h.holds, h.holds'⟩
    cases source <;> rfl

theorem doSetAnswer_mirrored (h : Mirrored l s s') (params : List CryptoParams)
    (source : ContentSource) (final : Bool)
    (halike : (s.doSetAnswer l.first params source final).1 =
      (s'.doSetAnswer l.second params source.flip final).1) :
    Mirrored l (s.doSetAnswer l.first params source final).2
      (s'.doSetAnswer l.second params source.flip final).2 := by
  have hexpect' := expectAnswer_mirror h.state source
  by_cases hexpect : s.expectAnswer source
  · rw [hexpect] at hexpect'
    rcases params with _ | ⟨answer, _ | ⟨answer', rest⟩⟩
    · unfold doSetAnswer
      rw [if_neg (not_not.mpr hexpect), if_neg (not_not.mpr hexpect')]
      cases final with
      | true => exact ⟨rfl, rfl, h.sendParams, h.recvParams, h.holds, h.holds'⟩
      | false =>
        refine ⟨?_, h.offerParams, h.sendParams, h.recvParams, h.holds, h.holds'⟩
        cases source <;> rfl
    · cases hfind : s.offerParams.find? fun offer => answer.Matches offer with
      | none =>
        have hfind' := hfind
        rw [← h.offerParams] at hfind'
        unfold doSetAnswer
        rw [if_neg (not_not.mpr hexpect), if_neg (not_not.mpr hexpect')]
        dsimp only [negotiateParams]
        rw [hfind, hfind']
        exact h
      | some selected =>
        have hfind' := hfind
        rw [← h.offerParams] at hfind'
        rw [doSetAnswer_single hexpect hfind, doSetAnswer_single hexpect' hfind',
          directed_flip] at halike ⊢
        dsimp only at halike ⊢
        have hmirrored := @applyParams_mirrored l s s' h (directed source answer selected).1
          (directed source answer selected).2
        generalize s.applyParams l.first (directed source answer selected).1
          (directed source answer selected).2 = applied at halike hmirrored
        generalize s'.applyParams l.second (directed source answer selected).2
          (directed source answer selected).1 = applied' at halike hmirrored
        obtain ⟨_ | _, s₁⟩ := applied
        · obtain ⟨_ | _, s₁'⟩ := applied'
          · exact hmirrored rfl
          · cases halike
        · obtain ⟨_ | _, s₁'⟩ := applied'
          · cases halike
          · exact answered_mirrored (hmirrored rfl) source final
    · unfold doSetAnswer
      rw [if_neg (not_not.mpr hexpect), if_neg (not_not.mpr hexpect')]
      exact h
  · unfold doSetAnswer
    rw [if_pos hexpect, if_pos (by rw [hexpect']; exact hexpect)]
    exact h

/-! ## Agreement -/

/-- Parameters that were applied, and not those of new sessions. -/
theorem agrees_of_applied (h : Mirrored l s s') {sendParams recvParams : CryptoParams}
    (happlied : s.Applied sendParams recvParams)
    (hkeys : sendParams.keyParams ≠ "" ∨ recvParams.keyParams ≠ "") :
    (⟨s, s'⟩ : Negotiation).Agrees := by
  obtain ⟨-, hsendKey, -, hrecvKey⟩ := happlied
  rcases h.holds with ⟨hsend, hrecv⟩ | ⟨sendKey, recvKey, hsend, hrecv, hs, hr⟩
  · rw [hsend] at hsendKey
    rw [hrecv] at hrecvKey
    rcases hkeys with hne | hne
    · exact absurd hsendKey.symm hne
    · exact absurd hrecvKey.symm hne
  · rcases h.holds' with ⟨hsend', hrecv'⟩ | ⟨sendKey', recvKey', hsend', hrecv', hs', hr'⟩
    · rw [h.sendParams] at hsend'
      rw [h.recvParams] at hrecv'
      rw [hrecv'] at hsendKey
      rw [hsend'] at hrecvKey
      rcases hkeys with hne | hne
      · exact absurd hsendKey.symm hne
      · exact absurd hrecvKey.symm hne
    · rw [h.sendParams] at hsend' hs'
      rw [h.recvParams] at hrecv' hr'
      have hsendEq : recvKey' = sendKey := Option.some.inj (hrecv'.symm.trans hsend)
      have hrecvEq : sendKey' = recvKey := Option.some.inj (hsend'.symm.trans hrecv)
      subst hsendEq hrecvEq
      constructor
      · show s.sendKey.map _ = s'.recvKey.map _
        rw [hs, hr']
        rfl
      · show s'.sendKey.map _ = s.recvKey.map _
        rw [hs', hr]
        rfl

theorem answered_agrees (h : (⟨s, s'⟩ : Negotiation).Agrees) (source source' : ContentSource)
    (final : Bool) :
    (⟨s.answered source final, s'.answered source' final⟩ : Negotiation).Agrees := by
  cases final with
  | true => exact h
  | false => exact h

theorem doSetAnswer_agrees (h : Mirrored l s s') {params : List CryptoParams}
    (hkeys : ∀ answer ∈ params, answer.keyParams ≠ "") (source : ContentSource) (final : Bool)
    (haccepts : (s.doSetAnswer l.first params source final).1 = true)
    (haccepts' : (s'.doSetAnswer l.second params source.flip final).1 = true)
    (hactive : (s.doSetAnswer l.first params source final).2.isActive) :
    (⟨(s.doSetAnswer l.first params source final).2,
      (s'.doSetAnswer l.second params source.flip final).2⟩ : Negotiation).Agrees := by
  have hexpect' := expectAnswer_mirror h.state source
  by_cases hexpect : s.expectAnswer source
  · rw [hexpect] at hexpect'
    rcases params with _ | ⟨answer, _ | ⟨answer', rest⟩⟩
    · -- The negotiation of a session without keys.
      unfold doSetAnswer at hactive
      rw [if_neg (not_not.mpr hexpect)] at hactive
      cases final with
      | true => exact absurd hactive Bool.false_ne_true
      | false =>
        cases source with
        | CS_LOCAL => exact absurd hactive Bool.false_ne_true
        | CS_REMOTE => exact absurd hactive Bool.false_ne_true
    · cases hfind : s.offerParams.find? fun offer => answer.Matches offer with
      | none =>
        unfold doSetAnswer at haccepts
        rw [if_neg (not_not.mpr hexpect)] at haccepts
        dsimp only [negotiateParams] at haccepts
        rw [hfind] at haccepts
        cases haccepts
      | some selected =>
        have hfind' := hfind
        rw [← h.offerParams] at hfind'
        have hne : (directed source answer selected).1.keyParams ≠ "" ∨
            (directed source answer selected).2.keyParams ≠ "" := by
          cases source with
          | CS_LOCAL => exact .inl (hkeys answer List.mem_cons_self)
          | CS_REMOTE => exact .inr (hkeys answer List.mem_cons_self)
        rw [doSetAnswer_single hexpect hfind] at haccepts ⊢
        rw [doSetAnswer_single hexpect' hfind', directed_flip] at haccepts' ⊢
        dsimp only at haccepts haccepts' ⊢
        have hmirrored := @applyParams_mirrored l s s' h (directed source answer selected).1
          (directed source answer selected).2
        obtain ⟨-, -, -, happlied⟩ := applyParams_holds l.first h.holds
          (directed source answer selected).1 (directed source answer selected).2
        generalize s.applyParams l.first (directed source answer selected).1
          (directed source answer selected).2 = applied at haccepts hmirrored happlied
        generalize s'.applyParams l.second (directed source answer selected).2
          (directed source answer selected).1 = applied' at haccepts' hmirrored
        obtain ⟨_ | _, s₁⟩ := applied
        · cases haccepts
        · obtain ⟨_ | _, s₁'⟩ := applied'
          · cases haccepts'
          · have hagrees := agrees_of_applied (hmirrored rfl) (happlied rfl) hne
            exact answered_agrees hagrees source source.flip final
    · unfold doSetAnswer at haccepts
      rw [if_neg (not_not.mpr hexpect)] at haccepts
      cases haccepts
  · unfold doSetAnswer at haccepts
    rw [if_pos hexpect] at haccepts
    cases haccepts

end SrtpFilter

/-! ## Runs -/

namespace Negotiation

open SrtpFilter

variable {l : Libraries} {n : Negotiation}

theorem step_mirrored (h : Mirrored l n.first n.second) (signal : Signal)
    (halike : n.Alike l signal) : Mirrored l (n.step l signal).first (n.step l signal).second := by
  obtain ⟨fromFirst, body⟩ := signal
  cases body with
  | offer params => exact setOffer_mirrored h params _
  | provisionalAnswer params => exact doSetAnswer_mirrored h params _ false halike
  | answer params => exact doSetAnswer_mirrored h params _ true halike

theorem run_mirrored {signals : List Signal}
    (h : Machine.Along (step l) (Alike l) {} signals) :
    Mirrored l (Machine.run (step l) {} signals).first
      (Machine.run (step l) {} signals).second := by
  have hstart : Mirrored l ({} : SrtpFilter) {} :=
    ⟨rfl, rfl, rfl, rfl, .inl ⟨rfl, rfl⟩, .inl ⟨rfl, rfl⟩⟩
  have halways := Machine.always_of_along (I := fun n => Mirrored l n.first n.second)
    (fun n signal hn halike => step_mirrored hn signal halike) hstart h
  have hrun := halways.run_take signals.length
  rw [List.take_length] at hrun
  exact hrun

/-- The answers of a body, for final and provisional ones. -/
def answerOf : Body → Option (List CryptoParams)
  | .offer _ => none
  | .provisionalAnswer params => some params
  | .answer params => some params

/-- In every run of offers and answers in both directions, none of which only one
side accepts, an answer that both accept and that activates both leaves the sides
with each other's keys. -/
theorem answers_agree (l : Libraries) (signals : List Signal)
    (hrun : Machine.Along (step l) (Alike l) {} signals) (signal : Signal)
    (params : List CryptoParams) (hanswer : answerOf signal.body = some params)
    (hkeys : ∀ answer ∈ params, answer.keyParams ≠ "")
    (hactivates : (Machine.run (step l) {} signals).Activates l signal) :
    ((Machine.run (step l) {} signals).step l signal).Agrees := by
  have hmirrored := run_mirrored hrun
  generalize Machine.run (step l) {} signals = n at hmirrored hactivates
  obtain ⟨hfirst, hsecond, hactive, -⟩ := hactivates
  obtain ⟨fromFirst, body⟩ := signal
  cases body with
  | offer params => cases hanswer
  | provisionalAnswer params' =>
    cases hanswer
    exact doSetAnswer_agrees hmirrored hkeys _ false hfirst hsecond hactive
  | answer params' =>
    cases hanswer
    exact doSetAnswer_agrees hmirrored hkeys _ true hfirst hsecond hactive

/-- Key parameters of 40 times one letter of base64. -/
def lettersParams (letter : Char) : CryptoParams where
  tag := 1
  cipherSuite := CS_AES_CM_128_HMAC_SHA1_80
  keyParams := String.ofList ("inline:".toList ++ List.replicate 40 letter)

/-- The decoder knows the letters of these parameters. -/
def decodeLetters (cs : List Char) : Option (List Byte) :=
  if cs = List.replicate 40 'A' then some (List.replicate 30 0)
  else if cs = List.replicate 40 'B' then
    some (List.replicate 10 [0x04, 0x10, 0x41]).flatten
  else if cs = List.replicate 40 'C' then
    some (List.replicate 10 [0x08, 0x20, 0x82]).flatten
  else none

/-- Libraries that take a key or refuse it by the number of the call. -/
def byCall (first second : Nat → Bool) : Libraries where
  srtpCreateFirst := fun call _ => first call
  srtpCreateSecond := fun call _ => second call
  base64Decode := decodeLetters

def willing : Libraries := byCall (fun _ => true) fun _ => true

/-- An offer that is answered. -/
theorem answers_agree_letters :
    ((Machine.run (step willing) {}
      [⟨true, .offer [lettersParams 'A']⟩]).step willing
        ⟨false, .answer [lettersParams 'B']⟩).Agrees :=
  answers_agree willing [⟨true, .offer [lettersParams 'A']⟩]
    ⟨rfl, trivial⟩ ⟨false, .answer [lettersParams 'B']⟩ [lettersParams 'B'] rfl
    (by decide +kernel) ⟨by decide +kernel, by decide +kernel, by decide +kernel, by decide +kernel⟩

/-- A provisional answer that only the first side accepts, an offer that only the
second one does, and an answer. -/
def crossedSignals : List Signal :=
  [⟨true, .offer [lettersParams 'A']⟩, ⟨false, .provisionalAnswer [lettersParams 'C']⟩,
    ⟨true, .offer [lettersParams 'B']⟩]

/-- An answer that both sides refuse, after the first one has a key for sending. -/
def refusedSignals : List Signal :=
  [⟨true, .offer [lettersParams 'A', {}]⟩, ⟨false, .answer [lettersParams 'B']⟩]

/-- The second side refuses an answer that the first one accepts; or both refuse it,
and take one without keys. -/
theorem not_answers_agree :
    (¬ ∀ (l : Libraries) (signals : List Signal) (signal : Signal) (params : List CryptoParams),
      answerOf signal.body = some params → (∀ answer ∈ params, answer.keyParams ≠ "") →
      (Machine.run (step l) {} signals).Activates l signal →
      ((Machine.run (step l) {} signals).step l signal).Agrees) ∧
    ¬ ∀ (l : Libraries) (signals : List Signal) (signal : Signal) (params : List CryptoParams),
      Machine.Along (step l) (Alike l) {} signals → answerOf signal.body = some params →
      (Machine.run (step l) {} signals).Activates l signal →
      ((Machine.run (step l) {} signals).step l signal).Agrees := by
  constructor
  · intro h
    have hagrees := h (byCall (fun _ => true) fun call => call ≠ 0) crossedSignals
      ⟨false, .answer [lettersParams 'C']⟩ [lettersParams 'C'] rfl (by decide +kernel)
      ⟨by decide +kernel, by decide +kernel, by decide +kernel, by decide +kernel⟩
    exact absurd hagrees (by decide +kernel)
  · intro h
    have hagrees := h (byCall (fun call => call ≠ 1) fun call => call ≠ 0) refusedSignals
      ⟨false, .answer [{}]⟩ [{}] ⟨rfl, by decide +kernel, trivial⟩ rfl
      ⟨by decide +kernel, by decide +kernel, by decide +kernel, by decide +kernel⟩
    exact absurd hagrees (by decide +kernel)

end Negotiation

end PerchWebrtc.Srtp
