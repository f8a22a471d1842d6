import PerchWebrtc.Framework.Bytes
import PerchWebrtc.Framework.Machine

/-!
# Negotiation of SRTP keys

`SrtpFilter` (`srtpfilter.cc`): the keys of a media channel, from the crypto
parameters of offers and answers or set directly. A session of libsrtp is the key
that it was made with.
-/

namespace PerchWebrtc.Srtp

def CS_AES_CM_128_HMAC_SHA1_80 : String := "AES_CM_128_HMAC_SHA1_80"
def CS_AES_CM_128_HMAC_SHA1_32 : String := "AES_CM_128_HMAC_SHA1_32"
def SRTP_MASTER_KEY_LEN : Nat := 30

inductive ContentSource where
  | CS_LOCAL
  | CS_REMOTE
  deriving DecidableEq

structure CryptoParams where
  tag : Int := 0
  cipherSuite : String := ""
  keyParams : String := ""
  sessionParams : String := ""
  deriving DecidableEq

def CryptoParams.Matches (p params : CryptoParams) : Prop :=
  p.tag = params.tag ∧ p.cipherSuite = params.cipherSuite

instance (p params : CryptoParams) : Decidable (p.Matches params) :=
  inferInstanceAs (Decidable (_ ∧ _))

inductive SsrcType where
  | ssrc_any_outbound
  | ssrc_any_inbound
  deriving DecidableEq

structure SrtpKey where
  type : SsrcType
  cipherSuite : String
  key : List Byte
  deriving DecidableEq

/-- What a filter does not control: whether `srtp_init` and `srtp_create` succeed in
each call of `SetKey`, and the strict decoder of base64. -/
structure Env where
  srtpCreate : Nat → SrtpKey → Bool
  base64Decode : List Char → Option (List Byte)

/-! ## Sessions -/

structure SrtpSession where
  session : Option SrtpKey := none
  deriving DecidableEq

namespace SrtpSession

variable (env : Env)

/-- `SetKey`, the call of a number; a key is `none` for a null pointer. -/
def setKey (call : Nat) (type : SsrcType) (cs : String) (key : Option (List Byte))
    (s : SrtpSession) : Bool × SrtpSession :=
  if s.session ≠ none then (false, s)
  else if cs ≠ CS_AES_CM_128_HMAC_SHA1_80 ∧ cs ≠ CS_AES_CM_128_HMAC_SHA1_32 then (false, s)
  else
    match key with
    | none => (false, s)
    | some key =>
      if key.length ≠ SRTP_MASTER_KEY_LEN then (false, s)
      else if env.srtpCreate call ⟨type, cs, key⟩ then (true, ⟨some ⟨type, cs, key⟩⟩)
      else (false, s)

end SrtpSession

/-! ## The filter -/

/-- In the order of the source, in which the states from `ST_ACTIVE` on are active. -/
inductive State where
  | ST_INIT
  | ST_SENTOFFER
  | ST_RECEIVEDOFFER
  | ST_SENTPRANSWER_NO_CRYPTO
  | ST_RECEIVEDPRANSWER_NO_CRYPTO
  | ST_ACTIVE
  | ST_SENTUPDATEDOFFER
  | ST_RECEIVEDUPDATEDOFFER
  | ST_SENTPRANSWER
  | ST_RECEIVEDPRANSWER
  deriving DecidableEq

/-- The value of the enumeration. -/
def State.value : State → Nat
  | ST_INIT => 0
  | ST_SENTOFFER => 1
  | ST_RECEIVEDOFFER => 2
  | ST_SENTPRANSWER_NO_CRYPTO => 3
  | ST_RECEIVEDPRANSWER_NO_CRYPTO => 4
  | ST_ACTIVE => 5
  | ST_SENTUPDATEDOFFER => 6
  | ST_RECEIVEDUPDATEDOFFER => 7
  | ST_SENTPRANSWER => 8
  | ST_RECEIVEDPRANSWER => 9

structure SrtpFilter where
  state : State := .ST_INIT
  offerParams : List CryptoParams := []
  sendSession : Option SrtpSession := none
  recvSession : Option SrtpSession := none
  sendRtcpSession : Option SrtpSession := none
  recvRtcpSession : Option SrtpSession := none
  appliedSendParams : CryptoParams := {}
  appliedRecvParams : CryptoParams := {}
  /-- How often `SetKey` has been called. -/
  setKeyCalls : Nat := 0

namespace SrtpFilter

variable (env : Env)

def isActive (s : SrtpFilter) : Bool := State.ST_ACTIVE.value ≤ s.state.value

/-! ## Offers -/

def expectOffer (source : ContentSource) (s : SrtpFilter) : Bool :=
  s.state = .ST_INIT ∨ s.state = .ST_ACTIVE ∨
    s.state = .ST_SENTOFFER ∧ source = .CS_LOCAL ∨
    s.state = .ST_SENTUPDATEDOFFER ∧ source = .CS_LOCAL ∨
    s.state = .ST_RECEIVEDOFFER ∧ source = .CS_REMOTE ∨
    s.state = .ST_RECEIVEDUPDATEDOFFER ∧ source = .CS_REMOTE

def storeParams (params : List CryptoParams) (source : ContentSource) (s : SrtpFilter) :
    SrtpFilter :=
  { s with
    offerParams := params
    state :=
      if s.state = .ST_INIT then
        if source = .CS_LOCAL then .ST_SENTOFFER else .ST_RECEIVEDOFFER
      else if source = .CS_LOCAL then .ST_SENTUPDATEDOFFER else .ST_RECEIVEDUPDATEDOFFER }

def setOffer (offerParams : List CryptoParams) (source : ContentSource) (s : SrtpFilter) :
    Bool × SrtpFilter :=
  if s.expectOffer source then (true, s.storeParams offerParams source) else (false, s)

/-! ## Keys -/

def createSrtpSessions (s : SrtpFilter) : SrtpFilter :=
  { s with
    sendSession := some {}
    appliedSendParams := {}
    recvSession := some {}
    appliedRecvParams := {} }

/-- `SetSend` of the session for sending, which has been created. -/
def setSend (cs : String) (key : Option (List Byte)) (s : SrtpFilter) : Bool × SrtpFilter :=
  let set := (s.sendSession.getD {}).setKey env s.setKeyCalls .ssrc_any_outbound cs key
  (set.1, { s with sendSession := some set.2, setKeyCalls := s.setKeyCalls + 1 })

/-- `SetRecv` of the session for receiving, which has been created. -/
def setRecv (cs : String) (key : Option (List Byte)) (s : SrtpFilter) : Bool × SrtpFilter :=
  let set := (s.recvSession.getD {}).setKey env s.setKeyCalls .ssrc_any_inbound cs key
  (set.1, { s with recvSession := some set.2, setKeyCalls := s.setKeyCalls + 1 })

/-- New sessions with two keys: what `SetRtpParams` and `ApplyParams` share. -/
def setKeys (sendCs : String) (sendKey : Option (List Byte)) (recvCs : String)
    (recvKey : Option (List Byte)) (s : SrtpFilter) : Bool × SrtpFilter :=
  match s.createSrtpSessions.setSend env sendCs sendKey with
  | (false, s) => (false, s)
  | (true, s) => s.setRecv env recvCs recvKey

def setRtpParams (sendCs : String) (sendKey : Option (List Byte)) (recvCs : String)
    (recvKey : Option (List Byte)) (s : SrtpFilter) : Bool × SrtpFilter :=
  if s.state = .ST_ACTIVE then (false, s)
  else
    match s.setKeys env sendCs sendKey recvCs recvKey with
    | (false, s) => (false, s)
    | (true, s) => (true, { s with state := .ST_ACTIVE })

/-- The source calls `SetRecv` of both sessions. -/
def setRtcpParams (sendCs : String) (sendKey : Option (List Byte)) (recvCs : String)
    (recvKey : Option (List Byte)) (s : SrtpFilter) : Bool × SrtpFilter :=
  if s.sendRtcpSession ≠ none ∨ s.recvRtcpSession ≠ none then (false, s)
  else
    let send := ({} : SrtpSession).setKey env s.setKeyCalls .ssrc_any_inbound sendCs sendKey
    let s := { s with sendRtcpSession := some send.2, setKeyCalls := s.setKeyCalls + 1 }
    if send.1 then
      let recv := ({} : SrtpSession).setKey env s.setKeyCalls .ssrc_any_inbound recvCs recvKey
      (recv.1, { s with recvRtcpSession := some recv.2, setKeyCalls := s.setKeyCalls + 1 })
    else (false, s)

/-! ## Answers -/

def expectAnswer (source : ContentSource) (s : SrtpFilter) : Bool :=
  s.state = .ST_SENTOFFER ∧ source = .CS_REMOTE ∨
    s.state = .ST_RECEIVEDOFFER ∧ source = .CS_LOCAL ∨
    s.state = .ST_SENTUPDATEDOFFER ∧ source = .CS_REMOTE ∨
    s.state = .ST_RECEIVEDUPDATEDOFFER ∧ source = .CS_LOCAL ∨
    s.state = .ST_SENTPRANSWER_NO_CRYPTO ∧ source = .CS_LOCAL ∨
    s.state = .ST_SENTPRANSWER ∧ source = .CS_LOCAL ∨
    s.state = .ST_RECEIVEDPRANSWER_NO_CRYPTO ∧ source = .CS_REMOTE ∨
    s.state = .ST_RECEIVEDPRANSWER ∧ source = .CS_REMOTE

/-- The offered parameters that an answer selects. -/
def negotiateParams (answerParams : List CryptoParams) (s : SrtpFilter) : Option CryptoParams :=
  match answerParams with
  | [answer] => s.offerParams.find? fun offer => answer.Matches offer
  | _ => none

def parseKeyParams (keyParams : String) : Option (List Byte) :=
  if "inline:".toList.isPrefixOf keyParams.toList then
    (env.base64Decode (keyParams.toList.drop 7)).filter fun key =>
      key.length = SRTP_MASTER_KEY_LEN
  else none

/-- The parameters are those that were applied last. -/
def Applied (sendParams recvParams : CryptoParams) (s : SrtpFilter) : Prop :=
  s.appliedSendParams.cipherSuite = sendParams.cipherSuite ∧
    s.appliedSendParams.keyParams = sendParams.keyParams ∧
    s.appliedRecvParams.cipherSuite = recvParams.cipherSuite ∧
    s.appliedRecvParams.keyParams = recvParams.keyParams

instance (sendParams recvParams : CryptoParams) (s : SrtpFilter) :
    Decidable (s.Applied sendParams recvParams) := inferInstanceAs (Decidable (_ ∧ _))

def applyParams (sendParams recvParams : CryptoParams) (s : SrtpFilter) : Bool × SrtpFilter :=
  if s.Applied sendParams recvParams then (true, s)
  else
    match parseKeyParams env sendParams.keyParams, parseKeyParams env recvParams.keyParams with
    | some sendKey, some recvKey =>
      match s.setKeys env sendParams.cipherSuite (some sendKey) recvParams.cipherSuite
        (some recvKey) with
      | (false, s) => (false, s)
      | (true, s) =>
        (true, { s with appliedSendParams := sendParams, appliedRecvParams := recvParams })
    | _, _ => (false, s)

def resetParams (s : SrtpFilter) : SrtpFilter := { s with offerParams := [], state := .ST_INIT }

/-- The parameters to send with, and those to receive with. -/
def directed (source : ContentSource) (answer selected : CryptoParams) :
    CryptoParams × CryptoParams :=
  if source = .CS_REMOTE then (selected, answer) else (answer, selected)

def doSetAnswer (answerParams : List CryptoParams) (source : ContentSource) (final : Bool)
    (s : SrtpFilter) : Bool × SrtpFilter :=
  if ¬ s.expectAnswer source then (false, s)
  else
    match answerParams with
    | [] =>
      if final then (true, s.resetParams)
      else
        (true, { s with
          state := if source = .CS_LOCAL then .ST_SENTPRANSWER_NO_CRYPTO
            else .ST_RECEIVEDPRANSWER_NO_CRYPTO })
    | answer :: _ =>
      match s.negotiateParams answerParams with
      | none => (false, s)
      | some selected =>
        let params := directed source answer selected
        match s.applyParams env params.1 params.2 with
        | (false, s) => (false, s)
        | (true, s) =>
          if final then (true, { s with offerParams := [], state := .ST_ACTIVE })
          else
            (true, { s with
              state := if source = .CS_LOCAL then .ST_SENTPRANSWER else .ST_RECEIVEDPRANSWER })

def setAnswer (answerParams : List CryptoParams) (source : ContentSource) (s : SrtpFilter) :
    Bool × SrtpFilter := s.doSetAnswer env answerParams source true

def setProvisionalAnswer (answerParams : List CryptoParams) (source : ContentSource)
    (s : SrtpFilter) : Bool × SrtpFilter := s.doSetAnswer env answerParams source false

end SrtpFilter

/-! ## Calls -/

inductive Call where
  | setOffer (params : List CryptoParams) (source : ContentSource)
  | setProvisionalAnswer (params : List CryptoParams) (source : ContentSource)
  | setAnswer (params : List CryptoParams) (source : ContentSource)
  | setRtpParams (sendCs : String) (sendKey : Option (List Byte)) (recvCs : String)
    (recvKey : Option (List Byte))
  | setRtcpParams (sendCs : String) (sendKey : Option (List Byte)) (recvCs : String)
    (recvKey : Option (List Byte))

def SrtpFilter.call (env : Env) (s : SrtpFilter) : Call → Bool × SrtpFilter
  | .setOffer params source => s.setOffer params source
  | .setProvisionalAnswer params source => s.setProvisionalAnswer env params source
  | .setAnswer params source => s.setAnswer env params source
  | .setRtpParams sendCs sendKey recvCs recvKey => s.setRtpParams env sendCs sendKey recvCs recvKey
  | .setRtcpParams sendCs sendKey recvCs recvKey =>
    s.setRtcpParams env sendCs sendKey recvCs recvKey

def SrtpFilter.step (env : Env) (s : SrtpFilter) (c : Call) : SrtpFilter := (s.call env c).2

end PerchWebrtc.Srtp
