import PerchWebrtc.Framework.Machine
import PerchWebrtc.Stun.Message

/-!
# Requests and their transactions

`StunRequestManager` and `StunRequest` (`stunrequest.cc`): requests are sent again and again until
a response comes or they time out. The messages of the thread are handled late, but not early. A
handler of a response or of a timeout may send other requests.

* `Phase.next`: one transaction by itself, and how often and how long ago a request was sent that
  times out;
* `Tracks`: each transaction of a manager goes on by itself, with one message on the thread as
  long as it is outstanding;
* `requests_tracked`: runs.
-/

namespace PerchWebrtc.Stun

open Machine

def kStunTypeMask : U16 := 0x0110

/-! ## Requests -/

def MAX_SENDS : ℕ := 9
def DELAY_UNIT : ℕ := 100
def DELAY_MAX_FACTOR : ℕ := 16
def CONNECTION_RESPONSE_TIMEOUT : ℕ := 5 * 1000

def isStunRequestType (msgType : U16) : Bool := msgType &&& kStunTypeMask = 0

/-- No type is −1. -/
def getStunSuccessResponseType (reqType : U16) : Option U16 :=
  if isStunRequestType reqType then some (reqType ||| 0x100) else none

def getStunErrorResponseType (reqType : U16) : Option U16 :=
  if isStunRequestType reqType then some (reqType ||| 0x110) else none

/-- The classes with a `GetNextDelay` of their own, and all others. -/
inductive Kind where
  | stunRequest
  | connectionRequest
  | allocateRequest
  deriving DecidableEq

structure StunRequest where
  id : List Byte
  type : U16
  /-- The class of the messages that `CreateNew` makes. -/
  cls : MessageClass
  kind : Kind
  count : ℕ := 0
  timeout : Bool := false

namespace StunRequest

variable (request : StunRequest)

def getNextDelay : ℕ × StunRequest :=
  match request.kind with
  | .stunRequest =>
    (DELAY_UNIT * min (1 <<< request.count) DELAY_MAX_FACTOR, { request with
      count := request.count + 1
      timeout := request.timeout || request.count + 1 = MAX_SENDS })
  | .connectionRequest => (CONNECTION_RESPONSE_TIMEOUT, { request with timeout := true })
  | .allocateRequest =>
    (100 * max (1 <<< request.count) 2, { request with
      count := request.count + 1
      timeout := request.timeout || request.count + 1 = 5 })

end StunRequest

/-! ## The manager -/

/-- A message `MSG_STUN_SEND` on the thread, for the request that handles it. -/
structure Message where
  due : ℕ
  id : List Byte
  deriving DecidableEq

inductive Action where
  | start (kind : Kind) (delay : ℕ)
  | sent
  | response
  | errorResponse
  | timeout
  | removed

structure Record where
  id : List Byte
  time : ℕ
  action : Action

/-- With the messages of the thread, the clock in milliseconds, and what was done, in order. -/
structure StunRequestManager where
  requests : List StunRequest := []
  messages : List Message := []
  now : ℕ := 0
  log : List Record := []

namespace StunRequestManager

variable (s : StunRequestManager)

def find (id : List Byte) : Option StunRequest := s.requests.find? (·.id = id)

def record (id : List Byte) (action : Action) : StunRequestManager :=
  { s with log := s.log ++ [⟨id, s.now, action⟩] }

/-- There is no result if the transaction is outstanding, which is asserted. -/
def sendDelayed (request : StunRequest) (delay : ℕ) : Option StunRequestManager :=
  if (s.find request.id).isSome then none
  else some { s.record request.id (.start request.kind delay) with
    requests := s.requests ++ [request]
    messages := s.messages ++ [⟨s.now + delay, request.id⟩] }

def sendAll (sends : List (StunRequest × ℕ)) : Option StunRequestManager :=
  sends.foldlM (fun s send => s.sendDelayed send.1 send.2) s

/-- The destructor of a request: it is removed, and its messages are cleared. -/
def delete (id : List Byte) : StunRequestManager :=
  { s with
    requests := s.requests.filter (·.id ≠ id)
    messages := s.messages.filter (·.id ≠ id) }

def remove (id : List Byte) : StunRequestManager :=
  if (s.find id).isSome then (s.record id .removed).delete id else s

def clear : StunRequestManager := (s.requests.map (·.id)).foldl remove s

/-- The handler sends requests before the one that is answered is deleted. -/
def checkResponse (msg : StunMessage) (sends : List (StunRequest × ℕ)) :
    Option (Bool × StunRequestManager) :=
  match s.find msg.transactionId with
  | none => some (false, s)
  | some request =>
    if getStunSuccessResponseType request.type = some msg.type then
      ((s.record request.id .response).sendAll sends).map fun s => (true, s.delete request.id)
    else if getStunErrorResponseType request.type = some msg.type then
      ((s.record request.id .errorResponse).sendAll sends).map fun s => (true, s.delete request.id)
    else some (false, s)

/-- `CheckResponse` of bytes. -/
def checkPacket (data : List Byte) (sends : List (StunRequest × ℕ)) :
    Option (Bool × StunRequestManager) :=
  if data.length < 20 then some (false, s)
  else
    match s.find ((data.drop kStunTransactionIdOffset).take kStunTransactionIdLength) with
    | none => some (false, s)
    | some request =>
      match StunMessage.read request.cls data with
      | none => some (false, s)
      | some reading => s.checkResponse reading.message sends

/-- The thread takes a message from its queue. -/
def take (m : Message) : StunRequestManager := { s with messages := s.messages.erase m }

/-- There is no result if the handler of the message has been deleted. -/
def onMessage (m : Message) (sends : List (StunRequest × ℕ)) : Option StunRequestManager :=
  match s.find m.id with
  | none => none
  | some request =>
    if request.timeout then
      (((s.take m).record request.id .timeout).sendAll sends).map fun s => s.delete request.id
    else
      let next := request.getNextDelay
      some { s.record request.id .sent with
        requests := s.requests.map fun r => if r.id = request.id then next.2 else r
        messages := (s.take m).messages ++ [⟨s.now + next.1, request.id⟩] }

end StunRequestManager

inductive Event where
  | sendDelayed (request : StunRequest) (delay : ℕ)
  | remove (id : List Byte)
  | clear
  | response (msg : StunMessage) (sends : List (StunRequest × ℕ))
  | packet (data : List Byte) (sends : List (StunRequest × ℕ))
  | message (m : Message) (sends : List (StunRequest × ℕ))
  | elapse (ms : ℕ)

namespace StunRequestManager

def step (s : StunRequestManager) : Event → Option StunRequestManager
  | .sendDelayed request delay => s.sendDelayed request delay
  | .remove id => some (s.remove id)
  | .clear => some s.clear
  | .response msg sends => (s.checkResponse msg sends).map Prod.snd
  | .packet data sends => (s.checkPacket data sends).map Prod.snd
  | .message m sends => s.onMessage m sends
  | .elapse ms => some { s with now := s.now + ms }

/-- New requests with identifiers that are not in use. -/
def Fresh (s : StunRequestManager) (sends : List (StunRequest × ℕ)) : Prop :=
  (sends.map (·.1.id)).Nodup ∧
    ∀ send ∈ sends, s.find send.1.id = none ∧ send.1.count = 0 ∧ send.1.timeout = false

/-- What may happen: requests are new, and a message is on the thread and due. -/
def Enabled (s : StunRequestManager) : Event → Prop
  | .sendDelayed request delay => s.Fresh [(request, delay)]
  | .response _ sends | .packet _ sends => s.Fresh sends
  | .message m sends => m ∈ s.messages ∧ m.due ≤ s.now ∧ s.Fresh sends
  | _ => True

end StunRequestManager

/-! ## One transaction -/

namespace Kind

def maxSends : Kind → ℕ
  | .stunRequest => 9
  | .connectionRequest => 1
  | .allocateRequest => 5

/-- How long to wait after so many sends, and one more. -/
def interval : Kind → ℕ → ℕ
  | .stunRequest, n => 100 * min (2 ^ n) 16
  | .connectionRequest, _ => 5000
  | .allocateRequest, n => 100 * max (2 ^ n) 2

/-- How long so many sends take at least. -/
def elapsed (kind : Kind) (sends : ℕ) : ℕ := ((List.range sends).map kind.interval).sum

theorem elapsed_succ (kind : Kind) (sends : ℕ) :
    kind.elapsed (sends + 1) = kind.elapsed sends + kind.interval sends := by
  simp [elapsed, List.range_succ]

end Kind

inductive Phase where
  | idle
  | waiting (kind : Kind) (start sends due : ℕ)

/-- A transaction, started again only when it has ended; what is not allowed has no result. -/
def Phase.next : Phase → ℕ → Action → Option Phase
  | .idle, now, .start kind delay => some (.waiting kind (now + delay) 0 (now + delay))
  | .waiting kind start sends due, now, .sent =>
    if sends < kind.maxSends ∧ due ≤ now then
      some (.waiting kind start (sends + 1) (now + kind.interval sends))
    else none
  | .waiting kind start sends _, now, .timeout =>
    if sends = kind.maxSends ∧ start + kind.elapsed kind.maxSends ≤ now then some .idle else none
  | .waiting .., _, .response | .waiting .., _, .errorResponse | .waiting .., _, .removed =>
    some .idle
  | _, _, _ => none

def Phase.after (records : List Record) : Option Phase :=
  records.foldl (fun phase r => phase.bind (·.next r.time r.action)) (some .idle)

/-- What was done for a transaction. -/
def history (id : List Byte) (log : List Record) : List Record := log.filter (·.id = id)

theorem Phase.after_append (l : List Record) (r : Record) :
    Phase.after (l ++ [r]) = (Phase.after l).bind (·.next r.time r.action) := by
  rw [Phase.after, List.foldl_append]
  rfl

/-! ## All transactions -/

namespace StunRequest

/-- How often a request was sent. -/
def sends (request : StunRequest) : ℕ :=
  match request.kind with
  | .connectionRequest => if request.timeout then 1 else 0
  | _ => request.count

structure Consistent (request : StunRequest) : Prop where
  sends_le : request.sends ≤ request.kind.maxSends
  timeout_iff : request.timeout = true ↔ request.sends = request.kind.maxSends

theorem getNextDelay_spec {request : StunRequest} (h : request.Consistent)
    (hwaits : request.timeout = false) :
    let next := request.getNextDelay
    request.sends < request.kind.maxSends ∧ next.1 = request.kind.interval request.sends ∧
      next.2.id = request.id ∧ next.2.kind = request.kind ∧ next.2.sends = request.sends + 1 ∧
      next.2.Consistent := by
  obtain ⟨hle, hiff⟩ := h
  have hlt : request.sends < request.kind.maxSends := by
    refine lt_of_le_of_ne hle fun heq => ?_
    rw [hiff.mpr heq] at hwaits
    cases hwaits
  obtain ⟨id, type, cls, kind, count, timeout⟩ := request
  obtain rfl : timeout = false := hwaits
  cases kind with
  | stunRequest =>
    refine ⟨hlt, by simp [getNextDelay, Kind.interval, sends, DELAY_UNIT, DELAY_MAX_FACTOR,
      Nat.one_shiftLeft], rfl, rfl, rfl, hlt, ?_⟩
    simp [getNextDelay, sends, MAX_SENDS, Kind.maxSends]
  | connectionRequest => exact ⟨hlt, rfl, rfl, rfl, rfl, le_rfl, iff_of_true rfl rfl⟩
  | allocateRequest =>
    refine ⟨hlt, by simp [getNextDelay, Kind.interval, sends, Nat.one_shiftLeft], rfl, rfl, rfl,
      hlt, ?_⟩
    simp [getNextDelay, sends, Kind.maxSends]

end StunRequest

namespace StunRequestManager

/-- There are one request and one message for a transaction. -/
def Outstanding (s : StunRequestManager) (id : List Byte) (request : StunRequest) : Prop :=
  ∃ start due, s.requests.filter (·.id = id) = [request] ∧
    s.messages.filter (·.id = id) = [⟨due, id⟩] ∧
    Phase.after (history id s.log) = some (.waiting request.kind start request.sends due) ∧
    start + request.kind.elapsed request.sends ≤ due ∧ request.Consistent

/-- Nothing is left of a transaction, or it is outstanding; what was done is allowed. -/
def Tracks (s : StunRequestManager) (id : List Byte) : Prop :=
  (s.requests.filter (·.id = id) = [] ∧ s.messages.filter (·.id = id) = [] ∧
    Phase.after (history id s.log) = some .idle) ∨ ∃ request, s.Outstanding id request

variable {s s' : StunRequestManager} {id id' : List Byte} {request : StunRequest}
  {sends : List (StunRequest × ℕ)}

theorem Tracks.congr (h : s.Tracks id)
    (hrequests : s'.requests.filter (·.id = id) = s.requests.filter (·.id = id))
    (hmessages : s'.messages.filter (·.id = id) = s.messages.filter (·.id = id))
    (hlog : Phase.after (history id s'.log) = Phase.after (history id s.log)) : s'.Tracks id := by
  unfold Tracks Outstanding
  rw [hrequests, hmessages, hlog]
  exact h

theorem find_eq (s : StunRequestManager) (id : List Byte) :
    s.find id = (s.requests.filter (·.id = id)).head? := List.head?_filter.symm

theorem Tracks.outstanding (h : s.Tracks id) (hfind : s.find id = some request) :
    s.Outstanding id request := by
  rw [find_eq] at hfind
  obtain ⟨hnone, -⟩ | ⟨r, start, due, hr, hrest⟩ := h
  · rw [hnone] at hfind
    cases hfind
  · rw [hr] at hfind
    obtain rfl := Option.some.inj hfind
    exact ⟨start, due, hr, hrest⟩

theorem Tracks.after (h : s.Tracks id) :
    ∃ phase, Phase.after (history id s.log) = some phase := by
  obtain ⟨-, -, hphase⟩ | ⟨_, _, _, -, -, hphase, -⟩ := h
  · exact ⟨_, hphase⟩
  · exact ⟨_, hphase⟩

theorem after_record_self (log : List Record) (now : ℕ) (action : Action) :
    Phase.after (history id (log ++ [⟨id, now, action⟩])) =
      (Phase.after (history id log)).bind (·.next now action) := by
  rw [history, List.filter_append, List.filter_cons_of_pos (by simp), List.filter_nil]
  exact Phase.after_append _ _

theorem history_record_of_ne (hne : id' ≠ id) (log : List Record) (now : ℕ) (action : Action) :
    history id (log ++ [⟨id', now, action⟩]) = history id log := by
  rw [history, List.filter_append, List.filter_cons_of_neg (by simpa using hne), List.filter_nil,
    List.append_nil]
  rfl

theorem sendDelayed_tracks {delay : ℕ} (hsend : s.sendDelayed request delay = some s')
    (hcount : request.count = 0) (htimeout : request.timeout = false) (h : s.Tracks id) :
    s'.Tracks id := by
  unfold sendDelayed at hsend
  split_ifs at hsend with hfind
  obtain rfl := Option.some.inj hsend
  by_cases hid : request.id = id
  · subst hid
    have hsends : request.sends = 0 := by
      unfold StunRequest.sends
      split <;> simp [hcount, htimeout]
    obtain ⟨hrequests, hmessages, hphase⟩ | ⟨r, -, -, hr, -⟩ := h
    · refine .inr ⟨request, s.now + delay, s.now + delay, ?_, ?_, ?_, ?_, ?_⟩
      · simp [List.filter_append, hrequests]
      · simp [List.filter_append, hmessages]
      · show Phase.after (history _ (s.log ++ _)) = _
        rw [after_record_self, hphase, hsends]
        rfl
      · rw [hsends]
        exact le_rfl
      · constructor
        · rw [hsends]
          exact Nat.zero_le _
        · rw [htimeout, hsends]
          cases request.kind <;> decide
    · rw [find_eq, hr] at hfind
      exact absurd rfl hfind
  · refine h.congr ?_ ?_ (congrArg _ (history_record_of_ne hid _ _ _))
    · simp [List.filter_append, hid]
    · simp [List.filter_append, hid]

/-- A transaction ends, and the others go on. -/
theorem finish_tracks {action : Action} (h : s.Tracks id)
    (hend : ∀ phase, Phase.after (history id' s.log) = some phase →
      phase.next s.now action = some .idle) : ((s.record id' action).delete id').Tracks id := by
  by_cases hid : id' = id
  · subst hid
    obtain ⟨phase, hphase⟩ := h.after
    refine .inl ⟨by simp [delete, List.filter_filter], by simp [delete, List.filter_filter], ?_⟩
    show Phase.after (history _ (s.log ++ _)) = _
    rw [after_record_self, hphase]
    exact hend phase hphase
  · have hkeeps : ∀ i : List Byte, (i = id ∧ i ≠ id') ↔ i = id := fun i =>
      and_iff_left_of_imp fun heq => heq ▸ Ne.symm hid
    refine h.congr ?_ ?_ (congrArg _ (history_record_of_ne hid _ _ _))
    · simp only [delete, List.filter_filter, ← Bool.decide_and, hkeeps]
      rfl
    · simp only [delete, List.filter_filter, ← Bool.decide_and, hkeeps]
      rfl

theorem delete_record_take {m : Message} (action : Action) :
    ((s.take m).record m.id action).delete m.id = (s.record m.id action).delete m.id := by
  have hmessages : (s.messages.erase m).filter (·.id ≠ m.id) = s.messages.filter (·.id ≠ m.id) := by
    rw [← List.erase_filter, List.erase_of_not_mem]
    simp
  simp only [delete, record, take, hmessages]

/-- The handler of a request that is deleted then sends others. -/
theorem sendAll_spec : ∀ {sends : List (StunRequest × ℕ)} {s : StunRequestManager}, s.Fresh sends →
    (s.find id').isSome → (∀ id, (s.delete id').Tracks id) →
    ∃ s', s.sendAll sends = some s' ∧ ∀ id, (s'.delete id').Tracks id
  | [], s, _, _, h => ⟨s, rfl, h⟩
  | (request, delay) :: sends, s, hfresh, hfind, h => by
    obtain ⟨hnodup, hnew⟩ := hfresh
    obtain ⟨⟨hnone, hcount, htimeout⟩, hnew⟩ := List.forall_mem_cons.mp hnew
    obtain ⟨hnot, hnodup⟩ := List.nodup_cons.mp hnodup
    have hne : request.id ≠ id' := fun heq => by
      rw [← heq, hnone] at hfind
      cases hfind
    obtain ⟨s₁, hs₁, hdelete⟩ : ∃ s₁, s.sendDelayed request delay = some s₁ ∧
        (s.delete id').sendDelayed request delay = some (s₁.delete id') := by
      have hnone' : (s.delete id').find request.id = none := by
        rw [find, List.find?_eq_none] at hnone ⊢
        exact fun r hr => hnone r (List.mem_of_mem_filter hr)
      rw [sendDelayed, sendDelayed, hnone, hnone']
      refine ⟨_, rfl, ?_⟩
      simp [delete, record, List.filter_append, hne]
    have hothers : ∀ i, i ≠ request.id → s₁.find i = s.find i := by
      intro i hi
      rw [sendDelayed, hnone] at hs₁
      obtain rfl := Option.some.inj hs₁
      simp [find, Ne.symm hi]
    have hfresh : s₁.Fresh sends := by
      refine ⟨hnodup, fun send hsend => ⟨(hothers _ fun heq => hnot ?_).trans (hnew send hsend).1,
        (hnew send hsend).2⟩⟩
      exact List.mem_map.mpr ⟨send, hsend, heq⟩
    obtain ⟨s', hs', htracks⟩ := sendAll_spec hfresh ((hothers _ hne.symm).symm ▸ hfind)
      fun id => sendDelayed_tracks hdelete hcount htimeout (h id)
    refine ⟨s', ?_, htracks⟩
    rw [sendAll, List.foldlM_cons, hs₁]
    exact hs'

theorem remove_tracks (h : ∀ id, s.Tracks id) (id' : List Byte) :
    ∀ id, (s.remove id').Tracks id := by
  intro id
  unfold remove
  split
  case isTrue hfind =>
    obtain ⟨request, hfind⟩ := Option.isSome_iff_exists.mp hfind
    obtain ⟨start, due, -, -, hphase, -⟩ := (h id').outstanding hfind
    refine finish_tracks (h id) fun phase hafter => ?_
    obtain rfl := Option.some.inj (hafter.symm.trans hphase)
    rfl
  case isFalse => exact h id

theorem checkResponse_tracks (h : ∀ id, s.Tracks id) (msg : StunMessage) (hfresh : s.Fresh sends) :
    ∃ s', (s.checkResponse msg sends).map Prod.snd = some s' ∧ ∀ id, s'.Tracks id := by
  have hhandled : ∀ {request : StunRequest} {action : Action}, s.find request.id = some request →
      (∀ kind start sends due now,
        Phase.next (.waiting kind start sends due) now action = some .idle) →
      ∃ s', (((s.record request.id action).sendAll sends).map
        fun s => (true, s.delete request.id)).map Prod.snd = some s' ∧ ∀ id, s'.Tracks id := by
    intro request action hfind hend
    have hdone : ∀ id, ((s.record request.id action).delete request.id).Tracks id := fun id => by
      refine finish_tracks (h id) fun phase hafter => ?_
      obtain ⟨start, due, -, -, hphase, -⟩ := (h request.id).outstanding hfind
      obtain rfl := Option.some.inj (hafter.symm.trans hphase)
      exact hend _ _ _ _ _
    obtain ⟨s', hs', htracks⟩ := @sendAll_spec request.id sends (s.record request.id action) hfresh
      (Option.isSome_of_eq_some hfind) hdone
    exact ⟨_, by rw [hs']; rfl, htracks⟩
  unfold checkResponse
  split
  · exact ⟨s, rfl, h⟩
  · rename_i request hfind
    have hid : request.id = msg.transactionId := of_decide_eq_true (List.find?_some hfind :)
    split_ifs
    · exact hhandled (hid ▸ hfind) fun _ _ _ _ _ => rfl
    · exact hhandled (hid ▸ hfind) fun _ _ _ _ _ => rfl
    · exact ⟨s, rfl, h⟩

theorem checkPacket_tracks (h : ∀ id, s.Tracks id) (data : List Byte) (hfresh : s.Fresh sends) :
    ∃ s', (s.checkPacket data sends).map Prod.snd = some s' ∧ ∀ id, s'.Tracks id := by
  unfold checkPacket
  split_ifs
  · exact ⟨s, rfl, h⟩
  split
  · exact ⟨s, rfl, h⟩
  split
  · exact ⟨s, rfl, h⟩
  · exact checkResponse_tracks h _ hfresh

theorem filter_replace {next : StunRequest} (hnext : next.id = id') (l : List StunRequest)
    (id : List Byte) : (l.map fun r => if r.id = id' then next else r).filter (·.id = id) =
      (l.filter (·.id = id)).map fun r => if r.id = id' then next else r := by
  rw [List.filter_map]
  congr 1
  refine List.filter_congr fun r _ => ?_
  rw [Function.comp_apply]
  split
  case isTrue heq => rw [hnext, heq]
  case isFalse => rfl

theorem onMessage_tracks (h : ∀ id, s.Tracks id) {m : Message} (hm : m ∈ s.messages)
    (hdue : m.due ≤ s.now) (hfresh : s.Fresh sends) :
    ∃ s', s.onMessage m sends = some s' ∧ ∀ id, s'.Tracks id := by
  have hmem : m ∈ s.messages.filter (·.id = m.id) := List.mem_filter.mpr ⟨hm, decide_eq_true rfl⟩
  obtain ⟨-, hnil, -⟩ | ⟨request, start, due, hrequests, hmessages, hphase, hlate, hconsistent⟩ :=
    h m.id
  · rw [hnil] at hmem
    cases hmem
  rw [hmessages, List.mem_singleton] at hmem
  have hdue : due ≤ s.now := by rwa [hmem] at hdue
  have hid : request.id = m.id := by
    have hmem : request ∈ s.requests.filter (·.id = m.id) := hrequests ▸ List.mem_singleton_self _
    exact of_decide_eq_true (List.mem_filter.mp hmem).2
  have hfind : s.find m.id = some request := by
    rw [find_eq, hrequests]
    rfl
  unfold onMessage
  rw [hfind]
  dsimp only
  split
  case isTrue htimeout =>
    have hdone : ∀ id, (((s.take m).record m.id .timeout).delete m.id).Tracks id := fun id => by
      rw [delete_record_take]
      refine finish_tracks (h id) fun phase hafter => ?_
      obtain rfl := Option.some.inj (hafter.symm.trans hphase)
      have hsends := hconsistent.timeout_iff.mp htimeout
      exact if_pos ⟨hsends, hsends ▸ hlate.trans hdue⟩
    obtain ⟨s', hs', htracks⟩ := @sendAll_spec m.id sends ((s.take m).record m.id .timeout) hfresh
      (Option.isSome_of_eq_some hfind) hdone
    exact ⟨_, by rw [hid, hs']; rfl, htracks⟩
  case isFalse hwaits =>
    obtain ⟨hlt, hdelay, hnext, hkind, hsends, hnext'⟩ :=
      StunRequest.getNextDelay_spec hconsistent (Bool.not_eq_true _ |>.mp hwaits)
    generalize request.getNextDelay = next at *
    refine ⟨_, rfl, fun id => ?_⟩
    by_cases hne : m.id = id
    · subst hne
      refine .inr ⟨next.2, start, s.now + next.1, ?_, ?_, ?_, ?_, hnext'⟩
      · rw [filter_replace hnext, hrequests, List.map_singleton, if_pos rfl]
      · show (s.messages.erase m ++ _).filter _ = _
        rw [List.filter_append, ← List.erase_filter, hmessages, hid, ← hmem, List.erase_cons_head]
        simp
      · show Phase.after (history m.id (s.log ++ [⟨request.id, s.now, .sent⟩])) = _
        rw [hid, after_record_self, hphase, hkind, hsends, hdelay]
        exact if_pos ⟨hlt, hdue⟩
      · rw [hkind, hsends, hdelay, Kind.elapsed_succ]
        omega
    · refine (h id).congr ?_ ?_ (congrArg _ (history_record_of_ne (hid ▸ hne) _ _ _))
      · rw [filter_replace hnext]
        refine (List.map_congr_left fun r hr => if_neg fun heq => hne ?_).trans (List.map_id _)
        rw [← hid, ← heq]
        exact of_decide_eq_true (List.mem_filter.mp hr).2
      · show (s.messages.erase m ++ _).filter _ = _
        rw [List.filter_append, ← List.erase_filter, List.erase_of_not_mem (by simp [hne])]
        simp [hid, hne]

theorem step_tracks (htracks : ∀ id, s.Tracks id) {event : Event} (henabled : s.Enabled event) :
    ∃ s', s.step event = some s' ∧ ∀ id, s'.Tracks id := by
  cases event with
  | sendDelayed request delay =>
    obtain ⟨hnone, hcount, htimeout⟩ := henabled.2 _ (List.mem_singleton_self _)
    obtain ⟨s', hs'⟩ : ∃ s', s.sendDelayed request delay = some s' := by
      rw [sendDelayed, hnone]
      exact ⟨_, rfl⟩
    exact ⟨s', hs', fun id => sendDelayed_tracks hs' hcount htimeout (htracks id)⟩
  | remove id => exact ⟨_, rfl, remove_tracks htracks id⟩
  | clear =>
    exact ⟨s.clear, rfl, @run_invariant _ _ remove (fun s _ => ∀ id, s.Tracks id)
      (fun s id _ h => remove_tracks h id) s (s.requests.map StunRequest.id) [] htracks⟩
  | response msg sends => exact checkResponse_tracks htracks msg henabled
  | packet data sends => exact checkPacket_tracks htracks data henabled
  | message m sends => exact onMessage_tracks htracks henabled.1 henabled.2.1 henabled.2.2
  | elapse ms => exact ⟨_, rfl, htracks⟩

/-- Whatever happens, no message is left to a request that has been deleted, each transaction goes
its way, and none times out early. -/
theorem requests_tracked (events : List Event)
    (h : Along (attempt step) (Running Enabled) (some {}) events) :
    Always (attempt step) (Holding fun s => ∀ id, s.Tracks id) (some {}) events :=
  always_attempt (fun _ _ h h' => step_tracks h h') (fun _ => .inl ⟨rfl, rfl, rfl⟩) h

theorem requests_tracked_lost :
    let request : StunRequest := { id := [1], type := 1, cls := .stun, kind := .connectionRequest }
    let events : List Event :=
      [.sendDelayed request 0, .message ⟨0, [1]⟩ [], .elapse 5000, .message ⟨5000, [1]⟩ []]
    (run (attempt step) (some {}) events).map (·.log.length) = some 3 ∧
      Always (attempt step) (Holding fun s => ∀ id, s.Tracks id) (some {}) events := by
  refine ⟨by decide, requests_tracked _ ?_⟩
  refine along_attempt_cons rfl ?_ (along_attempt_cons rfl ?_ (along_attempt_cons rfl trivial
    (along_attempt_cons rfl ?_ trivial)))
  · exact ⟨by decide, by decide⟩
  · exact ⟨by decide, le_rfl, by decide, by simp⟩
  · exact ⟨by decide, le_rfl, by decide, by simp⟩

end StunRequestManager

end PerchWebrtc.Stun
