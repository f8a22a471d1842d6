import PerchWebrtc.Framework.Heap
import PerchWebrtc.Framework.Machine

/-!
# Message queues

`MessageQueue` (`messagequeue.cc`) keeps posted messages in a list, delayed ones in a priority
queue, and at most one message that `Peek` has taken. `Get` reads the clock, moves the delayed
messages that are due to the list and takes its first message; if there is none it waits, and
other threads may use the queue before it reads the clock again.

The clock counts milliseconds without end, and `Time` is its last 32 bits. What was posted,
returned, cleared and moved is recorded beside the queue.
-/

namespace PerchWebrtc.Thread

open Framework (HeapAlgorithms)

abbrev U32 := BitVec 32

/-! ## Times that wrap -/

def HALF : Nat := 0x80000000
def kForever : Int := -1

/-- `Time`, in milliseconds. -/
def time (now : Nat) : U32 := BitVec.ofNat 32 now

def timeAfter (now elapsed : Nat) : U32 := time now + BitVec.ofNat 32 elapsed

/-- `TimeIsLater`: the difference is positive as a signed number. -/
def timeIsLater (earlier later : U32) : Bool :=
  let diff := later - earlier
  0 < diff.toInt && diff.toNat < HALF

def timeDiff (later earlier : U32) : Int := (later - earlier).toInt

/-! ## Messages -/

def MQID_ANY : U32 := -1
def MQID_DISPOSE : U32 := -2

/-- A message, how many were posted before it, whether it is delayed, and when it was posted or
is to be triggered. -/
structure Message where
  phandler : Nat
  messageId : U32
  pdata : Nat
  serial : Nat
  delayed : Bool
  due : Nat
deriving DecidableEq

/-- `Match`, where the handler 0 stands for all. -/
def Message.isMatch (handler : Nat) (id : U32) (m : Message) : Bool :=
  (handler = 0 || handler = m.phandler) && (id = MQID_ANY || id = m.messageId)

structure DelayedMessage where
  msTrigger : U32
  num : U32
  msg : Message
deriving DecidableEq

/-- `operator<`: the greatest message is the one to be triggered first. -/
def DelayedMessage.lt (a b : DelayedMessage) : Prop :=
  b.msTrigger < a.msTrigger ∨ b.msTrigger = a.msTrigger ∧ b.num < a.num

instance (a b : DelayedMessage) : Decidable (a.lt b) := inferInstanceAs (Decidable (_ ∨ _))

/-! ## The queue -/

/-- A call of `Get`, or of `Peek`, that waits for `cmsNext` milliseconds. -/
structure Call where
  isPeek : Bool
  cmsWait : Int
  msStart : U32
  cmsNext : Int

structure MessageQueue where
  /-- `msgPeek_`, if `fPeekKeep_` is set. -/
  msgPeek : Option Message
  msgq : List Message
  dmsgq : List DelayedMessage
  dmsgqNextNum : U32
  call : Option Call
  /-- The clock. -/
  now : Nat
  /-- How many messages were posted. -/
  posted : Nat
  /-- What `Get` has returned, and when. -/
  returned : List (Message × Nat)
  /-- What `Clear` has removed, and its arguments. -/
  removed : List (Message × Nat × U32)
  /-- What has left the delayed queue because it was due. -/
  left : List Message

def MessageQueue.start (now : Nat) : MessageQueue where
  msgPeek := none
  msgq := []
  dmsgq := []
  dmsgqNextNum := 0
  call := none
  now := now
  posted := 0
  returned := []
  removed := []
  left := []

namespace MessageQueue

variable (H : HeapAlgorithms DelayedMessage.lt) (q : MessageQueue)

def post (phandler : Nat) (id : U32) (pdata : Nat) : MessageQueue :=
  { q with
    msgq := q.msgq ++ [⟨phandler, id, pdata, q.posted, false, q.now⟩]
    posted := q.posted + 1 }

/-- `PostDelayed` and `DoDelayPost`. -/
def postDelayed (cmsDelay phandler : Nat) (id : U32) (pdata : Nat) : MessageQueue :=
  let msg : Message := ⟨phandler, id, pdata, q.posted, true, q.now + cmsDelay⟩
  { q with
    dmsgq := H.push q.dmsgq ⟨timeAfter q.now cmsDelay, q.dmsgqNextNum, msg⟩
    dmsgqNextNum := q.dmsgqNextNum + 1
    posted := q.posted + 1 }

/-- The messages that stay keep their order, and the heap is made again. -/
def clear (phandler : Nat) (id : U32) : MessageQueue :=
  let matched := Message.isMatch phandler id
  { q with
    msgPeek := q.msgPeek.filter (!matched ·)
    msgq := q.msgq.filter (!matched ·)
    dmsgq := H.makeHeap (q.dmsgq.filter (!matched ·.msg))
    removed := q.removed ++ (q.msgPeek.toList.filter matched ++ q.msgq.filter matched ++
      (q.dmsgq.filter (matched ·.msg)).map (·.msg)).map (·, phandler, id) }

/-- The loop over the delayed messages: those that are triggered, the others, and the time
until the next one. -/
def triggered (msCurrent : U32) :
    Nat → List DelayedMessage → List DelayedMessage × List DelayedMessage × Int
  | 0, dmsgq => ([], dmsgq, kForever)
  | _ + 1, [] => ([], [], kForever)
  | n + 1, top :: dmsgq =>
    if timeIsLater msCurrent top.msTrigger then
      ([], top :: dmsgq, timeDiff top.msTrigger msCurrent)
    else
      let r := triggered msCurrent n (H.pop (top :: dmsgq))
      (top :: r.1, r.2)

/-- The first pass of `Get`. -/
def triggerDelayed : MessageQueue × Int :=
  let r := triggered H (time q.now) q.dmsgq.length q.dmsgq
  ({ q with
     msgq := q.msgq ++ r.1.map (·.msg)
     dmsgq := r.2.1
     left := q.left ++ r.1.map (·.msg) }, r.2.2)

/-- The first message that is not to be disposed of, and those behind it. -/
def pull : List Message → Option (Message × List Message)
  | [] => none
  | msg :: msgq => if msg.messageId = MQID_DISPOSE then pull msgq else some (msg, msgq)

/-- How long to wait: until the next delayed message, or what is left of the wait asked for. -/
def cmsNext (cmsWait cmsElapsed cmsDelayNext : Int) : Int :=
  if cmsWait = kForever then cmsDelayNext
  else
    let cmsNext := max 0 (cmsWait - cmsElapsed)
    if cmsDelayNext ≠ kForever ∧ cmsDelayNext < cmsNext then cmsDelayNext else cmsNext

/-- A message is returned, and `Peek` keeps it. -/
def handOver (isPeek : Bool) (msg : Message) : MessageQueue :=
  if isPeek then { q with msgPeek := some msg }
  else { q with returned := q.returned ++ [(msg, q.now)] }

/-- The loop of `Get` from one reading of the clock to the next wait. -/
def scan (call : Call) (cmsElapsed : Int) : MessageQueue :=
  let r := q.triggerDelayed H
  match pull r.1.msgq with
  | some (msg, msgq) => handOver { r.1 with msgq := msgq, call := none } call.isPeek msg
  | none =>
    { r.1 with
      msgq := []
      call := some { call with cmsNext := cmsNext call.cmsWait cmsElapsed r.2 } }

/-- `Get`, or `Peek`, up to its return or its first wait. -/
def enter (isPeek : Bool) (cmsWait : Int) : MessageQueue :=
  match q.msgPeek with
  | some msg =>
    -- `Peek` returns the message that it keeps, again
    if isPeek then q
    else { q with msgPeek := none, returned := q.returned ++ [(msg, q.now)] }
  | none => q.scan H ⟨isPeek, cmsWait, time q.now, 0⟩ 0

/-- The wait ends, with the result of `Wait`. -/
def wake (call : Call) (ok : Bool) : MessageQueue :=
  let cmsElapsed := timeDiff (time q.now) call.msStart
  if !ok || call.cmsWait ≠ kForever && call.cmsWait ≤ cmsElapsed then { q with call := none }
  else q.scan H call cmsElapsed

end MessageQueue

/-- A call from any thread, the clock, or the end of a wait. -/
inductive Event where
  | post (phandler : Nat) (id : U32) (pdata : Nat)
  | postDelayed (cmsDelay phandler : Nat) (id : U32) (pdata : Nat)
  | clear (phandler : Nat) (id : U32)
  | tick (ms : Nat)
  | get (cmsWait : Int)
  | peek (cmsWait : Int)
  | wake (ok : Bool)

/-- The thread of the queue waits in one call at a time. -/
def MessageQueue.step (H : HeapAlgorithms DelayedMessage.lt) (q : MessageQueue) :
    Event → MessageQueue
  | .post phandler id pdata => q.post phandler id pdata
  | .postDelayed cmsDelay phandler id pdata => q.postDelayed H cmsDelay phandler id pdata
  | .clear phandler id => q.clear H phandler id
  | .tick ms => { q with now := q.now + ms }
  | .get cmsWait => if q.call.isSome then q else q.enter H false cmsWait
  | .peek cmsWait => if q.call.isSome then q else q.enter H true cmsWait
  | .wake ok =>
    match q.call with
    | some call => q.wake H call ok
    | none => q

end PerchWebrtc.Thread
