import PerchWebrtc.Framework.Circular
import PerchWebrtc.Framework.Machine
import PerchWebrtc.NetEq.Packet

/-!
# The buffer of telephone events

`DtmfBuffer` (`dtmf_buffer.cc`, built with `LEGACY_BITEXACT` as that file defines):
events wait for the time at which they are played.

* `insertEvent_shift`: insertion compares timestamps by their differences, and does not
  depend on where the range starts;
* `getEvent_shift`: extraction compares them as numbers, and does not as long as the
  comparisons it makes are between numbers on one side of the wrap (`GetsAlike`);
* `runCalls_shift`: the same for every run.
-/

namespace PerchWebrtc.NetEq

open Circular

structure DtmfEvent where
  timestamp : BitVec 32 := 0
  eventNo : Int := 0
  volume : Int := 0
  duration : Int := 0
  endBit : Bool := false
  deriving DecidableEq

namespace DtmfBuffer

inductive BufferReturnCode where
  | kOK
  | kInvalidPointer
  | kPayloadTooShort
  | kInvalidEventParameters
  | kInvalidSampleRate
  deriving DecidableEq

end DtmfBuffer

structure DtmfBuffer where
  maxExtrapolationSamples : Int
  frameLenSamples : Int
  buffer : List DtmfEvent := []
  deriving DecidableEq

namespace DtmfBuffer

def sampleRates : List Int := [8000, 16000, 32000, 48000]

def setSampleRate (fsHz : Int) (s : DtmfBuffer) : BufferReturnCode × DtmfBuffer :=
  if fsHz ∉ sampleRates then (.kInvalidSampleRate, s)
  else
    (.kOK, { s with
      maxExtrapolationSamples := (7 * fsHz).tdiv 100
      frameLenSamples := fsHz.tdiv 100 })

def flush (s : DtmfBuffer) : DtmfBuffer := { s with buffer := [] }

/-- The event of a payload; `none` for a null pointer. -/
def parseEvent (rtpTimestamp : BitVec 32) (payload : Option Mem) (payloadLengthBytes : Int) :
    Except BufferReturnCode DtmfEvent :=
  match payload with
  | none => .error .kInvalidPointer
  | some payload =>
    if payloadLengthBytes < 4 then .error .kPayloadTooShort
    else
      .ok
        { eventNo := (payload 0).toNat
          endBit := payload 1 &&& 0x80 ≠ 0
          volume := (payload 1 &&& 0x3F).toNat
          duration := (be16 payload 2).toNat
          timestamp := rtpTimestamp }

/-! ## Insertion -/

def sameEvent (a b : DtmfEvent) : Bool := a.eventNo = b.eventNo ∧ a.timestamp = b.timestamp

/-- An event as `MergeEvents` leaves it, where the two are the same. -/
def mergeInto (it event : DtmfEvent) : DtmfEvent :=
  { it with
    duration := if it.endBit then it.duration else max event.duration it.duration
    endBit := it.endBit || event.endBit }

/-- The loop over the buffer; `none` if no event is the same. -/
def mergeEvents (event : DtmfEvent) : List DtmfEvent → Option (List DtmfEvent)
  | [] => none
  | it :: buffer =>
    if sameEvent it event then some (mergeInto it event :: buffer)
    else (mergeEvents event buffer).map (it :: ·)

def compareEvents (a b : DtmfEvent) : Bool :=
  if a.timestamp = b.timestamp then a.eventNo < b.eventNo
  else (b.timestamp - a.timestamp).toNat < 0xFFFFFFFF / 2

/-- The stable sort of the list. -/
def sort (buffer : List DtmfEvent) : List DtmfEvent :=
  buffer.insertionSort fun a b => compareEvents b a = false

def validParameters (event : DtmfEvent) : Bool :=
  ¬ (event.eventNo < 0 ∨ event.eventNo > 15 ∨ event.volume < 0 ∨ event.volume > 36 ∨
    event.duration ≤ 0 ∨ event.duration > 65535)

def insertEvent (event : DtmfEvent) (s : DtmfBuffer) : BufferReturnCode × DtmfBuffer :=
  if ¬ validParameters event then (.kInvalidEventParameters, s)
  else
    match mergeEvents event s.buffer with
    | some buffer => (.kOK, { s with buffer := buffer })
    | none => (.kOK, { s with buffer := sort (s.buffer ++ [event]) })

/-! ## Extraction -/

/-- Where an event ends, as far as it is known: with a time of extrapolation if there
was no end bit. -/
def extrapolatedEnd (s : DtmfBuffer) (it : DtmfEvent) : BitVec 32 :=
  it.timestamp + BitVec.ofInt 32 it.duration + BitVec.ofInt 32 s.maxExtrapolationSamples

/-- `event_end`, given what follows in the buffer. -/
def eventEnd (s : DtmfBuffer) (it : DtmfEvent) (rest : List DtmfEvent) : BitVec 32 :=
  if it.endBit then it.timestamp + BitVec.ofInt 32 it.duration
  else
    match rest with
    | [] => s.extrapolatedEnd it
    | next :: _ =>
      if next.timestamp < s.extrapolatedEnd it then next.timestamp else s.extrapolatedEnd it

/-- `next_available`. -/
def nextAvailable (it : DtmfEvent) (rest : List DtmfEvent) : Bool := !it.endBit && !rest.isEmpty

/-- The loop over the buffer: the event, if one is returned, and the events that stay. -/
def scan (s : DtmfBuffer) (currentTimestamp : BitVec 32) :
    List DtmfEvent → Option DtmfEvent × List DtmfEvent
  | [] => (none, [])
  | it :: rest =>
    let eventEnd := s.eventEnd it rest
    if it.timestamp ≤ currentTimestamp ∧ currentTimestamp ≤ eventEnd then
      (some it,
        if it.endBit ∧ eventEnd ≤ currentTimestamp + BitVec.ofInt 32 s.frameLenSamples then rest
        else it :: rest)
    else if eventEnd < currentTimestamp then
      if ¬ nextAvailable it rest then (some it, rest) else s.scan currentTimestamp rest
    else
      let scanned := s.scan currentTimestamp rest
      (scanned.1, it :: scanned.2)

def getEvent (currentTimestamp : BitVec 32) (s : DtmfBuffer) : Option DtmfEvent × DtmfBuffer :=
  let scanned := s.scan currentTimestamp s.buffer
  (scanned.1, { s with buffer := scanned.2 })

/-! ## Calls -/

inductive Call where
  | setSampleRate (fsHz : Int)
  | flush
  | insertEvent (event : DtmfEvent)
  | getEvent (currentTimestamp : BitVec 32)
  deriving DecidableEq

inductive Result where
  | changed (returnVal : BufferReturnCode)
  | flushed
  | inserted (returnVal : BufferReturnCode)
  | got (event : Option DtmfEvent)
  deriving DecidableEq

def call (s : DtmfBuffer) : Call → Result × DtmfBuffer
  | .setSampleRate fsHz => (.changed (s.setSampleRate fsHz).1, (s.setSampleRate fsHz).2)
  | .flush => (.flushed, s.flush)
  | .insertEvent event => (.inserted (s.insertEvent event).1, (s.insertEvent event).2)
  | .getEvent currentTimestamp =>
    (.got (s.getEvent currentTimestamp).1, (s.getEvent currentTimestamp).2)

def step (s : DtmfBuffer) (c : Call) : DtmfBuffer := (s.call c).2

/-- The results of a run, and the state after it. -/
def runCalls (s : DtmfBuffer) : List Call → List Result × DtmfBuffer
  | [] => ([], s)
  | c :: calls => ((s.call c).1 :: (runCalls (s.step c) calls).1, (runCalls (s.step c) calls).2)

end DtmfBuffer

/-! ## Translation -/

variable (k : BitVec 32)

def DtmfEvent.shift (event : DtmfEvent) : DtmfEvent :=
  { event with timestamp := event.timestamp + k }

namespace DtmfBuffer

def shift (s : DtmfBuffer) : DtmfBuffer := { s with buffer := s.buffer.map (·.shift k) }

def Call.shift : Call → Call
  | .setSampleRate fsHz => .setSampleRate fsHz
  | .flush => .flush
  | .insertEvent event => .insertEvent (event.shift k)
  | .getEvent currentTimestamp => .getEvent (currentTimestamp + k)

def Result.shift : Result → Result
  | .changed returnVal => .changed returnVal
  | .flushed => .flushed
  | .inserted returnVal => .inserted returnVal
  | .got event => .got (event.map (·.shift k))

section Insertion

variable (a b event : DtmfEvent)

theorem sameEvent_shift : sameEvent (a.shift k) (b.shift k) = sameEvent a b := by
  unfold sameEvent DtmfEvent.shift
  simp only [BitVec.add_left_inj]

theorem compareEvents_shift : compareEvents (a.shift k) (b.shift k) = compareEvents a b := by
  unfold compareEvents DtmfEvent.shift
  dsimp only
  rw [add_sub_add_right]
  simp only [BitVec.add_left_inj]

theorem mergeEvents_shift : ∀ buffer : List DtmfEvent,
    mergeEvents (event.shift k) (buffer.map (·.shift k)) =
      (mergeEvents event buffer).map (·.map (·.shift k))
  | [] => rfl
  | it :: buffer => by
    unfold mergeEvents
    rw [List.map_cons]
    dsimp only
    rw [sameEvent_shift, mergeEvents_shift buffer]
    split
    · rfl
    · rw [Option.map_map, Option.map_map]
      rfl

theorem sort_shift (buffer : List DtmfEvent) :
    sort (buffer.map (·.shift k)) = (sort buffer).map (·.shift k) := by
  refine (List.map_insertionSort _ _ _ _ fun a _ b _ => ?_).symm
  rw [compareEvents_shift]

theorem insertEvent_shift (s : DtmfBuffer) :
    (s.shift k).insertEvent (event.shift k) =
      ((s.insertEvent event).1, (s.insertEvent event).2.shift k) := by
  have hmerge := mergeEvents_shift k event s.buffer
  have hvalid : validParameters (event.shift k) = validParameters event := rfl
  have hbuffer : (s.shift k).buffer = s.buffer.map (·.shift k) := rfl
  unfold insertEvent
  rw [hvalid, hbuffer, hmerge]
  split
  · rfl
  · cases mergeEvents event s.buffer with
    | some buffer => rfl
    | none =>
      have hsort := sort_shift k (s.buffer ++ [event])
      rw [List.map_append] at hsort
      show (_, { s with buffer := sort _ }) = (_, shift k { s with buffer := sort _ })
      unfold shift
      rw [← hsort]
      rfl

end Insertion

/-! ### Extraction -/

/-- The event is returned. -/
def isFound (s : DtmfBuffer) (currentTimestamp : BitVec 32) (it : DtmfEvent)
    (rest : List DtmfEvent) : Bool :=
  it.timestamp ≤ currentTimestamp ∧ currentTimestamp ≤ s.eventEnd it rest

/-- The comparisons made for one event, each between two numbers that adding `k` carries
out of the range together or not at all: of its end with the start of the next event, of
the time with the end and, before the end, with the start, and of the next frame's time
with the end if the event is returned. -/
structure ComparesAlike (s : DtmfBuffer) (currentTimestamp : BitVec 32) (it : DtmfEvent)
    (rest : List DtmfEvent) : Prop where
  next : it.endBit = false → ∀ next ∈ rest.head?,
    SameCarry k next.timestamp (s.extrapolatedEnd it)
  finish : SameCarry k currentTimestamp (s.eventEnd it rest)
  start : currentTimestamp ≤ s.eventEnd it rest → SameCarry k it.timestamp currentTimestamp
  frame : s.isFound currentTimestamp it rest = true → it.endBit = true →
    SameCarry k (s.eventEnd it rest) (currentTimestamp + BitVec.ofInt 32 s.frameLenSamples)

/-- So are the comparisons for every event that the scan comes to. -/
def ScansAlike (s : DtmfBuffer) (currentTimestamp : BitVec 32) : List DtmfEvent → Prop
  | [] => True
  | it :: rest =>
    s.ComparesAlike k currentTimestamp it rest ∧
      (s.isFound currentTimestamp it rest = false →
        (s.eventEnd it rest < currentTimestamp → nextAvailable it rest = true) →
          s.ScansAlike currentTimestamp rest)

/-- What a call asks of the state: only a query asks something. -/
def GetsAlike (s : DtmfBuffer) : Call → Prop
  | .getEvent currentTimestamp => s.ScansAlike k currentTimestamp s.buffer
  | _ => True

variable {k} {s : DtmfBuffer}

theorem extrapolatedEnd_shift (it : DtmfEvent) :
    (s.shift k).extrapolatedEnd (it.shift k) = s.extrapolatedEnd it + k := by
  show it.timestamp + k + BitVec.ofInt 32 it.duration + BitVec.ofInt 32 s.maxExtrapolationSamples =
    it.timestamp + BitVec.ofInt 32 it.duration + BitVec.ofInt 32 s.maxExtrapolationSamples + k
  grind

theorem eventEnd_shift {it : DtmfEvent} {rest : List DtmfEvent}
    (h : it.endBit = false → ∀ next ∈ rest.head?,
      SameCarry k next.timestamp (s.extrapolatedEnd it)) :
    (s.shift k).eventEnd (it.shift k) (rest.map (·.shift k)) = s.eventEnd it rest + k := by
  have hextrapolated := @extrapolatedEnd_shift k s it
  unfold eventEnd
  rw [hextrapolated]
  show (if it.endBit = true then _ else _) = (if it.endBit = true then _ else _) + k
  cases hend : it.endBit with
  | true =>
    rw [if_pos rfl, if_pos rfl]
    show it.timestamp + k + BitVec.ofInt 32 it.duration =
      it.timestamp + BitVec.ofInt 32 it.duration + k
    grind
  | false =>
    rw [if_neg Bool.false_ne_true, if_neg Bool.false_ne_true]
    cases rest with
    | nil => rfl
    | cons next rest =>
      have hcarry := (h hend next rfl).add_lt_add_iff
      show (if next.timestamp + k < s.extrapolatedEnd it + k then next.timestamp + k
        else s.extrapolatedEnd it + k) =
          (if next.timestamp < s.extrapolatedEnd it then next.timestamp
            else s.extrapolatedEnd it) + k
      simp only [hcarry]
      split
      · rfl
      · rfl

theorem nextAvailable_shift (it : DtmfEvent) (rest : List DtmfEvent) :
    nextAvailable (it.shift k) (rest.map (·.shift k)) = nextAvailable it rest := by
  unfold nextAvailable
  rw [List.isEmpty_map]
  rfl

section Scan

variable {currentTimestamp : BitVec 32} {it : DtmfEvent} {rest : List DtmfEvent}

theorem scan_found (hstart : it.timestamp ≤ currentTimestamp)
    (hend : currentTimestamp ≤ s.eventEnd it rest) :
    s.scan currentTimestamp (it :: rest) =
      (some it,
        if it.endBit ∧
            s.eventEnd it rest ≤ currentTimestamp + BitVec.ofInt 32 s.frameLenSamples then rest
        else it :: rest) := if_pos ⟨hstart, hend⟩

theorem scan_old (hend : s.eventEnd it rest < currentTimestamp) :
    s.scan currentTimestamp (it :: rest) =
      if ¬ nextAvailable it rest then (some it, rest) else s.scan currentTimestamp rest := by
  have hnot : ¬ (it.timestamp ≤ currentTimestamp ∧ currentTimestamp ≤ s.eventEnd it rest) :=
    fun hfound => BitVec.not_le.mpr hend hfound.2
  exact (if_neg hnot).trans (if_pos hend)

theorem scan_early (hstart : ¬ it.timestamp ≤ currentTimestamp)
    (hend : currentTimestamp ≤ s.eventEnd it rest) :
    s.scan currentTimestamp (it :: rest) =
      ((s.scan currentTimestamp rest).1, it :: (s.scan currentTimestamp rest).2) := by
  have hnot : ¬ (it.timestamp ≤ currentTimestamp ∧ currentTimestamp ≤ s.eventEnd it rest) :=
    fun hfound => hstart hfound.1
  exact (if_neg hnot).trans (if_neg (BitVec.not_lt.mpr hend))

end Scan

theorem scan_shift {currentTimestamp : BitVec 32} : ∀ {buffer : List DtmfEvent},
    s.ScansAlike k currentTimestamp buffer →
    (s.shift k).scan (currentTimestamp + k) (buffer.map (·.shift k)) =
      ((s.scan currentTimestamp buffer).1.map (·.shift k),
        (s.scan currentTimestamp buffer).2.map (·.shift k))
  | [], _ => rfl
  | it :: rest, h => by
    obtain ⟨⟨hnext, hend, hstart, hframe⟩, hrest⟩ := h
    have heventEnd := eventEnd_shift hnext
    rw [List.map_cons]
    by_cases hbefore : currentTimestamp ≤ s.eventEnd it rest
    · have hbefore' : currentTimestamp + k ≤
          (s.shift k).eventEnd (it.shift k) (rest.map (·.shift k)) := by
        rw [heventEnd]
        exact hend.add_le_add_iff.mpr hbefore
      have hstart' := (hstart hbefore).add_le_add_iff
      by_cases hstarted : it.timestamp ≤ currentTimestamp
      · rw [scan_found hstarted hbefore, scan_found (hstart'.mpr hstarted) hbefore', heventEnd]
        have hframe := hframe (decide_eq_true ⟨hstarted, hbefore⟩)
        refine congrArg (Prod.mk (some (it.shift k))) ?_
        show (if it.endBit = true ∧ _ ≤ currentTimestamp + k +
          BitVec.ofInt 32 s.frameLenSamples then _ else _) = _
        have hcomm : currentTimestamp + k + BitVec.ofInt 32 s.frameLenSamples =
            currentTimestamp + BitVec.ofInt 32 s.frameLenSamples + k := by grind
        rw [hcomm]
        cases hbit : it.endBit with
        | false =>
          rw [if_neg (fun hboth => Bool.false_ne_true hboth.1),
            if_neg (fun hboth => Bool.false_ne_true hboth.1)]
          rfl
        | true =>
          simp only [true_and, (hframe hbit).add_le_add_iff]
          split
          · rfl
          · rfl
      · have ih := scan_shift (hrest (decide_eq_false fun hfound => hstarted hfound.1)
          fun hold => absurd hbefore (BitVec.not_le.mpr hold))
        rw [scan_early hstarted hbefore, scan_early (mt hstart'.mp hstarted) hbefore', ih]
        rfl
    · have hold : s.eventEnd it rest < currentTimestamp := BitVec.not_le.mp hbefore
      have hold' : (s.shift k).eventEnd (it.shift k) (rest.map (·.shift k)) <
          currentTimestamp + k := by
        rw [heventEnd]
        exact BitVec.not_le.mp (mt hend.add_le_add_iff.mp hbefore)
      have havailable := nextAvailable_shift (k := k) it rest
      rw [scan_old hold, scan_old hold', havailable]
      cases hnextAvailable : nextAvailable it rest with
      | true =>
        have ih := scan_shift (hrest (decide_eq_false fun hfound => hbefore hfound.2)
          fun _ => hnextAvailable)
        exact ih
      | false => rfl

theorem getEvent_shift {currentTimestamp : BitVec 32}
    (h : s.ScansAlike k currentTimestamp s.buffer) :
    (s.shift k).getEvent (currentTimestamp + k) =
      ((s.getEvent currentTimestamp).1.map (·.shift k), (s.getEvent currentTimestamp).2.shift k) := by
  have hscan := scan_shift h
  have hbuffer : (s.shift k).buffer = s.buffer.map (·.shift k) := rfl
  unfold getEvent
  rw [hbuffer, hscan]
  rfl

theorem call_shift {c : Call} (h : s.GetsAlike k c) :
    (s.shift k).call (c.shift k) = ((s.call c).1.shift k, (s.call c).2.shift k) := by
  cases c with
  | setSampleRate fsHz =>
    unfold Call.shift call setSampleRate
    dsimp only
    split <;> rfl
  | flush => rfl
  | insertEvent event =>
    have hinsert := insertEvent_shift k event s
    unfold Call.shift call
    dsimp only
    rw [hinsert]
    rfl
  | getEvent currentTimestamp =>
    have hget := getEvent_shift h
    unfold Call.shift call
    dsimp only
    rw [hget]
    rfl

/-- In a run whose extractions are alike, events and queries with translated timestamps
have the same results, and leave the events translated. -/
theorem runCalls_shift (k : BitVec 32) (s : DtmfBuffer) (calls : List Call)
    (h : Machine.Along step (GetsAlike k) s calls) :
    (s.shift k).runCalls (calls.map (·.shift k)) =
      ((s.runCalls calls).1.map (·.shift k), (s.runCalls calls).2.shift k) := by
  induction calls generalizing s with
  | nil => rfl
  | cons c calls ih =>
    have hcall := call_shift h.1
    have hstep : (s.shift k).step (c.shift k) = (s.step c).shift k := congrArg Prod.snd hcall
    have hrest := ih (s.step c) h.2
    rw [List.map_cons]
    unfold runCalls
    rw [hcall, hstep, hrest]
    rfl

/-- A new buffer for 8000 Hz. -/
def narrowband : DtmfBuffer where
  maxExtrapolationSamples := 560
  frameLenSamples := 80

/-- An event that has not ended, and a query while it lasts. -/
def pressedKey (timestamp : BitVec 32) : List Call :=
  [.insertEvent { timestamp := timestamp, eventNo := 5, volume := 10, duration := 400 },
    .getEvent (timestamp + 200)]

theorem runCalls_shift_pressedKey :
    (narrowband.shift 1000).runCalls ((pressedKey 0).map (·.shift 1000)) =
      ((narrowband.runCalls (pressedKey 0)).1.map (·.shift 1000),
        (narrowband.runCalls (pressedKey 0)).2.shift 1000) := by
  refine runCalls_shift 1000 narrowband (pressedKey 0) ⟨trivial, ?_, trivial⟩
  show ScansAlike 1000 _ 200 [⟨0, 5, 10, 400, false⟩]
  refine ⟨⟨fun _ _ hnext => ?_, by decide, by decide, by decide⟩, fun _ _ => trivial⟩
  cases hnext

def Call.timestamp : Call → Option (BitVec 32)
  | .insertEvent event => some event.timestamp
  | .getEvent currentTimestamp => some currentTimestamp
  | _ => none

/-- An event whose end lies behind the wrap is lost. -/
theorem not_runCalls_shift : ¬ ∀ (k : BitVec 32) (s : DtmfBuffer) (calls : List Call),
    HalfWindow (calls.filterMap (·.timestamp)) →
    (s.shift k).runCalls (calls.map (·.shift k)) =
      ((s.runCalls calls).1.map (·.shift k), (s.runCalls calls).2.shift k) := by
  intro h
  have hshift := h (-500) narrowband (pressedKey 0) (by decide)
  exact absurd hshift (by decide)

end DtmfBuffer

end PerchWebrtc.NetEq
