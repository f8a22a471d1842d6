import PerchWebrtc.Rtcp.TMMBRSet

/-!
# What a receiver keeps of each remote

`RTCPReceiveInformation` (`rtcp_receiver_help.cc`) with its TMMBR set and the
times of the entries, and the calls of `RTCPReceiver` that reach it.

* `insertTMMBRItem_tracked`, `getTMMBRSet_tracked`: the operations that change
  both lists.
* `reached_consistent_iff`: the runs in which the lists stay together.
-/

namespace PerchWebrtc.Rtcp

structure RTCPReceiveInformation where
  lastTimeReceived : Int := 0
  tmmbrSet : TMMBRSet := .empty
  tmmbrSetTimeouts : List Int := []
  readyForDelete : Bool := false

namespace RTCPReceiveInformation

variable (info : RTCPReceiveInformation)

def verifyAndAllocateTMMBRSet (minimumSize : Nat) : RTCPReceiveInformation :=
  if info.tmmbrSet.sizeOfSet < minimumSize then
    { info with tmmbrSet := info.tmmbrSet.verifyAndAllocateSetKeepingData minimumSize }
  else info

theorem lengthOfSet_lt_sizeOfSet :
    (info.verifyAndAllocateTMMBRSet (info.tmmbrSet.lengthOfSet + 1)).tmmbrSet.lengthOfSet <
      (info.verifyAndAllocateTMMBRSet (info.tmmbrSet.lengthOfSet + 1)).tmmbrSet.sizeOfSet := by
  unfold verifyAndAllocateTMMBRSet
  split
  · exact TMMBRSet.lengthOfSet_lt_size _ (Nat.lt_succ_self _)
  · omega

def insertTMMBRItem (senderSSRC : BitVec 32) (item : RTCPPacketRTPFBTMMBItem)
    (currentTimeMS : Int) : RTCPReceiveInformation :=
  let entry : SetElement := ⟨item.MaxTotalMediaBitRate, item.MeasuredOverhead, senderSSRC⟩
  let i := info.tmmbrSet.entries.findIdx (·.ssrc = senderSSRC)
  if h : i < info.tmmbrSet.lengthOfSet then
    { info with
      tmmbrSet := info.tmmbrSet.setEntry i entry (h.trans_le info.tmmbrSet.le)
      tmmbrSetTimeouts := info.tmmbrSetTimeouts.set i currentTimeMS }
  else
    let grown := info.verifyAndAllocateTMMBRSet (info.tmmbrSet.lengthOfSet + 1)
    { grown with
      tmmbrSet := grown.tmmbrSet.addEntry entry info.lengthOfSet_lt_sizeOfSet
      tmmbrSetTimeouts := grown.tmmbrSetTimeouts ++ [currentTimeMS] }

/-- The result with the candidate set; an entry that has timed out is removed. -/
def getTMMBRSet (sourceIdx targetIdx : Nat) (candidateSet : TMMBRSet) (currentTimeMS : Int) :
    Int × TMMBRSet × RTCPReceiveInformation :=
  if hsource : sourceIdx < info.tmmbrSet.lengthOfSet then
    if htarget : targetIdx < candidateSet.sizeOfSet then
      if 5 * RTCP_INTERVAL_AUDIO_MS < currentTimeMS - info.tmmbrSetTimeouts.getD sourceIdx 0 then
        (-1, candidateSet, { info with
          tmmbrSet := info.tmmbrSet.removeEntry sourceIdx hsource
          tmmbrSetTimeouts := info.tmmbrSetTimeouts.eraseIdx sourceIdx })
      else
        (0, candidateSet.setEntry targetIdx
          (info.tmmbrSet.entries.getD sourceIdx TMMBRSet.unset) htarget, info)
    else (-1, candidateSet, info)
  else (-1, candidateSet, info)

/-- The inner loop of `TMMBRReceived` from entry `i` on. The clock is read
before each call. -/
def getTMMBRSets (size : Nat) (clock : Nat → Int) :
    (rounds i num reads : Nat) → TMMBRSet → RTCPReceiveInformation →
      Nat × Nat × TMMBRSet × RTCPReceiveInformation
  | 0, _, num, reads, candidateSet, info => (num, reads, candidateSet, info)
  | rounds + 1, i, num, reads, candidateSet, info =>
    if num < size ∧ i < info.tmmbrSet.lengthOfSet then
      let got := info.getTMMBRSet i num candidateSet (clock reads)
      getTMMBRSets size clock rounds (i + 1) (if got.1 = 0 then num + 1 else num) (reads + 1)
        got.2.1 got.2.2
    else (num, reads, candidateSet, info)

end RTCPReceiveInformation

/-- `_receivedInfoMap` is a `std::map`: its entries in the order of the keys. -/
structure RTCPReceiver where
  ssrc : BitVec 32
  receivedInfoMap : List (BitVec 32 × RTCPReceiveInformation) := []

namespace RTCPReceiver

variable (r : RTCPReceiver)

def getReceiveInformation (remoteSSRC : BitVec 32) : Option RTCPReceiveInformation :=
  (r.receivedInfoMap.find? (·.1 = remoteSSRC)).map Prod.snd

def createReceiveInformation (remoteSSRC : BitVec 32) : RTCPReceiver :=
  if (r.getReceiveInformation remoteSSRC).isSome then r
  else { r with
    receivedInfoMap := r.receivedInfoMap.orderedInsert (fun a b => a.1 ≤ b.1) (remoteSSRC, {}) }

/-- A change of the information of a remote. -/
def update (remoteSSRC : BitVec 32) (f : RTCPReceiveInformation → RTCPReceiveInformation) :
    RTCPReceiver :=
  { r with receivedInfoMap := r.receivedInfoMap.map fun e =>
      if e.1 = remoteSSRC then (e.1, f e.2) else e }

/-- A sender or receiver report of a remote (`HandleSenderReceiverReport`). -/
def handleSenderReceiverReport (remoteSSRC : BitVec 32) (now : Int) : RTCPReceiver :=
  (r.createReceiveInformation remoteSSRC).update remoteSSRC fun info =>
    { info with lastTimeReceived := now }

def handleBYE (senderSSRC : BitVec 32) : RTCPReceiver :=
  r.update senderSSRC fun info => { info with readyForDelete := true }

/-- An item for this receiver with a bitrate. -/
def taken (item : RTCPPacketRTPFBTMMBItem) : Bool :=
  r.ssrc = item.SSRC ∧ 0 < item.MaxTotalMediaBitRate

def handleTMMBRItem (remoteSSRC senderSSRC : BitVec 32) (item : RTCPPacketRTPFBTMMBItem)
    (now : Int) : RTCPReceiver :=
  if r.taken item then
    r.update remoteSSRC fun info => info.insertTMMBRItem senderSSRC item now
  else r

/-- The sender that the items of a TMMBR are kept under. -/
def tmmbrSender (senderSSRC mediaSSRC : BitVec 32) : BitVec 32 :=
  if mediaSSRC ≠ 0 then mediaSSRC else senderSSRC

/-- A TMMBR of a remote that is known, with not too many bytes behind it. -/
def handlesTMMBR (senderSSRC : BitVec 32) (lengthLeft : Int) : Bool :=
  (r.getReceiveInformation senderSSRC).isSome ∧ lengthLeft / 8 ≤ 200

/-- The items of the TMMBR come with the times at which they are handled. -/
def handleTMMBR (senderSSRC mediaSSRC : BitVec 32) (lengthLeft : Int)
    (items : List (RTCPPacketRTPFBTMMBItem × Int)) : RTCPReceiver :=
  if r.handlesTMMBR senderSSRC lengthLeft then
    items.foldl (fun r item =>
        r.handleTMMBRItem senderSSRC (tmmbrSender senderSSRC mediaSSRC) item.1 item.2)
      (r.update senderSSRC fun info => info.verifyAndAllocateTMMBRSet (lengthLeft / 8).toNat)
  else r

/-- One remote in `UpdateRTCPReceiveInformationTimers`; `none` if it is deleted. -/
def updateTimer (timeNow : Int) (info : RTCPReceiveInformation) : Option RTCPReceiveInformation :=
  if info.lastTimeReceived ≠ 0 then
    if 5 * RTCP_INTERVAL_AUDIO_MS < timeNow - info.lastTimeReceived then
      some { info with tmmbrSet := info.tmmbrSet.clearSet, lastTimeReceived := 0 }
    else some info
  else if info.readyForDelete then none
  else some info

/-- The result is `updateBoundingSet`. -/
def updateRTCPReceiveInformationTimers (timeNow : Int) : Bool × RTCPReceiver :=
  (r.receivedInfoMap.any fun e => e.2.lastTimeReceived ≠ 0 ∧
      5 * RTCP_INTERVAL_AUDIO_MS < timeNow - e.2.lastTimeReceived,
    { r with receivedInfoMap := r.receivedInfoMap.filterMap fun e =>
        (updateTimer timeNow e.2).map (e.1, ·) })

/-- The outer loop of `TMMBRReceived`. -/
def tmmbrReceivedLoop (size : Nat) (clock : Nat → Int) :
    List (BitVec 32 × RTCPReceiveInformation) → (num reads : Nat) → TMMBRSet →
      Nat × TMMBRSet × List (BitVec 32 × RTCPReceiveInformation)
  | [], num, _, candidateSet => (num, candidateSet, [])
  | (remote, info) :: infos, num, reads, candidateSet =>
    if num < size then
      let got := RTCPReceiveInformation.getTMMBRSets size clock info.tmmbrSet.lengthOfSet 0 num
        reads candidateSet info
      let rest := tmmbrReceivedLoop size clock infos got.1 got.2.1 got.2.2.1
      (rest.1, rest.2.1, (remote, got.2.2.2) :: rest.2.2)
    else (num, candidateSet, (remote, info) :: infos)

/-- With a candidate set it is filled; without one, the entries are counted. -/
def tmmbrReceived (size accNumCandidates : Nat) (candidateSet : Option TMMBRSet)
    (clock : Nat → Int) : Int × Option TMMBRSet × RTCPReceiver :=
  if r.receivedInfoMap.isEmpty then (-1, candidateSet, r)
  else
    match candidateSet with
    | some candidateSet =>
      let got := tmmbrReceivedLoop size clock r.receivedInfoMap accNumCandidates 0 candidateSet
      (got.1, some got.2.1, { r with receivedInfoMap := got.2.2 })
    | none =>
      (accNumCandidates + (r.receivedInfoMap.map fun e => e.2.tmmbrSet.lengthOfSet).sum, none, r)

/-! ## Runs -/

/-- A call that reaches the receive information. -/
inductive Call where
  | setSsrcs (mainSsrc : BitVec 32)
  | report (remoteSSRC : BitVec 32) (now : Int)
  | bye (senderSSRC : BitVec 32)
  | tmmbr (senderSSRC mediaSSRC : BitVec 32) (lengthLeft : Int)
      (items : List (RTCPPacketRTPFBTMMBItem × Int))
  | timers (timeNow : Int)
  | tmmbrReceived (size accNumCandidates : Nat) (candidateSet : Option TMMBRSet)
      (clock : Nat → Int)

def step : Call → RTCPReceiver
  | .setSsrcs mainSsrc => { r with ssrc := mainSsrc }
  | .report remoteSSRC now => r.handleSenderReceiverReport remoteSSRC now
  | .bye senderSSRC => r.handleBYE senderSSRC
  | .tmmbr senderSSRC mediaSSRC lengthLeft items =>
    r.handleTMMBR senderSSRC mediaSSRC lengthLeft items
  | .timers timeNow => (r.updateRTCPReceiveInformationTimers timeNow).2
  | .tmmbrReceived size accNumCandidates candidateSet clock =>
    (r.tmmbrReceived size accNumCandidates candidateSet clock).2.2

/-- An item that was received of a remote, under the sender it is kept under. -/
structure Receipt where
  remote : BitVec 32
  sender : BitVec 32
  time : Int

/-- The items that a call receives, the last one first. -/
def receipts : Call → List Receipt
  | .tmmbr senderSSRC mediaSSRC lengthLeft items =>
    if r.handlesTMMBR senderSSRC lengthLeft then
      ((items.filter fun item => r.taken item.1).map fun item =>
        ⟨senderSSRC, tmmbrSender senderSSRC mediaSSRC, item.2⟩).reverse
    else []
  | _ => []

/-- When an item of a sender was last received of a remote. -/
def lastReceived (received : List Receipt) (remote sender : BitVec 32) : Option Int :=
  (received.find? fun x => x.remote = remote ∧ x.sender = sender).map Receipt.time

/-- The receiver and all that it has received. -/
abbrev History := RTCPReceiver × List Receipt

/-- The states of a run, the first one and the one after each call. -/
def reached (s : History) : List Call → List History
  | [] => [s]
  | call :: calls => s :: reached (s.1.step call, s.1.receipts call ++ s.2) calls

/-- Every TMMBR set has as many times as entries, and each time is the one at
which the entry was last received. -/
def Consistent (s : History) : Prop :=
  ∀ e ∈ s.1.receivedInfoMap,
    e.2.tmmbrSetTimeouts.length = e.2.tmmbrSet.lengthOfSet ∧
    ∀ i < e.2.tmmbrSet.lengthOfSet, e.2.tmmbrSetTimeouts[i]? =
      lastReceived s.2 e.1 (e.2.tmmbrSet.entries.getD i TMMBRSet.unset).ssrc

/-- No set with entries is cleared. -/
def Fits : Call → Prop
  | .timers timeNow => ∀ e ∈ r.receivedInfoMap, e.2.lastTimeReceived ≠ 0 →
      5 * RTCP_INTERVAL_AUDIO_MS < timeNow - e.2.lastTimeReceived → e.2.tmmbrSet.lengthOfSet = 0
  | _ => True

def Along (r : RTCPReceiver) : List Call → Prop
  | [] => True
  | call :: calls => r.Fits call ∧ Along (r.step call) calls

end RTCPReceiver

/-! ## One remote -/

open RTCPReceiver

namespace RTCPReceiveInformation

/-- The times belong to the entries, and no sender has two entries. -/
def Tracked (received : List Receipt) (remote : BitVec 32) (info : RTCPReceiveInformation) :
    Prop :=
  info.tmmbrSetTimeouts.map some =
    info.tmmbrSet.entries.map (fun e => lastReceived received remote e.ssrc) ∧
  (info.tmmbrSet.entries.map SetElement.ssrc).Nodup

variable {received : List Receipt} {remote : BitVec 32} {info : RTCPReceiveInformation}

theorem lastReceived_cons (x : Receipt) (sender : BitVec 32) :
    lastReceived (x :: received) remote sender =
      if x.remote = remote ∧ x.sender = sender then some x.time
      else lastReceived received remote sender := by
  unfold lastReceived
  rw [List.find?_cons]
  by_cases h : x.remote = remote ∧ x.sender = sender
  · rw [if_pos h, decide_eq_true h]
    rfl
  · rw [if_neg h, decide_eq_false h]

theorem tracked_congr {info' : RTCPReceiveInformation}
    (hentries : info'.tmmbrSet.entries = info.tmmbrSet.entries)
    (htimeouts : info'.tmmbrSetTimeouts = info.tmmbrSetTimeouts)
    (h : info.Tracked received remote) : info'.Tracked received remote := by
  unfold Tracked
  rw [hentries, htimeouts]
  exact h

/-- What another remote sends leaves the times alone. -/
theorem tracked_other {x : Receipt} (hx : x.remote ≠ remote) (h : info.Tracked received remote) :
    info.Tracked (x :: received) remote := by
  refine ⟨h.1.trans (List.map_congr_left fun e _ => ?_), h.2⟩
  rw [lastReceived_cons, if_neg fun hsame => hx hsame.1]

theorem verifyAndAllocateTMMBRSet_entries (n : Nat) :
    (info.verifyAndAllocateTMMBRSet n).tmmbrSet.entries = info.tmmbrSet.entries := by
  unfold verifyAndAllocateTMMBRSet
  split
  · exact TMMBRSet.entries_verifyAndAllocateSetKeepingData n
  · rfl

theorem verifyAndAllocateTMMBRSet_timeouts (n : Nat) :
    (info.verifyAndAllocateTMMBRSet n).tmmbrSetTimeouts = info.tmmbrSetTimeouts := by
  unfold verifyAndAllocateTMMBRSet
  split <;> rfl

/-- The times after an item of a sender, in a set of entries. -/
theorem lastReceived_entries {entries : List SetElement} {sender : BitVec 32} (now : Int)
    (h : ∀ e ∈ entries, e.ssrc ≠ sender) :
    entries.map (fun e => lastReceived (⟨remote, sender, now⟩ :: received) remote e.ssrc) =
      entries.map fun e => lastReceived received remote e.ssrc := by
  refine List.map_congr_left fun e he => ?_
  rw [lastReceived_cons, if_neg fun hsame => h e he hsame.2.symm]

theorem lastReceived_self (sender : BitVec 32) (now : Int) :
    lastReceived (⟨remote, sender, now⟩ :: received) remote sender = some now := by
  rw [lastReceived_cons, if_pos ⟨rfl, rfl⟩]

/-- Both lists change at the entry of the sender, or both get a new last one. -/
theorem insertTMMBRItem_tracked {sender : BitVec 32} (item : RTCPPacketRTPFBTMMBItem) (now : Int)
    (h : info.Tracked received remote) :
    (info.insertTMMBRItem sender item now).Tracked (⟨remote, sender, now⟩ :: received) remote := by
  obtain ⟨htimes, hnd⟩ := h
  have hlength : info.tmmbrSet.entries.length = info.tmmbrSet.lengthOfSet :=
    TMMBRSet.length_entries
  by_cases hfound : info.tmmbrSet.entries.findIdx (fun e => decide (e.ssrc = sender)) <
      info.tmmbrSet.lengthOfSet
  · simp only [insertTMMBRItem, dif_pos hfound]
    have hlt := hfound
    rw [← hlength] at hlt
    have hssrc := of_decide_eq_true (@List.findIdx_getElem _ _ info.tmmbrSet.entries hlt)
    unfold Tracked
    simp only [TMMBRSet.entries_setEntry _ hfound, List.map_set, htimes]
    generalize info.tmmbrSet.entries.findIdx (fun e => decide (e.ssrc = sender)) = i at hlt hssrc
    refine ⟨?_, ?_⟩
    · rw [lastReceived_self]
      refine List.ext_getElem (by simp) fun j hj hj' => ?_
      rw [List.getElem_set, List.getElem_set]
      split_ifs with hji
      · rfl
      · have hj'' : j < info.tmmbrSet.entries.length := by simpa using hj
        rw [List.getElem_map, List.getElem_map, lastReceived_cons, if_neg]
        rintro ⟨-, hsame⟩
        refine hji ((@List.Nodup.getElem_inj_iff _ _ hnd i (by simpa using hlt) j
          (by simpa using hj'')).mp ?_)
        rw [List.getElem_map, List.getElem_map, hssrc]
        exact hsame
    · rw [← hssrc, ← List.getElem_map SetElement.ssrc, List.set_getElem_self]
      · exact hnd
      · simpa using hlt
  · simp only [insertTMMBRItem, dif_neg hfound]
    have hnew : ∀ e ∈ info.tmmbrSet.entries, e.ssrc ≠ sender := fun e he hsame =>
      hfound (hlength ▸ List.findIdx_lt_length_of_exists ⟨e, he, decide_eq_true hsame⟩)
    unfold Tracked
    rw [TMMBRSet.entries_addEntry, verifyAndAllocateTMMBRSet_entries,
      verifyAndAllocateTMMBRSet_timeouts, List.map_append, List.map_append, List.map_append,
      lastReceived_entries now hnew, htimes]
    refine ⟨?_, List.nodup_append.mpr ⟨hnd, List.nodup_singleton _, ?_⟩⟩
    · rw [List.map_singleton, List.map_singleton, lastReceived_self]
    · intro a ha b hb
      obtain ⟨e, he, rfl⟩ := List.mem_map.mp ha
      rw [List.map_singleton, List.mem_singleton] at hb
      rw [hb]
      exact hnew e he

/-- A removed entry takes its time along. -/
theorem getTMMBRSet_tracked (sourceIdx targetIdx : Nat) (candidateSet : TMMBRSet) (now : Int)
    (h : info.Tracked received remote) :
    (info.getTMMBRSet sourceIdx targetIdx candidateSet now).2.2.Tracked received remote := by
  unfold getTMMBRSet
  split_ifs with hsource htarget hold
  · obtain ⟨htimes, hnd⟩ := h
    refine ⟨?_, ?_⟩
    · rw [TMMBRSet.entries_removeEntry, ← List.eraseIdx_map, htimes, List.eraseIdx_map]
    · rw [TMMBRSet.entries_removeEntry, ← List.eraseIdx_map]
      exact hnd.eraseIdx _
  · exact h
  · exact h
  · exact h

theorem getTMMBRSets_tracked (size : Nat) (clock : Nat → Int) (rounds : Nat) :
    ∀ {i num reads : Nat} {candidateSet : TMMBRSet} {info : RTCPReceiveInformation},
      info.Tracked received remote →
      (getTMMBRSets size clock rounds i num reads candidateSet info).2.2.2.Tracked received
        remote := by
  induction rounds with
  | zero => exact fun h => h
  | succ rounds ih =>
    intro i num reads candidateSet info h
    unfold getTMMBRSets
    split
    · exact ih (getTMMBRSet_tracked i num candidateSet (clock reads) h)
    · exact h

end RTCPReceiveInformation

/-! ## The receiver -/

namespace RTCPReceiver

open RTCPReceiveInformation

/-- The invariant of a run. -/
def Inv (s : History) : Prop := ∀ e ∈ s.1.receivedInfoMap, e.2.Tracked s.2 e.1

variable {r : RTCPReceiver} {received : List Receipt}

theorem Inv.consistent {s : History} (h : Inv s) : Consistent s := by
  intro e he
  obtain ⟨htimes, -⟩ := h e he
  have hlength : e.2.tmmbrSetTimeouts.length = e.2.tmmbrSet.entries.length := by
    simpa using congrArg List.length htimes
  refine ⟨hlength.trans TMMBRSet.length_entries, fun i hi => ?_⟩
  have hlt : i < e.2.tmmbrSet.entries.length := by rwa [TMMBRSet.length_entries]
  have hget := congrArg (·[i]?) htimes
  simp only [List.getElem?_map, List.getElem?_eq_getElem hlt,
    List.getElem?_eq_getElem (hlength ▸ hlt), Option.map_some] at hget
  rw [List.getElem?_eq_getElem (hlength ▸ hlt), List.getD_eq_getElem _ _ hlt]
  exact Option.some.inj hget

/-- A change of one remote. -/
theorem update_inv {remote : BitVec 32} {f : RTCPReceiveInformation → RTCPReceiveInformation}
    {log : List Receipt} (hlog : log = received ∨ ∃ x : Receipt, x.remote = remote ∧
      log = x :: received)
    (hf : ∀ info, info.Tracked received remote → (f info).Tracked log remote)
    (h : Inv (r, received)) : Inv (r.update remote f, log) := by
  intro e he
  obtain ⟨e, hmem, rfl⟩ := List.mem_map.mp he
  have htracked := h e hmem
  by_cases hsame : e.1 = remote
  · subst hsame
    rw [if_pos rfl]
    exact hf _ htracked
  · rw [if_neg hsame]
    rcases hlog with rfl | ⟨x, hx, rfl⟩
    · exact htracked
    · exact tracked_other (fun heq => hsame (heq.symm.trans hx)) htracked

theorem createReceiveInformation_inv (remote : BitVec 32) (h : Inv (r, received)) :
    Inv (r.createReceiveInformation remote, received) := by
  unfold createReceiveInformation
  split
  · exact h
  · intro e he
    rcases (List.mem_orderedInsert _).mp he with rfl | he
    · exact ⟨rfl, List.nodup_nil⟩
    · exact h e he

theorem handleTMMBRItem_inv (remote sender : BitVec 32) (item : RTCPPacketRTPFBTMMBItem)
    (now : Int) (h : Inv (r, received)) :
    Inv (r.handleTMMBRItem remote sender item now,
      if r.taken item then ⟨remote, sender, now⟩ :: received else received) := by
  unfold handleTMMBRItem
  split
  · exact update_inv (.inr ⟨_, rfl, rfl⟩) (fun _ => insertTMMBRItem_tracked item now) h
  · exact h

theorem handleTMMBRItem_ssrc (remote sender : BitVec 32) (item : RTCPPacketRTPFBTMMBItem)
    (now : Int) : (r.handleTMMBRItem remote sender item now).ssrc = r.ssrc := by
  unfold handleTMMBRItem
  split <;> rfl

theorem handleTMMBRItems_inv (remote sender : BitVec 32)
    (items : List (RTCPPacketRTPFBTMMBItem × Int)) :
    ∀ {r : RTCPReceiver} {received : List Receipt}, Inv (r, received) →
      Inv (items.foldl (fun r item => r.handleTMMBRItem remote sender item.1 item.2) r,
        ((items.filter fun item => r.taken item.1).map fun item =>
          (⟨remote, sender, item.2⟩ : Receipt)).reverse ++ received) := by
  induction items with
  | nil => exact fun h => h
  | cons item items ih =>
    intro r received h
    have hnext := ih (handleTMMBRItem_inv remote sender item.1 item.2 h)
    have htaken : ∀ other, (r.handleTMMBRItem remote sender item.1 item.2).taken other =
        r.taken other := fun other => by
      rw [taken, taken, handleTMMBRItem_ssrc]
    rw [List.foldl_cons, List.filter_cons]
    simp only [htaken] at hnext
    split at hnext
    · rename_i hitem
      rw [if_pos hitem, List.map_cons, List.reverse_cons, List.append_assoc]
      exact hnext
    · rename_i hitem
      rw [if_neg hitem]
      exact hnext

theorem tmmbrReceivedLoop_inv (size : Nat) (clock : Nat → Int)
    (infos : List (BitVec 32 × RTCPReceiveInformation)) :
    ∀ {num reads : Nat} {candidateSet : TMMBRSet},
      (∀ e ∈ infos, e.2.Tracked received e.1) →
      ∀ e ∈ (tmmbrReceivedLoop size clock infos num reads candidateSet).2.2,
        e.2.Tracked received e.1 := by
  induction infos with
  | nil => exact fun h => h
  | cons info infos ih =>
    intro num reads candidateSet h
    unfold tmmbrReceivedLoop
    split
    · rw [List.forall_mem_cons] at h ⊢
      exact ⟨getTMMBRSets_tracked size clock _ h.1, ih h.2⟩
    · exact h

theorem tmmbrReceived_inv (size accNumCandidates : Nat) (candidateSet : Option TMMBRSet)
    (clock : Nat → Int) (h : Inv (r, received)) :
    Inv ((r.tmmbrReceived size accNumCandidates candidateSet clock).2.2, received) := by
  unfold tmmbrReceived
  split
  · exact h
  · cases candidateSet with
    | none => exact h
    | some candidateSet => exact tmmbrReceivedLoop_inv size clock _ h

/-- A call that fits keeps the invariant. -/
theorem step_inv (call : Call) (h : Inv (r, received)) (hfits : r.Fits call) :
    Inv (r.step call, r.receipts call ++ received) := by
  cases call with
  | setSsrcs mainSsrc => exact h
  | report remoteSSRC now =>
    exact update_inv (.inl rfl) (fun info => tracked_congr rfl rfl)
      (createReceiveInformation_inv remoteSSRC h)
  | bye senderSSRC => exact update_inv (.inl rfl) (fun info => tracked_congr rfl rfl) h
  | tmmbr senderSSRC mediaSSRC lengthLeft items =>
    rw [step, handleTMMBR, receipts]
    split
    · refine handleTMMBRItems_inv _ _ items (update_inv (.inl rfl) (fun info => ?_) h)
      exact tracked_congr (verifyAndAllocateTMMBRSet_entries _)
        (verifyAndAllocateTMMBRSet_timeouts _)
    · exact h
  | timers timeNow =>
    intro e he
    obtain ⟨old, hmem, hnew⟩ := List.mem_filterMap.mp he
    obtain ⟨info, hinfo, rfl⟩ := Option.map_eq_some_iff.mp hnew
    have htracked := h old hmem
    unfold updateTimer at hinfo
    split_ifs at hinfo with hlast hsilent hdelete
    · -- The set that is cleared has no entries, and so no times.
      have hnil : old.2.tmmbrSet.entries = [] :=
        List.eq_nil_of_length_eq_zero (TMMBRSet.length_entries.trans (hfits old hmem hlast hsilent))
      rw [← Option.some.inj hinfo]
      exact tracked_congr (TMMBRSet.entries_clearSet.trans hnil.symm) rfl htracked
    · rw [← Option.some.inj hinfo]
      exact htracked
    · rw [← Option.some.inj hinfo]
      exact htracked
  | tmmbrReceived size accNumCandidates candidateSet clock =>
    exact tmmbrReceived_inv size accNumCandidates candidateSet clock h

/-- A set that is cleared with entries in it keeps their times. -/
theorem not_consistent_of_not_fits {call : Call} (h : Inv (r, received))
    (hfits : ¬ r.Fits call) : ¬ Consistent (r.step call, r.receipts call ++ received) := by
  cases call with
  | timers timeNow =>
    intro hconsistent
    refine hfits fun e he hlast hsilent => ?_
    have hmem : (e.1, { e.2 with tmmbrSet := e.2.tmmbrSet.clearSet, lastTimeReceived := 0 }) ∈
        (r.step (.timers timeNow)).receivedInfoMap := by
      refine List.mem_filterMap.mpr ⟨e, he, ?_⟩
      rw [updateTimer, if_pos hlast, if_pos hsilent, Option.map_some]
    have hcleared := (hconsistent _ hmem).1
    have hlength := (h.consistent e he).1
    exact hlength.symm.trans hcleared
  | _ => exact absurd trivial hfits

/-- The times and the entries stay together in a run exactly if no timer update
finds a remote silent for more than five intervals with entries in its set. -/
theorem reached_consistent_iff (ssrc : BitVec 32) (calls : List Call) :
    (∀ s ∈ reached ({ ssrc := ssrc }, []) calls, Consistent s) ↔
      Along { ssrc := ssrc } calls := by
  have hrun : ∀ (calls : List Call) (r : RTCPReceiver) (received : List Receipt),
      Inv (r, received) →
      ((∀ s ∈ reached (r, received) calls, Consistent s) ↔ Along r calls) := by
    intro calls
    induction calls with
    | nil =>
      intro r received h
      refine iff_of_true (fun s hs => ?_) trivial
      rw [List.mem_singleton.mp hs]
      exact h.consistent
    | cons call calls ih =>
      intro r received h
      rw [reached, List.forall_mem_cons, and_iff_right h.consistent, Along]
      by_cases hfits : r.Fits call
      · rw [and_iff_right hfits]
        exact ih _ _ (step_inv call h hfits)
      · refine iff_of_false (fun hall => ?_) fun hboth => hfits hboth.1
        exact not_consistent_of_not_fits h hfits
          (hall _ (by cases calls <;> exact List.mem_cons_self))
  exact hrun calls _ _ (List.forall_mem_nil _)

/-- A remote whose item was cleared after 25 seconds, and that sends another
one: the first place of the times is that of the first item. -/
def silentRemote : List Call :=
  [.report 7 1000, .tmmbr 7 0 8 [(⟨1, 300, 40⟩, 1000)], .timers 30000, .report 7 31000,
    .tmmbr 7 0 8 [(⟨1, 200, 40⟩, 31000)]]

theorem reached_not_consistent :
    ¬ (∀ s ∈ reached ({ ssrc := 1 }, []) silentRemote, Consistent s) ∧
    ((reached ({ ssrc := 1 }, []) silentRemote).getLast?.map fun s =>
      s.1.receivedInfoMap.map fun e =>
        (e.2.tmmbrSet.lengthOfSet, e.2.tmmbrSetTimeouts, lastReceived s.2 7 7)) =
      some [(1, [1000, 31000], some 31000)] := by
  refine ⟨fun hall => ?_, by decide +kernel⟩
  have hlast := hall _ (List.getLast_mem (List.cons_ne_nil _ _))
  revert hlast
  unfold Consistent
  decide +kernel

end RTCPReceiver

end PerchWebrtc.Rtcp
