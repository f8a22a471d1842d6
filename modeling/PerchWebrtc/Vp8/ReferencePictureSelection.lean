import PerchWebrtc.Framework.Machine
import PerchWebrtc.Vp8.ReferenceBuffers

/-!
# Reference picture selection

`ReferencePictureSelection` (`reference_picture_selection.cc`): the golden and the alt-ref buffer
take turns. One of them, the established one, holds a picture that the receiver has confirmed
with an RPSI message; the other one is updated next.

* `Consistent`: what the two buffers hold, in every state of a run;
* `refersToConfirmed`: a frame that may not refer to the last frame may only refer to a
  confirmed picture.
-/

namespace PerchWebrtc.Vp8

/-- `kMinUpdateInterval`. -/
def kMinUpdateInterval : BitVec 32 := 900

structure ReferencePictureSelection where
  updateGoldenNext : Bool := true
  establishedGolden : Bool := false
  receivedAck : Bool := false
  lastSentRefPictureId : Int := 0
  lastSentRefUpdateTime : BitVec 32 := 0
  establishedRefPictureId : Int := 0
  lastRefreshTime : BitVec 32 := 0
  rtt : BitVec 32 := 0

/-- `id & 0x3fff`. -/
def low14 (id : Int) : Int := id % 16384

/-- `TimestampDiff`. -/
def timestampDiff (newTs oldTs : BitVec 32) : BitVec 32 :=
  if oldTs > newTs then BitVec.ofNat 32 (newTs.toNat + 2 ^ 32 - oldTs.toNat) else newTs - oldTs

namespace ReferencePictureSelection

def receivedRPSI (s : ReferencePictureSelection) (rpsiPictureId : Int) :
    ReferencePictureSelection :=
  if low14 rpsiPictureId = low14 s.lastSentRefPictureId then
    -- the peer has our last reference frame: switch frame type
    { s with
      receivedAck := true
      establishedGolden := s.updateGoldenNext
      updateGoldenNext := !s.updateGoldenNext
      establishedRefPictureId := s.lastSentRefPictureId }
  else s

/-- `ReceivedSLI`, with whether to send a refresh. -/
def receivedSLI (s : ReferencePictureSelection) (nowTs : BitVec 32) :
    Bool × ReferencePictureSelection :=
  if timestampDiff nowTs s.lastRefreshTime > s.rtt then (true, { s with lastRefreshTime := nowTs })
  else (false, s)

def encodedKeyFrame (s : ReferencePictureSelection) (pictureId : Int) :
    ReferencePictureSelection :=
  { s with lastSentRefPictureId := pictureId, receivedAck := false }

def setRtt (s : ReferencePictureSelection) (rtt : Int) : ReferencePictureSelection :=
  { s with rtt := BitVec.ofInt 32 (90 * rtt) }

/-- Don't refer to the buffer that is not established. -/
def establishedFlags (s : ReferencePictureSelection) : BitVec 32 :=
  if s.establishedGolden then VP8_EFLAG_NO_REF_ARF else VP8_EFLAG_NO_REF_GF

/-- Whether it is time to update a reference. The product of `kRttConfidence` and the round-trip
time is a floating-point one. -/
def updateIsDue (rttConfidence : BitVec 32 → BitVec 32) (s : ReferencePictureSelection)
    (nowTs : BitVec 32) : Bool :=
  let updateInterval := rttConfidence s.rtt
  let updateInterval :=
    if updateInterval < kMinUpdateInterval then kMinUpdateInterval else updateInterval
  decide (timestampDiff nowTs s.lastSentRefUpdateTime > updateInterval) && s.receivedAck

/-- `EncodeFlags`. -/
def encodeFlags (rttConfidence : BitVec 32 → BitVec 32) (s : ReferencePictureSelection)
    (pictureId : Int) (sendRefresh : Bool) (nowTs : BitVec 32) :
    BitVec 32 × ReferencePictureSelection :=
  let flags := if sendRefresh && s.receivedAck then VP8_EFLAG_NO_REF_LAST ||| s.establishedFlags
    else 0
  if s.updateIsDue rttConfidence nowTs then
    let flags := flags ||| VP8_EFLAG_NO_REF_LAST |||
      (if s.updateGoldenNext then VP8_EFLAG_FORCE_GF ||| VP8_EFLAG_NO_UPD_ARF ||| VP8_EFLAG_NO_REF_GF
      else VP8_EFLAG_FORCE_ARF ||| VP8_EFLAG_NO_UPD_GF ||| VP8_EFLAG_NO_REF_ARF)
    (flags, { s with lastSentRefPictureId := pictureId, lastSentRefUpdateTime := nowTs })
  else
    (flags ||| s.establishedFlags ||| VP8_EFLAG_NO_UPD_GF ||| VP8_EFLAG_NO_UPD_ARF, s)

end ReferencePictureSelection

/-! ## A run of the encoder -/

/-- A picture in a buffer: its number in the run, its picture id, and whether an RPSI for it has
been received since it is there. -/
structure Held where
  picture : Nat
  pictureId : Int
  confirmed : Bool

/-- The selection, the buffers, and the ids of the pictures encoded. -/
structure SelectingEncoder where
  rps : ReferencePictureSelection := {}
  buffers : RefBuffer → Option Held := fun _ => none
  encoded : List Int := []

/-- What happens to the encoder. An RPSI names a picture by its number and carries some value of
its id. -/
inductive SelectionEvent
  /-- A key frame, asked for or decided by the encoder after the flags were made. -/
  | key (pictureId : Int) (flagsMade : Option (Bool × BitVec 32))
  | delta (pictureId : Int) (sendRefresh : Bool) (nowTs : BitVec 32)
  | rpsi (picture : Nat) (rpsiPictureId : Int)
  | sli (nowTs : BitVec 32)
  | rtt (milliseconds : Int)

namespace SelectingEncoder

variable (rttConfidence : BitVec 32 → BitVec 32)

/-- An RPSI confirms the picture where it is held. -/
def confirm (picture : Nat) (held : Held) : Held :=
  if held.picture = picture then { held with confirmed := true } else held

def step (s : SelectingEncoder) : SelectionEvent → SelectingEncoder
  | .key pictureId flagsMade =>
    let rps := match flagsMade with
      | none => s.rps
      | some (sendRefresh, nowTs) => (s.rps.encodeFlags rttConfidence pictureId sendRefresh nowTs).2
    { rps := rps.encodedKeyFrame pictureId
      buffers := fun _ => some ⟨s.encoded.length, pictureId, false⟩
      encoded := s.encoded ++ [pictureId] }
  | .delta pictureId sendRefresh nowTs =>
    let (flags, rps) := s.rps.encodeFlags rttConfidence pictureId sendRefresh nowTs
    { rps := rps
      buffers := fun b =>
        if updates flags b then some ⟨s.encoded.length, pictureId, false⟩ else s.buffers b
      encoded := s.encoded ++ [pictureId] }
  | .rpsi picture rpsiPictureId =>
    { s with
      rps := s.rps.receivedRPSI rpsiPictureId
      buffers := fun b => (s.buffers b).map (confirm picture) }
  | .sli nowTs => { s with rps := (s.rps.receivedSLI nowTs).2 }
  | .rtt milliseconds => { s with rps := s.rps.setRtt milliseconds }

/-- An RPSI names a picture encoded before, by the low bits of its id, and no other picture that
is held has these bits. -/
def Named (s : SelectingEncoder) : SelectionEvent → Prop
  | .rpsi picture rpsiPictureId =>
    ∃ pictureId, s.encoded[picture]? = some pictureId ∧ low14 rpsiPictureId = low14 pictureId ∧
      ∀ b held, s.buffers b = some held → low14 held.pictureId = low14 pictureId →
        held.picture = picture
  | _ => True

/-- A delta frame that may not refer to the last frame may refer to one buffer only, and this
one holds a confirmed picture. -/
def RefersToConfirmed (s : SelectingEncoder) : SelectionEvent → Prop
  | .delta pictureId sendRefresh nowTs =>
    let flags := (s.rps.encodeFlags rttConfidence pictureId sendRefresh nowTs).1
    mayRefer flags .last = false →
      ∃ b, (∀ b', mayRefer flags b' = true ↔ b' = b) ∧
        ∃ held, s.buffers b = some held ∧ held.confirmed = true
  | _ => True

end SelectingEncoder

/-! ## The flags -/

/-- The buffer for the golden or for the alt-ref picture. -/
def refBuffer (golden : Bool) : RefBuffer := if golden then .golden else .altRef

/-- The flags, by whether to refresh, whether an update is due and whose turn it is. -/
def selectionFlags (refresh due updateGoldenNext : Bool) : BitVec 32 :=
  let established :=
    if !updateGoldenNext then VP8_EFLAG_NO_REF_ARF else VP8_EFLAG_NO_REF_GF
  let flags := if refresh then VP8_EFLAG_NO_REF_LAST ||| established else 0
  if due then
    flags ||| VP8_EFLAG_NO_REF_LAST |||
      (if updateGoldenNext then VP8_EFLAG_FORCE_GF ||| VP8_EFLAG_NO_UPD_ARF ||| VP8_EFLAG_NO_REF_GF
      else VP8_EFLAG_FORCE_ARF ||| VP8_EFLAG_NO_UPD_GF ||| VP8_EFLAG_NO_REF_ARF)
  else flags ||| established ||| VP8_EFLAG_NO_UPD_GF ||| VP8_EFLAG_NO_UPD_ARF

theorem selectionFlags_updates (refresh due updateGoldenNext : Bool) (b : RefBuffer) :
    updates (selectionFlags refresh due updateGoldenNext) b =
      (b == .last || (due && b == refBuffer updateGoldenNext)) := by
  revert refresh due updateGoldenNext b
  decide

/-- Without the last frame, only the established buffer is left. -/
theorem selectionFlags_mayRefer (refresh due updateGoldenNext : Bool) :
    mayRefer (selectionFlags refresh due updateGoldenNext) .last = false →
      (refresh || due) = true ∧
        ∀ b, mayRefer (selectionFlags refresh due updateGoldenNext) b =
          (b == refBuffer (!updateGoldenNext)) := by
  revert refresh due updateGoldenNext
  decide

namespace ReferencePictureSelection

variable (rttConfidence : BitVec 32 → BitVec 32) (s : ReferencePictureSelection) (pictureId : Int)
  (sendRefresh : Bool) (nowTs : BitVec 32)

theorem encodeFlags_flags (h : s.establishedGolden = !s.updateGoldenNext) :
    (s.encodeFlags rttConfidence pictureId sendRefresh nowTs).1 =
      selectionFlags (sendRefresh && s.receivedAck) (s.updateIsDue rttConfidence nowTs)
        s.updateGoldenNext := by
  unfold encodeFlags selectionFlags establishedFlags
  rw [h]
  cases s.updateIsDue rttConfidence nowTs <;> rfl

theorem encodeFlags_rps :
    (s.encodeFlags rttConfidence pictureId sendRefresh nowTs).2 =
      if s.updateIsDue rttConfidence nowTs then
        { s with lastSentRefPictureId := pictureId, lastSentRefUpdateTime := nowTs }
      else s := by
  unfold encodeFlags
  cases s.updateIsDue rttConfidence nowTs <;> rfl

theorem receivedAck_of_due (h : s.updateIsDue rttConfidence nowTs = true) :
    s.receivedAck = true := by
  simp only [updateIsDue, Bool.and_eq_true] at h
  exact h.2

/-- The turns of the two buffers are not changed by making flags. -/
theorem encodeFlags_turns :
    (s.encodeFlags rttConfidence pictureId sendRefresh nowTs).2.establishedGolden =
        s.establishedGolden ∧
      (s.encodeFlags rttConfidence pictureId sendRefresh nowTs).2.updateGoldenNext =
        s.updateGoldenNext := by
  rw [encodeFlags_rps]
  split <;> exact ⟨rfl, rfl⟩

end ReferencePictureSelection

/-! ## What the buffers hold -/

/-- A picture that is confirmed, or would be by the next RPSI that counts. -/
def Held.Confirmable (held : Held) (rps : ReferencePictureSelection) : Prop :=
  held.confirmed = true ∨ held.pictureId = rps.lastSentRefPictureId

structure Consistent (s : SelectingEncoder) : Prop where
  /-- The buffer updated next is the one that is not established. -/
  turns : s.rps.establishedGolden = !s.rps.updateGoldenNext
  next : ∃ held, s.buffers (refBuffer s.rps.updateGoldenNext) = some held ∧
    held.Confirmable s.rps
  established : ∃ held, s.buffers (refBuffer s.rps.establishedGolden) = some held ∧
    held.Confirmable s.rps ∧ (s.rps.receivedAck = true → held.confirmed = true)

section

variable {rttConfidence : BitVec 32 → BitVec 32} {s : SelectingEncoder}

open SelectingEncoder

theorem consistent_key (turns : s.rps.establishedGolden = !s.rps.updateGoldenNext)
    (pictureId : Int) (flagsMade : Option (Bool × BitVec 32)) :
    Consistent (step rttConfidence s (.key pictureId flagsMade)) := by
  have hturns : ∀ rps : ReferencePictureSelection, rps.establishedGolden = !rps.updateGoldenNext →
      Consistent
        { rps := rps.encodedKeyFrame pictureId
          buffers := fun _ => some ⟨s.encoded.length, pictureId, false⟩
          encoded := s.encoded ++ [pictureId] } :=
    fun rps h => ⟨h, ⟨_, rfl, .inr rfl⟩, ⟨_, rfl, .inr rfl, fun hack => by cases hack⟩⟩
  cases flagsMade with
  | none => exact hturns s.rps turns
  | some made =>
    obtain ⟨sendRefresh, nowTs⟩ := made
    obtain ⟨hest, hnext⟩ := s.rps.encodeFlags_turns rttConfidence pictureId sendRefresh nowTs
    exact hturns _ (by rw [hest, hnext, turns])

theorem consistent_delta (h : Consistent s) (pictureId : Int) (sendRefresh : Bool)
    (nowTs : BitVec 32) :
    Consistent (step rttConfidence s (.delta pictureId sendRefresh nowTs)) := by
  obtain ⟨next, hnext, hnextOk⟩ := h.next
  obtain ⟨est, hest, hestOk, hconfirmed⟩ := h.established
  have hrps : (step rttConfidence s (.delta pictureId sendRefresh nowTs)).rps = _ :=
    s.rps.encodeFlags_rps rttConfidence pictureId sendRefresh nowTs
  have hbuffers (b : RefBuffer) :
      (step rttConfidence s (.delta pictureId sendRefresh nowTs)).buffers b =
        if b == .last || (s.rps.updateIsDue rttConfidence nowTs
            && b == refBuffer s.rps.updateGoldenNext) then
          some ⟨s.encoded.length, pictureId, false⟩
        else s.buffers b := by
    simp only [step, s.rps.encodeFlags_flags rttConfidence pictureId sendRefresh nowTs h.turns,
      selectionFlags_updates]
  have hother (golden : Bool) : (refBuffer golden == RefBuffer.last) = false := by
    cases golden <;> rfl
  cases hdue : s.rps.updateIsDue rttConfidence nowTs with
  | true =>
    -- the buffer whose turn it is gets the new picture; the other one is confirmed
    have hack := s.rps.receivedAck_of_due rttConfidence nowTs hdue
    have hne : (refBuffer s.rps.establishedGolden == refBuffer s.rps.updateGoldenNext) = false := by
      rw [h.turns]
      cases s.rps.updateGoldenNext <;> rfl
    rw [hdue, if_pos rfl] at hrps
    refine ⟨by rw [hrps]; exact h.turns, ⟨⟨s.encoded.length, pictureId, false⟩, ?_, ?_⟩, est, ?_,
      .inl (hconfirmed hack), fun _ => hconfirmed hack⟩
    · rw [hrps, hbuffers, hdue, if_pos (by simp)]
    · rw [hrps]
      exact .inr rfl
    · rw [hrps, hbuffers, hdue, if_neg (by simp [hother, hne])]
      exact hest
  | false =>
    rw [hdue, if_neg (by decide)] at hrps
    refine ⟨by rw [hrps]; exact h.turns, ⟨next, ?_, by rw [hrps]; exact hnextOk⟩, est, ?_,
      by rw [hrps]; exact hestOk, by rw [hrps]; exact hconfirmed⟩
    · rw [hrps, hbuffers, hdue, if_neg (by simp [hother])]
      exact hnext
    · rw [hrps, hbuffers, hdue, if_neg (by simp [hother])]
      exact hest

theorem confirm_confirmed (picture : Nat) {held : Held} (h : held.confirmed = true) :
    (confirm picture held).confirmed = true := by
  unfold confirm
  split
  · rfl
  · exact h

theorem confirm_pictureId (picture : Nat) (held : Held) :
    (confirm picture held).pictureId = held.pictureId := by
  unfold confirm
  split <;> rfl

theorem consistent_rpsi (h : Consistent s) {picture : Nat} {rpsiPictureId : Int}
    (hnamed : Named s (.rpsi picture rpsiPictureId)) :
    Consistent (step rttConfidence s (.rpsi picture rpsiPictureId)) := by
  obtain ⟨next, hnext, hnextOk⟩ := h.next
  obtain ⟨est, hest, hestOk, hconfirmed⟩ := h.established
  obtain ⟨pictureId, -, hlow, hunique⟩ := hnamed
  have hkeep {held : Held} (hheld : held.Confirmable s.rps) :
      (confirm picture held).Confirmable s.rps :=
    hheld.imp (confirm_confirmed picture) ((confirm_pictureId picture held).trans ·)
  by_cases hmatch : low14 rpsiPictureId = low14 s.rps.lastSentRefPictureId
  · -- both buffers are confirmed now, and change their turns
    have hnow {b : RefBuffer} {held : Held} (hb : s.buffers b = some held)
        (hheld : held.Confirmable s.rps) : (confirm picture held).confirmed = true := by
      rcases hheld with hc | hid
      · exact confirm_confirmed picture hc
      · have hpicture := hunique b held hb (by rw [hid, ← hmatch, hlow])
        simp [confirm, hpicture]
    simp only [step, ReferencePictureSelection.receivedRPSI, if_pos hmatch]
    refine ⟨by simp, ⟨confirm picture est, ?_, .inl (hnow hest hestOk)⟩, confirm picture next, ?_,
      .inl (hnow hnext hnextOk), fun _ => hnow hnext hnextOk⟩
    · show (s.buffers (refBuffer (!s.rps.updateGoldenNext))).map (confirm picture) = _
      rw [← h.turns, hest]
      rfl
    · show (s.buffers (refBuffer s.rps.updateGoldenNext)).map (confirm picture) = _
      rw [hnext]
      rfl
  · simp only [step, ReferencePictureSelection.receivedRPSI, if_neg hmatch]
    refine ⟨h.turns, ⟨confirm picture next, ?_, hkeep hnextOk⟩, confirm picture est, ?_,
      hkeep hestOk, fun hack => confirm_confirmed picture (hconfirmed hack)⟩
    · show (s.buffers (refBuffer s.rps.updateGoldenNext)).map (confirm picture) = _
      rw [hnext]
      rfl
    · show (s.buffers (refBuffer s.rps.establishedGolden)).map (confirm picture) = _
      rw [hest]
      rfl

/-- What a step does to a consistent encoder, and what a frame then refers to. -/
theorem consistent_step (h : Consistent s) (event : SelectionEvent) (hnamed : Named s event) :
    Consistent (step rttConfidence s event) ∧ RefersToConfirmed rttConfidence s event := by
  cases event with
  | key pictureId flagsMade => exact ⟨consistent_key h.turns pictureId flagsMade, trivial⟩
  | delta pictureId sendRefresh nowTs =>
    refine ⟨consistent_delta h pictureId sendRefresh nowTs, fun hlast => ?_⟩
    rw [s.rps.encodeFlags_flags rttConfidence pictureId sendRefresh nowTs h.turns] at hlast ⊢
    obtain ⟨hreason, hrefer⟩ := selectionFlags_mayRefer _ _ _ hlast
    obtain ⟨est, hest, -, hconfirmed⟩ := h.established
    have hack : s.rps.receivedAck = true := by
      rcases Bool.or_eq_true_iff.mp hreason with hr | hd
      · exact (Bool.and_eq_true_iff.mp hr).2
      · exact s.rps.receivedAck_of_due rttConfidence nowTs hd
    refine ⟨refBuffer s.rps.establishedGolden, fun b => ?_, est, hest, hconfirmed hack⟩
    rw [hrefer b, h.turns, beq_iff_eq]
  | rpsi picture rpsiPictureId => exact ⟨consistent_rpsi h hnamed, trivial⟩
  | sli nowTs =>
    refine ⟨?_, trivial⟩
    simp only [step, ReferencePictureSelection.receivedSLI]
    split <;> exact ⟨h.turns, h.next, h.established⟩
  | rtt milliseconds => exact ⟨⟨h.turns, h.next, h.established⟩, trivial⟩

end

open SelectingEncoder in
/-- **Reference picture selection is safe**: in a run that starts with a key frame and whose RPSI
messages name pictures, every delta frame that may not refer to the last frame may only refer to
a buffer with a confirmed picture. -/
theorem refersToConfirmed (rttConfidence : BitVec 32 → BitVec 32) (pictureId : Int)
    (flagsMade : Option (Bool × BitVec 32)) (events : List SelectionEvent)
    (h : Machine.Along (step rttConfidence) Named
      (step rttConfidence {} (.key pictureId flagsMade)) events) :
    Machine.Along (step rttConfidence) (RefersToConfirmed rttConfidence)
      (step rttConfidence {} (.key pictureId flagsMade)) events :=
  Machine.along_of_along (I := Consistent)
    (fun _ event hs hnamed => consistent_step hs event hnamed)
    (consistent_key rfl pictureId flagsMade) h

open SelectingEncoder in
theorem refersToConfirmed_update :
    Machine.Along (step id) (RefersToConfirmed id) (step id {} (.key 0 none))
      [.rpsi 0 0, .delta 1 true 1000, .rpsi 1 1, .rpsi 1 1, .delta 2 false 2000] := by
  refine refersToConfirmed id 0 none _ ⟨⟨0, rfl, rfl, fun b held hb _ => ?_⟩, trivial,
    ⟨1, rfl, rfl, fun b held hb hlow => ?_⟩, ⟨1, rfl, rfl, fun b held hb hlow => ?_⟩, trivial,
    trivial⟩
  · cases hb
    rfl
  all_goals
    cases b <;> cases hb
    · rfl
    · exact absurd hlow (by decide)
    · rfl

end PerchWebrtc.Vp8
