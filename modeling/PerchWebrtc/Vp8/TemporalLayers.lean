import PerchWebrtc.Vp8.ReferenceBuffers

/-!
# Temporal layers

`DefaultTemporalLayers` (`default_temporal_layers.cc`): the layer of a frame and its references
follow a cyclic pattern for each number of layers; a key frame updates all buffers, wherever in
the pattern it falls.

* `frameOk`: a frame refers only to its own layer and the ones below it;
* `syncOk`, `syncOk_four_odd`: which frames are rightly marked as a layer sync;
* `decodable_iff`: for which runs both hold of every frame.
-/

namespace PerchWebrtc.Vp8

/-! ## DefaultTemporalLayers -/

inductive TemporalReferences
  | updateLast
  | updateGoldenWithoutDependency
  | updateGolden
  | updateAltrefWithoutDependency
  | updateAltref
  | updateNone
  | updateNoneNoRefAltref
  | updateNoneNoRefGoldenRefAltRef
  | updateLastRefAltRef
  | updateGoldenWithoutDependencyRefAltRef
  | updateGoldenRefAltRef
  | updateLastAndGoldenRefAltRef
  | updateLastRefAll
deriving DecidableEq, Repr

/-- `CodecSpecificInfoVP8`, as far as the temporal layers fill it in. -/
structure CodecSpecificInfoVP8 where
  temporalIdx : Int
  layerSync : Bool
  tl0PicIdx : Int
deriving DecidableEq, Repr

structure DefaultTemporalLayers where
  numberOfTemporalLayers : Nat
  temporalIds : List Nat := []
  temporalPattern : List TemporalReferences := []
  tl0PicIdx : BitVec 8
  patternIdx : BitVec 8 := 255
  timestamp : BitVec 32 := 0
  lastBaseLayerSync : Bool := false

open TemporalReferences

/-- The layers of a pattern, for a number of layers. -/
def temporalIdsOf : Nat → List Nat
  | 0 | 1 => [0]
  | 2 => [0, 1]
  | 3 => [0, 2, 1, 2]
  | _ => [0, 3, 2, 3, 1, 3, 2, 3]

def temporalPatternOf : Nat → List TemporalReferences
  | 0 | 1 => [updateLastRefAll]
  | 2 => [updateLastAndGoldenRefAltRef, updateGoldenWithoutDependencyRefAltRef,
      updateLastRefAltRef, updateGoldenRefAltRef, updateLastRefAltRef, updateGoldenRefAltRef,
      updateLastRefAltRef, updateNone]
  | 3 => [updateLastAndGoldenRefAltRef, updateNoneNoRefGoldenRefAltRef,
      updateGoldenWithoutDependencyRefAltRef, updateNone, updateLastRefAltRef, updateNone,
      updateGoldenRefAltRef, updateNone]
  | _ => [updateLast, updateNone, updateAltrefWithoutDependency, updateNone,
      updateGoldenWithoutDependency, updateNone, updateAltref, updateNone, updateLast, updateNone,
      updateAltref, updateNone, updateGolden, updateNone, updateAltref, updateNone]

namespace DefaultTemporalLayers

/-- `ConfigureBitrates`, without the bitrates; `none` where it returns false. -/
def configureBitrates (s : DefaultTemporalLayers) : Option DefaultTemporalLayers :=
  if s.numberOfTemporalLayers ≤ 4 then
    some { s with
      temporalIds := temporalIdsOf s.numberOfTemporalLayers
      temporalPattern := temporalPatternOf s.numberOfTemporalLayers }
  else none

end DefaultTemporalLayers

/-- The flags of an entry of the pattern. -/
def TemporalReferences.flags : TemporalReferences → BitVec 32
  | updateLast =>
    VP8_EFLAG_NO_UPD_GF ||| VP8_EFLAG_NO_UPD_ARF ||| VP8_EFLAG_NO_REF_GF ||| VP8_EFLAG_NO_REF_ARF
  | updateGoldenWithoutDependency =>
    VP8_EFLAG_NO_REF_GF ||| VP8_EFLAG_NO_REF_ARF ||| VP8_EFLAG_NO_UPD_ARF |||
      VP8_EFLAG_NO_UPD_LAST
  | updateGolden => VP8_EFLAG_NO_REF_ARF ||| VP8_EFLAG_NO_UPD_ARF ||| VP8_EFLAG_NO_UPD_LAST
  | updateAltrefWithoutDependency =>
    VP8_EFLAG_NO_REF_ARF ||| VP8_EFLAG_NO_REF_GF ||| VP8_EFLAG_NO_UPD_GF ||| VP8_EFLAG_NO_UPD_LAST
  | updateAltref => VP8_EFLAG_NO_UPD_GF ||| VP8_EFLAG_NO_UPD_LAST
  | updateNoneNoRefAltref =>
    VP8_EFLAG_NO_REF_ARF ||| VP8_EFLAG_NO_UPD_GF ||| VP8_EFLAG_NO_UPD_ARF |||
      VP8_EFLAG_NO_UPD_LAST ||| VP8_EFLAG_NO_UPD_ENTROPY
  | updateNone =>
    VP8_EFLAG_NO_UPD_GF ||| VP8_EFLAG_NO_UPD_ARF ||| VP8_EFLAG_NO_UPD_LAST |||
      VP8_EFLAG_NO_UPD_ENTROPY
  | updateNoneNoRefGoldenRefAltRef =>
    VP8_EFLAG_NO_REF_GF ||| VP8_EFLAG_NO_UPD_GF ||| VP8_EFLAG_NO_UPD_ARF |||
      VP8_EFLAG_NO_UPD_LAST ||| VP8_EFLAG_NO_UPD_ENTROPY
  | updateGoldenWithoutDependencyRefAltRef =>
    VP8_EFLAG_NO_REF_GF ||| VP8_EFLAG_NO_UPD_ARF ||| VP8_EFLAG_NO_UPD_LAST
  | updateLastRefAltRef =>
    VP8_EFLAG_NO_UPD_GF ||| VP8_EFLAG_NO_UPD_ARF ||| VP8_EFLAG_NO_REF_GF
  | updateGoldenRefAltRef => VP8_EFLAG_NO_UPD_ARF ||| VP8_EFLAG_NO_UPD_LAST
  | updateLastAndGoldenRefAltRef => VP8_EFLAG_NO_UPD_ARF ||| VP8_EFLAG_NO_REF_GF
  | updateLastRefAll => VP8_EFLAG_NO_UPD_ARF ||| VP8_EFLAG_NO_UPD_GF

namespace DefaultTemporalLayers

/-- The entry of the pattern at `patternIdx`. -/
def reference (s : DefaultTemporalLayers) : TemporalReferences :=
  s.temporalPattern.getD (s.patternIdx.toNat % s.temporalPattern.length) updateLast

/-- The layer of the pattern at `patternIdx`. -/
def temporalId (s : DefaultTemporalLayers) : Nat :=
  s.temporalIds.getD (s.patternIdx.toNat % s.temporalIds.length) 0

/-- `++pattern_idx_`. -/
def advance (s : DefaultTemporalLayers) : DefaultTemporalLayers :=
  { s with patternIdx := s.patternIdx + 1 }

/-- `EncodeFlags`. -/
def encodeFlags (s : DefaultTemporalLayers) : BitVec 32 × DefaultTemporalLayers :=
  (s.advance.reference.flags, s.advance)

/-- Whether the entry of the pattern is a layer sync. -/
def patternSync (s : DefaultTemporalLayers) : Bool :=
  s.reference == updateAltrefWithoutDependency || s.reference == updateGoldenWithoutDependency
    || s.reference == updateGoldenWithoutDependencyRefAltRef
    || s.reference == updateNoneNoRefGoldenRefAltRef
    || (s.reference == updateNone && s.numberOfTemporalLayers == 4)

/-- A new base layer frame has a new `tl0_pic_idx_`. -/
def updateTl0PicIdx (s : DefaultTemporalLayers) (temporalIdx : Nat) (timestamp : BitVec 32) :
    DefaultTemporalLayers :=
  if temporalIdx == 0 && timestamp != s.timestamp then
    { s with timestamp := timestamp, tl0PicIdx := s.tl0PicIdx + 1 }
  else s

theorem updateTl0PicIdx_keeps (s : DefaultTemporalLayers) (temporalIdx : Nat)
    (timestamp : BitVec 32) :
    (s.updateTl0PicIdx temporalIdx timestamp).numberOfTemporalLayers = s.numberOfTemporalLayers ∧
      (s.updateTl0PicIdx temporalIdx timestamp).temporalIds = s.temporalIds ∧
      (s.updateTl0PicIdx temporalIdx timestamp).temporalPattern = s.temporalPattern ∧
      (s.updateTl0PicIdx temporalIdx timestamp).patternIdx = s.patternIdx := by
  unfold updateTl0PicIdx
  split <;> exact ⟨rfl, rfl, rfl, rfl⟩

/-- `PopulateCodecSpecific`. -/
def populateCodecSpecific (s : DefaultTemporalLayers) (baseLayerSync : Bool)
    (timestamp : BitVec 32) : CodecSpecificInfoVP8 × DefaultTemporalLayers :=
  if s.numberOfTemporalLayers = 1 then (⟨-1, false, -1⟩, s)
  else
    let temporalIdx := if baseLayerSync then 0 else s.temporalId
    let layerSync := if baseLayerSync then true else s.patternSync
    -- the frame after a base layer sync is a layer sync whatever the pattern
    let layerSync := layerSync || (s.lastBaseLayerSync && temporalIdx != 0)
    let s := s.updateTl0PicIdx temporalIdx timestamp
    (⟨temporalIdx, layerSync, s.tl0PicIdx.toNat⟩, { s with lastBaseLayerSync := baseLayerSync })

end DefaultTemporalLayers

/-! ## A run of the encoder -/

/-- What last updated a buffer. -/
inductive Source
  | key
  | layer (t : Nat)
deriving DecidableEq, Repr

/-- A key frame, or a frame of a layer that is not above `t`. -/
def Source.atMost (t : Nat) : Source → Prop
  | key => True
  | layer u => u ≤ t

structure Frame where
  key : Bool
  timestamp : BitVec 32

/-- The temporal layers and what is in the buffers of the encoder, before the first frame
nothing. -/
structure LayeredEncoder where
  layers : DefaultTemporalLayers
  buffers : RefBuffer → Option Source := fun _ => none

namespace LayeredEncoder

variable (s : LayeredEncoder) (frame : Frame)

def flags : BitVec 32 := s.layers.encodeFlags.1

def info : CodecSpecificInfoVP8 :=
  (s.layers.encodeFlags.2.populateCodecSpecific frame.key frame.timestamp).1

/-- The temporal layer of the frame; without temporal layers there is one. -/
def layer : Nat := (s.info frame).temporalIdx.toNat

/-- The buffers that the frame may refer to, a key frame to none. -/
def refers (b : RefBuffer) : Bool := !frame.key && mayRefer s.flags b

/-- A frame: `EncodeFlags`, the encoder, `PopulateCodecSpecific`. -/
def encode : LayeredEncoder where
  layers := (s.layers.encodeFlags.2.populateCodecSpecific frame.key frame.timestamp).2
  buffers b :=
    if frame.key then some .key
    else if updates s.flags b then some (.layer (s.layer frame))
    else s.buffers b

/-- The frame refers to buffers of its layer and of those below it. -/
def FrameOk : Prop :=
  ∀ b, s.refers frame b = true → ∃ source, s.buffers b = some source ∧ source.atMost (s.layer frame)

/-- If the frame is marked as a layer sync, it refers to buffers of the base layer. -/
def SyncOk : Prop :=
  (s.info frame).layerSync = true →
    ∀ b, s.refers frame b = true → ∃ source, s.buffers b = some source ∧ source.atMost 0

/-- The encoder before frame `n` of the run. -/
def before (start : LayeredEncoder) (frames : Nat → Frame) : Nat → LayeredEncoder
  | 0 => start
  | n + 1 => (before start frames n).encode (frames n)

end LayeredEncoder

/-- The encoder at the start, configured for a number of layers. -/
def startEncoder (numberOfTemporalLayers : Nat) (initialTl0PicIdx : BitVec 8) :
    Option LayeredEncoder :=
  DefaultTemporalLayers.configureBitrates
      { numberOfTemporalLayers := numberOfTemporalLayers, tl0PicIdx := initialTl0PicIdx }
    |>.map ({ layers := · })

/-! ## The patterns -/

/-- The entry of the pattern of frame `n`. -/
def entryAt (T n : Nat) : TemporalReferences :=
  (temporalPatternOf T).getD (n % (temporalPatternOf T).length) updateLast

/-- The layer of frame `n`, if it is a delta frame. -/
def layerAt (T n : Nat) : Nat := (temporalIdsOf T).getD (n % (temporalIdsOf T).length) 0

/-- The layers that update a buffer. -/
def boundOf : Nat → RefBuffer → Nat
  | 2, .golden | 3, .golden | 4, .golden => 1
  | 4, .altRef => 2
  | _, _ => 0

/-- Whether frame `n` updates the golden or the alt-ref buffer from a layer above the base. -/
def enhances (n : Nat) : Bool := n % 2 == 0 && n % 8 != 0

theorem entryAt_mod (T n : Nat) (hT : T ≤ 4) : entryAt T n = entryAt T (n % 16) := by
  have hlen : (temporalPatternOf T).length ∣ 16 := by
    have : ∀ T ≤ 4, (temporalPatternOf T).length ∣ 16 := by decide
    exact this T hT
  rw [entryAt, entryAt, Nat.mod_mod_of_dvd _ hlen]

theorem layerAt_mod (T n : Nat) (hT : T ≤ 4) : layerAt T n = layerAt T (n % 16) := by
  have hlen : (temporalIdsOf T).length ∣ 16 := by
    have : ∀ T ≤ 4, (temporalIdsOf T).length ∣ 16 := by decide
    exact this T hT
  rw [layerAt, layerAt, Nat.mod_mod_of_dvd _ hlen]

theorem layerAt_le_of_updates {T n : Nat} (hT : T ≤ 4) {b : RefBuffer}
    (h : updates (entryAt T n).flags b = true) : layerAt T n ≤ boundOf T b := by
  have table : ∀ T ≤ 4, ∀ r < 16, ∀ b, updates (entryAt T r).flags b = true →
      layerAt T r ≤ boundOf T b := by decide
  rw [entryAt_mod T n hT] at h
  rw [layerAt_mod T n hT]
  exact table T hT _ (Nat.mod_lt _ (by decide)) b h

theorem bound_le_of_mayRefer {T n : Nat} (hT : T ≤ 4) {b : RefBuffer}
    (h : mayRefer (entryAt T n).flags b = true) : boundOf T b ≤ layerAt T n := by
  have table : ∀ T ≤ 4, ∀ r < 16, ∀ b, mayRefer (entryAt T r).flags b = true →
      boundOf T b ≤ layerAt T r := by decide
  rw [entryAt_mod T n hT] at h
  rw [layerAt_mod T n hT]
  exact table T hT _ (Nat.mod_lt _ (by decide)) b h

/-- An entry that is a layer sync. -/
def entrySync (T : Nat) (entry : TemporalReferences) : Bool :=
  entry == updateAltrefWithoutDependency || entry == updateGoldenWithoutDependency
    || entry == updateGoldenWithoutDependencyRefAltRef || entry == updateNoneNoRefGoldenRefAltRef
    || (entry == updateNone && T == 4)

/-- The entries that are a layer sync refer to base layer buffers, except the ones without an
update of the pattern for four layers. -/
theorem bound_of_entrySync {T n : Nat} (hT : T ≤ 4) (hne : ¬(T = 4 ∧ n % 2 = 1)) {b : RefBuffer}
    (hsync : entrySync T (entryAt T n) = true) (h : mayRefer (entryAt T n).flags b = true) :
    boundOf T b = 0 := by
  have table : ∀ T ≤ 4, ∀ r < 16, ¬(T = 4 ∧ r % 2 = 1) → ∀ b, entrySync T (entryAt T r) = true →
      mayRefer (entryAt T r).flags b = true → boundOf T b = 0 := by decide
  rw [entryAt_mod T n hT] at h hsync
  exact table T hT _ (Nat.mod_lt _ (by decide)) (by omega) b hsync h

theorem entryAt_four_odd {n : Nat} (hn : n % 2 = 1) : entryAt 4 n = updateNone := by
  have table : ∀ r < 16, r % 2 = 1 → entryAt 4 r = updateNone := by decide
  rw [entryAt_mod 4 n (by decide)]
  exact table _ (Nat.mod_lt _ (by decide)) (by omega)

theorem enhances_mod (n : Nat) : enhances n = enhances (n % 16) := by
  simp only [enhances]
  rw [Nat.mod_mod_of_dvd n (by decide : 2 ∣ 16), Nat.mod_mod_of_dvd n (by decide : 8 ∣ 16)]

/-- With four layers, what a delta frame does to the golden and the alt-ref buffer. -/
theorem enhances_iff (n : Nat) :
    (enhances n = true → ∃ b, b ≠ .last ∧ updates (entryAt 4 n).flags b = true) ∧
      ∀ b, b ≠ .last → updates (entryAt 4 n).flags b = true →
        enhances n = true ∧ 0 < layerAt 4 n := by
  have table : ∀ r < 16,
      (enhances r = true → updates (entryAt 4 r).flags .golden = true ∨
        updates (entryAt 4 r).flags .altRef = true) ∧
      ∀ b, b ≠ .last → updates (entryAt 4 r).flags b = true →
        enhances r = true ∧ 0 < layerAt 4 r := by decide
  rw [entryAt_mod 4 n (by decide), layerAt_mod 4 n (by decide), enhances_mod n]
  obtain ⟨hsome, hall⟩ := table _ (Nat.mod_lt n (by decide : 0 < 16))
  exact ⟨fun h => (hsome h).elim (fun hg => ⟨_, by decide, hg⟩) fun ha => ⟨_, by decide, ha⟩, hall⟩

/-! ## What the layers are during a run -/

/-- The layers before frame `n`. -/
structure Configured (T n : Nat) (s : DefaultTemporalLayers) : Prop where
  number : s.numberOfTemporalLayers = T
  ids : s.temporalIds = temporalIdsOf T
  pattern : s.temporalPattern = temporalPatternOf T
  idx : s.patternIdx = BitVec.ofNat 8 (n + 255)
  /-- Without temporal layers nothing is recorded. -/
  single : T = 1 → s.lastBaseLayerSync = false

namespace Configured

variable {T n : Nat} {s : DefaultTemporalLayers} (h : Configured T n s) (hT : T ≤ 4)

include h

theorem advance_toNat : s.advance.patternIdx.toNat = n % 256 := by
  have hnat : s.advance.patternIdx.toNat = ((n + 255) % 256 + 1) % 256 := by
    simp [DefaultTemporalLayers.advance, h.idx]
  omega

include hT

theorem reference_eq : s.advance.reference = entryAt T n := by
  have hlen : (temporalPatternOf T).length ∣ 256 := by
    have : ∀ T ≤ 4, (temporalPatternOf T).length ∣ 256 := by decide
    exact this T hT
  show s.temporalPattern.getD (s.advance.patternIdx.toNat % s.temporalPattern.length) _ = _
  rw [h.advance_toNat, h.pattern, Nat.mod_mod_of_dvd _ hlen]
  rfl

theorem temporalId_eq : s.advance.temporalId = layerAt T n := by
  have hlen : (temporalIdsOf T).length ∣ 256 := by
    have : ∀ T ≤ 4, (temporalIdsOf T).length ∣ 256 := by decide
    exact this T hT
  show s.temporalIds.getD (s.advance.patternIdx.toNat % s.temporalIds.length) _ = _
  rw [h.advance_toNat, h.ids, Nat.mod_mod_of_dvd _ hlen]
  rfl

theorem patternSync_eq : s.advance.patternSync = entrySync T (entryAt T n) := by
  have hnumber : s.advance.numberOfTemporalLayers = T := h.number
  rw [DefaultTemporalLayers.patternSync, h.reference_eq hT, hnumber, entrySync]

omit hT

theorem next (baseLayerSync : Bool) (timestamp : BitVec 32) :
    Configured T (n + 1) (s.advance.populateCodecSpecific baseLayerSync timestamp).2 := by
  have hidx : s.patternIdx + 1 = BitVec.ofNat 8 (n + 1 + 255) := by
    rw [h.idx, show n + 1 + 255 = n + 255 + 1 by omega, BitVec.ofNat_add (n + 255) 1]
    rfl
  simp only [DefaultTemporalLayers.populateCodecSpecific]
  split
  · exact ⟨h.number, h.ids, h.pattern, hidx, h.single⟩
  · rename_i hmany
    obtain ⟨hnumber, hids, hpattern, hkept⟩ := s.advance.updateTl0PicIdx_keeps
      (if baseLayerSync then 0 else s.advance.temporalId) timestamp
    exact ⟨hnumber.trans h.number, hids.trans h.ids, hpattern.trans h.pattern, hkept.trans hidx,
      fun hone => absurd (h.number.trans hone) hmany⟩

end Configured

namespace LayeredEncoder

variable {T n : Nat} {s : LayeredEncoder} {frame : Frame} (h : Configured T n s.layers)

include h

theorem flags_eq (hT : T ≤ 4) : s.flags = (entryAt T n).flags :=
  congrArg TemporalReferences.flags (h.reference_eq hT)

theorem layer_of_delta (hT : T ≤ 4) (hkey : frame.key = false) : s.layer frame = layerAt T n := by
  have hnumber : s.layers.advance.numberOfTemporalLayers = T := h.number
  simp only [layer, info, DefaultTemporalLayers.encodeFlags,
    DefaultTemporalLayers.populateCodecSpecific, hnumber]
  split
  · rename_i hone
    subst hone
    simp [layerAt, temporalIdsOf, Nat.mod_one]
  · simp [hkey, h.temporalId_eq hT]

/-- When a delta frame is marked as a layer sync. -/
theorem layerSync_of_delta (hT : T ≤ 4) (hkey : frame.key = false) (hone : T ≠ 1) :
    (s.info frame).layerSync =
      (entrySync T (entryAt T n) || (s.layers.lastBaseLayerSync && layerAt T n != 0)) := by
  have hnumber : s.layers.advance.numberOfTemporalLayers = T := h.number
  have hlast : s.layers.advance.lastBaseLayerSync = s.layers.lastBaseLayerSync := rfl
  simp only [info, DefaultTemporalLayers.encodeFlags, DefaultTemporalLayers.populateCodecSpecific,
    hnumber, if_neg hone, hkey, Bool.false_eq_true, if_false, h.patternSync_eq hT,
    h.temporalId_eq hT, hlast]

end LayeredEncoder

/-! ## What the buffers hold during a run -/

theorem Source.atMost_mono {t u : Nat} (htu : t ≤ u) {source : Source} (h : source.atMost t) :
    source.atMost u := by
  cases source with
  | key => trivial
  | layer v => exact le_trans h htu

/-- The encoder before frame `n > 0`. -/
structure Buffered (T n : Nat) (s : LayeredEncoder) : Prop where
  configured : Configured T n s.layers
  /-- A buffer is updated by its layers only. -/
  bounded : ∀ b, ∃ source, s.buffers b = some source ∧ source.atMost (boundOf T b)
  /-- After a base layer sync all buffers are from the key frame. -/
  synced : s.layers.lastBaseLayerSync = true → ∀ b, s.buffers b = some .key

/-- No frame since the last key frame has updated the golden or the alt-ref buffer from above
the base layer. -/
def Clean (frames : Nat → Frame) (n : Nat) : Prop :=
  ∀ m < n, (frames m).key = false → enhances m = true → ∃ k < n, m < k ∧ (frames k).key = true

/-- With four layers the golden and the alt-ref buffer tell whether the run is clean. -/
def Tells (frames : Nat → Frame) (n : Nat) (s : LayeredEncoder) : Prop :=
  (Clean frames n → ∀ b, b ≠ .last → s.buffers b = some .key) ∧
    (¬Clean frames n → ∃ b, b ≠ .last ∧ ∃ t, 0 < t ∧ s.buffers b = some (.layer t))

variable {start : LayeredEncoder}

theorem configured_start {T : Nat} {tl0 : BitVec 8} (h : startEncoder T tl0 = some start) :
    T ≤ 4 ∧ Configured T 0 start.layers := by
  simp only [startEncoder, DefaultTemporalLayers.configureBitrates] at h
  split at h
  · rename_i hT
    cases h
    exact ⟨hT, rfl, rfl, rfl, rfl, fun _ => rfl⟩
  · cases h

section

variable {T n : Nat} {s : LayeredEncoder} {frame : Frame}

theorem encode_key (h : Configured T n s.layers) (hkey : frame.key = true) :
    Buffered T (n + 1) (s.encode frame) where
  configured := h.next frame.key frame.timestamp
  bounded b := ⟨.key, by simp [LayeredEncoder.encode, hkey], trivial⟩
  synced _ b := by simp [LayeredEncoder.encode, hkey]

/-- After a delta frame no base layer sync is recorded. -/
theorem lastBaseLayerSync_of_delta (h : Configured T n s.layers) (hkey : frame.key = false) :
    (s.encode frame).layers.lastBaseLayerSync = false := by
  have hnumber : s.layers.advance.numberOfTemporalLayers = T := h.number
  simp only [LayeredEncoder.encode, DefaultTemporalLayers.encodeFlags,
    DefaultTemporalLayers.populateCodecSpecific, hnumber, hkey]
  split
  · rename_i hone
    exact h.single hone
  · rfl

theorem encode_delta (hT : T ≤ 4) (h : Buffered T n s) (hkey : frame.key = false) :
    Buffered T (n + 1) (s.encode frame) where
  configured := h.configured.next frame.key frame.timestamp
  bounded b := by
    simp only [LayeredEncoder.encode, hkey, Bool.false_eq_true, if_false]
    split
    · rename_i hupd
      rw [LayeredEncoder.flags_eq h.configured hT] at hupd
      refine ⟨_, rfl, ?_⟩
      rw [LayeredEncoder.layer_of_delta h.configured hT hkey]
      exact layerAt_le_of_updates hT hupd
    · exact h.bounded b
  synced hsync := by
    rw [lastBaseLayerSync_of_delta h.configured hkey] at hsync
    cases hsync

/-- Frame `n` keeps what the buffers tell. -/
theorem encode_tells {frames : Nat → Frame} (h : Configured 4 n s.layers)
    (htells : (frames n).key = false → Tells frames n s) :
    Tells frames (n + 1) (s.encode (frames n)) := by
  cases hkey : (frames n).key with
  | true =>
    have hclean : Clean frames (n + 1) := by
      intro m hm hdelta _
      have hne : m ≠ n := by
        rintro rfl
        rw [hkey] at hdelta
        cases hdelta
      exact ⟨n, by omega, by omega, hkey⟩
    exact ⟨fun _ b _ => by simp [LayeredEncoder.encode, hkey], fun hnot => absurd hclean hnot⟩
  | false =>
    obtain ⟨hsome, hall⟩ := enhances_iff n
    have hbuffers (b : RefBuffer) : (s.encode (frames n)).buffers b =
        if updates (entryAt 4 n).flags b then some (.layer (layerAt 4 n)) else s.buffers b := by
      simp only [LayeredEncoder.encode, hkey, Bool.false_eq_true, if_false,
        LayeredEncoder.flags_eq h (Nat.le_refl 4), LayeredEncoder.layer_of_delta h (Nat.le_refl 4) hkey]
    by_cases hen : enhances n = true
    · -- the frame itself updates one of the two buffers
      obtain ⟨b, hb, hupd⟩ := hsome hen
      refine ⟨fun hclean => ?_, fun _ => ⟨b, hb, layerAt 4 n, (hall b hb hupd).2, ?_⟩⟩
      · obtain ⟨k, hk, hnk, -⟩ := hclean n (Nat.lt_succ_self n) hkey hen
        omega
      · rw [hbuffers, if_pos hupd]
    · have hkept (b : RefBuffer) (hb : b ≠ .last) : (s.encode (frames n)).buffers b = s.buffers b := by
        rw [hbuffers, if_neg fun hupd => hen (hall b hb hupd).1]
      have hclean : Clean frames (n + 1) ↔ Clean frames n := by
        constructor
        · intro hc m hm hdelta hem
          obtain ⟨k, hk, hmk, hkk⟩ := hc m (by omega) hdelta hem
          have hne : k ≠ n := by
            rintro rfl
            rw [hkey] at hkk
            cases hkk
          exact ⟨k, by omega, hmk, hkk⟩
        · intro hc m hm hdelta hem
          have hne : m ≠ n := by
            rintro rfl
            exact hen hem
          obtain ⟨k, hk, hmk, hkk⟩ := hc m (by omega) hdelta hem
          exact ⟨k, by omega, hmk, hkk⟩
      rw [Tells, hclean]
      refine ⟨fun hc b hb => ?_, fun hnot => ?_⟩
      · rw [hkept b hb]
        exact (htells hkey).1 hc b hb
      · obtain ⟨b, hb, t, ht, hbt⟩ := (htells hkey).2 hnot
        exact ⟨b, hb, t, ht, by rw [hkept b hb, hbt]⟩

/-- A delta frame refers to buffers of its layer and below. -/
theorem frameOk (hT : T ≤ 4) (h : Buffered T n s) : s.FrameOk frame := by
  intro b href
  simp only [LayeredEncoder.refers, Bool.and_eq_true, Bool.not_eq_true'] at href
  obtain ⟨hkey, href⟩ := href
  obtain ⟨source, hsource, hbound⟩ := h.bounded b
  rw [LayeredEncoder.flags_eq h.configured hT] at href
  refine ⟨source, hsource, ?_⟩
  rw [LayeredEncoder.layer_of_delta h.configured hT hkey]
  exact Source.atMost_mono (bound_le_of_mayRefer hT href) hbound

/-- Outside of the four-layer pattern's frames without an update, the mark is right. -/
theorem syncOk (hT : T ≤ 4) (h : Buffered T n s) (hne : ¬(T = 4 ∧ n % 2 = 1)) :
    s.SyncOk frame := by
  intro hsync b href
  simp only [LayeredEncoder.refers, Bool.and_eq_true, Bool.not_eq_true'] at href
  obtain ⟨hkey, href⟩ := href
  rw [LayeredEncoder.flags_eq h.configured hT] at href
  by_cases hone : T = 1
  · obtain ⟨source, hsource, hbound⟩ := h.bounded b
    have hzero : boundOf T b = 0 := by
      rw [hone]
      cases b <;> rfl
    exact ⟨source, hsource, hzero ▸ hbound⟩
  rw [LayeredEncoder.layerSync_of_delta h.configured hT hkey hone, Bool.or_eq_true,
    Bool.and_eq_true] at hsync
  rcases hsync with hentry | ⟨hlast, -⟩
  · obtain ⟨source, hsource, hbound⟩ := h.bounded b
    rw [bound_of_entrySync hT hne hentry href] at hbound
    exact ⟨source, hsource, hbound⟩
  · exact ⟨.key, h.synced hlast b, trivial⟩

/-- A frame without an update of the four-layer pattern refers to all buffers. -/
theorem syncOk_four_odd {frames : Nat → Frame} (h : Buffered 4 n s) (htells : Tells frames n s)
    (hkey : frame.key = false) (hodd : n % 2 = 1) : s.SyncOk frame ↔ Clean frames n := by
  have hall (b : RefBuffer) : s.refers frame b = true := by
    simp only [LayeredEncoder.refers, hkey, LayeredEncoder.flags_eq h.configured (Nat.le_refl 4),
      entryAt_four_odd hodd]
    cases b <;> decide
  have hmarked : (s.info frame).layerSync = true := by
    rw [LayeredEncoder.layerSync_of_delta h.configured (Nat.le_refl 4) hkey (by decide),
      entryAt_four_odd hodd]
    rfl
  constructor
  · intro hok
    by_contra hnot
    obtain ⟨b, -, t, ht, hbt⟩ := htells.2 hnot
    obtain ⟨source, hsource, hbase⟩ := hok hmarked b (hall b)
    rw [hbt] at hsource
    cases hsource
    exact absurd ht (Nat.not_lt.mpr hbase)
  · intro hclean _ b _
    by_cases hb : b = .last
    · obtain ⟨source, hsource, hbound⟩ := h.bounded b
      rw [hb] at hsource hbound ⊢
      exact ⟨source, hsource, hbound⟩
    · exact ⟨.key, htells.1 hclean b hb, trivial⟩

end

/-- What holds before every frame but the first. -/
theorem before_buffered {T : Nat} {tl0 : BitVec 8} (hstart : startEncoder T tl0 = some start)
    {frames : Nat → Frame} (hfirst : (frames 0).key = true) (n : Nat) :
    Buffered T (n + 1) (LayeredEncoder.before start frames (n + 1)) ∧
      (T = 4 → Tells frames (n + 1) (LayeredEncoder.before start frames (n + 1))) := by
  obtain ⟨hT, hconfigured⟩ := configured_start hstart
  induction n with
  | zero =>
    refine ⟨encode_key hconfigured hfirst, fun hfour => ?_⟩
    subst hfour
    exact encode_tells hconfigured fun hdelta => by simp [hfirst] at hdelta
  | succ n ih =>
    obtain ⟨hbuffered, htells⟩ := ih
    constructor
    · cases hkey : (frames (n + 1)).key with
      | true => exact encode_key hbuffered.configured hkey
      | false => exact encode_delta hT hbuffered hkey
    · intro hfour
      subst hfour
      exact encode_tells hbuffered.configured fun _ => htells rfl

/-- Frame `n` of a run refers to what it should. -/
def DecodableAt (start : LayeredEncoder) (frames : Nat → Frame) (n : Nat) : Prop :=
  (LayeredEncoder.before start frames n).FrameOk (frames n) ∧
    (LayeredEncoder.before start frames n).SyncOk (frames n)

theorem decodableAt_iff {T : Nat} {tl0 : BitVec 8} (hstart : startEncoder T tl0 = some start)
    {frames : Nat → Frame} (hfirst : (frames 0).key = true) (n : Nat) :
    DecodableAt start frames n ↔
      (T = 4 → (frames n).key = false → n % 2 = 1 → Clean frames n) := by
  obtain ⟨hT, -⟩ := configured_start hstart
  cases n with
  | zero =>
    refine iff_of_true ⟨fun b href => ?_, fun _ b href => ?_⟩ fun _ _ hodd => by simp at hodd
    all_goals simp [LayeredEncoder.refers, hfirst] at href
  | succ n =>
    obtain ⟨hbuffered, htells⟩ := before_buffered hstart hfirst n
    refine ⟨fun h hfour hkey hodd => ?_, fun h => ⟨frameOk hT hbuffered, ?_⟩⟩
    · subst hfour
      exact (syncOk_four_odd hbuffered (htells rfl) hkey hodd).mp h.2
    · by_cases hspecial : T = 4 ∧ (n + 1) % 2 = 1
      · obtain ⟨rfl, hodd⟩ := hspecial
        cases hkey : (frames (n + 1)).key with
        | true =>
          intro _ b href
          simp [LayeredEncoder.refers, hkey] at href
        | false =>
          exact (syncOk_four_odd hbuffered (htells rfl) hkey hodd).mpr (h rfl hkey hodd)
      · exact syncOk hT hbuffered hspecial

/-- **Every frame of a run is decodable** from its layers, and the frames marked as a layer sync
from the base layer, exactly if there are not four layers, or between each delta frame at an odd
position and the last key frame before it no delta frame enhances. -/
theorem decodable_iff {T : Nat} {tl0 : BitVec 8} {start : LayeredEncoder}
    (hstart : startEncoder T tl0 = some start) {frames : Nat → Frame}
    (hfirst : (frames 0).key = true) (length : Nat) :
    (∀ n < length, DecodableAt start frames n) ↔
      (T = 4 → ∀ n < length, (frames n).key = false → n % 2 = 1 → Clean frames n) := by
  constructor
  · intro h hfour n hn
    exact (decodableAt_iff hstart hfirst n).mp (h n hn) hfour
  · intro h n hn
    exact (decodableAt_iff hstart hfirst n).mpr fun hfour => h hfour n hn

/-- A key frame, then delta frames. -/
def oneKeyFrame : Nat → Frame := fun n => ⟨n == 0, 0⟩

theorem decodable_four : ∃ start, startEncoder 4 0 = some start ∧
    ((∀ n < 4, DecodableAt start oneKeyFrame n) ↔
      (4 = 4 → ∀ n < 4, (oneKeyFrame n).key = false → n % 2 = 1 → Clean oneKeyFrame n)) :=
  ⟨_, rfl, decodable_iff (show startEncoder 4 0 = some _ from rfl) rfl 4⟩

/-- With four layers, the fourth frame is marked as a layer sync though the third one, of layer
two, has updated the alt-ref buffer that it refers to. -/
theorem not_decodable :
    ¬ ∀ (T : Nat) (tl0 : BitVec 8) (start : LayeredEncoder), startEncoder T tl0 = some start →
      ∀ frames : Nat → Frame, (frames 0).key = true → ∀ n, DecodableAt start frames n := by
  intro h
  have hdecodable := h 4 0 _ rfl oneKeyFrame rfl 3
  obtain ⟨k, -, htwo, hkey⟩ :=
    (decodableAt_iff (show startEncoder 4 0 = some _ from rfl) rfl 3).mp hdecodable rfl rfl rfl 2
      (by decide) rfl rfl
  have hzero : k = 0 := by simpa [oneKeyFrame] using hkey
  omega

end PerchWebrtc.Vp8
