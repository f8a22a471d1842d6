import Mathlib

/-!
# Audio vectors

`AudioVector` (`audio_vector.cc` of NetEq), a list of samples, and `AudioMultiVector`
(`audio_multi_vector.cc`), one such list for each channel.

The lists of a `Shaped` vector are equally long. It is then a list of frames (`frames`), each with
one sample of every channel, and what is done to every channel is done to that list:
`frames_pushBack`, `frames_popFront`, `frames_popBack`, `frames_insertZerosAt`,
`frames_overwriteAt`.
-/

namespace PerchWebrtc.NetEq

section Lists

variable {α : Type*} {position : Nat}

/-- A list with equal elements put in. -/
theorem getElem?_insertZeros (l : List α) (x : α) {length : Nat} (hposition : position ≤ l.length)
    (i : Nat) :
    (l.take position ++ (List.replicate length x ++ l.drop position))[i]? =
      if i < position then l[i]? else if i < position + length then some x else l[i - length]? := by
  have htake : (l.take position).length = position := by
    rw [List.length_take, min_eq_left hposition]
  rw [List.getElem?_append, htake]
  split
  · rename_i hfront
    exact List.getElem?_take_of_lt hfront
  · rw [List.getElem?_append, List.length_replicate]
    split
    · rw [List.getElem?_replicate, if_pos ‹_›, if_pos (by omega)]
    · rw [List.getElem?_drop, if_neg (by omega)]
      congr 1
      omega

/-- A list with a part of it replaced. -/
theorem getElem?_splice (l v : List α) {length : Nat}
    (hfits : position + min length v.length ≤ l.length) (i : Nat) :
    (l.take position ++ (v.take length ++ l.drop (position + min length v.length)))[i]? =
      if position ≤ i ∧ i < position + min length v.length then v[i - position]? else l[i]? := by
  have htake : (l.take position).length = position := by
    rw [List.length_take, min_eq_left (by omega)]
  rw [List.getElem?_append, htake]
  split
  · rename_i hfront
    rw [List.getElem?_take_of_lt hfront, if_neg (by omega)]
  · rw [List.getElem?_append, List.length_take]
    split
    · rw [List.getElem?_take_of_lt (by omega), if_pos (by omega)]
    · rw [List.getElem?_drop, if_neg (by omega)]
      congr 1
      omega

/-- From a position before what is put in, or behind it. -/
theorem drop_insert_before {l v : List α} {k : Nat} (hk : k ≤ position)
    (hposition : position ≤ l.length) :
    (l.take position ++ (v ++ l.drop position)).drop k =
      (l.drop k).take (position - k) ++ (v ++ (l.drop k).drop (position - k)) := by
  have htake : (l.take position).length = position := by
    rw [List.length_take, min_eq_left hposition]
  rw [List.drop_append_of_le_length (by omega), List.drop_take, List.drop_drop,
    Nat.add_sub_cancel' hk]

theorem drop_insert_behind {l v : List α} {k : Nat} (hk : position ≤ k)
    (hposition : position ≤ l.length) :
    (l.take position ++ (v ++ l.drop position)).drop (k + v.length) = l.drop k := by
  have htake : (l.take position).length = position := by
    rw [List.length_take, min_eq_left hposition]
  rw [List.drop_append, htake, List.drop_eq_nil_of_le (by omega), List.nil_append,
    List.drop_append, List.drop_eq_nil_of_le (by omega), List.nil_append, List.drop_drop]
  congr 1
  omega

/-- A list with a part of it replaced, from a position on. -/
theorem drop_splice {l v : List α} {k : Nat} (hposition : position ≤ l.length) :
    (l.take position ++ (v ++ l.drop (position + v.length))).drop k =
      (l.drop k).take (position - k) ++
        (v.drop (k - position) ++ (l.drop k).drop (position + v.length - k)) := by
  have htake : (l.take position).length = position := by
    rw [List.length_take, min_eq_left hposition]
  rw [List.drop_append, htake, List.drop_append, List.drop_take, List.drop_drop, List.drop_drop]
  refine congrArg (_ ++ ·) (congrArg (_ ++ ·) (congrArg (l.drop ·) ?_))
  omega

end Lists

variable {T : Type*} [Zero T]

namespace AudioVector

def pushBack (appendThis v : List T) : List T := v ++ appendThis

def popFront (length : Nat) (v : List T) : List T := if v.length ≤ length then [] else v.drop length

def popBack (length : Nat) (v : List T) : List T := v.take (v.length - min length v.length)

def extend (extraLength : Nat) (v : List T) : List T := v ++ List.replicate extraLength 0

def insertZerosAt (length position : Nat) (v : List T) : List T :=
  let position := min v.length position
  v.take position ++ List.replicate length 0 ++ v.drop position

/-- There are at least `length` samples to be written. -/
def overwriteAt (insertThis : List T) (length position : Nat) (v : List T) : List T :=
  let position := min v.length position
  let v := if v.length < position + length then extend (position + length - v.length) v else v
  v.take position ++ insertThis.take length ++ v.drop (position + length)

end AudioVector

structure AudioMultiVector (T : Type*) where
  channels : List (List T)

namespace AudioMultiVector

variable (m : AudioMultiVector T)

def create (n initialSize : Nat) : AudioMultiVector T where
  channels := List.replicate n (List.replicate initialSize 0)

/-- The length of the first channel. -/
def size : Nat := m.channels.headI.length

def zeros (length : Nat) : AudioMultiVector T where
  channels := m.channels.map fun _ => AudioVector.extend length []

def pushBack (appendThis : AudioMultiVector T) : AudioMultiVector T :=
  if m.channels.length = appendThis.channels.length then
    { channels := List.zipWith AudioVector.pushBack appendThis.channels m.channels }
  else m

def popFront (length : Nat) : AudioMultiVector T where
  channels := m.channels.map (AudioVector.popFront length)

def popBack (length : Nat) : AudioMultiVector T where
  channels := m.channels.map (AudioVector.popBack length)

def insertZerosAt (length position : Nat) : AudioMultiVector T where
  channels := m.channels.map (AudioVector.insertZerosAt length position)

def overwriteAt (insertThis : AudioMultiVector T) (length position : Nat) : AudioMultiVector T :=
  let length := min length insertThis.size
  if m.channels.length = insertThis.channels.length then
    { channels := List.zipWith (fun v c => AudioVector.overwriteAt v length position c)
        insertThis.channels m.channels }
  else m

/-- What is written to the destination. -/
def readInterleavedFromIndex (startIndex length : Nat) : List T :=
  let startIndex := min startIndex m.size
  let length := if m.size < length + startIndex then m.size - startIndex else length
  (List.range length).flatMap fun i => m.channels.map fun c => c.getD (i + startIndex) 0

/-! ## Frames -/

/-- There are `n` channels of `size` samples each. -/
structure Shaped (n size : Nat) (m : AudioMultiVector T) : Prop where
  channels : m.channels.length = n
  samples : ∀ c ∈ m.channels, c.length = size

instance (n size : Nat) (m : AudioMultiVector T) : Decidable (m.Shaped n size) :=
  decidable_of_iff (m.channels.length = n ∧ ∀ c ∈ m.channels, c.length = size)
    ⟨fun h => ⟨h.1, h.2⟩, fun h => ⟨h.channels, h.samples⟩⟩

/-- The samples of every channel at a position. -/
def frameAt (i : Nat) : List T := m.channels.map fun c => c.getD i 0

def frames : List (List T) := (List.range m.size).map m.frameAt

variable {m} {n size : Nat}

omit [Zero T] in
theorem Shaped.size_eq (h : m.Shaped n size) (hn : 0 < n) : m.size = size := by
  unfold AudioMultiVector.size
  cases hchannels : m.channels with
  | nil =>
    have hlen := h.channels
    rw [hchannels] at hlen
    exact absurd hlen hn.ne
  | cons c cs => exact h.samples c (by rw [hchannels]; exact List.mem_cons_self)

theorem length_frames : m.frames.length = m.size := by
  rw [frames, List.length_map, List.length_range]

theorem getElem?_frames (h : m.Shaped n size) (hn : 0 < n) (i : Nat) :
    m.frames[i]? = if i < size then some (m.frameAt i) else none := by
  rw [frames, h.size_eq hn, List.getElem?_map]
  split
  · rename_i hi
    rw [List.getElem?_range hi]
    rfl
  · rename_i hi
    rw [List.getElem?_eq_none (by rw [List.length_range]; omega)]
    rfl

theorem shaped_create (n size : Nat) : (create n size : AudioMultiVector T).Shaped n size where
  channels := List.length_replicate
  samples := fun c hc => by rw [List.eq_of_mem_replicate hc, List.length_replicate]

section Map

variable {f : List T → List T} {size' : Nat}

omit [Zero T] in
theorem Shaped.map (h : m.Shaped n size) (hf : ∀ c : List T, c.length = size → (f c).length = size') :
    Shaped n size' { channels := m.channels.map f } where
  channels := (List.length_map _).trans h.channels
  samples := fun c hc => by
    obtain ⟨c', hc', rfl⟩ := List.mem_map.mp hc
    exact hf c' (h.samples c' hc')

/-- What an operation does to every channel, at a position that is filled by another. -/
theorem frameAt_map (h : m.Shaped n size) {i j : Nat}
    (hf : ∀ c : List T, c.length = size → (f c).getD i 0 = c.getD j 0) :
    frameAt { channels := m.channels.map f } i = m.frameAt j := by
  unfold frameAt
  rw [List.map_map]
  exact List.map_congr_left fun c hc => hf c (h.samples c hc)

/-- At a position that is filled with zeros. -/
theorem frameAt_map_zero (h : m.Shaped n size) {i : Nat}
    (hf : ∀ c : List T, c.length = size → (f c).getD i 0 = 0) :
    frameAt { channels := m.channels.map f } i = List.replicate n 0 := by
  unfold frameAt
  rw [List.map_map, List.eq_replicate_iff]
  refine ⟨(List.length_map _).trans h.channels, fun x hx => ?_⟩
  obtain ⟨c, hc, rfl⟩ := List.mem_map.mp hx
  exact hf c (h.samples c hc)

end Map

section Zip

variable {m' : AudioMultiVector T} {f : List T → List T → List T} {size' size'' : Nat}

omit [Zero T] in
theorem Shaped.zipWith (h' : m'.Shaped n size') (h : m.Shaped n size)
    (hf : ∀ c' c : List T, c'.length = size' → c.length = size → (f c' c).length = size'') :
    Shaped n size'' { channels := List.zipWith f m'.channels m.channels } where
  channels := by rw [List.length_zipWith, h'.channels, h.channels, Nat.min_self]
  samples := fun c hc => by
    rw [← List.map_uncurry_zip_eq_zipWith] at hc
    obtain ⟨⟨v, w⟩, hmem, rfl⟩ := List.mem_map.mp hc
    obtain ⟨hv, hw⟩ := List.of_mem_zip hmem
    exact hf v w (h'.samples v hv) (h.samples w hw)

/-- What an operation with another vector does, at a position that is filled from the first. -/
theorem frameAt_zipWith_left (h' : m'.Shaped n size') (h : m.Shaped n size) {i j : Nat}
    (hf : ∀ c' c : List T, c'.length = size' → c.length = size → (f c' c).getD i 0 = c'.getD j 0) :
    frameAt { channels := List.zipWith f m'.channels m.channels } i = m'.frameAt j := by
  have hfst := @List.map_fst_zip _ _ m'.channels m.channels
    (by rw [h'.channels, h.channels])
  unfold frameAt
  rw [← List.map_uncurry_zip_eq_zipWith, List.map_map]
  conv_rhs => rw [← hfst, List.map_map]
  refine List.map_congr_left fun x hx => ?_
  obtain ⟨hv, hw⟩ := List.of_mem_zip (a := x.1) (b := x.2) hx
  exact hf x.1 x.2 (h'.samples _ hv) (h.samples _ hw)

/-- At a position that is filled from the second. -/
theorem frameAt_zipWith_right (h' : m'.Shaped n size') (h : m.Shaped n size) {i j : Nat}
    (hf : ∀ c' c : List T, c'.length = size' → c.length = size → (f c' c).getD i 0 = c.getD j 0) :
    frameAt { channels := List.zipWith f m'.channels m.channels } i = m.frameAt j := by
  have hsnd := @List.map_snd_zip _ _ m'.channels m.channels
    (by rw [h'.channels, h.channels])
  unfold frameAt
  rw [← List.map_uncurry_zip_eq_zipWith, List.map_map]
  conv_rhs => rw [← hsnd, List.map_map]
  refine List.map_congr_left fun x hx => ?_
  obtain ⟨hv, hw⟩ := List.of_mem_zip (a := x.1) (b := x.2) hx
  exact hf x.1 x.2 (h'.samples _ hv) (h.samples _ hw)

end Zip

theorem frames_eq (h : m.Shaped n size) (hn : 0 < n) {l : List (List T)} (hlen : l.length = size)
    (hget : ∀ i < size, l[i]? = some (m.frameAt i)) : m.frames = l := by
  refine List.ext_getElem? fun i => ?_
  rw [getElem?_frames h hn]
  split
  · rename_i hi
    exact (hget i hi).symm
  · rw [List.getElem?_eq_none (by omega)]

theorem length_frames_eq (h : m.Shaped n size) (hn : 0 < n) : m.frames.length = size := by
  rw [length_frames, h.size_eq hn]

theorem getElem?_frames_of_lt (h : m.Shaped n size) (hn : 0 < n) {i : Nat} (hi : i < size) :
    m.frames[i]? = some (m.frameAt i) := by
  rw [getElem?_frames h hn, if_pos hi]

/-! ## Operations on frames -/

section Operations

variable (h : m.Shaped n size) (hn : 0 < n)

include h hn

theorem frames_zeros (length : Nat) :
    (m.zeros length).Shaped n length ∧
      (m.zeros length).frames = List.replicate length (List.replicate n 0) := by
  have hshaped : (m.zeros length).Shaped n length :=
    h.map fun c _ => by simp [AudioVector.extend]
  refine ⟨hshaped, frames_eq hshaped hn List.length_replicate fun i hi => ?_⟩
  rw [List.getElem?_replicate, if_pos hi]
  exact congrArg some (frameAt_map_zero h fun c _ => by simp [AudioVector.extend]).symm

theorem frames_popFront (length : Nat) :
    (m.popFront length).Shaped n (size - length) ∧
      (m.popFront length).frames = m.frames.drop length := by
  have hpop : ∀ c : List T, AudioVector.popFront length c = c.drop length := by
    intro c
    unfold AudioVector.popFront
    split
    · rename_i hlen
      exact (List.drop_eq_nil_of_le hlen).symm
    · rfl
  have hshaped : (m.popFront length).Shaped n (size - length) :=
    h.map fun c hc => by rw [hpop, List.length_drop, hc]
  refine ⟨hshaped, frames_eq hshaped hn ?_ fun i hi => ?_⟩
  · rw [List.length_drop, length_frames_eq h hn]
  · rw [List.getElem?_drop, getElem?_frames_of_lt h hn (by omega)]
    refine congrArg some (frameAt_map h fun c _ => ?_).symm
    rw [hpop, List.getD_eq_getElem?_getD, List.getElem?_drop, ← List.getD_eq_getElem?_getD]

theorem frames_popBack (length : Nat) :
    (m.popBack length).Shaped n (size - length) ∧
      (m.popBack length).frames = m.frames.take (size - length) := by
  have hpop : ∀ c : List T, c.length = size → AudioVector.popBack length c = c.take (size - length) := by
    intro c hc
    unfold AudioVector.popBack
    rw [hc]
    congr 1
    omega
  have hshaped : (m.popBack length).Shaped n (size - length) :=
    h.map fun c hc => by rw [hpop c hc, List.length_take, hc]; omega
  refine ⟨hshaped, frames_eq hshaped hn ?_ fun i hi => ?_⟩
  · rw [List.length_take, length_frames_eq h hn]
    omega
  · rw [List.getElem?_take_of_lt hi, getElem?_frames_of_lt h hn (by omega)]
    refine congrArg some (frameAt_map h fun c hc => ?_).symm
    rw [hpop c hc, List.getD_eq_getElem?_getD, List.getElem?_take_of_lt hi,
      ← List.getD_eq_getElem?_getD]

theorem frames_insertZerosAt {length position : Nat} (hposition : position ≤ size) :
    (m.insertZerosAt length position).Shaped n (size + length) ∧
      (m.insertZerosAt length position).frames = m.frames.take position ++
        (List.replicate length (List.replicate n 0) ++ m.frames.drop position) := by
  have hinsert : ∀ c : List T, c.length = size → AudioVector.insertZerosAt length position c =
      c.take position ++ (List.replicate length 0 ++ c.drop position) := by
    intro c hc
    unfold AudioVector.insertZerosAt
    rw [hc, min_eq_right hposition, List.append_assoc]
  have hshaped : (m.insertZerosAt length position).Shaped n (size + length) := by
    refine h.map fun c hc => ?_
    rw [hinsert c hc]
    simp only [List.length_append, List.length_take, List.length_replicate, List.length_drop, hc]
    omega
  have hframes := length_frames_eq h hn
  refine ⟨hshaped, frames_eq hshaped hn ?_ fun i hi => ?_⟩
  · simp only [List.length_append, List.length_take, List.length_replicate, List.length_drop, hframes]
    omega
  · have hget : ∀ v : List T, v.length = size → (AudioVector.insertZerosAt length position v)[i]? =
        if i < position then v[i]? else if i < position + length then some 0 else v[i - length]? := by
      intro v hv
      rw [hinsert v hv, getElem?_insertZeros v 0 (by omega)]
    rw [getElem?_insertZeros _ _ (by omega)]
    rcases Nat.lt_or_ge i position with hfront | hback
    · rw [if_pos hfront, getElem?_frames_of_lt h hn (by omega)]
      refine congrArg some (frameAt_map h fun c hc => ?_).symm
      rw [List.getD_eq_getElem?_getD, hget c hc, if_pos hfront, ← List.getD_eq_getElem?_getD]
    · rw [if_neg (by omega)]
      rcases Nat.lt_or_ge i (position + length) with hmiddle | hback
      · rw [if_pos hmiddle]
        refine congrArg some (frameAt_map_zero h fun c hc => ?_).symm
        rw [List.getD_eq_getElem?_getD, hget c hc, if_neg (by omega), if_pos hmiddle]
        rfl
      · rw [if_neg (by omega), getElem?_frames_of_lt h hn (by omega)]
        refine congrArg some (frameAt_map h fun c hc => ?_).symm
        rw [List.getD_eq_getElem?_getD, hget c hc, if_neg (by omega), if_neg (by omega),
          ← List.getD_eq_getElem?_getD]

theorem frames_pushBack {m' : AudioMultiVector T} {size' : Nat} (h' : m'.Shaped n size') :
    (m.pushBack m').Shaped n (size + size') ∧ (m.pushBack m').frames = m.frames ++ m'.frames := by
  have hpush : m.pushBack m' =
      { channels := List.zipWith AudioVector.pushBack m'.channels m.channels } := by
    unfold pushBack
    rw [if_pos (by rw [h.channels, h'.channels])]
  have hshaped : (m.pushBack m').Shaped n (size + size') := by
    rw [hpush]
    refine h'.zipWith h fun c' c hc' hc => ?_
    rw [AudioVector.pushBack, List.length_append, hc, hc']
  have hframes := length_frames_eq h hn
  refine ⟨hshaped, frames_eq hshaped hn ?_ fun i hi => ?_⟩
  · rw [List.length_append, hframes, length_frames_eq h' hn]
  · rw [hpush]
    rcases Nat.lt_or_ge i size with hfront | hback
    · rw [List.getElem?_append_left (by omega), getElem?_frames_of_lt h hn hfront]
      refine congrArg some (frameAt_zipWith_right h' h fun c' c _ hc => ?_).symm
      exact List.getD_append _ _ _ _ (by omega)
    · rw [List.getElem?_append_right (by omega), hframes, getElem?_frames_of_lt h' hn (by omega)]
      refine congrArg some (frameAt_zipWith_left h' h fun c' c _ hc => ?_).symm
      rw [AudioVector.pushBack, List.getD_append_right _ _ _ _ (by omega), hc]

theorem frames_overwriteAt {m' : AudioMultiVector T} {size' : Nat} (h' : m'.Shaped n size')
    {length position : Nat} (hfits : position + length ≤ size) :
    (m.overwriteAt m' length position).Shaped n size ∧
      (m.overwriteAt m' length position).frames = m.frames.take position ++
        (m'.frames.take length ++ m.frames.drop (position + min length size')) := by
  have hoverwrite : m.overwriteAt m' length position = AudioMultiVector.mk (List.zipWith
      (fun v c => AudioVector.overwriteAt v (min length size') position c)
        m'.channels m.channels) := by
    unfold overwriteAt
    dsimp only
    rw [if_pos (by rw [h.channels, h'.channels]), h'.size_eq hn]
  have hsplice : ∀ v c : List T, v.length = size' → c.length = size →
      AudioVector.overwriteAt v (min length size') position c =
        c.take position ++ (v.take length ++ c.drop (position + min length v.length)) := by
    intro v c hv hc
    have htake : v.take (min length size') = v.take length := by
      rw [← hv, ← List.take_eq_take_min]
    unfold AudioVector.overwriteAt
    dsimp only
    rw [hc, min_eq_right (by omega), if_neg (by omega), hv, htake, List.append_assoc]
  have hframes := length_frames_eq h hn
  have hframes' := length_frames_eq h' hn
  have hshaped : (m.overwriteAt m' length position).Shaped n size := by
    rw [hoverwrite]
    refine h'.zipWith h fun v c hv hc => ?_
    rw [hsplice v c hv hc]
    simp only [List.length_append, List.length_take, List.length_drop, hc, hv]
    omega
  refine ⟨hshaped, frames_eq hshaped hn ?_ fun i hi => ?_⟩
  · simp only [List.length_append, List.length_take, List.length_drop, hframes, hframes']
    omega
  · have hget : ∀ v w : List T, v.length = size' → w.length = size →
        (AudioVector.overwriteAt v (min length size') position w)[i]? =
          if position ≤ i ∧ i < position + min length size' then v[i - position]? else w[i]? := by
      intro v w hv hw
      rw [hsplice v w hv hw, getElem?_splice w v (by omega), hv]
    rw [← hframes', getElem?_splice _ _ (by omega), hframes', hoverwrite]
    split
    · rename_i hinside
      rw [getElem?_frames_of_lt h' hn (by omega)]
      refine congrArg some (frameAt_zipWith_left h' h fun v c hv hc => ?_).symm
      rw [List.getD_eq_getElem?_getD, hget v c hv hc, if_pos hinside, ← List.getD_eq_getElem?_getD]
    · rename_i houtside
      rw [getElem?_frames_of_lt h hn hi]
      refine congrArg some (frameAt_zipWith_right h' h fun v c hv hc => ?_).symm
      rw [List.getD_eq_getElem?_getD, hget v c hv hc, if_neg houtside, ← List.getD_eq_getElem?_getD]

theorem readInterleavedFromIndex_eq {startIndex length : Nat} (hfits : startIndex + length ≤ size) :
    m.readInterleavedFromIndex startIndex length =
      ((m.frames.drop startIndex).take length).flatten := by
  have hsize := h.size_eq hn
  have hframes := length_frames_eq h hn
  have htake : (m.frames.drop startIndex).take length =
      (List.range length).map fun i => m.frameAt (i + startIndex) := by
    refine List.ext_getElem? fun i => ?_
    rw [List.getElem?_map]
    rcases Nat.lt_or_ge i length with hi | hi
    · rw [List.getElem?_take_of_lt hi, List.getElem?_drop,
        getElem?_frames_of_lt h hn (by omega), List.getElem?_range hi, Nat.add_comm]
      rfl
    · rw [List.getElem?_eq_none (by rw [List.length_take]; omega),
        List.getElem?_eq_none (by rw [List.length_range]; omega)]
      rfl
  unfold readInterleavedFromIndex
  dsimp only
  rw [hsize, min_eq_left (by omega), if_neg (by omega), htake, List.flatMap_def]
  rfl

end Operations

end AudioMultiVector

end PerchWebrtc.NetEq
