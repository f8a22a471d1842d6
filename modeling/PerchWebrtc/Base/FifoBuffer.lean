import PerchWebrtc.Framework.Machine
import PerchWebrtc.Framework.Ring
import PerchWebrtc.Base.Stream
import PerchWebrtc.Tcp.FifoBuffer

/-!
# A ring buffer as a queue of bytes

All calls of `FifoBuffer` (`stream.cc`), where `size_t` has `w` bits: the sum of the length of the
data and of an offset wraps around. No allocation takes more than half of the addresses.

* `readOffsetLocked_eq`, `writeOffsetLocked_eq`: the two copies of a read and of a write;
* `read_refines`, `write_refines`, `writeOffset_refines` and the others: one call as a call of the
  queue;
* `run_refines`: runs.
-/

namespace PerchWebrtc.Base

structure FifoBuffer extends Tcp.FifoBuffer where
  state : StreamState := .opened

/-- The bytes that a caller writes to the block of `getWriteBuffer` are part of the call, and what a
new allocation holds is part of `setCapacity`. -/
inductive FifoCall where
  | read (bytes : ℕ)
  | write (data : List Byte)
  | readOffset (bytes offset : ℕ)
  | writeOffset (data : List Byte) (offset : ℕ)
  | getReadData
  | consumeReadData (size : ℕ)
  | getWriteBuffer (fill : List Byte)
  | consumeWriteBuffer (size : ℕ)
  | setCapacity (size : ℕ) (memory : Mem)
  | close

/-- An amount that is not there has not been set. -/
inductive FifoAnswer where
  | stream (result : StreamResult) (amount : Option ℕ) (data : List Byte) (event : Option StreamEvent)
  | block (size : Option ℕ) (data : List Byte)
  | consumed (event : Option StreamEvent)
  | resized (success : Bool)
  | done
  deriving DecidableEq

namespace FifoBuffer

variable (w : ℕ) (f : FifoBuffer)

def new (size : ℕ) (memory : Mem) : FifoBuffer := { Tcp.FifoBuffer.create size memory with }

def readOffsetLocked (bytes offset : ℕ) : StreamResult × Option ℕ × List Byte :=
  if offset ≥ f.dataLength then (if f.state ≠ .closed then .block else .eos, none, [])
  else
    let available := f.dataLength - offset
    let readPosition := (f.readPosition + offset) % f.bufferLength
    let copy := min bytes available
    let tailCopy := min copy (f.bufferLength - readPosition)
    (.success, some copy,
      f.buffer.bytes readPosition tailCopy ++ f.buffer.bytes 0 (copy - tailCopy))

def writeOffsetLocked (data : List Byte) (offset : ℕ) : FifoBuffer × StreamResult × Option ℕ :=
  if f.state = .closed then (f, .eos, none)
  else if (f.dataLength + offset) % 2 ^ w ≥ f.bufferLength then (f, .block, none)
  else
    let available := ((f.bufferLength - f.dataLength - offset : ℤ) % 2 ^ w).toNat
    let writePosition := (f.readPosition + f.dataLength + offset) % 2 ^ w % f.bufferLength
    let copy := min data.length available
    let tailCopy := min copy (f.bufferLength - writePosition)
    let p := Mem.ofList data
    ({ f with
      buffer := (f.buffer.copy writePosition p 0 tailCopy).copy 0 p tailCopy (copy - tailCopy) },
      .success, some copy)

/-- An event is posted if there is room now, and was not before. -/
def read (bytes : ℕ) : FifoBuffer × FifoAnswer :=
  let wasWritable := f.dataLength < f.bufferLength
  match f.readOffsetLocked bytes 0 with
  | (.success, some copy, data) =>
    ({ f with
      readPosition := (f.readPosition + copy) % f.bufferLength
      dataLength := f.dataLength - copy },
      .stream .success (some copy) data (if ¬ wasWritable ∧ copy > 0 then some .write else none))
  | (result, _, _) => (f, .stream result none [] none)

def write (data : List Byte) : FifoBuffer × FifoAnswer :=
  let wasReadable := f.dataLength > 0
  match f.writeOffsetLocked w data 0 with
  | (f, .success, some copy) =>
    ({ f with dataLength := f.dataLength + copy },
      .stream .success (some copy) [] (if ¬ wasReadable ∧ copy > 0 then some .read else none))
  | (f, result, _) => (f, .stream result none [] none)

def readOffset (bytes offset : ℕ) : FifoAnswer :=
  let (result, amount, data) := f.readOffsetLocked bytes offset
  .stream result amount data none

def writeOffset (data : List Byte) (offset : ℕ) : FifoBuffer × FifoAnswer :=
  let (f, result, amount) := f.writeOffsetLocked w data offset
  (f, .stream result amount [] none)

def getReadData : FifoAnswer :=
  let size :=
    if f.readPosition + f.dataLength ≤ f.bufferLength then f.dataLength
    else f.bufferLength - f.readPosition
  .block (some size) (f.buffer.bytes f.readPosition size)

/-- `none` is a division by zero, here and in `getWriteBuffer`. -/
def consumeReadData (size : ℕ) : Option (FifoBuffer × FifoAnswer) :=
  let wasWritable := f.dataLength < f.bufferLength
  if f.bufferLength = 0 then none
  else some
    ({ f with
      readPosition := (f.readPosition + size) % f.bufferLength
      dataLength := f.dataLength - size },
      .consumed (if ¬ wasWritable ∧ size > 0 then some .write else none))

/-- The buffer, and the place and the size of a block, which is not there if the buffer is closed. -/
def getWriteBuffer : Option (FifoBuffer × Option (ℕ × ℕ)) :=
  if f.state = .closed then some (f, none)
  else if f.bufferLength = 0 then none
  else
    let f := if f.dataLength = 0 then { f with readPosition := 0 } else f
    let writePosition := (f.readPosition + f.dataLength) % f.bufferLength
    let size :=
      if writePosition > f.readPosition ∨ f.dataLength = 0 then f.bufferLength - writePosition
      else f.readPosition - writePosition
    some (f, some (writePosition, size))

/-- The caller of `getWriteBuffer` writes to the block. -/
def fillWriteBuffer (fill : List Byte) : Option (FifoBuffer × FifoAnswer) :=
  f.getWriteBuffer.map fun
    | (f, none) => (f, .block none [])
    | (f, some (writePosition, size)) =>
      ({ f with buffer := f.buffer.copy writePosition (Mem.ofList fill) 0 fill.length },
        .block (some size) [])

def consumeWriteBuffer (size : ℕ) : FifoBuffer × FifoAnswer :=
  let wasReadable := f.dataLength > 0
  ({ f with dataLength := f.dataLength + size },
    .consumed (if ¬ wasReadable ∧ size > 0 then some .read else none))

def setCapacity (size : ℕ) (memory : Mem) : FifoBuffer × FifoAnswer :=
  if f.dataLength > size then (f, .resized false)
  else if size ≠ f.bufferLength then
    let copy := f.dataLength
    let tailCopy := min copy (f.bufferLength - f.readPosition)
    ({ f with
      buffer := (memory.copy 0 f.buffer f.readPosition tailCopy).copy tailCopy f.buffer 0
        (copy - tailCopy)
      readPosition := 0
      bufferLength := size }, .resized true)
  else (f, .resized true)

def close : FifoBuffer := { f with state := .closed }

def call : FifoCall → Option (FifoBuffer × FifoAnswer)
  | .read bytes => some (f.read bytes)
  | .write data => some (f.write w data)
  | .readOffset bytes offset => some (f, f.readOffset bytes offset)
  | .writeOffset data offset => some (f.writeOffset w data offset)
  | .getReadData => some (f, f.getReadData)
  | .consumeReadData size => f.consumeReadData size
  | .getWriteBuffer fill => f.fillWriteBuffer fill
  | .consumeWriteBuffer size => some (f.consumeWriteBuffer size)
  | .setCapacity size memory => some (f.setCapacity size memory)
  | .close => some (f.close, .done)

/-- What the assertions and the memory ask of a call: an amount that is consumed is there, a caller
fills the block only, and what is allocated exists. -/
def Admissible : FifoCall → Prop
  | .consumeReadData size => size ≤ f.dataLength
  | .consumeWriteBuffer size => size ≤ f.bufferLength - f.dataLength
  | .getWriteBuffer fill => ∀ f' place size, f.getWriteBuffer = some (f', some (place, size)) →
      fill.length ≤ size
  | .setCapacity size _ => 2 * size ≤ 2 ^ w
  | _ => True

/-- No sum with an offset wraps around, and no position is taken modulo zero. -/
def InRange : FifoCall → Prop
  | .writeOffset _ offset => f.state ≠ .closed → f.dataLength + offset < 2 ^ w
  | .consumeReadData _ => 0 < f.bufferLength
  | .getWriteBuffer _ => f.state ≠ .closed → 0 < f.bufferLength
  | _ => True

end FifoBuffer

/-! ## The queue -/

/-- A queue of at most `capacity` bytes, and the bytes that were written ahead, by their distance
from its end. `position` is the place in the ring of the first byte. -/
structure FifoQueue where
  capacity : ℕ
  contents : List Byte := []
  ahead : ℕ → Option Byte := fun _ => none
  position : ℕ := 0
  closed : Bool := false

namespace FifoQueue

variable (q : FifoQueue)

def used : ℕ := q.contents.length

def free : ℕ := q.capacity - q.used

def drop (n : ℕ) : FifoQueue :=
  { q with contents := q.contents.drop n, position := (q.position + n) % q.capacity }

def put (offset : ℕ) (data : List Byte) : FifoQueue :=
  { q with ahead := fun i =>
      if offset ≤ i ∧ i < offset + data.length then data[i - offset]? else q.ahead i }

/-- The bytes that are appended are those that were written ahead, if any were. -/
def extend (bytes : List Byte) : FifoQueue :=
  { q with contents := q.contents ++ bytes, ahead := fun i => q.ahead (bytes.length + i) }

def Fits (bytes : List Byte) : Prop := ∀ i < bytes.length, ∀ b, q.ahead i = some b → bytes[i]? = some b

/-- Nothing has been written ahead, and the ring starts with the first byte. -/
def relaid (capacity : ℕ) : FifoQueue := { q with capacity, position := 0, ahead := fun _ => none }

/-- The bytes up to the end of the ring. -/
def readBlock : ℕ := min q.used (q.capacity - q.position)

def writeBlock : ℕ := min q.free (q.capacity - (q.position + q.used) % q.capacity)

/-- The bytes are those that a call appends that does not give them. What was written ahead is given
up where the contents are laid out again: by `getWriteBuffer` in an empty queue, and by a new
capacity. -/
def call (bytes : List Byte) : FifoCall → FifoQueue × FifoAnswer
  | .read n =>
    if q.used = 0 then (q, .stream (if q.closed then .eos else .block) none [] none)
    else (q.drop (min n q.used), .stream .success (some (min n q.used)) (q.contents.take n)
      (if q.free = 0 ∧ 0 < n then some .write else none))
  | .write data =>
    if q.closed then (q, .stream .eos none [] none)
    else if q.free = 0 then (q, .stream .block none [] none)
    else (q.extend (data.take q.free), .stream .success (some (min data.length q.free)) []
      (if q.used = 0 ∧ data ≠ [] then some .read else none))
  | .readOffset n offset =>
    (q, if q.used ≤ offset then .stream (if q.closed then .eos else .block) none [] none
      else .stream .success (some (min n (q.used - offset))) ((q.contents.drop offset).take n) none)
  | .writeOffset data offset =>
    if q.closed then (q, .stream .eos none [] none)
    else if q.free ≤ offset then (q, .stream .block none [] none)
    else (q.put offset (data.take (q.free - offset)),
      .stream .success (some (min data.length (q.free - offset))) [] none)
  | .getReadData => (q, .block (some q.readBlock) (q.contents.take q.readBlock))
  | .consumeReadData n =>
    (q.drop n, .consumed (if q.free = 0 ∧ 0 < n then some .write else none))
  | .getWriteBuffer fill =>
    if q.closed then (q, .block none [])
    else
      let q := if q.used = 0 then q.relaid q.capacity else q
      (q.put 0 fill, .block (some q.writeBlock) [])
  | .consumeWriteBuffer n =>
    (q.extend bytes, .consumed (if q.used = 0 ∧ 0 < n then some .read else none))
  | .setCapacity n _ =>
    if n < q.used then (q, .resized false)
    else if n ≠ q.capacity then (q.relaid n, .resized true)
    else (q, .resized true)
  | .close => ({ q with closed := true }, .done)

/-- Bytes that are written ahead and appended. -/
theorem extend_put (q : FifoQueue) (bytes : List Byte) :
    (q.put 0 bytes).extend bytes = q.extend bytes := by
  have hahead : (fun i => (q.put 0 bytes).ahead (bytes.length + i)) =
      fun i => q.ahead (bytes.length + i) := by
    funext i
    exact if_neg (by omega)
  show ({ q with contents := _, ahead := fun i => (q.put 0 bytes).ahead (bytes.length + i) } :
    FifoQueue) = _
  rw [hahead]
  rfl

/-- What may be appended by the call that does not give the bytes. -/
def Allows (bytes : List Byte) : FifoCall → Prop
  | .consumeWriteBuffer n => bytes.length = n ∧ q.Fits bytes
  | _ => True

/-- The calls, and their answers, that lead from one state to another one. -/
inductive Steps : FifoQueue → List (FifoCall × FifoAnswer) → FifoQueue → Prop where
  | nil (q : FifoQueue) : Steps q [] q
  | snoc {q q' : FifoQueue} {history : List (FifoCall × FifoAnswer)} (bytes : List Byte)
      (call : FifoCall) (h : Steps q history q') (hbytes : q'.Allows bytes call) :
      Steps q (history ++ [(call, (q'.call bytes call).2)]) (q'.call bytes call).1

end FifoQueue

/-! ## One call -/

namespace FifoBuffer

/-- The byte at a distance from the read position. -/
def byteAt (f : FifoBuffer) (i : ℕ) : Byte := f.buffer.ring f.bufferLength f.readPosition i

def contents (f : FifoBuffer) : List Byte := (List.range f.dataLength).map f.byteAt

structure Valid (w : ℕ) (f : FifoBuffer) : Prop where
  data_le : f.dataLength ≤ f.bufferLength
  position_lt : 0 < f.bufferLength → f.readPosition < f.bufferLength
  fits : 2 * f.bufferLength ≤ 2 ^ w

/-- The queue says where the data is and what it is, and what has been written ahead. -/
structure Refines (f : FifoBuffer) (q : FifoQueue) : Prop where
  capacity : q.capacity = f.bufferLength
  contents : q.contents = f.contents
  position : q.position = f.readPosition
  closed : q.closed = decide (f.state = .closed)
  ahead : ∀ i b, q.ahead i = some b →
    i < f.bufferLength - f.dataLength ∧ b = f.byteAt (f.dataLength + i)

variable {w : ℕ} {f : FifoBuffer} {q : FifoQueue} {data : List Byte} {n offset : ℕ} {size : ℕ}

@[simp] theorem length_contents (f : FifoBuffer) : f.contents.length = f.dataLength := by
  rw [FifoBuffer.contents, List.length_map, List.length_range]

theorem Refines.used_eq (h : f.Refines q) : q.used = f.dataLength := by
  rw [FifoQueue.used, h.contents, length_contents]

theorem Refines.free_eq (h : f.Refines q) : q.free = f.bufferLength - f.dataLength := by
  rw [FifoQueue.free, h.capacity, h.used_eq]

theorem drop_map_range (g : ℕ → Byte) (n offset : ℕ) :
    ((List.range n).map g).drop offset = (List.range (n - offset)).map fun i => g (offset + i) := by
  refine List.ext_getElem (by simp) fun i hi hi' => ?_
  simp

theorem take_map_range (g : ℕ → Byte) (n count : ℕ) :
    ((List.range n).map g).take count = (List.range (min count n)).map g := by
  rw [← List.map_take, List.take_range]

/-- The read position moves over the first bytes. -/
theorem byteAt_drop (f : FifoBuffer) (n m i : ℕ) :
    ({ f with readPosition := (f.readPosition + n) % f.bufferLength, dataLength := m } :
      FifoBuffer).byteAt i = f.byteAt (n + i) := Mem.ring_mod_add _ _ _ _ _

theorem Valid.drop (h : f.Valid w) (hpos : 0 < f.bufferLength) (n : ℕ) :
    ({ f with
      readPosition := (f.readPosition + n) % f.bufferLength
      dataLength := f.dataLength - n } : FifoBuffer).Valid w where
  data_le := (Nat.sub_le _ _).trans h.data_le
  position_lt _ := Nat.mod_lt _ hpos
  fits := h.fits

theorem Refines.drop (h : f.Refines q) (hle : n ≤ f.dataLength) (hdata : f.dataLength ≤ f.bufferLength) :
    ({ f with
      readPosition := (f.readPosition + n) % f.bufferLength
      dataLength := f.dataLength - n } : FifoBuffer).Refines (q.drop n) where
  capacity := h.capacity
  contents := by
    show q.contents.drop n = _
    rw [h.contents, FifoBuffer.contents, drop_map_range]
    exact List.map_congr_left fun i _ => (byteAt_drop f n _ i).symm
  position := by
    show (q.position + n) % q.capacity = (f.readPosition + n) % f.bufferLength
    rw [h.position, h.capacity]
  closed := h.closed
  ahead i b hb := by
    obtain ⟨hi, hbyte⟩ := h.ahead i b hb
    refine ⟨?_, ?_⟩
    · show i < f.bufferLength - (f.dataLength - n)
      omega
    · rw [byteAt_drop]
      show b = f.byteAt (n + (f.dataLength - n + i))
      rw [hbyte, ← Nat.add_assoc, Nat.add_sub_cancel' hle]

theorem readOffsetLocked_eq (h : f.Valid w) (hlt : offset < f.dataLength) :
    f.readOffsetLocked n offset =
      (.success, some (min n (f.dataLength - offset)), (f.contents.drop offset).take n) := by
  have hdata := h.data_le
  have hplace : (f.readPosition + offset) % f.bufferLength < f.bufferLength :=
    Nat.mod_lt _ (by omega)
  have hbytes := Mem.bytes_ring (m := f.buffer) hplace
    (show min n (f.dataLength - offset) ≤ f.bufferLength by omega)
  rw [readOffsetLocked, if_neg (Nat.not_le.mpr hlt), FifoBuffer.contents, drop_map_range,
    take_map_range]
  refine congrArg (fun data => (StreamResult.success, _, data)) (hbytes.trans ?_)
  exact List.map_congr_left fun i _ => Mem.ring_mod_add _ _ _ _ _

theorem readOffsetLocked_of_ge (hge : f.dataLength ≤ offset) :
    f.readOffsetLocked n offset = (if f.state = .closed then .eos else .block, none, []) := by
  rw [readOffsetLocked, if_pos hge]
  by_cases hclosed : f.state = .closed
  · rw [if_neg (not_not.mpr hclosed), if_pos hclosed]
  · rw [if_pos hclosed, if_neg hclosed]

/-- Bytes are copied behind the data. -/
def overwrite (f : FifoBuffer) (offset : ℕ) (data : List Byte) (n : ℕ) : FifoBuffer :=
  { f with
    buffer := f.buffer.copyRing f.bufferLength
      ((f.readPosition + (f.dataLength + offset)) % f.bufferLength) (Mem.ofList data) n }

theorem byteAt_overwrite {i : ℕ} (hfits : f.dataLength + offset + n ≤ f.bufferLength)
    (hi : i < f.bufferLength) :
    (f.overwrite offset data n).byteAt i =
      if f.dataLength + offset ≤ i ∧ i < f.dataLength + offset + n then
        Mem.ofList data (i - (f.dataLength + offset))
      else f.byteAt i := Mem.ring_copyRing hfits hi

theorem contents_overwrite (hfits : f.dataLength + offset + n ≤ f.bufferLength) :
    (f.overwrite offset data n).contents = f.contents := by
  refine List.map_congr_left fun i hi => ?_
  have hi : i < f.dataLength := List.mem_range.mp hi
  rw [byteAt_overwrite hfits (by omega), if_neg (by omega)]

theorem ofList_eq_of_getElem? {i : ℕ} {b : Byte} (h : data[i]? = some b) : Mem.ofList data i = b := by
  rw [Mem.ofList, List.getD_eq_getElem?_getD, h, Option.getD_some]

theorem Refines.put (h : f.Refines q) (hn : n ≤ data.length)
    (hfits : f.dataLength + offset + n ≤ f.bufferLength) :
    (f.overwrite offset data n).Refines (q.put offset (data.take n)) where
  capacity := h.capacity
  contents := h.contents.trans (contents_overwrite hfits).symm
  position := h.position
  closed := h.closed
  ahead i b hb := by
    have hlength : (data.take n).length = n := by rw [List.length_take, min_eq_left hn]
    show i < f.bufferLength - f.dataLength ∧ b = (f.overwrite offset data n).byteAt (f.dataLength + i)
    simp only [FifoQueue.put, hlength] at hb
    split at hb
    case isTrue hin =>
      rw [List.getElem?_take_of_lt (by omega)] at hb
      refine ⟨by omega, ?_⟩
      rw [byteAt_overwrite hfits (by omega), if_pos (by omega),
        show f.dataLength + i - (f.dataLength + offset) = i - offset by omega,
        ofList_eq_of_getElem? hb]
    case isFalse hout =>
      obtain ⟨hi, hbyte⟩ := h.ahead i b hb
      refine ⟨hi, ?_⟩
      rw [byteAt_overwrite hfits (by omega), if_neg (by omega), hbyte]

theorem writeOffsetLocked_eq (h : f.Valid w) (hopen : f.state ≠ .closed)
    (hlt : f.dataLength + offset < f.bufferLength) :
    f.writeOffsetLocked w data offset =
      (f.overwrite offset data (min data.length (f.bufferLength - f.dataLength - offset)), .success,
        some (min data.length (f.bufferLength - f.dataLength - offset))) := by
  have hfits := h.fits
  have hposition := h.position_lt (by omega)
  have hsum : (f.dataLength + offset) % 2 ^ w = f.dataLength + offset := Nat.mod_eq_of_lt (by omega)
  have hplace : (f.readPosition + f.dataLength + offset) % 2 ^ w =
      f.readPosition + (f.dataLength + offset) := by
    rw [Nat.mod_eq_of_lt (by omega), Nat.add_assoc]
  have havailable : ((f.bufferLength - f.dataLength - offset : ℤ) % 2 ^ w).toNat =
      f.bufferLength - f.dataLength - offset := by
    have hpow : ((2 : ℤ) ^ w) = ((2 ^ w : ℕ) : ℤ) := by norm_cast
    rw [hpow, Int.emod_eq_of_lt (by omega) (by omega)]
    omega
  rw [writeOffsetLocked, if_neg hopen, hsum, if_neg (Nat.not_le.mpr hlt), hplace, havailable]
  rfl

theorem writeOffsetLocked_closed (hclosed : f.state = .closed) :
    f.writeOffsetLocked w data offset = (f, .eos, none) := if_pos hclosed

theorem writeOffsetLocked_full (hopen : f.state ≠ .closed) (hrange : f.dataLength + offset < 2 ^ w)
    (hge : f.bufferLength ≤ f.dataLength + offset) :
    f.writeOffsetLocked w data offset = (f, .block, none) := by
  rw [writeOffsetLocked, if_neg hopen, Nat.mod_eq_of_lt hrange, if_pos hge]

theorem Valid.overwrite (h : f.Valid w) (offset : ℕ) (data : List Byte) (n : ℕ) :
    (f.overwrite offset data n).Valid w := ⟨h.data_le, h.position_lt, h.fits⟩

theorem Valid.extend (h : f.Valid w) (hle : f.dataLength + n ≤ f.bufferLength) :
    ({ f with dataLength := f.dataLength + n } : FifoBuffer).Valid w := ⟨hle, h.position_lt, h.fits⟩

/-- The bytes behind the data become data. -/
theorem contents_extend (f : FifoBuffer) (n : ℕ) :
    ({ f with dataLength := f.dataLength + n } : FifoBuffer).contents =
      f.contents ++ (List.range n).map fun i => f.byteAt (f.dataLength + i) := by
  show (List.range (f.dataLength + n)).map f.byteAt = _
  rw [List.range_add, List.map_append, List.map_map]
  rfl

theorem Refines.extend (h : f.Refines q) {bytes : List Byte}
    (hbytes : bytes = (List.range n).map fun i => f.byteAt (f.dataLength + i)) :
    ({ f with dataLength := f.dataLength + n } : FifoBuffer).Refines (q.extend bytes) where
  capacity := h.capacity
  contents := by
    rw [contents_extend, ← hbytes, ← h.contents]
    rfl
  position := h.position
  closed := h.closed
  ahead i b hb := by
    have hlength : bytes.length = n := by rw [hbytes, List.length_map, List.length_range]
    obtain ⟨hi, hbyte⟩ := h.ahead (bytes.length + i) b hb
    rw [hlength] at hi hbyte
    refine ⟨?_, ?_⟩
    · show i < f.bufferLength - (f.dataLength + n)
      omega
    · show b = f.byteAt (f.dataLength + n + i)
      rw [hbyte, Nat.add_assoc]

/-- The bytes that become data are those that were written ahead. -/
theorem Refines.fits (h : f.Refines q) (n : ℕ) :
    q.Fits ((List.range n).map fun i => f.byteAt (f.dataLength + i)) := by
  intro i hi b hb
  rw [List.length_map, List.length_range] at hi
  obtain ⟨-, hbyte⟩ := h.ahead i b hb
  rw [List.getElem?_map, List.getElem?_range hi, Option.map_some, ← hbyte]

theorem map_byteAt_overwrite (hn : n ≤ data.length)
    (hfits : f.dataLength + offset + n ≤ f.bufferLength) :
    ((List.range n).map fun i => (f.overwrite offset data n).byteAt (f.dataLength + offset + i)) =
      data.take n := by
  refine List.ext_getElem (by simp [hn]) fun i hi hi' => ?_
  have hi : i < n := by simpa using hi
  rw [List.getElem_map, List.getElem_range, byteAt_overwrite hfits (by omega), if_pos (by omega),
    Nat.add_sub_cancel_left, List.getElem_take]
  exact ofList_eq_of_getElem? (List.getElem?_eq_getElem _)

theorem Refines.append (h : f.Refines q) (hn : n ≤ data.length)
    (hfits : f.dataLength + n ≤ f.bufferLength) :
    ({ f.overwrite 0 data n with dataLength := f.dataLength + n } : FifoBuffer).Refines
      (q.extend (data.take n)) := by
  have hput : (f.overwrite 0 data n).Refines (q.put 0 (data.take n)) := h.put hn hfits
  have hbytes : ((List.range n).map fun i => (f.overwrite 0 data n).byteAt (f.dataLength + i)) =
      data.take n := map_byteAt_overwrite hn hfits
  have hextend := hput.extend hbytes.symm
  rwa [FifoQueue.extend_put] at hextend

/-- The call is one of the queue, with the same answer. -/
structure Follows (w : ℕ) (f : FifoBuffer) (q : FifoQueue) (c : FifoCall) (bytes : List Byte)
    (f' : FifoBuffer) (q' : FifoQueue) (answer : FifoAnswer) : Prop where
  call : f.call w c = some (f', answer)
  queue : q.call bytes c = (q', answer)
  allows : q.Allows bytes c
  valid : f'.Valid w
  refines : f'.Refines q'

/-- The call has an answer that the queue gives too. -/
def CallRefines (w : ℕ) (f : FifoBuffer) (q : FifoQueue) (c : FifoCall) : Prop :=
  ∃ bytes f' q' answer, Follows w f q c bytes f' q' answer

theorem Refines.closed_iff (h : f.Refines q) : q.closed = true ↔ f.state = .closed := by
  rw [h.closed, decide_eq_true_eq]

/-- The result where nothing can be read. -/
theorem Refines.unreadable (h : f.Refines q) :
    (if f.state = .closed then .eos else .block : StreamResult) = if q.closed then .eos else .block :=
  if_congr h.closed_iff.symm rfl rfl

theorem Refines.full_iff (h : f.Refines q) : ¬ f.dataLength < f.bufferLength ↔ q.free = 0 := by
  rw [h.free_eq]
  omega

theorem Refines.empty_iff (h : f.Refines q) : ¬ f.dataLength > 0 ↔ q.used = 0 := by
  rw [h.used_eq]
  omega

theorem take_min_length (data : List Byte) (n : ℕ) : data.take (min data.length n) = data.take n := by
  rw [min_comm, ← List.take_eq_take_min]

theorem readOffset_refines (h : f.Valid w) (hq : f.Refines q) (n offset : ℕ) :
    CallRefines w f q (.readOffset n offset) := by
  refine ⟨[], f, q, f.readOffset n offset, rfl, congrArg (Prod.mk q) ?_, trivial, h, hq⟩
  rw [hq.used_eq]
  by_cases hge : f.dataLength ≤ offset
  · rw [if_pos hge, readOffset, readOffsetLocked_of_ge hge, hq.unreadable]
  · rw [if_neg hge, readOffset, readOffsetLocked_eq h (Nat.not_le.mp hge), hq.contents]

theorem read_of_empty (hempty : f.dataLength = 0) :
    f.read n = (f, .stream (if f.state = .closed then .eos else .block) none [] none) := by
  rw [read, readOffsetLocked_of_ge hempty.le]
  by_cases hclosed : f.state = .closed
  · rw [if_pos hclosed]
  · rw [if_neg hclosed]

theorem read_of_pos (h : f.Valid w) (hpos : 0 < f.dataLength) :
    f.read n =
      ({ f with
        readPosition := (f.readPosition + min n f.dataLength) % f.bufferLength
        dataLength := f.dataLength - min n f.dataLength },
        .stream .success (some (min n f.dataLength)) (f.contents.take n)
          (if ¬ f.dataLength < f.bufferLength ∧ min n f.dataLength > 0 then some .write else none)) := by
  rw [read, readOffsetLocked_eq h hpos, Nat.sub_zero, List.drop_zero]

theorem read_refines (h : f.Valid w) (hq : f.Refines q) (n : ℕ) : CallRefines w f q (.read n) := by
  have hdata := h.data_le
  by_cases hempty : f.dataLength = 0
  · refine ⟨[], f, q, _, congrArg some (read_of_empty hempty), ?_, trivial, h, hq⟩
    rw [FifoQueue.call, hq.used_eq, if_pos hempty, hq.unreadable]
  · have hpos : 0 < f.dataLength := Nat.pos_of_ne_zero hempty
    have hevent : (¬ f.dataLength < f.bufferLength ∧ min n f.dataLength > 0) ↔ q.free = 0 ∧ 0 < n :=
      and_congr hq.full_iff (by omega)
    refine ⟨[], _, q.drop (min n f.dataLength), _, congrArg some (read_of_pos h hpos), ?_, trivial,
      h.drop (by omega) _, hq.drop (min_le_right _ _) hdata⟩
    rw [FifoQueue.call, hq.used_eq, if_neg hempty, hq.contents, if_congr hevent rfl rfl]

theorem writeOffset_refines (h : f.Valid w) (hq : f.Refines q) (data : List Byte)
    (hrange : f.state ≠ .closed → f.dataLength + offset < 2 ^ w) :
    CallRefines w f q (.writeOffset data offset) := by
  by_cases hclosed : f.state = .closed
  · refine ⟨[], f, q, .stream .eos none [] none, ?_, if_pos (hq.closed_iff.mpr hclosed), trivial, h,
      hq⟩
    rw [call, writeOffset, writeOffsetLocked_closed hclosed]
  have hopen : ¬ q.closed = true := mt hq.closed_iff.mp hclosed
  by_cases hge : f.bufferLength ≤ f.dataLength + offset
  · refine ⟨[], f, q, .stream .block none [] none, ?_, ?_, trivial, h, hq⟩
    · rw [call, writeOffset, writeOffsetLocked_full hclosed (hrange hclosed) hge]
    · rw [FifoQueue.call, if_neg hopen, hq.free_eq, if_pos (by omega)]
  · have hput := hq.put (min_le_left data.length (f.bufferLength - f.dataLength - offset))
      (show f.dataLength + offset + _ ≤ f.bufferLength by omega)
    rw [take_min_length] at hput
    refine ⟨[], _, _,
      .stream .success (some (min data.length (f.bufferLength - f.dataLength - offset))) [] none, ?_,
      ?_, trivial, h.overwrite _ _ _, hput⟩
    · rw [call, writeOffset, writeOffsetLocked_eq h hclosed (Nat.not_le.mp hge)]
    · rw [FifoQueue.call, if_neg hopen, hq.free_eq, if_neg (by omega)]

theorem write_refines (h : f.Valid w) (hq : f.Refines q) (data : List Byte) :
    CallRefines w f q (.write data) := by
  have hdata := h.data_le
  have hfits := h.fits
  by_cases hclosed : f.state = .closed
  · refine ⟨[], f, q, .stream .eos none [] none, ?_, if_pos (hq.closed_iff.mpr hclosed), trivial, h,
      hq⟩
    rw [call, write, writeOffsetLocked_closed hclosed]
  have hopen : ¬ q.closed = true := mt hq.closed_iff.mp hclosed
  by_cases hfull : f.bufferLength ≤ f.dataLength + 0
  · have hsum : f.dataLength + 0 < 2 ^ w := by
      have hpow := Nat.two_pow_pos w
      omega
    refine ⟨[], f, q, .stream .block none [] none, ?_, ?_, trivial, h, hq⟩
    · rw [call, write, writeOffsetLocked_full hclosed hsum hfull]
    · rw [FifoQueue.call, if_neg hopen, hq.free_eq, if_pos (by omega)]
  · have hroom : f.dataLength + min data.length (f.bufferLength - f.dataLength) ≤ f.bufferLength := by
      omega
    have happend := hq.append (min_le_left data.length (f.bufferLength - f.dataLength)) hroom
    have hevent : (¬ f.dataLength > 0 ∧ min data.length (f.bufferLength - f.dataLength) > 0) ↔
        q.used = 0 ∧ data ≠ [] := by
      refine and_congr hq.empty_iff ?_
      rw [← List.length_pos_iff]
      omega
    rw [take_min_length] at happend
    refine ⟨[], _, _,
      .stream .success (some (min data.length (f.bufferLength - f.dataLength))) []
        (if ¬ f.dataLength > 0 ∧ min data.length (f.bufferLength - f.dataLength) > 0 then some .read
          else none),
      ?_, ?_, trivial, (h.overwrite 0 data _).extend hroom, happend⟩
    · rw [call, write, writeOffsetLocked_eq h hclosed (Nat.not_le.mp hfull)]
      rfl
    · rw [FifoQueue.call, if_neg hopen, hq.free_eq, if_neg (by omega), ← if_congr hevent rfl rfl]

theorem getReadData_refines (h : f.Valid w) (hq : f.Refines q) :
    CallRefines w f q .getReadData := by
  have hdata := h.data_le
  have hsize : (if f.readPosition + f.dataLength ≤ f.bufferLength then f.dataLength
      else f.bufferLength - f.readPosition) = q.readBlock := by
    rw [FifoQueue.readBlock, hq.used_eq, hq.capacity, hq.position]
    split <;> omega
  have hle : q.readBlock ≤ f.dataLength := by
    rw [FifoQueue.readBlock, hq.used_eq]
    exact min_le_left _ _
  have hbytes : f.buffer.bytes f.readPosition q.readBlock = q.contents.take q.readBlock := by
    rw [hq.contents, FifoBuffer.contents, take_map_range, min_eq_left hle]
    refine List.map_congr_left fun i hi => (Mem.ring_of_lt ?_).symm
    have hi := List.mem_range.mp hi
    rw [FifoQueue.readBlock, hq.capacity, hq.position] at hi
    omega
  refine ⟨[], f, q, .block (some q.readBlock) (q.contents.take q.readBlock), ?_, rfl, trivial, h, hq⟩
  rw [call, getReadData, hsize, hbytes]

theorem consumeReadData_refines (h : f.Valid w) (hq : f.Refines q) (hsize : size ≤ f.dataLength)
    (hpos : 0 < f.bufferLength) : CallRefines w f q (.consumeReadData size) := by
  refine ⟨[], _, q.drop size, .consumed _, if_neg hpos.ne', ?_, trivial, h.drop hpos size,
    hq.drop hsize h.data_le⟩
  rw [FifoQueue.call, ← if_congr (and_congr_left' hq.full_iff) rfl rfl]

theorem consumeWriteBuffer_refines (h : f.Valid w) (hq : f.Refines q)
    (hsize : size ≤ f.bufferLength - f.dataLength) :
    CallRefines w f q (.consumeWriteBuffer size) := by
  have hdata := h.data_le
  refine ⟨(List.range size).map fun i => f.byteAt (f.dataLength + i), _, _, .consumed _, rfl, ?_,
    ⟨by rw [List.length_map, List.length_range], hq.fits size⟩, h.extend (by omega), hq.extend rfl⟩
  rw [FifoQueue.call, ← if_congr (and_congr_left' hq.empty_iff) rfl rfl]

/-- The read position may be set to the start of an empty buffer. -/
theorem Refines.relaid (hq : f.Refines q) (hempty : f.dataLength = 0) :
    ({ f with readPosition := 0 } : FifoBuffer).Refines (q.relaid q.capacity) where
  capacity := hq.capacity
  contents := by
    show q.contents = (List.range f.dataLength).map _
    rw [hq.contents, FifoBuffer.contents, hempty]
    rfl
  position := rfl
  closed := hq.closed
  ahead _ _ hb := by cases hb

/-- A block is filled that does not pass the end of the ring. -/
theorem Refines.fill (h : f.Valid w) (hq : f.Refines q) {fill : List Byte}
    (hfits : fill.length ≤ f.bufferLength - f.dataLength)
    (hblock : fill.length ≤ f.bufferLength - (f.readPosition + f.dataLength) % f.bufferLength) :
    ({ f with
      buffer := f.buffer.copy ((f.readPosition + f.dataLength) % f.bufferLength) (Mem.ofList fill) 0
        fill.length } : FifoBuffer).Refines (q.put 0 fill) := by
  have hdata := h.data_le
  have hput : (f.overwrite 0 fill fill.length).Refines (q.put 0 (fill.take fill.length)) :=
    hq.put le_rfl (by omega)
  rw [List.take_length, overwrite, Nat.add_zero, Mem.copyRing_of_le hblock] at hput
  exact hput

/-- The size of the block from the write position on. -/
theorem Refines.writeBlock_eq (h : f.Valid w) (hq : f.Refines q) (hpos : 0 < f.bufferLength) :
    (if (f.readPosition + f.dataLength) % f.bufferLength > f.readPosition ∨ f.dataLength = 0 then
        f.bufferLength - (f.readPosition + f.dataLength) % f.bufferLength
      else f.readPosition - (f.readPosition + f.dataLength) % f.bufferLength) = q.writeBlock := by
  have hdata := h.data_le
  have hposition := h.position_lt hpos
  rw [FifoQueue.writeBlock, hq.free_eq, hq.used_eq, hq.capacity, hq.position]
  by_cases hwraps : f.readPosition + f.dataLength < f.bufferLength
  · rw [Nat.mod_eq_of_lt hwraps, if_pos (by omega)]
    omega
  · rw [Nat.mod_eq_sub_mod (Nat.not_lt.mp hwraps), Nat.mod_eq_of_lt (by omega), if_neg (by omega)]
    omega

theorem getWriteBuffer_closed (hclosed : f.state = .closed) : f.getWriteBuffer = some (f, none) :=
  if_pos hclosed

/-- The buffer whose write position `getWriteBuffer` gives. -/
def realigned (f : FifoBuffer) : FifoBuffer :=
  if f.dataLength = 0 then { f with readPosition := 0 } else f

theorem Valid.realigned (h : f.Valid w) : f.realigned.Valid w := by
  rw [FifoBuffer.realigned]
  split
  · exact ⟨h.data_le, fun hpos => hpos, h.fits⟩
  · exact h

theorem Refines.realigned (hq : f.Refines q) :
    f.realigned.Refines (if q.used = 0 then q.relaid q.capacity else q) := by
  rw [FifoBuffer.realigned, hq.used_eq]
  split
  case isTrue hempty => exact hq.relaid hempty
  case isFalse => exact hq

theorem getWriteBuffer_eq (h : f.Valid w) (hopen : f.state ≠ .closed) (hpos : 0 < f.bufferLength)
    (hq : f.realigned.Refines q) :
    f.getWriteBuffer = some (f.realigned, some
      ((f.realigned.readPosition + f.realigned.dataLength) % f.realigned.bufferLength,
        q.writeBlock)) := by
  have hlength : f.realigned.bufferLength = f.bufferLength := by
    rw [FifoBuffer.realigned]
    split <;> rfl
  have hblock := hq.writeBlock_eq h.realigned (hpos.trans_eq hlength.symm)
  rw [← hblock, getWriteBuffer, if_neg hopen, if_neg hpos.ne']
  rfl

theorem getWriteBuffer_refines (h : f.Valid w) (hq : f.Refines q) {fill : List Byte}
    (hpos : f.state ≠ .closed → 0 < f.bufferLength)
    (hfill : ∀ f' place size, f.getWriteBuffer = some (f', some (place, size)) → fill.length ≤ size) :
    CallRefines w f q (.getWriteBuffer fill) := by
  by_cases hclosed : f.state = .closed
  · refine ⟨[], f, q, .block none [], ?_, if_pos (hq.closed_iff.mpr hclosed), trivial, h, hq⟩
    rw [call, fillWriteBuffer, getWriteBuffer_closed hclosed]
    rfl
  have hopen : ¬ q.closed = true := mt hq.closed_iff.mp hclosed
  have hrealigned := hq.realigned
  have hblock := getWriteBuffer_eq h hclosed (hpos hclosed) hrealigned
  have hle := hfill _ _ _ hblock
  rw [FifoQueue.writeBlock, hrealigned.free_eq, hrealigned.used_eq, hrealigned.capacity,
    hrealigned.position] at hle
  have hfilled := hrealigned.fill h.realigned (hle.trans (min_le_left _ _))
    (hle.trans (min_le_right _ _))
  refine ⟨[], _, _, .block (some _) [], ?_, if_neg hopen, trivial, ?_, hfilled⟩
  · rw [call, fillWriteBuffer, hblock]
    rfl
  · exact ⟨h.realigned.data_le, h.realigned.position_lt, h.realigned.fits⟩

/-- The data is copied to a new allocation. -/
def resized (f : FifoBuffer) (size : ℕ) (memory : Mem) : FifoBuffer :=
  let tailCopy := min f.dataLength (f.bufferLength - f.readPosition)
  { f with
    buffer := (memory.copy 0 f.buffer f.readPosition tailCopy).copy tailCopy f.buffer 0
      (f.dataLength - tailCopy)
    readPosition := 0
    bufferLength := size }

theorem contents_resized (h : f.Valid w) (memory : Mem) (hsize : f.dataLength ≤ size) :
    (f.resized size memory).contents = f.contents := by
  refine List.map_congr_left fun i hi => ?_
  have hi : i < f.dataLength := List.mem_range.mp hi
  have hdata := h.data_le
  have hposition := h.position_lt (by omega)
  have hplace : 0 + i < size := by omega
  show Mem.ring ((memory.copy 0 f.buffer f.readPosition _).copy _ f.buffer 0 _) size 0 i =
    f.buffer.ring f.bufferLength f.readPosition i
  rw [Mem.ring_of_lt hplace]
  by_cases hin : i < f.bufferLength - f.readPosition
  · rw [Mem.copy_outside _ _ (by omega), Mem.copy_inside _ _ (by omega) (by omega),
      Mem.ring_of_lt (by omega)]
    congr 1
    omega
  · rw [Mem.copy_inside _ _ (by omega) (by omega), Mem.ring_of_ge (by omega) hposition (by omega)]
    congr 1
    omega

theorem Refines.resized (h : f.Valid w) (hq : f.Refines q) (memory : Mem)
    (hsize : f.dataLength ≤ size) : (f.resized size memory).Refines (q.relaid size) where
  capacity := rfl
  contents := hq.contents.trans (contents_resized h memory hsize).symm
  position := rfl
  closed := hq.closed
  ahead _ _ hb := by cases hb

theorem setCapacity_refines (h : f.Valid w) (hq : f.Refines q) (memory : Mem)
    (hfits : 2 * size ≤ 2 ^ w) : CallRefines w f q (.setCapacity size memory) := by
  by_cases hlt : size < f.dataLength
  · refine ⟨[], f, q, .resized false, congrArg some (if_pos hlt), ?_, trivial, h, hq⟩
    rw [FifoQueue.call, hq.used_eq, if_pos hlt]
  by_cases hsame : size ≠ f.bufferLength
  · refine ⟨[], f.resized size memory, q.relaid size, .resized true, ?_, ?_, trivial,
      ⟨Nat.not_lt.mp hlt, fun hpos => hpos, hfits⟩, hq.resized h memory (Nat.not_lt.mp hlt)⟩
    · rw [call, setCapacity, if_neg hlt, if_pos hsame]
      rfl
    · rw [FifoQueue.call, hq.used_eq, hq.capacity, if_neg hlt, if_pos hsame]
  · refine ⟨[], f, q, .resized true, ?_, ?_, trivial, h, hq⟩
    · rw [call, setCapacity, if_neg hlt, if_neg hsame]
    · rw [FifoQueue.call, hq.used_eq, hq.capacity, if_neg hlt, if_neg hsame]

theorem close_refines (h : f.Valid w) (hq : f.Refines q) : CallRefines w f q .close :=
  ⟨[], f.close, { q with closed := true }, .done, rfl, rfl, trivial,
    ⟨h.data_le, h.position_lt, h.fits⟩, ⟨hq.capacity, hq.contents, hq.position, rfl, hq.ahead⟩⟩

theorem call_refines (h : f.Valid w) (hq : f.Refines q) {c : FifoCall} (hadmissible : f.Admissible w c)
    (hrange : f.InRange w c) : CallRefines w f q c := by
  cases c with
  | read n => exact read_refines h hq n
  | write data => exact write_refines h hq data
  | readOffset n offset => exact readOffset_refines h hq n offset
  | writeOffset data offset => exact writeOffset_refines h hq data hrange
  | getReadData => exact getReadData_refines h hq
  | consumeReadData size => exact consumeReadData_refines h hq hadmissible hrange
  | getWriteBuffer fill => exact getWriteBuffer_refines h hq hrange hadmissible
  | consumeWriteBuffer size => exact consumeWriteBuffer_refines h hq hadmissible
  | setCapacity size memory => exact setCapacity_refines h hq memory hadmissible
  | close => exact close_refines h hq

end FifoBuffer

/-! ## Runs -/

structure FifoSession where
  fifo : FifoBuffer
  history : List (FifoCall × FifoAnswer) := []

namespace FifoSession

variable (w : ℕ)

def step (s : FifoSession) (c : FifoCall) : Option FifoSession :=
  (s.fifo.call w c).map fun r => ⟨r.1, s.history ++ [(c, r.2)]⟩

def new (size : ℕ) (memory : Mem) : FifoSession := ⟨.new size memory, []⟩

/-- The queue goes through the same calls with the same answers, and the buffer is as it says. -/
def Sound (size : ℕ) (s : FifoSession) : Prop :=
  s.fifo.Valid w ∧ ∃ q, FifoQueue.Steps { capacity := size } s.history q ∧ s.fifo.Refines q

theorem sound_new {size : ℕ} (hfits : 2 * size ≤ 2 ^ w) (memory : Mem) :
    Sound w size (new size memory) :=
  ⟨⟨Nat.zero_le _, fun hpos => hpos, hfits⟩, _, .nil _, ⟨rfl, rfl, rfl, rfl, nofun⟩⟩

theorem step_sound {size : ℕ} {s : FifoSession} {c : FifoCall} (h : Sound w size s)
    (hc : s.fifo.Admissible w c ∧ s.fifo.InRange w c) :
    ∃ s', step w s c = some s' ∧ Sound w size s' := by
  obtain ⟨hvalid, q, hsteps, hrefines⟩ := h
  obtain ⟨bytes, f', q', answer, hfollows⟩ := FifoBuffer.call_refines hvalid hrefines hc.1 hc.2
  have hsnoc := hsteps.snoc bytes c hfollows.allows
  rw [hfollows.queue] at hsnoc
  refine ⟨⟨f', s.history ++ [(c, answer)]⟩, ?_, hfollows.valid, q', hsnoc, hfollows.refines⟩
  rw [step, hfollows.call]
  rfl

/-- Where no sum with an offset wraps around and the capacity that is divided by is not zero, every
run of the buffer is one of the queue. -/
theorem run_refines (w size : ℕ) (memory : Mem) (calls : List FifoCall) (hfits : 2 * size ≤ 2 ^ w)
    (hcalls : Machine.Along (Machine.attempt (step w))
      (Machine.Running fun s c => s.fifo.Admissible w c ∧ s.fifo.InRange w c)
      (some (new size memory)) calls) :
    Machine.Always (Machine.attempt (step w))
      (Machine.Holding fun s => ∃ q, FifoQueue.Steps { capacity := size } s.history q ∧
        s.fifo.Refines q)
      (some (new size memory)) calls := by
  have halways := Machine.always_attempt (I := Sound w size) (fun s c hs hc => step_sound w hs hc)
    (sound_new w hfits memory) hcalls
  refine halways.imp ?_
  rintro _ ⟨s, rfl, -, hq⟩
  exact ⟨s, rfl, hq⟩

/-- A write ahead of the end, a write in front of it, and what was written ahead. -/
theorem run_refines_ahead :
    Machine.Always (Machine.attempt (step 64))
      (Machine.Holding fun s => ∃ q, FifoQueue.Steps { capacity := 4 } s.history q ∧
        s.fifo.Refines q)
      (some (new 4 fun _ => 0))
      [.write [1], .writeOffset [3] 1, .write [2], .consumeWriteBuffer 1, .read 2] := by
  refine run_refines 64 4 (fun _ => 0) _ (by decide) ?_
  refine Machine.along_attempt_cons rfl ⟨trivial, trivial⟩ ?_
  refine Machine.along_attempt_cons rfl ⟨trivial, fun _ => by decide⟩ ?_
  refine Machine.along_attempt_cons rfl ⟨trivial, trivial⟩ ?_
  refine Machine.along_attempt_cons rfl ⟨Nat.le_of_ble_eq_true rfl, trivial⟩ ?_
  exact Machine.along_attempt_cons rfl ⟨trivial, trivial⟩ trivial

/-- An offset from the end of the addresses is that of a byte in front of the end; an empty buffer
without capacity is divided by. -/
theorem not_run_refines :
    (¬ ∀ (size : ℕ) (data more : List Byte) (offset : ℕ), offset < 2 ^ 64 →
      let f := ((FifoBuffer.new size fun _ => 0).write 64 data).1
      (f.writeOffset 64 more offset).1.contents = f.contents) ∧
    (FifoBuffer.new 0 fun _ => 0).call 64 (.getWriteBuffer []) = none := by
  refine ⟨fun h => ?_, rfl⟩
  exact absurd (h 4 [1, 2] [9] (2 ^ 64 - 1) (by decide)) (by decide)

end FifoSession

end PerchWebrtc.Base
