import PerchWebrtc.Framework.Bytes

/-!
# The ring buffer of a stream

`FifoBuffer` (`stream.cc`): bytes that have been written and not yet read, and
bytes behind them that are written at an offset and become readable later.
-/

namespace PerchWebrtc.Tcp

structure FifoBuffer where
  buffer : Mem
  bufferLength : Nat
  dataLength : Nat := 0
  readPosition : Nat := 0

namespace FifoBuffer

/-- The bytes of a new buffer are whatever the memory holds. -/
def create (size : Nat) (memory : Mem) : FifoBuffer where
  buffer := memory
  bufferLength := size

variable (f : FifoBuffer)

def getBuffered : Nat := f.dataLength

def getWriteRemaining : Nat := f.bufferLength - f.dataLength

def setCapacity (size : Nat) : Bool × FifoBuffer :=
  if size < f.dataLength then (false, f)
  else if size ≠ f.bufferLength then
    let tailCopy := min f.dataLength (f.bufferLength - f.readPosition)
    (true, { f with
      buffer := (f.buffer.copy 0 f.buffer f.readPosition tailCopy).copy tailCopy f.buffer 0
        (f.dataLength - tailCopy)
      readPosition := 0
      bufferLength := size })
  else (true, f)

/-- `none` stands for `SR_BLOCK`. -/
def readOffset (bytes offset : Nat) : Option (List Byte) :=
  if f.dataLength ≤ offset then none
  else
    let readPosition := (f.readPosition + offset) % f.bufferLength
    let copy := min bytes (f.dataLength - offset)
    let tailCopy := min copy (f.bufferLength - readPosition)
    some (f.buffer.bytes readPosition tailCopy ++ f.buffer.bytes 0 (copy - tailCopy))

def writeOffset (data : Mem) (bytes offset : Nat) : Option (Nat × FifoBuffer) :=
  if f.bufferLength ≤ f.dataLength + offset then none
  else
    let writePosition := (f.readPosition + f.dataLength + offset) % f.bufferLength
    let copy := min bytes (f.bufferLength - f.dataLength - offset)
    let tailCopy := min copy (f.bufferLength - writePosition)
    some (copy, { f with
      buffer := (f.buffer.copy writePosition data 0 tailCopy).copy 0 data tailCopy
        (copy - tailCopy) })

def consumeReadData (size : Nat) : FifoBuffer :=
  { f with
    readPosition := (f.readPosition + size) % f.bufferLength
    dataLength := f.dataLength - size }

def consumeWriteBuffer (size : Nat) : FifoBuffer :=
  { f with dataLength := f.dataLength + size }

def read (bytes : Nat) : Option (List Byte × FifoBuffer) :=
  (f.readOffset bytes 0).map fun data => (data, f.consumeReadData data.length)

/-- The number of bytes written. -/
def write (data : Mem) (bytes : Nat) : Nat × FifoBuffer :=
  match f.writeOffset data bytes 0 with
  | none => (0, f)
  | some (copy, f) => (copy, f.consumeWriteBuffer copy)

/-- What fits is written. -/
theorem write_lengths {f : FifoBuffer} {bytes : Nat} (data : Mem)
    (h : bytes ≤ f.bufferLength - f.dataLength) :
    (f.write data bytes).2.dataLength = f.dataLength + bytes ∧
      (f.write data bytes).2.bufferLength = f.bufferLength := by
  unfold write writeOffset
  by_cases hfull : f.bufferLength ≤ f.dataLength + 0
  · rw [if_pos hfull]
    exact ⟨by dsimp only; omega, rfl⟩
  · rw [if_neg hfull]
    have hcopy : min bytes (f.bufferLength - f.dataLength - 0) = bytes := by omega
    refine ⟨?_, rfl⟩
    show f.dataLength + min bytes (f.bufferLength - f.dataLength - 0) = _
    rw [hcopy]

theorem setCapacity_lengths {f : FifoBuffer} {size : Nat} (h : f.dataLength ≤ size) :
    (f.setCapacity size).2.dataLength = f.dataLength ∧
      (f.setCapacity size).2.bufferLength = size := by
  unfold setCapacity
  rw [if_neg (Nat.not_lt.mpr h)]
  by_cases hsize : size ≠ f.bufferLength
  · rw [if_pos hsize]
    exact ⟨rfl, rfl⟩
  · rw [if_neg hsize]
    exact ⟨rfl, (not_not.mp hsize).symm⟩

end FifoBuffer

end PerchWebrtc.Tcp
