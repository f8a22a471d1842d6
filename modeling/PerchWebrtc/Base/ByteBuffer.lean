import PerchWebrtc.Framework.ByteOrder

/-!
# A byte buffer in its allocation

`ByteBuffer` (`bytebuffer.cc`) with its offsets into one allocation, on a host of either
endianness (`byteorder.h`). A destination is given as whether it is not null.

* `stream_resize`, `stream_put`: what is in front of the end after a move or a write;
* `writeUInt_eq`, `readUInt_of_le`: the numbers of every width as bytes;
* `readUInt_encode`: a number that is read as it was written.
-/

namespace PerchWebrtc.Base

/-- What a program sees of the machine: its endianness, and what a new allocation holds. -/
structure Host where
  bigEndian : Bool
  garbage : ℕ → ℕ → Byte

namespace Host

variable (host : Host)

/-- A variable of `n` bytes in memory. -/
def store (n v : ℕ) : List Byte := encode host.bigEndian n v

def load (bytes : List Byte) : ℕ := decode host.bigEndian bytes

def hostToNetwork (n v : ℕ) : ℕ := host.load (bytesBE n v)

def networkToHost (n v : ℕ) : ℕ := natBE (host.store n v)

def allocate (allocation size : ℕ) : List Byte := (List.range size).map (host.garbage allocation)

@[simp] theorem length_allocate (allocation size : ℕ) :
    (host.allocate allocation size).length = size := by
  simp [allocate]

theorem store_hostToNetwork (n v : ℕ) : host.store n (host.hostToNetwork n v) = bytesBE n v := by
  have h := encode_decode host.bigEndian (bytesBE n v)
  rwa [length_bytesBE] at h

theorem networkToHost_load (bytes : List Byte) :
    host.networkToHost bytes.length (host.load bytes) = natBE bytes :=
  congrArg natBE (encode_decode host.bigEndian bytes)

end Host

inductive ByteOrder where
  | network
  | host
  deriving DecidableEq

/-- The bytes of an allocation with `source` copied to an offset of it. -/
def memcpy (bytes : List Byte) (offset : ℕ) (source : List Byte) : List Byte :=
  bytes.take offset ++ source ++ bytes.drop (offset + source.length)

theorem length_memcpy {bytes source : List Byte} {offset : ℕ}
    (h : offset + source.length ≤ bytes.length) :
    (memcpy bytes offset source).length = bytes.length := by
  simp only [memcpy, List.length_append, List.length_take, List.length_drop]
  omega

theorem take_memcpy {bytes : List Byte} {offset : ℕ} (source : List Byte)
    (h : offset ≤ bytes.length) :
    (memcpy bytes offset source).take (offset + source.length) = bytes.take offset ++ source := by
  have hlength : (bytes.take offset ++ source).length = offset + source.length := by
    rw [List.length_append, List.length_take, min_eq_left h]
  rw [memcpy, ← hlength, List.take_left]

/-- The length of the allocation is `size_`. -/
structure ByteBuffer where
  bytes : List Byte
  start : ℕ
  end_ : ℕ
  version : BitVec 32
  byteOrder : ByteOrder
  deriving DecidableEq

structure ReadPosition where
  start : ℕ
  version : BitVec 32
  deriving DecidableEq

def DEFAULT_SIZE : ℕ := 4096

namespace ByteBuffer

variable (host : Host) (b : ByteBuffer)

/-- `bytes` that are not there are a null pointer. -/
def construct (bytes : Option (List Byte)) (len : ℕ) (byteOrder : ByteOrder) : ByteBuffer :=
  match bytes with
  | some bytes => ⟨memcpy (host.allocate 0 len) 0 (bytes.take len), 0, len, 0, byteOrder⟩
  | none => ⟨host.allocate 0 len, 0, 0, 0, byteOrder⟩

/-- The constructors. -/
def new (bytes : Option (List Byte)) (byteOrder : ByteOrder) : ByteBuffer :=
  match bytes with
  | some bytes => construct host (some bytes) bytes.length byteOrder
  | none => construct host none DEFAULT_SIZE byteOrder

def length : ℕ := b.end_ - b.start

def capacity : ℕ := b.bytes.length - b.start

/-- The `length` bytes that `Data()` points to. -/
def data : List Byte := (b.bytes.drop b.start).take b.length

def resize (size : ℕ) : ByteBuffer :=
  let len := min (b.end_ - b.start) size
  let source := (b.bytes.drop b.start).take len
  let bytes :=
    if size ≤ b.bytes.length then memcpy b.bytes 0 source
    else memcpy (host.allocate (b.version + 1).toNat (max size (3 * b.bytes.length / 2))) 0 source
  { b with bytes, start := 0, end_ := len, version := b.version + 1 }

/-- The buffer, and the offset at which the caller may write. -/
def reserveWriteBuffer (len : ℕ) : ByteBuffer × ℕ :=
  let b := if b.length + len > b.capacity then b.resize host (b.length + len) else b
  ({ b with end_ := b.end_ + len }, b.end_)

def writeBytes (val : List Byte) : ByteBuffer :=
  let (b, start) := b.reserveWriteBuffer host val.length
  { b with bytes := memcpy b.bytes start val }

def writeString (val : List Byte) : ByteBuffer := b.writeBytes host val

def writeUInt8 (val : BitVec 8) : ByteBuffer := b.writeBytes host (host.store 1 val.toNat)

def writeUIntOf (n : ℕ) (val : ℕ) : ByteBuffer :=
  let v := if b.byteOrder = .network then host.hostToNetwork n val else val
  b.writeBytes host (host.store n v)

def writeUInt16 (val : BitVec 16) : ByteBuffer := b.writeUIntOf host 2 val.toNat

/-- Three of the bytes of a variable of four. -/
def writeUInt24 (val : BitVec 32) : ByteBuffer :=
  let v := if b.byteOrder = .network then host.hostToNetwork 4 val.toNat else val.toNat
  let start := if b.byteOrder = .network ∨ host.bigEndian then 1 else 0
  b.writeBytes host (((host.store 4 v).drop start).take 3)

def writeUInt32 (val : BitVec 32) : ByteBuffer := b.writeUIntOf host 4 val.toNat

def writeUInt64 (val : BitVec 64) : ByteBuffer := b.writeUIntOf host 8 val.toNat

/-- What a read copies; nothing is copied where it fails. -/
def readBytes (len : ℕ) : ByteBuffer × Option (List Byte) :=
  if len > b.length then (b, none)
  else ({ b with start := b.start + len }, some ((b.bytes.drop b.start).take len))

/-- The bytes are appended to the string. -/
def readString (val : Option (List Byte)) (len : ℕ) : ByteBuffer × Option (List Byte) :=
  match val with
  | none => (b, none)
  | some val =>
    if len > b.length then (b, none)
    else ({ b with start := b.start + len }, some (val ++ (b.bytes.drop b.start).take len))

def readUInt8 (val : Bool) : ByteBuffer × Option (BitVec 8) :=
  if !val then (b, none)
  else ((b.readBytes 1).1, (b.readBytes 1).2.map fun v => BitVec.ofNat 8 (host.load v))

def readUIntOf (n w : ℕ) (val : Bool) : ByteBuffer × Option (BitVec w) :=
  if !val then (b, none)
  else
    match b.readBytes n with
    | (b, none) => (b, none)
    | (b, some v) =>
      let v := host.load v
      (b, some (BitVec.ofNat w (if b.byteOrder = .network then host.networkToHost n v else v)))

def readUInt16 (val : Bool) : ByteBuffer × Option (BitVec 16) := b.readUIntOf host 2 16 val

def readUInt24 (val : Bool) : ByteBuffer × Option (BitVec 32) :=
  if !val then (b, none)
  else
    let v := host.store 4 0
    let readInto := if b.byteOrder = .network ∨ host.bigEndian then 1 else 0
    match b.readBytes 3 with
    | (b, none) => (b, none)
    | (b, some bytes) =>
      let v := host.load (memcpy v readInto bytes)
      (b, some (BitVec.ofNat 32 (if b.byteOrder = .network then host.networkToHost 4 v else v)))

def readUInt32 (val : Bool) : ByteBuffer × Option (BitVec 32) := b.readUIntOf host 4 32 val

def readUInt64 (val : Bool) : ByteBuffer × Option (BitVec 64) := b.readUIntOf host 8 64 val

def consume (size : ℕ) : ByteBuffer × Bool :=
  if size > b.length then (b, false) else ({ b with start := b.start + size }, true)

def getReadPosition : ReadPosition := ⟨b.start, b.version⟩

def setReadPosition (position : ReadPosition) : ByteBuffer × Bool :=
  if position.version ≠ b.version then (b, false) else ({ b with start := position.start }, true)

def clear : ByteBuffer :=
  { b with
    bytes := List.replicate b.bytes.length 0
    start := 0
    end_ := 0
    version := b.version + 1 }

/-! ## The bytes in front of the end -/

structure Valid : Prop where
  start_le : b.start ≤ b.end_
  end_le : b.end_ ≤ b.bytes.length

/-- The bytes since the last move, read or not. -/
def stream : List Byte := b.bytes.take b.end_

/-- A write of `len` bytes does not fit behind the end. -/
def moves (len : ℕ) : Bool := b.length + len > b.capacity

/-- What a read of `len` bytes leaves. -/
def advance (len : ℕ) : ByteBuffer := { b with start := b.start + len }

/-- Bytes are copied behind the end. -/
def put (val : List Byte) : ByteBuffer :=
  { b with bytes := memcpy b.bytes b.end_ val, end_ := b.end_ + val.length }

variable {b host} {len size : ℕ} {val : List Byte}

theorem data_eq : b.data = b.stream.drop b.start := by rw [data, stream, List.drop_take, length]

theorem length_data (h : b.Valid) : b.data.length = b.length := by
  have hle := h.end_le
  simp only [data, length, List.length_take, List.length_drop]
  omega

theorem length_stream (h : b.Valid) : b.stream.length = b.end_ := by
  rw [stream, List.length_take, min_eq_left h.end_le]

/-- Where the bytes are that a resize keeps. -/
theorem resize_bytes (b : ByteBuffer) (host : Host) (size : ℕ) :
    ∃ bytes : List Byte, size ≤ bytes.length ∧
      b.resize host size = ⟨memcpy bytes 0 (b.data.take size), 0, min b.length size,
        b.version + 1, b.byteOrder⟩ := by
  have hsource : (b.bytes.drop b.start).take (min (b.end_ - b.start) size) = b.data.take size := by
    rw [data, List.take_take, min_comm, length]
  rw [resize, hsource]
  split
  case isTrue hfits => exact ⟨b.bytes, hfits, rfl⟩
  case isFalse =>
    refine ⟨host.allocate (b.version + 1).toNat (max size (3 * b.bytes.length / 2)), ?_, rfl⟩
    rw [Host.length_allocate]
    exact le_max_left _ _

theorem length_take_data (h : b.Valid) : (b.data.take size).length = min b.length size := by
  rw [List.length_take, length_data h, min_comm]

theorem stream_resize (h : b.Valid) : (b.resize host size).stream = b.data.take size := by
  obtain ⟨bytes, -, hresize⟩ := resize_bytes b host size
  have htake := take_memcpy (b.data.take size) (Nat.zero_le bytes.length)
  rw [length_take_data h, Nat.zero_add, List.take_zero, List.nil_append] at htake
  rw [hresize]
  exact htake

theorem size_le_resize (h : b.Valid) : size ≤ (b.resize host size).bytes.length := by
  obtain ⟨bytes, hsize, hresize⟩ := resize_bytes b host size
  rw [hresize]
  show size ≤ (memcpy bytes 0 (b.data.take size)).length
  rw [length_memcpy]
  · exact hsize
  · rw [length_take_data h]
    omega

theorem end_resize : (b.resize host size).end_ = min b.length size := rfl

theorem Valid.resize (h : b.Valid) : (b.resize host size).Valid where
  start_le := Nat.zero_le _
  end_le := (min_le_right _ _).trans (size_le_resize h)

theorem stream_put (h : b.Valid) : (b.put val).stream = b.stream ++ val :=
  take_memcpy val h.end_le

theorem Valid.put (h : b.Valid) (hfits : b.end_ + val.length ≤ b.bytes.length) :
    (b.put val).Valid where
  start_le := h.start_le.trans (Nat.le_add_right _ _)
  end_le := hfits.trans_eq (length_memcpy hfits).symm

theorem writeBytes_of_fits (hfits : ¬ b.moves val.length) :
    b.writeBytes host val = b.put val := by
  rw [writeBytes, reserveWriteBuffer, if_neg (by simpa [moves] using hfits)]
  rfl

theorem writeBytes_of_moves (hmoves : b.moves val.length) :
    b.writeBytes host val = (b.resize host (b.length + val.length)).put val := by
  rw [writeBytes, reserveWriteBuffer, if_pos (by simpa [moves] using hmoves)]
  rfl

theorem fits_of_not_moves (h : b.Valid) (hfits : ¬ b.moves len) :
    b.end_ + len ≤ b.bytes.length := by
  have hstart := h.start_le
  have hend := h.end_le
  have hroom : b.length + len ≤ b.capacity := by simpa [moves] using hfits
  rw [length, capacity] at hroom
  omega

theorem fits_resize (h : b.Valid) :
    (b.resize host (b.length + len)).end_ + len ≤
      (b.resize host (b.length + len)).bytes.length := by
  have hsize : b.length + len ≤ (b.resize host (b.length + len)).bytes.length := size_le_resize h
  rw [end_resize]
  omega

theorem Valid.writeBytes (h : b.Valid) : (b.writeBytes host val).Valid := by
  by_cases hmoves : b.moves val.length
  · rw [writeBytes_of_moves hmoves]
    exact h.resize.put (fits_resize h)
  · rw [writeBytes_of_fits hmoves]
    exact h.put (fits_of_not_moves h hmoves)

theorem Valid.advance (h : b.Valid) (hle : len ≤ b.length) : (b.advance len).Valid where
  start_le := by
    have hstart := h.start_le
    rw [length] at hle
    show b.start + len ≤ b.end_
    omega
  end_le := h.end_le

theorem data_advance : (b.advance len).data = b.data.drop len := by
  rw [data_eq, data_eq, List.drop_drop]
  rfl

theorem take_data (hle : len ≤ b.length) :
    (b.bytes.drop b.start).take len = b.data.take len := by
  rw [data, List.take_take, min_eq_left hle]

theorem readBytes_of_le (hle : len ≤ b.length) :
    b.readBytes len = (b.advance len, some (b.data.take len)) := by
  rw [readBytes, if_neg (Nat.not_lt.mpr hle), take_data hle]
  rfl

theorem readBytes_of_lt (hlt : b.length < len) : b.readBytes len = (b, none) := if_pos hlt

theorem readString_of_le (hle : len ≤ b.length) :
    b.readString (some val) len = (b.advance len, some (val ++ b.data.take len)) := by
  rw [readString, if_neg (Nat.not_lt.mpr hle), take_data hle]
  rfl

theorem readString_of_lt (hlt : b.length < len) : b.readString (some val) len = (b, none) :=
  if_pos hlt

theorem consume_of_le (hle : size ≤ b.length) : b.consume size = (b.advance size, true) :=
  if_neg (Nat.not_lt.mpr hle)

theorem consume_of_lt (hlt : b.length < size) : b.consume size = (b, false) := if_pos hlt

end ByteBuffer

/-! ## Numbers -/

/-- The widths of the numbers in a buffer. -/
inductive Width where
  | uint8
  | uint16
  | uint24
  | uint32
  | uint64
  deriving DecidableEq

namespace Width

/-- The bytes in the buffer. -/
def size : Width → ℕ
  | uint8 => 1
  | uint16 => 2
  | uint24 => 3
  | uint32 => 4
  | uint64 => 8

/-- The bits of the argument; 24-bit numbers are given as `uint32`. -/
def bits : Width → ℕ
  | uint8 => 8
  | uint16 => 16
  | uint24 => 32
  | uint32 => 32
  | uint64 => 64

/-- What the buffer keeps of a number. -/
def kept : (width : Width) → BitVec width.bits → BitVec width.bits
  | uint24, val => BitVec.ofNat 32 (val.toNat % 2 ^ 24)
  | uint8, val | uint16, val | uint32, val | uint64, val => val

theorem size_le_bits (width : Width) : 256 ^ width.size ≤ 2 ^ width.bits := by
  cases width <;> decide

theorem ofNat_mod_size (width : Width) (val : BitVec width.bits) :
    BitVec.ofNat width.bits (val.toNat % 256 ^ width.size) = width.kept val := by
  have hlt := val.isLt
  cases width with
  | uint24 => rfl
  | uint8 | uint16 | uint32 | uint64 =>
    show BitVec.ofNat _ (val.toNat % _) = val
    rw [Nat.mod_eq_of_lt (by exact hlt), BitVec.ofNat_toNat, BitVec.setWidth_eq]

end Width

namespace ByteBuffer

variable (host : Host) (b : ByteBuffer)

def writeUInt : (width : Width) → BitVec width.bits → ByteBuffer
  | .uint8, val => b.writeUInt8 host val
  | .uint16, val => b.writeUInt16 host val
  | .uint24, val => b.writeUInt24 host val
  | .uint32, val => b.writeUInt32 host val
  | .uint64, val => b.writeUInt64 host val

def readUInt (val : Bool) : (width : Width) → ByteBuffer × Option (BitVec width.bits)
  | .uint8 => b.readUInt8 host val
  | .uint16 => b.readUInt16 host val
  | .uint24 => b.readUInt24 host val
  | .uint32 => b.readUInt32 host val
  | .uint64 => b.readUInt64 host val

/-- The numbers in the buffer are big-endian. -/
def big : Bool := b.byteOrder = .network ∨ host.bigEndian

variable {host b}

theorem big_of_network (horder : b.byteOrder = .network) : b.big host = true := by simp [big, horder]

theorem big_of_host (horder : b.byteOrder ≠ .network) : b.big host = host.bigEndian := by
  simp [big, horder]

/-- The bytes of the variable that a number is written from. -/
theorem store_written (b : ByteBuffer) (host : Host) (n val : ℕ) :
    host.store n (if b.byteOrder = .network then host.hostToNetwork n val else val) =
      encode (b.big host) n val := by
  by_cases horder : b.byteOrder = .network
  · rw [if_pos horder, big_of_network horder, Host.store_hostToNetwork]
    rfl
  · rw [if_neg horder, big_of_host horder]
    rfl

/-- The number in the variable that bytes are read to. -/
theorem load_read (b : ByteBuffer) (host : Host) (bytes : List Byte) :
    (if b.byteOrder = .network then host.networkToHost bytes.length (host.load bytes)
      else host.load bytes) = decode (b.big host) bytes := by
  by_cases horder : b.byteOrder = .network
  · rw [if_pos horder, big_of_network horder, Host.networkToHost_load]
    rfl
  · rw [if_neg horder, big_of_host horder]
    rfl

/-- The three low bytes of a number of four. -/
theorem low_encode (big : Bool) (val : ℕ) :
    ((encode big 4 val).drop (if big then 1 else 0)).take 3 = encode big 3 val := by
  cases big with
  | true =>
    show ((bytesBE 4 val).drop (4 - 3)).take 3 = bytesBE 3 val
    rw [drop_bytesBE val (by decide), List.take_of_length_le (length_bytesBE 3 val).le]
  | false => exact take_bytesLE val (by decide)

/-- A number of four whose high byte is zero. -/
theorem decode_low (big : Bool) {zeros bytes : List Byte} (hzeros : zeros = List.replicate 4 0)
    (hbytes : bytes.length = 3) :
    decode big (memcpy zeros (if big then 1 else 0) bytes) = decode big bytes := by
  subst hzeros
  cases big with
  | true =>
    show natBE (memcpy (List.replicate 4 0) 1 bytes) = natBE bytes
    rw [memcpy, hbytes]
    show natBE ([0] ++ bytes ++ []) = natBE bytes
    rw [List.append_nil]
    exact natBE_zeros_append bytes 1
  | false =>
    show natLE (memcpy (List.replicate 4 0) 0 bytes) = natLE bytes
    rw [memcpy, hbytes]
    exact natLE_append_zeros bytes 1

theorem writeUInt24_eq (b : ByteBuffer) (host : Host) (val : BitVec 32) :
    b.writeUInt24 host val = b.writeBytes host (encode (b.big host) 3 val.toNat) := by
  have hlow := low_encode (b.big host) val.toNat
  rw [← store_written b host 4] at hlow
  rw [← hlow]
  simp [writeUInt24, big]

theorem writeUInt_eq (width : Width) (val : BitVec width.bits) :
    b.writeUInt host width val =
      b.writeBytes host (encode (b.big host) width.size val.toNat) := by
  cases width with
  | uint8 =>
    have hbyte : host.store 1 val.toNat = encode (b.big host) 1 val.toNat := by
      rw [Host.store, encode_one, encode_one]
    exact congrArg (b.writeBytes host) hbyte
  | uint16 | uint32 | uint64 => exact congrArg (b.writeBytes host) (store_written b host _ _)
  | uint24 => exact writeUInt24_eq b host val

theorem decode_singleton (big : Bool) (byte : Byte) : decode big [byte] = byte.toNat := by
  cases big <;> simp [decode, natBE, natLE]

theorem readUInt8_of_lt (hlt : b.length < 1) : b.readUInt8 host true = (b, none) := by
  rw [readUInt8, readBytes_of_lt hlt]
  rfl

theorem readUInt8_of_le (h : b.Valid) (hle : 1 ≤ b.length) :
    b.readUInt8 host true =
      (b.advance 1, some (BitVec.ofNat 8 (decode (b.big host) (b.data.take 1)))) := by
  have hone : (b.data.take 1).length = 1 := by rw [length_take_data h, min_eq_right hle]
  obtain ⟨byte, hbyte⟩ := List.length_eq_one_iff.mp hone
  rw [readUInt8, readBytes_of_le hle, hbyte, decode_singleton]
  show (b.advance 1, some (BitVec.ofNat 8 (decode host.bigEndian [byte]))) = _
  rw [decode_singleton]

theorem readUIntOf_of_lt {n : ℕ} (hlt : b.length < n) (w : ℕ) :
    b.readUIntOf host n w true = (b, none) := by
  rw [readUIntOf, readBytes_of_lt hlt]
  rfl

theorem readUIntOf_of_le {n : ℕ} (h : b.Valid) (hle : n ≤ b.length) (w : ℕ) :
    b.readUIntOf host n w true =
      (b.advance n, some (BitVec.ofNat w (decode (b.big host) (b.data.take n)))) := by
  have hload := load_read b host (b.data.take n)
  rw [length_take_data h, min_eq_right hle] at hload
  rw [readUIntOf, readBytes_of_le hle, ← hload]
  rfl

theorem readUInt24_of_lt (hlt : b.length < 3) : b.readUInt24 host true = (b, none) := by
  rw [readUInt24, readBytes_of_lt hlt]
  rfl

theorem readUInt24_of_le (h : b.Valid) (hle : 3 ≤ b.length) :
    b.readUInt24 host true =
      (b.advance 3, some (BitVec.ofNat 32 (decode (b.big host) (b.data.take 3)))) := by
  have hthree : (b.data.take 3).length = 3 := by rw [length_take_data h, min_eq_right hle]
  have hzeros : host.store 4 0 = List.replicate 4 0 := by
    rw [Host.store]
    cases host.bigEndian <;> rfl
  have hoffset : (if b.byteOrder = .network ∨ host.bigEndian then 1 else 0) =
      if b.big host then 1 else 0 := by
    simp [big]
  have hlow := decode_low (b.big host) hzeros hthree
  rw [← load_read b host (memcpy _ _ _), length_memcpy (by rw [hzeros, hthree]; split <;> decide),
    hzeros, List.length_replicate, ← hoffset] at hlow
  rw [readUInt24, readBytes_of_le hle, ← hlow, hzeros]
  rfl

/-- A read fails where bytes are missing or the destination is null. -/
theorem readUInt_eq_none {width : Width} {val : Bool} (hfails : b.length < width.size ∨ val = false) :
    b.readUInt host val width = (b, none) := by
  cases val with
  | false => cases width <;> rfl
  | true =>
    have hlt : b.length < width.size := hfails.resolve_right (by decide)
    cases width with
    | uint8 => exact readUInt8_of_lt hlt
    | uint24 => exact readUInt24_of_lt hlt
    | uint16 | uint32 | uint64 => exact readUIntOf_of_lt hlt _

theorem readUInt_of_le {width : Width} (h : b.Valid) (hle : width.size ≤ b.length) :
    b.readUInt host true width = (b.advance width.size,
      some (BitVec.ofNat width.bits (decode (b.big host) (b.data.take width.size)))) := by
  cases width with
  | uint8 => exact readUInt8_of_le h hle
  | uint24 => exact readUInt24_of_le h hle
  | uint16 | uint32 | uint64 => exact readUIntOf_of_le h hle _

/-- A number that is in front is read as it was written, without what the buffer does not keep. -/
theorem readUInt_encode {width : Width} {val : BitVec width.bits} {rest : List Byte} (h : b.Valid)
    (hdata : b.data = encode (b.big host) width.size val.toNat ++ rest) :
    b.readUInt host true width = (b.advance width.size, some (width.kept val)) ∧
      (b.advance width.size).data = rest := by
  have hlength : (encode (b.big host) width.size val.toNat).length = width.size := length_encode _ _ _
  have hle : width.size ≤ b.length := by
    rw [← length_data h, hdata, List.length_append, hlength]
    exact Nat.le_add_right _ _
  constructor
  · rw [readUInt_of_le h hle, hdata, List.take_left' hlength, decode_encode, Width.ofNat_mod_size]
  · rw [data_advance, hdata, List.drop_left' hlength]

end ByteBuffer

end PerchWebrtc.Base
