import PerchWebrtc.Framework.Machine
import PerchWebrtc.Base.ByteBuffer

/-!
# A byte buffer as a queue of bytes

What `ByteBuffer` (`bytebuffer.cc`) is for: a queue of bytes from which saved positions may be
restored until the bytes move in memory. A position is one of the same buffer.

* `Queue.saved_run`: what a saved position exposes after calls that do not move the bytes;
* `queue_move`, `queue_keep`: what a buffer that is moved or not stands for;
* `call_refines`: one call;
* `refines_queue`: runs in which the counter of the moves does not overflow.
-/

namespace PerchWebrtc.Base

/-- A position is given by how many were saved before it. -/
inductive Call where
  | writeUInt (width : Width) (val : BitVec width.bits)
  | writeBytes (val : List Byte)
  | writeString (val : List Byte)
  | readUInt (width : Width) (val : Bool)
  | readBytes (len : ℕ)
  | readString (val : Option (List Byte)) (len : ℕ)
  | consume (size : ℕ)
  | resize (size : ℕ)
  | clear
  | getReadPosition
  | setReadPosition (position : ℕ)

/-- What a call gives: nothing where it cannot fail, no bytes and no number where it fails. -/
inductive Result where
  | done
  | bytes (val : Option (List Byte))
  | number (val : Option ℕ)
  | success (val : Bool)
  deriving DecidableEq

def Result.Failed : Result → Prop
  | done => False
  | bytes val => val = none
  | number val => val = none
  | success val => val = false

def Call.written (big : Bool) : Call → List Byte
  | writeUInt width val => encode big width.size val.toNat
  | writeBytes val => val
  | writeString val => val
  | _ => []

/-! ## The queue -/

/-- The bytes that are not read yet, and those that each saved position exposes if it still can. -/
structure Queue where
  big : Bool
  unread : List Byte := []
  saved : List (Option (List Byte)) := []
  deriving DecidableEq

namespace Queue

variable (q : Queue)

/-- The bytes move in memory. -/
def move (unread : List Byte) : Queue := { q with unread, saved := q.saved.map fun _ => none }

def write (moves : Bool) (val : List Byte) : Queue :=
  if moves then q.move (q.unread ++ val)
  else { q with
    unread := q.unread ++ val
    saved := q.saved.map (Option.map (· ++ val)) }

def read (len : ℕ) : Queue × Option (List Byte) :=
  if len > q.unread.length then (q, none)
  else ({ q with unread := q.unread.drop len }, some (q.unread.take len))

def save : Queue := { q with saved := q.saved ++ [some q.unread] }

def restore (position : ℕ) : Queue × Bool :=
  match q.saved[position]? with
  | some (some unread) => ({ q with unread }, true)
  | some none | none => (q, false)

/-- A write may move the bytes. -/
def call (moves : Bool) : Call → Queue × Result
  | .writeUInt width val => (q.write moves (encode q.big width.size val.toNat), .done)
  | .writeBytes val => (q.write moves val, .done)
  | .writeString val => (q.write moves val, .done)
  | .readUInt width val =>
    if val then ((q.read width.size).1, .number ((q.read width.size).2.map (decode q.big)))
    else (q, .number none)
  | .readBytes len => ((q.read len).1, .bytes (q.read len).2)
  | .readString none _ => (q, .bytes none)
  | .readString (some val) len => ((q.read len).1, .bytes ((q.read len).2.map (val ++ ·)))
  | .consume size => ((q.read size).1, .success (q.read size).2.isSome)
  | .resize size => (q.move (q.unread.take size), .done)
  | .clear => (q.move [], .done)
  | .getReadPosition => (q.save, .done)
  | .setReadPosition position => ((q.restore position).1, .success (q.restore position).2)

def step (q : Queue) (input : Bool × Call) : Queue := (q.call input.1 input.2).1

variable {q} {len : ℕ} {position : ℕ} {rest : List Byte}

theorem read_of_le (hle : len ≤ q.unread.length) :
    q.read len = ({ q with unread := q.unread.drop len }, some (q.unread.take len)) :=
  if_neg (Nat.not_lt.mpr hle)

theorem read_of_lt (hlt : q.unread.length < len) : q.read len = (q, none) := if_pos hlt

/-- Reading leaves the saved positions. -/
theorem saved_read : (q.read len).1.saved = q.saved := by
  rw [read]
  split <;> rfl

theorem saved_restore : (q.restore position).1.saved = q.saved := by
  rw [restore]
  split <;> rfl

theorem big_call (moves : Bool) (call : Call) : (q.call moves call).1.big = q.big := by
  have hwrite : ∀ val, (q.write moves val).big = q.big := by
    intro val
    rw [write]
    split <;> rfl
  have hread : ∀ len, (q.read len).1.big = q.big := by
    intro len
    rw [read]
    split <;> rfl
  cases call with
  | writeUInt width val => exact hwrite _
  | writeBytes val | writeString val => exact hwrite _
  | readUInt width val =>
    cases val with
    | true => exact hread _
    | false => rfl
  | readBytes len | consume len => exact hread _
  | readString val len =>
    cases val with
    | none => rfl
    | some val => exact hread _
  | resize size => rfl
  | clear => rfl
  | getReadPosition => rfl
  | setReadPosition position =>
    show (q.restore position).1.big = q.big
    rw [restore]
    split <;> rfl

/-- A call that does not move the bytes leaves what a position exposes, and what it writes behind. -/
theorem saved_call {call : Call} {moves : Bool} (hsaved : q.saved[position]? = some (some rest))
    (hstays : moves = false) (hkeeps : ∀ size, call ≠ .resize size) (hclear : call ≠ .clear) :
    (q.call moves call).1.saved[position]? = some (some (rest ++ call.written q.big)) := by
  subst hstays
  have hwrite : ∀ val, (q.write false val).saved[position]? = some (some (rest ++ val)) := by
    intro val
    show (q.saved.map (Option.map (· ++ val)))[position]? = _
    rw [List.getElem?_map, hsaved]
    rfl
  have hnothing : q.saved[position]? = some (some (rest ++ [])) := by rw [hsaved, List.append_nil]
  have hread : ∀ len, (q.read len).1.saved[position]? = some (some (rest ++ [])) := by
    intro len
    rw [saved_read]
    exact hnothing
  cases call with
  | writeUInt width val => exact hwrite _
  | writeBytes val | writeString val => exact hwrite _
  | readUInt width val =>
    cases val with
    | true => exact hread _
    | false => exact hnothing
  | readBytes len | consume len => exact hread _
  | readString val len =>
    cases val with
    | none => exact hnothing
    | some val => exact hread _
  | resize size => exact absurd rfl (hkeeps size)
  | clear => exact absurd rfl hclear
  | getReadPosition =>
    have hlt : position < q.saved.length := (List.getElem?_eq_some_iff.mp hsaved).1
    show (q.saved ++ [some q.unread])[position]? = _
    rw [List.getElem?_append_left hlt]
    exact hnothing
  | setReadPosition other =>
    show (q.restore other).1.saved[position]? = _
    rw [saved_restore]
    exact hnothing

theorem restore_of_saved (hsaved : q.saved[position]? = some (some rest)) :
    q.restore position = ({ q with unread := rest }, true) := by
  rw [restore, hsaved]

end Queue

/-! ## Buffers with their saved positions -/

structure Session where
  buffer : ByteBuffer
  positions : List ReadPosition := []
  deriving DecidableEq

namespace Session

variable (host : Host) (s : Session)

def new (bytes : Option (List Byte)) (byteOrder : ByteOrder) : Session :=
  { buffer := .new host bytes byteOrder }

/-- A position that was not saved cannot be given. -/
def call : Call → Session × Result
  | .writeUInt width val => ({ s with buffer := s.buffer.writeUInt host width val }, .done)
  | .writeBytes val => ({ s with buffer := s.buffer.writeBytes host val }, .done)
  | .writeString val => ({ s with buffer := s.buffer.writeString host val }, .done)
  | .readUInt width val =>
    ({ s with buffer := (s.buffer.readUInt host val width).1 },
      .number ((s.buffer.readUInt host val width).2.map BitVec.toNat))
  | .readBytes len =>
    ({ s with buffer := (s.buffer.readBytes len).1 }, .bytes (s.buffer.readBytes len).2)
  | .readString val len =>
    ({ s with buffer := (s.buffer.readString val len).1 }, .bytes (s.buffer.readString val len).2)
  | .consume size =>
    ({ s with buffer := (s.buffer.consume size).1 }, .success (s.buffer.consume size).2)
  | .resize size => ({ s with buffer := s.buffer.resize host size }, .done)
  | .clear => ({ s with buffer := s.buffer.clear }, .done)
  | .getReadPosition => ({ s with positions := s.positions ++ [s.buffer.getReadPosition] }, .done)
  | .setReadPosition position =>
    match s.positions[position]? with
    | some position =>
      ({ s with buffer := (s.buffer.setReadPosition position).1 },
        .success (s.buffer.setReadPosition position).2)
    | none => (s, .success false)

def step (s : Session) (call : Call) : Session := (s.call host call).1

/-- The call moves the bytes in memory. -/
def moves : Call → Bool
  | .writeUInt width _ => s.buffer.moves width.size
  | .writeBytes val => s.buffer.moves val.length
  | .writeString val => s.buffer.moves val.length
  | .resize _ => true
  | .clear => true
  | _ => false

/-- The queue that a buffer stands for. -/
def queue : Queue where
  big := s.buffer.big host
  unread := s.buffer.data
  saved := s.positions.map fun position =>
    if position.version = s.buffer.version then some (s.buffer.stream.drop position.start) else none

/-- The counter does not overflow in the call: it is none of those that move the bytes, or fewer
than 2^31 - 1 came before it. -/
def Counts (call : Call) : Prop := s.moves call = true → s.buffer.version.toNat + 1 < 2 ^ 31

instance (s : Session) (call : Call) : Decidable (s.Counts call) :=
  inferInstanceAs (Decidable (_ → _))

structure Valid : Prop where
  buffer : s.buffer.Valid
  version_le : ∀ position ∈ s.positions, position.version.toNat ≤ s.buffer.version.toNat
  start_le : ∀ position ∈ s.positions, position.version = s.buffer.version →
    position.start ≤ s.buffer.end_

/-! ## One call -/

variable {s host} {b : ByteBuffer} {len : ℕ} {call : Call}

/-- A position that was saved before a move is not one of the moved buffer. -/
theorem Valid.version_lt (h : s.Valid) (hcount : s.buffer.version.toNat + 1 < 2 ^ 31)
    (hversion : b.version = s.buffer.version + 1) {position : ReadPosition}
    (hposition : position ∈ s.positions) : position.version.toNat < b.version.toNat := by
  have hle := h.version_le position hposition
  have hnext : (s.buffer.version + 1).toNat = s.buffer.version.toNat + 1 := by
    rw [BitVec.toNat_add]
    exact Nat.mod_eq_of_lt (hcount.trans (by decide))
  rw [hversion, hnext]
  exact Nat.lt_succ_of_le hle

theorem queue_move (h : s.Valid) (hcount : s.buffer.version.toNat + 1 < 2 ^ 31)
    (hversion : b.version = s.buffer.version + 1)
    (horder : b.byteOrder = s.buffer.byteOrder) :
    queue host { s with buffer := b } = (s.queue host).move b.data := by
  have hsaved : (s.positions.map fun position =>
      if position.version = b.version then some (b.stream.drop position.start) else none) =
        (s.queue host).saved.map fun _ => none := by
    rw [queue, List.map_map]
    refine List.map_congr_left fun position hposition => if_neg fun hsame => ?_
    have hlt := h.version_lt hcount hversion hposition
    rw [hsame] at hlt
    exact lt_irrefl _ hlt
  simp only [queue, Queue.move, ByteBuffer.big, horder] at hsaved ⊢
  rw [hsaved]

theorem Valid.move (h : s.Valid) (hcount : s.buffer.version.toNat + 1 < 2 ^ 31) (hb : b.Valid)
    (hversion : b.version = s.buffer.version + 1) : ({ s with buffer := b } : Session).Valid where
  buffer := hb
  version_le position hposition := (h.version_lt hcount hversion hposition).le
  start_le position hposition hsame := by
    have hlt := h.version_lt hcount hversion hposition
    rw [show position.version = b.version from hsame] at hlt
    exact absurd hlt (lt_irrefl _)

/-- Bytes may be written behind, and read. -/
theorem queue_keep (h : s.Valid) {val : List Byte} (hversion : b.version = s.buffer.version)
    (horder : b.byteOrder = s.buffer.byteOrder) (hstream : b.stream = s.buffer.stream ++ val) :
    queue host { s with buffer := b } =
      { s.queue host with
        unread := b.data
        saved := (s.queue host).saved.map (Option.map (· ++ val)) } := by
  have hsaved : (s.positions.map fun position =>
      if position.version = b.version then some (b.stream.drop position.start) else none) =
        (s.queue host).saved.map (Option.map (· ++ val)) := by
    rw [queue, List.map_map]
    refine List.map_congr_left fun position hposition => ?_
    show _ = Option.map (· ++ val) (if position.version = s.buffer.version then _ else none)
    rw [hversion]
    by_cases hsame : position.version = s.buffer.version
    · have hle : position.start ≤ s.buffer.stream.length := by
        rw [ByteBuffer.length_stream h.buffer]
        exact h.start_le position hposition hsame
      rw [if_pos hsame, if_pos hsame, hstream, List.drop_append_of_le_length hle]
      rfl
    · rw [if_neg hsame, if_neg hsame]
      rfl
  simp only [queue, ByteBuffer.big, horder] at hsaved ⊢
  rw [hsaved]

theorem Valid.keep (h : s.Valid) (hb : b.Valid) (hversion : b.version = s.buffer.version)
    (hend : s.buffer.end_ ≤ b.end_) : ({ s with buffer := b } : Session).Valid where
  buffer := hb
  version_le position hposition :=
    (h.version_le position hposition).trans_eq (congrArg BitVec.toNat hversion).symm
  start_le position hposition hsame :=
    (h.start_le position hposition (Eq.trans hsame hversion)).trans hend

/-- The start is moved within the bytes that are there. -/
theorem queue_reposition (s : Session) (host : Host) (start : ℕ) :
    queue host { s with buffer := { s.buffer with start } } =
      { s.queue host with unread := s.buffer.stream.drop start } := by
  have hdata : ({ s.buffer with start } : ByteBuffer).data = s.buffer.stream.drop start :=
    ByteBuffer.data_eq
  simp only [queue, hdata]
  rfl

theorem Valid.reposition (h : s.Valid) {start : ℕ} (hle : start ≤ s.buffer.end_) :
    ({ s with buffer := { s.buffer with start } } : Session).Valid where
  buffer := ⟨hle, h.buffer.end_le⟩
  version_le := h.version_le
  start_le := h.start_le

theorem length_unread (h : s.Valid) (host : Host) : (s.queue host).unread.length = s.buffer.length :=
  ByteBuffer.length_data h.buffer

/-- The state after a call, and what the queue says of it and of what the call gives. -/
structure Refines (s : Session) (host : Host) (call : Call) : Prop where
  valid : s.Counts call → (s.step host call).Valid
  queue : s.Counts call →
    (s.step host call).queue host = ((s.queue host).call (s.moves call) call).1
  result : (s.call host call).2 = ((s.queue host).call (s.moves call) call).2

theorem valid_write (h : s.Valid) (host : Host) (val : List Byte)
    (hcount : s.Counts (.writeBytes val)) :
    ({ s with buffer := s.buffer.writeBytes host val } : Session).Valid := by
  have hvalid : (s.buffer.writeBytes host val).Valid := h.buffer.writeBytes
  by_cases hmoves : s.buffer.moves val.length
  · rw [ByteBuffer.writeBytes_of_moves hmoves] at hvalid ⊢
    exact h.move (hcount hmoves) hvalid rfl
  · rw [ByteBuffer.writeBytes_of_fits hmoves] at hvalid ⊢
    exact h.keep hvalid rfl (Nat.le_add_right _ _)

theorem queue_write (h : s.Valid) (host : Host) (val : List Byte)
    (hcount : s.Counts (.writeBytes val)) :
    queue host { s with buffer := s.buffer.writeBytes host val } =
      (s.queue host).write (s.buffer.moves val.length) val := by
  by_cases hmoves : s.buffer.moves val.length
  · have hall : s.buffer.data.take (s.buffer.length + val.length) = s.buffer.data := by
      refine List.take_of_length_le ?_
      rw [ByteBuffer.length_data h.buffer]
      exact Nat.le_add_right _ _
    have hdata : ((s.buffer.resize host (s.buffer.length + val.length)).put val).data =
        s.buffer.data ++ val := by
      rw [ByteBuffer.data_eq, ByteBuffer.stream_put h.buffer.resize,
        ByteBuffer.stream_resize h.buffer, hall]
      rfl
    rw [ByteBuffer.writeBytes_of_moves hmoves,
      queue_move (b := (s.buffer.resize host (s.buffer.length + val.length)).put val) h
        (hcount hmoves) rfl rfl, hdata, Queue.write, if_pos hmoves]
    rfl
  · have hdata : (s.buffer.put val).data = s.buffer.data ++ val := by
      rw [ByteBuffer.data_eq, ByteBuffer.data_eq, ByteBuffer.stream_put h.buffer]
      refine List.drop_append_of_le_length ?_
      rw [ByteBuffer.length_stream h.buffer]
      exact h.buffer.start_le
    rw [ByteBuffer.writeBytes_of_fits hmoves,
      queue_keep (b := s.buffer.put val) h rfl rfl (ByteBuffer.stream_put h.buffer), hdata,
      Queue.write, if_neg hmoves]
    rfl

theorem valid_advance (h : s.Valid) (hle : len ≤ s.buffer.length) :
    ({ s with buffer := s.buffer.advance len } : Session).Valid :=
  h.reposition (h.buffer.advance hle).start_le

theorem queue_advance (s : Session) (host : Host) (len : ℕ) :
    queue host { s with buffer := s.buffer.advance len } =
      { s.queue host with unread := (s.queue host).unread.drop len } := by
  rw [ByteBuffer.advance, queue_reposition, ← List.drop_drop, ← ByteBuffer.data_eq]
  rfl

theorem write_refines (h : s.Valid) (val : List Byte)
    (hcall : s.call host call = ({ s with buffer := s.buffer.writeBytes host val }, .done))
    (hmoves : s.moves call = s.buffer.moves val.length)
    (hqueue : ∀ moves, (s.queue host).call moves call = ((s.queue host).write moves val, .done)) :
    s.Refines host call where
  valid hcount := by
    rw [step, hcall]
    exact valid_write h host val fun hmove => hcount (hmoves.trans hmove)
  queue hcount := by
    rw [step, hcall, hqueue, hmoves]
    exact queue_write h host val fun hmove => hcount (hmoves.trans hmove)
  result := by rw [hcall, hqueue]

/-- A call takes `len` bytes if they are there, and gives `result` of them. -/
structure Takes (s : Session) (host : Host) (call : Call) (len : ℕ)
    (result : Option (List Byte) → Result) : Prop where
  fails : s.buffer.length < len → s.call host call = (s, result none)
  takes : len ≤ s.buffer.length → s.call host call =
    ({ s with buffer := s.buffer.advance len }, result (some (s.buffer.data.take len)))

theorem Takes.refines (h : s.Valid) {result : Option (List Byte) → Result}
    (htakes : s.Takes host call len result)
    (hqueue : ∀ moves, (s.queue host).call moves call =
      (((s.queue host).read len).1, result ((s.queue host).read len).2)) :
    s.Refines host call := by
  by_cases hle : len ≤ s.buffer.length
  · have hread := Queue.read_of_le (hle.trans_eq (length_unread h host).symm)
    refine ⟨fun _ => ?_, fun _ => ?_, ?_⟩
    · rw [step, htakes.takes hle]
      exact valid_advance h hle
    · rw [step, htakes.takes hle, hqueue, hread]
      exact queue_advance s host len
    · rw [htakes.takes hle, hqueue, hread]
      rfl
  · have hlt : s.buffer.length < len := Nat.lt_of_not_le hle
    have hread := Queue.read_of_lt ((length_unread h host).trans_lt hlt)
    refine ⟨fun _ => ?_, fun _ => ?_, ?_⟩
    · rw [step, htakes.fails hlt]
      exact h
    · rw [step, htakes.fails hlt, hqueue, hread]
    · rw [htakes.fails hlt, hqueue, hread]

/-- A call that gives up before it does anything. -/
theorem refuse_refines (h : s.Valid) (result : Result) (hcall : s.call host call = (s, result))
    (hqueue : ∀ moves, (s.queue host).call moves call = (s.queue host, result)) :
    s.Refines host call where
  valid _ := by
    rw [step, hcall]
    exact h
  queue _ := by rw [step, hcall, hqueue]
  result := by rw [hcall, hqueue]

theorem readUInt_takes (h : s.Valid) (host : Host) (width : Width) :
    s.Takes host (.readUInt width true) width.size
      fun bytes => .number (bytes.map (decode (s.buffer.big host))) where
  fails hlt := by
    have hread : s.buffer.readUInt host true width = (s.buffer, none) :=
      ByteBuffer.readUInt_eq_none (.inl hlt)
    simp only [call, hread]
    rfl
  takes hle := by
    have hread : s.buffer.readUInt host true width = _ := ByteBuffer.readUInt_of_le h.buffer hle
    have hlength : (s.buffer.data.take width.size).length = width.size := by
      rw [ByteBuffer.length_take_data h.buffer, min_eq_right hle]
    have hlt : decode (s.buffer.big host) (s.buffer.data.take width.size) < 2 ^ width.bits := by
      have hdecode := decode_lt (s.buffer.big host) (s.buffer.data.take width.size)
      rw [hlength] at hdecode
      exact hdecode.trans_le width.size_le_bits
    simp only [call, hread, Option.map_some, BitVec.toNat_ofNat, Nat.mod_eq_of_lt hlt]

theorem readBytes_takes (s : Session) (host : Host) (len : ℕ) :
    s.Takes host (.readBytes len) len .bytes where
  fails hlt := by rw [call, ByteBuffer.readBytes_of_lt hlt]
  takes hle := by rw [call, ByteBuffer.readBytes_of_le hle]

theorem readString_takes (s : Session) (host : Host) (val : List Byte) (len : ℕ) :
    s.Takes host (.readString (some val) len) len fun bytes => .bytes (bytes.map (val ++ ·)) where
  fails hlt := by
    rw [call, ByteBuffer.readString_of_lt hlt]
    rfl
  takes hle := by
    rw [call, ByteBuffer.readString_of_le hle]
    rfl

theorem consume_takes (s : Session) (host : Host) (size : ℕ) :
    s.Takes host (.consume size) size fun bytes => .success bytes.isSome where
  fails hlt := by
    rw [call, ByteBuffer.consume_of_lt hlt]
    rfl
  takes hle := by
    rw [call, ByteBuffer.consume_of_le hle]
    rfl

theorem resize_refines (h : s.Valid) (host : Host) (size : ℕ) :
    s.Refines host (.resize size) where
  valid hcount := h.move (hcount rfl) h.buffer.resize rfl
  queue hcount := by
    have hdata : (s.buffer.resize host size).data = s.buffer.data.take size := by
      rw [ByteBuffer.data_eq, ByteBuffer.stream_resize h.buffer]
      rfl
    show queue host { s with buffer := s.buffer.resize host size } = _
    rw [queue_move (b := s.buffer.resize host size) h (hcount rfl) rfl rfl, hdata]
    rfl
  result := rfl

theorem clear_refines (h : s.Valid) (host : Host) : s.Refines host .clear where
  valid hcount := h.move (hcount rfl) ⟨le_rfl, Nat.zero_le _⟩ rfl
  queue hcount := by
    show queue host { s with buffer := s.buffer.clear } = _
    rw [queue_move (b := s.buffer.clear) h (hcount rfl) rfl rfl]
    rfl
  result := rfl

theorem getReadPosition_refines (h : s.Valid) (host : Host) : s.Refines host .getReadPosition where
  valid _ := by
    refine ⟨h.buffer, fun position hposition => ?_, fun position hposition hsame => ?_⟩
    · obtain hold | hnew := List.mem_append.mp hposition
      · exact h.version_le position hold
      · rw [List.mem_singleton.mp hnew]
        exact le_rfl
    · obtain hold | hnew := List.mem_append.mp hposition
      · exact h.start_le position hold hsame
      · rw [List.mem_singleton.mp hnew]
        exact h.buffer.start_le
  queue _ := by
    have hnow : (if s.buffer.getReadPosition.version = s.buffer.version then
        some (s.buffer.stream.drop s.buffer.getReadPosition.start) else none) =
          some s.buffer.data := by
      rw [ByteBuffer.data_eq]
      exact if_pos rfl
    show queue host { s with positions := s.positions ++ [s.buffer.getReadPosition] } =
      (s.queue host).save
    simp only [queue, List.map_append, List.map_singleton, hnow]
    rfl
  result := rfl

theorem setReadPosition_refines (h : s.Valid) (host : Host) (position : ℕ) :
    s.Refines host (.setReadPosition position) := by
  have hsaved : (s.queue host).saved[position]? = s.positions[position]?.map fun position =>
      if position.version = s.buffer.version then some (s.buffer.stream.drop position.start)
      else none := List.getElem?_map
  cases hposition : s.positions[position]? with
  | none =>
    rw [hposition] at hsaved
    refine refuse_refines h (.success false) ?_ fun moves => ?_
    · rw [call, hposition]
    · rw [Queue.call, Queue.restore, hsaved]
      rfl
  | some saved =>
    rw [hposition, Option.map_some] at hsaved
    by_cases hsame : saved.version = s.buffer.version
    · rw [if_pos hsame] at hsaved
      have hset : s.buffer.setReadPosition saved = ({ s.buffer with start := saved.start }, true) :=
        if_neg (not_not.mpr hsame)
      have hcall : s.call host (.setReadPosition position) =
          ({ s with buffer := { s.buffer with start := saved.start } }, .success true) := by
        simp only [call, hposition, hset]
      refine ⟨fun _ => ?_, fun _ => ?_, ?_⟩
      · rw [step, hcall]
        exact h.reposition (h.start_le saved (List.mem_of_getElem? hposition) hsame)
      · rw [step, hcall, Queue.call, Queue.restore_of_saved hsaved]
        exact queue_reposition s host saved.start
      · rw [hcall, Queue.call, Queue.restore_of_saved hsaved]
    · rw [if_neg hsame] at hsaved
      have hset : s.buffer.setReadPosition saved = (s.buffer, false) := if_pos hsame
      refine refuse_refines h (.success false) ?_ fun moves => ?_
      · simp only [call, hposition, hset]
      · rw [Queue.call, Queue.restore, hsaved]

theorem call_refines (h : s.Valid) (host : Host) (call : Call) : s.Refines host call := by
  cases call with
  | writeUInt width val =>
    refine write_refines h (encode (s.buffer.big host) width.size val.toNat) ?_ ?_ fun _ => rfl
    · rw [Session.call, ByteBuffer.writeUInt_eq]
    · rw [length_encode]
      rfl
  | writeBytes val => exact write_refines h val rfl rfl fun _ => rfl
  | writeString val => exact write_refines h val rfl rfl fun _ => rfl
  | readUInt width val =>
    cases val with
    | true => exact (readUInt_takes h host width).refines h fun _ => rfl
    | false =>
      refine refuse_refines h (.number none) ?_ fun _ => rfl
      rw [Session.call, ByteBuffer.readUInt_eq_none (.inr rfl)]
      rfl
  | readBytes len => exact (readBytes_takes s host len).refines h fun _ => rfl
  | readString val len =>
    cases val with
    | none => exact refuse_refines h (.bytes none) rfl fun _ => rfl
    | some val => exact (readString_takes s host val len).refines h fun _ => rfl
  | consume size => exact (consume_takes s host size).refines h fun _ => rfl
  | resize size => exact resize_refines h host size
  | clear => exact clear_refines h host
  | getReadPosition => exact getReadPosition_refines h host
  | setReadPosition position => exact setReadPosition_refines h host position

theorem Takes.eq_of_failed {result : Option (List Byte) → Result}
    (htakes : s.Takes host call len result) (hsome : ∀ bytes, ¬ (result (some bytes)).Failed)
    (hfailed : (s.call host call).2.Failed) : s.step host call = s := by
  obtain hlt | hle := Nat.lt_or_ge s.buffer.length len
  · rw [step, htakes.fails hlt]
  · rw [htakes.takes hle] at hfailed
    exact absurd hfailed (hsome _)

/-- A call that fails changes nothing. -/
theorem eq_of_failed (h : s.Valid) (hfailed : (s.call host call).2.Failed) :
    s.step host call = s := by
  cases call with
  | writeUInt _ _ | writeBytes _ | writeString _ | resize _ | clear | getReadPosition =>
    exact hfailed.elim
  | readUInt width val =>
    cases val with
    | false =>
      rw [step, call, ByteBuffer.readUInt_eq_none (.inr rfl)]
    | true => exact (readUInt_takes h host width).eq_of_failed (fun _ => nofun) hfailed
  | readBytes len => exact (readBytes_takes s host len).eq_of_failed (fun _ => nofun) hfailed
  | readString val len =>
    cases val with
    | none => rfl
    | some val => exact (readString_takes s host val len).eq_of_failed (fun _ => nofun) hfailed
  | consume size => exact (consume_takes s host size).eq_of_failed (fun _ => nofun) hfailed
  | setReadPosition position =>
    cases hposition : s.positions[position]? with
    | none => rw [step, call, hposition]
    | some saved =>
      by_cases hsame : saved.version = s.buffer.version
      · have hset : s.buffer.setReadPosition saved =
            ({ s.buffer with start := saved.start }, true) := if_neg (not_not.mpr hsame)
        simp only [call, hposition, hset] at hfailed
        cases hfailed
      · have hset : s.buffer.setReadPosition saved = (s.buffer, false) := if_pos hsame
        simp only [step, call, hposition, hset]

/-! ## Runs -/

theorem valid_new (host : Host) (bytes : Option (List Byte)) (byteOrder : ByteOrder) :
    (new host bytes byteOrder).Valid where
  buffer := by
    cases bytes with
    | none => exact ⟨le_rfl, Nat.zero_le _⟩
    | some bytes =>
      refine ⟨Nat.zero_le _, ?_⟩
      show bytes.length ≤ (memcpy (host.allocate 0 bytes.length) 0 (bytes.take bytes.length)).length
      rw [List.take_length, length_memcpy] <;> rw [Host.length_allocate]
      exact (Nat.zero_add _).le
  version_le _ hposition := (List.not_mem_nil hposition).elim
  start_le _ hposition := (List.not_mem_nil hposition).elim

theorem queue_new (host : Host) (bytes : Option (List Byte)) (byteOrder : ByteOrder) :
    (new host bytes byteOrder).queue host =
      { big := byteOrder = .network ∨ host.bigEndian, unread := bytes.getD [] } := by
  cases bytes with
  | none => rfl
  | some bytes =>
    have hdata : (ByteBuffer.new host (some bytes) byteOrder).data = bytes := by
      have htake := take_memcpy bytes (Nat.zero_le (host.allocate 0 bytes.length).length)
      rw [Nat.zero_add, List.take_zero, List.nil_append] at htake
      show (memcpy (host.allocate 0 bytes.length) 0 (bytes.take bytes.length)).take bytes.length = _
      rw [List.take_length, htake]
    show Queue.mk _ (ByteBuffer.new host (some bytes) byteOrder).data [] = _
    rw [hdata]
    rfl

/-- A run by its calls and the queue that it stands for. -/
theorem queue_run (host : Host) {calls : List Call} (h : s.Valid)
    (hcounts : Machine.Along (step host) Counts s calls) :
    (Machine.run (step host) s calls).Valid ∧ (Machine.run (step host) s calls).queue host =
      Machine.run Queue.step (s.queue host)
        (Machine.trace (step host) (fun s call => (s.moves call, call)) s calls) :=
  Machine.run_simulates (I := Valid) (fun _ call hs hcount =>
    ⟨(call_refines hs host call).valid hcount, (call_refines hs host call).queue hcount⟩) h hcounts

theorem big_step (h : s.Valid) (host : Host) (hcount : s.Counts call) :
    (s.step host call).buffer.big host = s.buffer.big host := by
  have hqueue := congrArg Queue.big ((call_refines h host call).queue hcount)
  rwa [Queue.big_call] at hqueue

theorem counts_of_stays (hstays : s.moves call = false) : s.Counts call :=
  fun hmoves => absurd (hstays.symm.trans hmoves) Bool.false_ne_true

/-- What a position exposes after calls that do not move the bytes. -/
theorem saved_run (h : s.Valid) {position : ℕ} {rest : List Byte} {calls : List Call}
    (hsaved : (s.queue host).saved[position]? = some (some rest))
    (hstays : Machine.Along (step host) (fun s call => s.moves call = false) s calls) :
    ((Machine.run (step host) s calls).queue host).saved[position]? =
      some (some (rest ++ calls.flatMap (Call.written (s.buffer.big host)))) := by
  induction calls generalizing s rest with
  | nil =>
    rw [List.flatMap_nil, List.append_nil]
    exact hsaved
  | cons call calls ih =>
    obtain ⟨hstay, hstays⟩ := hstays
    have hcount := counts_of_stays hstay
    have hrefines := call_refines h host call
    have hnext : ((s.step host call).queue host).saved[position]? =
        some (some (rest ++ call.written (s.buffer.big host))) := by
      rw [hrefines.queue hcount]
      refine Queue.saved_call hsaved hstay ?_ ?_
      · rintro size rfl
        cases hstay
      · rintro rfl
        cases hstay
    have hrun := ih (hrefines.valid hcount) hnext hstays
    rwa [big_step h host hcount, List.append_assoc, ← List.flatMap_cons] at hrun

/-- The number of the position that the call saves is the number of those before it. -/
theorem restored (h : s.Valid) {calls : List Call}
    (hstays : Machine.Along (step host) (fun s call => s.moves call = false)
      (s.step host .getReadPosition) calls) :
    let s' := Machine.run (step host) s (.getReadPosition :: calls)
    (s'.call host (.setReadPosition s.positions.length)).2 = .success true ∧
      (s'.step host (.setReadPosition s.positions.length)).buffer.data =
        s.buffer.data ++ calls.flatMap (Call.written (s.buffer.big host)) := by
  intro s'
  have hsave := getReadPosition_refines h host
  have hcount : s.Counts .getReadPosition := counts_of_stays rfl
  have hlength : (s.queue host).saved.length = s.positions.length := List.length_map _
  have hsaved : ((s.step host .getReadPosition).queue host).saved[s.positions.length]? =
      some (some s.buffer.data) := by
    rw [hsave.queue hcount, ← hlength]
    exact List.getElem?_concat_length
  have hrun := saved_run (hsave.valid hcount) hsaved hstays
  have hcounts := (queue_run host (hsave.valid hcount)
    (Machine.along_of_along (I := fun _ => True) (fun _ _ _ hstay => ⟨trivial, counts_of_stays hstay⟩)
      trivial hstays)).1
  have hset := call_refines hcounts host (.setReadPosition s.positions.length)
  have hdata := congrArg Queue.unread (hset.queue (counts_of_stays rfl))
  have hresult := hset.result
  simp only [Queue.call, Queue.restore_of_saved hrun, big_step h host hcount] at hdata hresult
  exact ⟨hresult, hdata⟩

/-- As long as the counter does not overflow: what the buffer exposes is the queue of the bytes
that the calls write and take, calls give what the queue gives and change nothing where they fail,
numbers are read as they were written, and a position that is restored exposes what it did, and
what was written since. -/
theorem refines_queue (host : Host) (bytes : Option (List Byte)) (byteOrder : ByteOrder)
    (calls : List Call)
    (hcounts : Machine.Along (step host) Counts (new host bytes byteOrder) calls) :
    let s₀ := new host bytes byteOrder
    let s := Machine.run (step host) s₀ calls
    let q := Machine.run Queue.step
      { big := byteOrder = .network ∨ host.bigEndian, unread := bytes.getD [] }
      (Machine.trace (step host) (fun s call => (s.moves call, call)) s₀ calls)
    (s.buffer.data = q.unread ∧ s.buffer.length = q.unread.length) ∧
    (∀ call, (s.call host call).2 = (q.call (s.moves call) call).2 ∧
      ((s.call host call).2.Failed → s.step host call = s)) ∧
    (∀ width val rest, s.buffer.data = encode q.big width.size val.toNat ++ rest →
      (s.call host (.readUInt width true)).2 = .number (some (width.kept val).toNat) ∧
        (s.step host (.readUInt width true)).buffer.data = rest) ∧
    ∀ since, Machine.Along (step host) (fun s call => s.moves call = false)
        (s.step host .getReadPosition) since →
      let s' := Machine.run (step host) s (.getReadPosition :: since)
      (s'.call host (.setReadPosition s.positions.length)).2 = .success true ∧
        (s'.step host (.setReadPosition s.positions.length)).buffer.data =
          s.buffer.data ++ since.flatMap (Call.written q.big) := by
  intro s₀ s q
  have hrun := queue_run host (valid_new host bytes byteOrder) hcounts
  have hvalid : s.Valid := hrun.1
  have hq : s.queue host = q := by
    have hqueue := hrun.2
    rwa [queue_new] at hqueue
  have hdata : s.buffer.data = q.unread := congrArg Queue.unread hq
  have hbig : s.buffer.big host = q.big := congrArg Queue.big hq
  refine ⟨⟨hdata, ?_⟩, fun call => ⟨?_, eq_of_failed hvalid⟩, fun width val rest hfront => ?_,
    fun since hstays => ?_⟩
  · rw [← hdata, ByteBuffer.length_data hvalid.buffer]
  · rw [← hq]
    exact (call_refines hvalid host call).result
  · rw [← hbig] at hfront
    obtain ⟨hread, hrest⟩ := ByteBuffer.readUInt_encode hvalid.buffer hfront
    simp only [step, call, hread]
    exact ⟨rfl, hrest⟩
  · rw [← hbig]
    exact restored hvalid hstays

/-- A write that moves the bytes, reads, and a position that is restored. -/
theorem refines_queue_restored :
    let host : Host := ⟨false, fun _ _ => 0⟩
    (Machine.run (step host) (new host (some [1, 2]) .network)
      [.readBytes 1, .writeBytes [3, 4], .getReadPosition, .readUInt .uint16 true,
        .setReadPosition 0]).buffer.data = [2, 3, 4] := by
  intro host
  have hrefines := refines_queue host (some [1, 2]) .network
    [.readBytes 1, .writeBytes [3, 4], .getReadPosition, .readUInt .uint16 true,
      .setReadPosition 0] (by decide +kernel)
  exact hrefines.1.1.trans (by decide +kernel)

/-- A resize cuts off bytes that were not read, and a 24-bit number has only its low bits. -/
theorem not_all_bytes_kept :
    ¬ ∀ (host : Host) (val : List Byte) (number : BitVec 32) (size : ℕ),
      (Machine.run (step host) (new host (some []) .network)
        [.writeBytes val, .resize size]).buffer.data = val ∧
      ((Machine.run (step host) (new host (some []) .network) [.writeUInt .uint24 number]).call host
        (.readUInt .uint24 true)).2 = .number (some number.toNat) := by
  intro h
  exact absurd (h ⟨false, fun _ _ => 0⟩ [1, 2] 0x01000000 1) (by decide +kernel)

end Session

end PerchWebrtc.Base
