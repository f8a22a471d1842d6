import PerchWebrtc.Framework.Buffer

/-!
# Byte buffers

The readers and writers of `ByteBuffer` (`bytebuffer.cc`) in network byte order.
A buffer is the bytes that have not been read; a reader that lacks bytes fails
and takes none.

* `readBytes_append`, `readUInt16_bytes16`, `readUInt32_bytes32`,
  `readUInt64_bytes64`: a reader on what the writer wrote;
* `readBytes_eq_some`: what a reader that succeeds has taken.
-/

namespace PerchWebrtc.Stun

abbrev U16 := BitVec 16
abbrev U32 := BitVec 32
abbrev U64 := BitVec 64
abbrev ByteBuffer := List Byte

def be64 (m : Mem) (p : Nat) : U64 := be32 m p ++ be32 m (p + 4)

def bytes64 (v : U64) : List Byte := bytes32 (v.extractLsb' 32 32) ++ bytes32 (v.extractLsb' 0 32)

def readBytes (len : Nat) (buf : ByteBuffer) : Option (List Byte × ByteBuffer) :=
  if len > buf.length then none else some (buf.take len, buf.drop len)

def readUInt8 (buf : ByteBuffer) : Option (Byte × ByteBuffer) :=
  (readBytes 1 buf).map fun r => (Mem.ofList r.1 0, r.2)

def readUInt16 (buf : ByteBuffer) : Option (U16 × ByteBuffer) :=
  (readBytes 2 buf).map fun r => (be16 (Mem.ofList r.1) 0, r.2)

def readUInt32 (buf : ByteBuffer) : Option (U32 × ByteBuffer) :=
  (readBytes 4 buf).map fun r => (be32 (Mem.ofList r.1) 0, r.2)

def readUInt64 (buf : ByteBuffer) : Option (U64 × ByteBuffer) :=
  (readBytes 8 buf).map fun r => (be64 (Mem.ofList r.1) 0, r.2)

/-- The bytes are appended to a string. -/
def readString (val : List Byte) (len : Nat) (buf : ByteBuffer) : Option (List Byte × ByteBuffer) :=
  if len > buf.length then none else some (val ++ buf.take len, buf.drop len)

def consume (size : Nat) (buf : ByteBuffer) : Option ByteBuffer :=
  if size > buf.length then none else some (buf.drop size)

section

variable {buf : ByteBuffer} {rest : ByteBuffer} {len : Nat}

@[simp] theorem length_bytes64 (v : U64) : (bytes64 v).length = 8 := rfl

theorem readBytes_append (bs : List Byte) (h : len = bs.length) :
    readBytes len (bs ++ buf) = some (bs, buf) := by
  subst h
  rw [readBytes, if_neg (by rw [List.length_append]; omega), List.take_left, List.drop_left]

theorem readString_append (bs : List Byte) (h : len = bs.length) :
    readString [] len (bs ++ buf) = some (bs, buf) := by
  subst h
  rw [readString, if_neg (by rw [List.length_append]; omega), List.take_left, List.drop_left,
    List.nil_append]

theorem consume_append (bs : List Byte) {size : Nat} (h : size = bs.length) :
    consume size (bs ++ buf) = some buf := by
  subst h
  rw [consume, if_neg (by rw [List.length_append]; omega), List.drop_left]

theorem readUInt8_cons (b : Byte) : readUInt8 (b :: buf) = some (b, buf) := by
  rw [readUInt8, ← List.singleton_append, readBytes_append [b] (show 1 = [b].length from rfl)]
  rfl

theorem readUInt16_bytes16 (v : U16) : readUInt16 (bytes16 v ++ buf) = some (v, buf) := by
  have hholds : (Mem.ofList (bytes16 v)).Holds 0 (bytes16 v) := @Mem.holds_of_eq _ [] _ rfl
  rw [readUInt16, readBytes_append _ (length_bytes16 v).symm, Option.map_some,
    Mem.holds_bytes16.mp hholds]

theorem readUInt32_bytes32 (v : U32) : readUInt32 (bytes32 v ++ buf) = some (v, buf) := by
  have hholds : (Mem.ofList (bytes32 v)).Holds 0 (bytes32 v) := @Mem.holds_of_eq _ [] _ rfl
  rw [readUInt32, readBytes_append _ (length_bytes32 v).symm, Option.map_some,
    Mem.holds_bytes32.mp hholds]

theorem be64_of_holds {m : Mem} {p : Nat} {v : U64} (h : m.Holds p (bytes64 v)) : be64 m p = v := by
  obtain ⟨hhigh, hlow⟩ := Mem.holds_append.mp h
  rw [length_bytes32] at hlow
  rw [be64, Mem.holds_bytes32.mp hhigh, Mem.holds_bytes32.mp hlow,
    BitVec.extractLsb'_append_extractLsb'_eq_extractLsb' (show 32 = 0 + 32 from rfl),
    BitVec.extractLsb'_eq_self]

theorem readUInt64_bytes64 (v : U64) : readUInt64 (bytes64 v ++ buf) = some (v, buf) := by
  have hholds : (Mem.ofList (bytes64 v)).Holds 0 (bytes64 v) := @Mem.holds_of_eq _ [] _ rfl
  rw [readUInt64, readBytes_append _ (length_bytes64 v).symm, Option.map_some, be64_of_holds hholds]

/-- What a reader that succeeds has taken. -/
theorem readBytes_eq_some {bs rest : List Byte} (h : readBytes len buf = some (bs, rest)) :
    len ≤ buf.length ∧ bs = buf.take len ∧ rest = buf.drop len := by
  unfold readBytes at h
  split at h
  · cases h
  · cases h
    exact ⟨by omega, rfl, rfl⟩

theorem readString_eq_some {val bs rest : List Byte} (h : readString val len buf = some (bs, rest)) :
    len ≤ buf.length ∧ bs = val ++ buf.take len ∧ rest = buf.drop len := by
  unfold readString at h
  split at h
  · cases h
  · cases h
    exact ⟨by omega, rfl, rfl⟩

/-- An integer is computed from the bytes that are taken. -/
theorem readBytes_map_eq_some {α : Type*} {f : List Byte → α} {v : α}
    (h : (readBytes len buf).map (fun r => (f r.1, r.2)) = some (v, rest)) :
    len ≤ buf.length ∧ v = f (buf.take len) ∧ rest = buf.drop len := by
  obtain ⟨⟨bs, rest'⟩, hread, heq⟩ := Option.map_eq_some_iff.mp h
  obtain ⟨hlen, rfl, rfl⟩ := readBytes_eq_some hread
  cases heq
  exact ⟨hlen, rfl, rfl⟩

theorem readUInt8_eq_some {v : Byte} (h : readUInt8 buf = some (v, rest)) :
    1 ≤ buf.length ∧ rest = buf.drop 1 :=
  (readBytes_map_eq_some (f := fun bs => Mem.ofList bs 0) h).imp_right And.right

theorem readUInt16_eq_some {v : U16} (h : readUInt16 buf = some (v, rest)) :
    2 ≤ buf.length ∧ v = be16 (Mem.ofList buf) 0 ∧ rest = buf.drop 2 := by
  obtain ⟨hlen, rfl, hrest⟩ := readBytes_map_eq_some (f := fun bs => be16 (Mem.ofList bs) 0) h
  refine ⟨hlen, be16_congr fun i hi => ?_, hrest⟩
  simp only [Mem.ofList, List.getD_eq_getElem?_getD, List.getElem?_take, Nat.zero_add, if_pos hi]

theorem readUInt32_eq_some {v : U32} (h : readUInt32 buf = some (v, rest)) :
    4 ≤ buf.length ∧ rest = buf.drop 4 :=
  (readBytes_map_eq_some (f := fun bs => be32 (Mem.ofList bs) 0) h).imp_right And.right

theorem readUInt64_eq_some {v : U64} (h : readUInt64 buf = some (v, rest)) :
    8 ≤ buf.length ∧ rest = buf.drop 8 :=
  (readBytes_map_eq_some (f := fun bs => be64 (Mem.ofList bs) 0) h).imp_right And.right

theorem consume_eq_some {size : Nat} (h : consume size buf = some rest) :
    size ≤ buf.length ∧ rest = buf.drop size := by
  unfold consume at h
  split at h
  · cases h
  · cases h
    exact ⟨by omega, rfl⟩

end

end PerchWebrtc.Stun
