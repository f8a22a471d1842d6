import PerchWebrtc.Stun.Message

/-!
# How STUN attributes are framed

The attributes of a body stand one behind the other, each as long as its header
declares, rounded up to a multiple of 4.

* `readValue_rest`: what reading a value takes, by the length of the attribute
  that was created;
* `readAttributes_step`: what one turn of the loop of `Read` does;
* `Walk`: the headers where the declared lengths put them;
* `Tiles`: the headers that have been read stand there, and each value lies in
  its declared length;
* `read_tiles_iff`: they do exactly if integers declare their size and no unknown
  attribute declares more than 65532 bytes.
-/

namespace PerchWebrtc.Stun

/-! ## What reading a value takes -/

section Values

variable {transactionId : List Byte} {buf rest : ByteBuffer}

theorem readAddress_rest {length : U16} {a : Net.SocketAddress}
    (h : readAddress length buf = some (a, rest)) :
    length.toNat ≤ buf.length ∧ rest = buf.drop length.toNat ∧ length.toNat % 4 = 0 := by
  simp only [readAddress, Option.bind_eq_bind, Option.bind_eq_some_iff, Prod.exists] at h
  obtain ⟨_, buf1, h1, family, buf2, h2, port, buf3, h3, h⟩ := h
  obtain ⟨hlen1, rfl⟩ := readUInt8_eq_some h1
  obtain ⟨hlen2, rfl⟩ := readUInt8_eq_some h2
  obtain ⟨hlen3, -, rfl⟩ := readUInt16_eq_some h3
  simp only [List.drop_drop, List.length_drop] at h hlen2 hlen3
  split at h
  · split at h
    · cases h
    · rename_i hlength
      simp only [Option.bind_eq_some_iff, Prod.exists] at h
      obtain ⟨ip, buf4, h4, h⟩ := h
      obtain ⟨hlen4, rfl⟩ := readUInt32_eq_some h4
      cases h
      have hsize : length.toNat = 8 := congrArg BitVec.toNat (not_not.mp hlength)
      rw [List.length_drop] at hlen4
      rw [List.drop_drop, hsize]
      exact ⟨by omega, rfl, rfl⟩
  · split at h
    · split at h
      · cases h
      · rename_i hlength
        simp only [Option.bind_eq_some_iff, Prod.exists] at h
        obtain ⟨ip, buf4, h4, h⟩ := h
        obtain ⟨hlen4, -, rfl⟩ := readBytes_eq_some h4
        cases h
        have hsize : length.toNat = 20 := congrArg BitVec.toNat (not_not.mp hlength)
        rw [List.length_drop] at hlen4
        rw [List.drop_drop, hsize]
        exact ⟨by omega, rfl, rfl⟩
    · cases h

theorem readUInt16s_rest {count : Nat} {l : List U16} (h : readUInt16s count buf = some (l, rest)) :
    count * 2 ≤ buf.length ∧ rest = buf.drop (count * 2) := by
  induction count generalizing buf l rest with
  | zero =>
    cases h
    exact ⟨Nat.zero_le _, rfl⟩
  | succ count ih =>
    simp only [readUInt16s, Option.bind_eq_bind, Option.bind_eq_some_iff, Prod.exists] at h
    obtain ⟨v, buf1, h1, l', rest', h2, h⟩ := h
    obtain ⟨hlen1, -, rfl⟩ := readUInt16_eq_some h1
    obtain ⟨hlen2, rfl⟩ := ih h2
    cases h
    rw [List.length_drop] at hlen2
    rw [List.drop_drop]
    exact ⟨by omega, congrArg (buf.drop ·) (by omega)⟩

/-- Reading a value takes as many bytes as the attribute that was created is
long, and then its padding, of which there may be too little. -/
theorem readValue_rest {a : CreatedAttribute} {v : AttributeValue}
    (h : a.readValue transactionId buf = some (v, rest)) :
    a.length.toNat ≤ buf.length ∧ rest = buf.drop a.length.toNat ∧
      a.readPadding rest = consumePadding a.length rest := by
  have hnone : ∀ {length : U16}, length.toNat % 4 = 0 → rest = consumePadding length rest := by
    intro length hmul
    rw [consumePadding, paddingLength, if_neg (not_not.mpr hmul), consume,
      if_neg (Nat.not_lt_zero _)]
    rfl
  obtain ⟨valueType, type, length⟩ := a
  cases valueType with
  | unknown => cases h
  | address =>
    obtain ⟨⟨address, rest'⟩, hread, heq⟩ := Option.map_eq_some_iff.mp h
    cases heq
    obtain ⟨hle, hrest, hmul⟩ := readAddress_rest hread
    exact ⟨hle, hrest, hnone hmul⟩
  | xorAddress =>
    obtain ⟨⟨address, rest'⟩, hread, heq⟩ := Option.map_eq_some_iff.mp h
    cases heq
    obtain ⟨hle, hrest, hmul⟩ := readAddress_rest hread
    exact ⟨hle, hrest, hnone hmul⟩
  | uint32 =>
    simp only [CreatedAttribute.readValue] at h
    split at h
    · cases h
    · rename_i hlength
      obtain ⟨⟨bits, rest'⟩, hread, heq⟩ := Option.map_eq_some_iff.mp h
      cases heq
      obtain ⟨hle, hrest⟩ := readUInt32_eq_some hread
      have hsize : length.toNat = 4 := congrArg BitVec.toNat (not_not.mp hlength)
      dsimp only
      rw [hsize]
      exact ⟨hle, hrest, hnone (by omega)⟩
  | uint64 =>
    simp only [CreatedAttribute.readValue] at h
    split at h
    · cases h
    · rename_i hlength
      obtain ⟨⟨bits, rest'⟩, hread, heq⟩ := Option.map_eq_some_iff.mp h
      cases heq
      obtain ⟨hle, hrest⟩ := readUInt64_eq_some hread
      have hsize : length.toNat = 8 := congrArg BitVec.toNat (not_not.mp hlength)
      dsimp only
      rw [hsize]
      exact ⟨hle, hrest, hnone (by omega)⟩
  | byteString =>
    obtain ⟨⟨bytes, rest'⟩, hread, heq⟩ := Option.map_eq_some_iff.mp h
    cases heq
    obtain ⟨hle, -, hrest⟩ := readBytes_eq_some hread
    exact ⟨hle, hrest, rfl⟩
  | errorCode =>
    simp only [CreatedAttribute.readValue, Option.bind_eq_bind] at h
    split at h
    · cases h
    · rename_i hlength
      simp only [Option.bind_eq_some_iff, Prod.exists] at h
      obtain ⟨val, buf1, h1, reason, buf2, h2, h⟩ := h
      obtain ⟨hlen1, rfl⟩ := readUInt32_eq_some h1
      obtain ⟨hlen2, -, rfl⟩ := readString_eq_some h2
      cases h
      have hmin : 4 ≤ length.toNat := Nat.le_of_not_lt hlength
      have hsub : (length - 4).toNat = length.toNat - 4 := by
        have hfour : (4 : U16).toNat = 4 := rfl
        have hlt := length.isLt
        rw [BitVec.toNat_sub, hfour]
        omega
      rw [hsub, List.length_drop] at hlen2
      rw [hsub, List.drop_drop]
      exact ⟨by dsimp only; omega, congrArg (buf.drop ·) (by dsimp only; omega), rfl⟩
  | uint16List =>
    simp only [CreatedAttribute.readValue] at h
    split at h
    · cases h
    · rename_i heven
      obtain ⟨⟨l, rest'⟩, hread, heq⟩ := Option.map_eq_some_iff.mp h
      cases heq
      obtain ⟨hle, hrest⟩ := readUInt16s_rest hread
      have hhalf : length.toNat / 2 * 2 = length.toNat := by omega
      rw [hhalf] at hle hrest
      exact ⟨hle, hrest, rfl⟩

end Values

/-! ## The loop of `Read` -/

/-- A header that has been read from the bytes that were left. -/
structure Entry.At (e : Entry) (buf : ByteBuffer) : Prop where
  header : e.header = buf
  size : 4 ≤ buf.length
  type : e.type = be16 (Mem.ofList buf) 0
  length : e.length = be16 (Mem.ofList buf) 2

/-- What follows a header: bytes that are skipped, or a value and its padding. -/
def Entry.Leaves (e : Entry) (cls : MessageClass) (buf next : ByteBuffer) : Prop :=
  match createAttribute (cls.getAttributeValueType e.type) e.type e.length with
  | none =>
    e.parsed = none ∧ 4 + (skippedLength e.length).toNat ≤ buf.length ∧
      next = buf.drop (4 + (skippedLength e.length).toNat)
  | some a =>
    (∃ v, e.parsed = some (⟨a.type, v⟩, buf.drop (4 + a.length.toNat))) ∧
      4 + a.length.toNat ≤ buf.length ∧ next = consumePadding a.length (buf.drop (4 + a.length.toNat))

theorem readAttributes_step {cls : MessageClass} {transactionId : List Byte} {rest fuel : Nat}
    {buf left : ByteBuffer} {entries : List Entry}
    (h : readAttributes cls transactionId rest (fuel + 1) buf = some (entries, left))
    (hmore : buf.length > rest) :
    ∃ e next tail, entries = e :: tail ∧ e.At buf ∧ e.Leaves cls buf next ∧
      readAttributes cls transactionId rest fuel next = some (tail, left) := by
  rw [readAttributes, if_pos hmore] at h
  simp only [Option.bind_eq_bind, Option.bind_eq_some_iff, Prod.exists] at h
  obtain ⟨type, buf1, h1, length, buf2, h2, h⟩ := h
  obtain ⟨hlen1, htype, rfl⟩ := readUInt16_eq_some h1
  obtain ⟨hlen2, hlength, rfl⟩ := readUInt16_eq_some h2
  rw [List.length_drop] at hlen2
  rw [List.drop_drop] at h
  have hlength' : length = be16 (Mem.ofList buf) 2 := by
    rw [hlength, be16, be16]
    simp only [Mem.ofList, List.getD_eq_getElem?_getD, List.getElem?_drop]
  cases hcreate : createAttribute (cls.getAttributeValueType type) type length with
  | none =>
    rw [hcreate] at h
    simp only [Option.bind_eq_some_iff, Prod.exists] at h
    obtain ⟨next, hnext, tail, left', htail, heq⟩ := h
    cases heq
    obtain ⟨hle, rfl⟩ := consume_eq_some hnext
    rw [List.length_drop] at hle
    refine ⟨_, _, tail, rfl, ⟨rfl, by omega, htype, hlength'⟩, ?_, htail⟩
    simp only [Entry.Leaves, hcreate, List.drop_drop]
    exact ⟨trivial, by omega, trivial⟩
  | some a =>
    rw [hcreate] at h
    simp only [Option.bind_eq_some_iff, Prod.exists] at h
    obtain ⟨v, next, hnext, tail, left', htail, heq⟩ := h
    cases heq
    obtain ⟨hle, rfl, hpadding⟩ := readValue_rest hnext
    rw [List.length_drop] at hle
    rw [hpadding, List.drop_drop] at htail
    refine ⟨_, _, tail, rfl, ⟨rfl, by omega, htype, hlength'⟩, ?_, htail⟩
    simp only [Entry.Leaves, hcreate, List.drop_drop]
    exact ⟨⟨v, rfl⟩, by omega, trivial⟩

/-! ## Where the headers should be -/

/-- A length rounded up to a multiple of 4. -/
def roundUp (length : Nat) : Nat := length + paddingLength length

def attrTypeAt (m : Mem) (p : Nat) : U16 := be16 m p
def attrLengthAt (m : Mem) (p : Nat) : U16 := be16 m (p + 2)

/-- The header behind the value of the attribute at `p`. -/
def nextHeader (m : Mem) (p : Nat) : Nat := p + 4 + roundUp (attrLengthAt m p).toNat

/-- The headers from `start` on, as long as the walk goes on. -/
inductive Walk (m : Mem) (goesOn : Nat → Prop) (start : Nat) : Nat → Prop
  | start : Walk m goesOn start start
  | next {p : Nat} (h : Walk m goesOn start p) (hon : goesOn p) : Walk m goesOn start (nextHeader m p)

section Walk

variable {m : Mem} {goesOn : Nat → Prop} {start p : Nat}

theorem Walk.le (h : Walk m goesOn start p) : start ≤ p := by
  induction h with
  | start => exact Nat.le_refl _
  | next _ _ ih =>
    unfold nextHeader
    omega

theorem walk_iff :
    Walk m goesOn start p ↔ p = start ∨ goesOn start ∧ Walk m goesOn (nextHeader m start) p := by
  constructor
  · intro h
    induction h with
    | start => exact Or.inl rfl
    | next _ hon ih =>
      rcases ih with rfl | ⟨hstart, hwalk⟩
      · exact Or.inr ⟨hon, Walk.start⟩
      · exact Or.inr ⟨hstart, hwalk.next hon⟩
  · rintro (rfl | ⟨hon, hwalk⟩)
    · exact Walk.start
    · induction hwalk with
      | start => exact Walk.start.next hon
      | next _ hon' ih => exact ih.next hon'

end Walk

/-- The headers that have been read in a body of `n` bytes are where the declared
lengths put them, from `p` on. Each value is declared to end in the body, and is
decoded from the bytes that are declared. -/
def Tiles (n : Nat) : Nat → List Entry → Prop
  | p, [] => n ≤ p
  | p, e :: entries =>
    n - e.header.length = p ∧ p + 4 + e.length.toNat ≤ n ∧
      (∀ r ∈ e.parsed, n - r.2.length ≤ p + 4 + e.length.toNat) ∧
      Tiles n (p + 4 + roundUp e.length.toNat) entries

/-- An integer declares its size, and an attribute that is unknown a length that
can be rounded up in 16 bits. -/
def DeclaresSize (cls : MessageClass) (type length : U16) : Prop :=
  (cls.getAttributeValueType type = .uint32 → length = 4) ∧
    (cls.getAttributeValueType type = .uint64 → length = 8) ∧
    (cls.getAttributeValueType type = .unknown → length.toNat ≤ 65532)

section Tiles

variable {cls : MessageClass} {body buf next left : ByteBuffer} {e : Entry} {p : Nat}
  {entries : List Entry}

theorem paddingLength_lt (length : Nat) : paddingLength length < 4 := by
  unfold paddingLength
  split <;> omega

theorem le_roundUp (length : Nat) : length ≤ roundUp length := Nat.le_add_right _ _

theorem skippedLength_toNat {length : U16} (h : length.toNat ≤ 65532) :
    (skippedLength length).toNat = roundUp length.toNat := by
  unfold skippedLength roundUp paddingLength
  split
  · rw [BitVec.toNat_add, BitVec.toNat_ofNat]
    omega
  · rfl

/-- The header at a place of the body. -/
theorem be16_drop (body : ByteBuffer) (p i : Nat) :
    be16 (Mem.ofList (body.drop p)) i = be16 (Mem.ofList body) (p + i) := by
  simp only [be16, Mem.ofList, List.getD_eq_getElem?_getD, List.getElem?_drop, Nat.add_assoc]

/-- What is created for a header that declares its size has the length that is
declared. -/
theorem length_of_declaresSize {type length : U16} {a : CreatedAttribute}
    (hcreate : createAttribute (cls.getAttributeValueType type) type length = some a)
    (h : DeclaresSize cls type length) : a.length = length := by
  obtain ⟨h32, h64, -⟩ := h
  cases hvalue : cls.getAttributeValueType type with
  | unknown =>
    rw [hvalue] at hcreate
    cases hcreate
  | uint32 =>
    rw [hvalue] at hcreate
    cases hcreate
    exact (h32 hvalue).symm
  | uint64 =>
    rw [hvalue] at hcreate
    cases hcreate
    exact (h64 hvalue).symm
  | address | xorAddress | byteString | errorCode | uint16List =>
    rw [hvalue] at hcreate
    cases hcreate
    rfl

theorem consumePadding_drop (length : U16) (p : Nat) :
    consumePadding length (body.drop p) =
      if p + paddingLength length.toNat ≤ body.length then body.drop (p + paddingLength length.toNat)
      else body.drop p := by
  rw [consumePadding, consume, List.length_drop]
  by_cases hle : p + paddingLength length.toNat ≤ body.length
  · rw [if_pos hle, if_neg (by omega), Option.getD_some, List.drop_drop]
  · by_cases hzero : paddingLength length.toNat = 0
    · rw [if_neg hle, hzero, if_neg (Nat.not_lt_zero _), Option.getD_some, List.drop_zero]
    · rw [if_neg hle, if_pos (by omega), Option.getD_none]

/-- Where there are bytes left, the loop reads the next header there. -/
theorem tiles_head {transactionId : List Byte} {fuel q : Nat}
    (h : readAttributes cls transactionId 0 fuel (body.drop p) = some (entries, left))
    (hp : p < body.length) (htiles : Tiles body.length q entries) :
    q = p ∧ p + 4 ≤ body.length := by
  cases fuel with
  | zero => cases h
  | succ fuel =>
    obtain ⟨e, next, tail, rfl, hat, -, -⟩ := readAttributes_step h (by rw [List.length_drop]; omega)
    obtain ⟨hq, -⟩ := htiles
    have hsize := hat.size
    rw [hat.header, List.length_drop] at hq
    rw [List.length_drop] at hsize
    omega

/-- With fewer bytes than a header left, a loop that succeeds is at the end. -/
theorem entries_eq_nil {transactionId : List Byte} {fuel : Nat}
    (h : readAttributes cls transactionId 0 fuel buf = some (entries, left)) (hlen : buf.length < 4) :
    entries = [] ∧ buf = [] := by
  cases fuel with
  | zero => cases h
  | succ fuel =>
    by_cases hmore : buf.length > 0
    · obtain ⟨e, next, tail, -, hat, -, -⟩ := readAttributes_step h hmore
      have hsize := hat.size
      omega
    · rw [readAttributes, if_neg hmore] at h
      cases h
      exact ⟨rfl, List.length_eq_zero_iff.mp (by omega)⟩

variable {transactionId : List Byte} {fuel : Nat} {tail : List Entry}

/-- An attribute that declares its size is left where the next header should be,
or at the end of the body, where its padding is missing. -/
theorem Entry.Leaves.of_declaresSize (h : e.Leaves cls (body.drop p) next)
    (hp : p < body.length) (hdeclares : DeclaresSize cls e.type e.length) :
    p + 4 + e.length.toNat ≤ body.length ∧
      (∀ r ∈ e.parsed, body.length - r.2.length ≤ p + 4 + e.length.toNat) ∧
      (p + 4 + roundUp e.length.toNat ≤ body.length ∧
          next = body.drop (p + 4 + roundUp e.length.toNat) ∨
        body.length < p + 4 + roundUp e.length.toNat ∧ next.length < 4 ∧
          next = body.drop (p + 4 + e.length.toNat)) := by
  unfold Entry.Leaves at h
  cases hcreate : createAttribute (cls.getAttributeValueType e.type) e.type e.length with
  | none =>
    rw [hcreate] at h
    obtain ⟨hparsed, hle, rfl⟩ := h
    have hunknown : cls.getAttributeValueType e.type = .unknown := by
      cases hvalue : cls.getAttributeValueType e.type with
      | unknown => rfl
      | _ =>
        rw [hvalue] at hcreate
        cases hcreate
    have hround := le_roundUp e.length.toNat
    rw [skippedLength_toNat (hdeclares.2.2 hunknown), List.length_drop] at hle
    rw [skippedLength_toNat (hdeclares.2.2 hunknown), List.drop_drop, ← Nat.add_assoc]
    refine ⟨by omega, fun r hr => ?_, Or.inl ⟨by omega, rfl⟩⟩
    rw [hparsed] at hr
    cases hr
  | some a =>
    rw [hcreate] at h
    obtain ⟨⟨v, hparsed⟩, hle, rfl⟩ := h
    rw [length_of_declaresSize hcreate hdeclares, List.length_drop] at hle
    rw [length_of_declaresSize hcreate hdeclares, List.drop_drop] at hparsed
    rw [length_of_declaresSize hcreate hdeclares, List.drop_drop, consumePadding_drop,
      ← Nat.add_assoc]
    refine ⟨by omega, fun r hr => ?_, ?_⟩
    · rw [hparsed, Option.mem_some_iff] at hr
      subst hr
      rw [List.length_drop]
      omega
    · unfold roundUp
      have hpad := paddingLength_lt e.length.toNat
      by_cases hfit : p + 4 + e.length.toNat + paddingLength e.length.toNat ≤ body.length
      · rw [if_pos hfit]
        exact Or.inl ⟨by omega, congrArg (body.drop ·) (by omega)⟩
      · rw [if_neg hfit, List.length_drop]
        exact Or.inr ⟨by omega, by omega, rfl⟩

/-- An integer of `size` bytes that tiles declares as many. -/
theorem length_of_tiles_integer {size : Nat} (hpadding : paddingLength size = 0)
    {a : CreatedAttribute} (ha : a.length.toNat = size)
    (hcreate : createAttribute (cls.getAttributeValueType e.type) e.type e.length = some a)
    (h : e.Leaves cls (body.drop p) next)
    (htiles : Tiles body.length p (e :: tail)) (hp : p < body.length)
    (hread : readAttributes cls transactionId 0 fuel next = some (tail, left)) :
    e.length.toNat = size := by
  unfold Entry.Leaves at h
  rw [hcreate] at h
  obtain ⟨⟨v, hparsed⟩, hle, rfl⟩ := h
  obtain ⟨-, hfit, hdecoded, htail⟩ := htiles
  have hend := hdecoded _ hparsed
  rw [List.drop_drop, List.length_drop] at hend
  rw [List.length_drop] at hle
  rw [List.drop_drop, consumePadding_drop, ha, hpadding, if_pos (by omega)] at hread
  by_contra hne
  have hround := le_roundUp e.length.toNat
  obtain ⟨hhead, -⟩ := tiles_head hread (by omega) htail
  omega

theorem declaresSize_of_tiles (h : e.Leaves cls (body.drop p) next)
    (htiles : Tiles body.length p (e :: tail)) (hp : p < body.length) (hbody : body.length < 2 ^ 16)
    (hread : readAttributes cls transactionId 0 fuel next = some (tail, left)) :
    DeclaresSize cls e.type e.length := by
  refine ⟨fun h32 => ?_, fun h64 => ?_, fun _ => ?_⟩
  · apply BitVec.eq_of_toNat_eq
    exact length_of_tiles_integer (by decide) (rfl : (4 : U16).toNat = 4)
      (by rw [h32]; rfl) h htiles hp hread
  · apply BitVec.eq_of_toNat_eq
    exact length_of_tiles_integer (by decide) (rfl : (8 : U16).toNat = 8)
      (by rw [h64]; rfl) h htiles hp hread
  · have hfit := htiles.2.1
    omega

theorem tiles_iff (hbody : body.length < 2 ^ 16) (hp : p ≤ body.length)
    (h : readAttributes cls transactionId 0 fuel (body.drop p) = some (entries, left)) :
    Tiles body.length p entries ↔ ∀ q, Walk (Mem.ofList body) (· < body.length) p q →
      q < body.length →
      DeclaresSize cls (attrTypeAt (Mem.ofList body) q) (attrLengthAt (Mem.ofList body) q) := by
  induction fuel generalizing p entries with
  | zero => cases h
  | succ fuel ih =>
    by_cases hmore : p < body.length
    · obtain ⟨e, next, tail, rfl, hat, hleaves, hread⟩ :=
        readAttributes_step h (by rw [List.length_drop]; omega)
      have htype : e.type = attrTypeAt (Mem.ofList body) p := by
        rw [hat.type, be16_drop, Nat.add_zero, attrTypeAt]
      have hlength : e.length = attrLengthAt (Mem.ofList body) p := by
        rw [hat.length, be16_drop, attrLengthAt]
      have hnext : nextHeader (Mem.ofList body) p = p + 4 + roundUp e.length.toNat := by
        rw [nextHeader, ← hlength]
      constructor
      · intro htiles q hwalk hq
        have hdeclares := declaresSize_of_tiles hleaves htiles hmore hbody hread
        rcases walk_iff.mp hwalk with rfl | ⟨-, hrest⟩
        · rw [← htype, ← hlength]
          exact hdeclares
        · rw [hnext] at hrest
          rcases (hleaves.of_declaresSize hmore hdeclares).2.2 with ⟨hfit, rfl⟩ | ⟨hover, -, -⟩
          · exact (ih hfit hread).mp htiles.2.2.2 q hrest hq
          · have hle := hrest.le
            omega
      · intro hall
        have hdeclares := hall p Walk.start hmore
        rw [← htype, ← hlength] at hdeclares
        obtain ⟨hfit, hdecoded, hleft⟩ := hleaves.of_declaresSize hmore hdeclares
        refine ⟨by rw [hat.header, List.length_drop]; omega, hfit, hdecoded, ?_⟩
        rcases hleft with ⟨hround, rfl⟩ | ⟨hover, hshort, -⟩
        · refine (ih hround hread).mpr fun q hwalk hq => hall q ?_ hq
          rw [← hnext] at hwalk
          exact walk_iff.mpr (Or.inr ⟨hmore, hwalk⟩)
        · rw [(entries_eq_nil hread hshort).1]
          exact Nat.le_of_lt hover
    · rw [readAttributes, if_neg (by rw [List.length_drop]; omega)] at h
      cases h
      refine iff_of_true (Nat.le_of_not_lt hmore) fun q hwalk hq => ?_
      have hle := hwalk.le
      omega

end Tiles

/-- A message that is read: its body, and what the loop reads there. -/
theorem read_eq_some {cls : MessageClass} {buf : ByteBuffer} {r : Reading}
    (h : StunMessage.read cls buf = some r) :
    (buf.drop kStunHeaderSize).length < 2 ^ 16 ∧
      ∃ fuel, readAttributes cls r.message.transactionId 0 fuel (buf.drop kStunHeaderSize) =
        some (r.entries, r.rest) := by
  unfold StunMessage.read at h
  simp only [Option.bind_eq_bind, Option.bind_eq_some_iff, Prod.exists] at h
  obtain ⟨type, buf1, h1, h⟩ := h
  split at h
  · cases h
  · simp only [Option.bind_eq_some_iff, Prod.exists] at h
    obtain ⟨length, buf2, h2, cookie, buf3, h3, id, buf4, h4, h⟩ := h
    obtain ⟨-, -, rfl⟩ := readUInt16_eq_some h1
    obtain ⟨-, -, rfl⟩ := readUInt16_eq_some h2
    obtain ⟨-, -, rfl⟩ := readString_eq_some h3
    obtain ⟨-, -, rfl⟩ := readString_eq_some h4
    simp only [List.drop_drop] at h
    split at h
    · cases h
    · rename_i hlength
      simp only [Option.bind_eq_some_iff, Prod.exists] at h
      obtain ⟨entries, left, hread, heq⟩ := h
      cases heq
      have hlen := not_not.mp hlength
      rw [hlen, Nat.sub_self] at hread
      have hlt := length.isLt
      refine ⟨?_, _, hread⟩
      exact hlen ▸ hlt

/-- The attributes of a message that is accepted tile its body exactly if each
integer declares its size, and each attribute that is unknown a length that can
be rounded up in 16 bits, at every header where the declared lengths put it. -/
theorem read_tiles_iff (cls : MessageClass) (buf : ByteBuffer) (r : Reading)
    (h : StunMessage.read cls buf = some r) :
    Tiles (buf.drop kStunHeaderSize).length 0 r.entries ↔
      ∀ q, Walk (Mem.ofList (buf.drop kStunHeaderSize)) (· < (buf.drop kStunHeaderSize).length) 0 q →
        q < (buf.drop kStunHeaderSize).length →
        DeclaresSize cls (attrTypeAt (Mem.ofList (buf.drop kStunHeaderSize)) q)
          (attrLengthAt (Mem.ofList (buf.drop kStunHeaderSize)) q) := by
  obtain ⟨hbody, fuel, hread⟩ := read_eq_some h
  exact tiles_iff hbody (Nat.zero_le _) hread

/-- A request with attributes as its body. -/
def requestOf (body : ByteBuffer) : ByteBuffer :=
  bytes16 0x0001 ++ bytes16 (BitVec.ofNat 16 body.length) ++ bytes32 kStunMagicCookie ++
    List.replicate 12 7 ++ body

/-- A user name of one byte and a fingerprint. -/
def usernameBody : ByteBuffer :=
  [0x00, 0x06, 0x00, 0x01, 0x41, 0, 0, 0] ++ [0x80, 0x28, 0x00, 0x04, 0, 0, 0, 0]

theorem read_tiles_iff_username :
    ∃ r, StunMessage.read .stun (requestOf usernameBody) = some r ∧
      ∀ q, Walk (Mem.ofList usernameBody) (· < 16) 0 q → q < 16 →
        DeclaresSize .stun (attrTypeAt (Mem.ofList usernameBody) q)
          (attrLengthAt (Mem.ofList usernameBody) q) := by
  refine ⟨_, rfl, (read_tiles_iff .stun (requestOf usernameBody) _ rfl).mp ?_⟩
  refine ⟨rfl, by decide, fun r hr => ?_, rfl, by decide, fun r hr => ?_, ?_⟩
  · cases hr
    decide
  · cases hr
    decide
  · exact (by decide : 16 ≤ 8 + 4 + roundUp 4)

/-- A fingerprint that declares eight bytes: its second word is read as the next
header. -/
theorem not_read_tiles :
    ∃ r, StunMessage.read .stun
        (requestOf ([0x80, 0x28, 0x00, 0x08, 0, 0, 0, 0] ++ [0x00, 0x06, 0x00, 0x00])) = some r ∧
      r.message.attrs = [⟨STUN_ATTR_FINGERPRINT, .uint32 0⟩, ⟨STUN_ATTR_USERNAME, .byteString []⟩] ∧
      ¬ Tiles 12 0 r.entries := by
  refine ⟨_, rfl, rfl, ?_⟩
  rintro ⟨-, -, -, hhead, -⟩
  exact absurd hhead (by decide)

end PerchWebrtc.Stun
