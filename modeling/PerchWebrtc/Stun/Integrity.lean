import PerchWebrtc.Stun.RoundTrip
import PerchWebrtc.Stun.Verification

/-!
# Signing STUN messages

`AddMessageIntegrity` and `AddFingerprint` (`stun.cc`): each adds an attribute
with a dummy value, writes the message, and computes the value from what stands
before the attribute.

* `writeAttributes_append`, `walk_writeAttributes`: attributes that are written,
  and the walk over them;
* `addMessageIntegrity_eq`, `addFingerprint_eq`: what is signed;
* `messageForHmac_holds`: the verifier hashes what the signer has hashed;
* `validate_signed`: a message that is signed is accepted.
-/

namespace PerchWebrtc.Stun

namespace StunMessage

def addMessageIntegrity (hmac : List Byte → List Byte → List.Vector Byte 20) (m : StunMessage)
    (key : List Byte) : Bool × StunMessage :=
  let m := (m.addAttribute ⟨STUN_ATTR_MESSAGE_INTEGRITY,
    .byteString (List.replicate kStunMessageIntegritySize 0x30)⟩).2
  match m.write with
  | none => (false, m)
  | some buf =>
    let msgLenForHmac := buf.length - kStunAttributeHeaderSize - kStunMessageIntegritySize
    let hmac := hmac key (buf.take msgLenForHmac)
    (true, { m with
      attrs := m.attrs.dropLast ++ [⟨STUN_ATTR_MESSAGE_INTEGRITY, .byteString hmac.toList⟩] })

def addFingerprint (crc32 : List Byte → U32) (m : StunMessage) : Bool × StunMessage :=
  let m := (m.addAttribute ⟨STUN_ATTR_FINGERPRINT, .uint32 0⟩).2
  match m.write with
  | none => (false, m)
  | some buf =>
    let msgLenForCrc32 := buf.length - kStunAttributeHeaderSize - 4
    let c := crc32 (buf.take msgLenForCrc32)
    (true, { m with
      attrs := m.attrs.dropLast ++
        [⟨STUN_ATTR_FINGERPRINT, .uint32 (c ^^^ STUN_FINGERPRINT_XOR_VALUE)⟩] })

/-- A message with a MESSAGE-INTEGRITY, more attributes and a FINGERPRINT. -/
def signed (hmac : List Byte → List Byte → List.Vector Byte 20) (crc32 : List Byte → U32)
    (m : StunMessage) (key : List Byte) (attrs : List StunAttribute) : StunMessage :=
  (((m.addMessageIntegrity hmac key).2.addAttributes attrs).addFingerprint crc32).2

end StunMessage

open StunMessage

/-! ## Attributes that are written -/

section Written

variable {transactionId : List Byte} {attrs : List StunAttribute} {bs : List Byte}

theorem writeAttributes_append {as cs : List StunAttribute} :
    writeAttributes transactionId (as ++ cs) = some bs ↔
      ∃ x y, writeAttributes transactionId as = some x ∧
        writeAttributes transactionId cs = some y ∧ bs = x ++ y := by
  induction as generalizing bs with
  | nil =>
    constructor
    · exact fun h => ⟨[], bs, rfl, h, rfl⟩
    · rintro ⟨x, y, hx, hy, rfl⟩
      cases hx
      exact hy
  | cons a as ih =>
    simp only [List.cons_append, writeAttributes, Option.bind_eq_bind, Option.bind_eq_some_iff,
      Option.some.injEq]
    constructor
    · rintro ⟨value, hvalue, tail, htail, rfl⟩
      obtain ⟨x, y, hx, hy, rfl⟩ := ih.mp htail
      exact ⟨_, y, ⟨value, hvalue, x, hx, rfl⟩, hy, by simp only [List.append_assoc]⟩
    · rintro ⟨_, y, ⟨value, hvalue, x, hx, rfl⟩, hy, rfl⟩
      exact ⟨value, hvalue, x ++ y, ih.mpr ⟨x, y, hx, hy, rfl⟩, by simp only [List.append_assoc]⟩

theorem bodySize_append (as cs : List StunAttribute) :
    bodySize (as ++ cs) = bodySize as + bodySize cs := by
  rw [bodySize, List.map_append, List.sum_append, bodySize, bodySize]

theorem bodySize_mod (attrs : List StunAttribute) : bodySize attrs % 4 = 0 := by
  induction attrs with
  | nil => rfl
  | cons attr attrs ih =>
    have hpad : (attr.value.size + paddingLength attr.value.size) % 4 = 0 := by
      unfold paddingLength
      split <;> omega
    simp only [bodySize, List.map_cons, List.sum_cons, attributeSize] at ih ⊢
    omega

theorem length_writeAttributes (hsizes : ∀ attr ∈ attrs, attr.value.size < 2 ^ 16)
    (h : writeAttributes transactionId attrs = some bs) : bs.length = bodySize attrs := by
  induction attrs generalizing bs with
  | nil =>
    cases h
    rfl
  | cons attr attrs ih =>
    simp only [writeAttributes, Option.bind_eq_bind, Option.bind_eq_some_iff, Option.some.injEq] at h
    obtain ⟨value, hvalue, tail, htail, rfl⟩ := h
    have hlen := AttributeValue.length_write (hsizes attr List.mem_cons_self) hvalue
    have hrest := ih (fun a ha => hsizes a (List.mem_cons_of_mem _ ha)) htail
    simp only [List.length_append, length_bytes16, hlen, hrest, bodySize, List.map_cons,
      List.sum_cons, attributeSize]

/-- The walk over attributes of other types. -/
theorem walk_writeAttributes {m : Mem} {size p : Nat}
    (hsizes : ∀ attr ∈ attrs, attr.value.size < 2 ^ 16)
    (htypes : ∀ attr ∈ attrs, attr.type ≠ STUN_ATTR_MESSAGE_INTEGRITY)
    (h : writeAttributes transactionId attrs = some bs) (hholds : m.Holds p bs)
    (hfits : p + bs.length ≤ size) : Walk m (SkipsHeader m size) p (p + bs.length) := by
  induction attrs generalizing bs p with
  | nil =>
    cases h
    exact Walk.start
  | cons attr attrs ih =>
    simp only [writeAttributes, Option.bind_eq_bind, Option.bind_eq_some_iff, Option.some.injEq] at h
    obtain ⟨value, hvalue, tail, htail, rfl⟩ := h
    obtain ⟨hhead, hrest⟩ := Mem.holds_append.mp hholds
    obtain ⟨hheader, -⟩ := Mem.holds_append.mp hhead
    obtain ⟨htype, hlength⟩ := Mem.holds_append.mp hheader
    rw [Mem.holds_bytes16] at htype
    rw [length_bytes16, Mem.holds_bytes16] at hlength
    have hsize := hsizes attr List.mem_cons_self
    have hlen := AttributeValue.length_write hsize hvalue
    have hnext : nextHeader m p = p + (bytes16 attr.type ++ bytes16 attr.value.length ++ value).length := by
      rw [nextHeader, attrLengthAt, hlength, AttributeValue.length_toNat hsize, roundUp]
      simp only [List.length_append, length_bytes16, hlen]
      omega
    rw [List.length_append] at hfits ⊢
    have hskip : SkipsHeader m size p := by
      refine ⟨?_, ?_⟩
      · simp only [List.length_append, length_bytes16] at hfits
        omega
      · rw [attrTypeAt, htype]
        exact htypes attr List.mem_cons_self
    refine walk_iff.mpr (Or.inr ⟨hskip, ?_⟩)
    rw [hnext, ← Nat.add_assoc]
    exact ih (fun a ha => hsizes a (List.mem_cons_of_mem _ ha))
      (fun a ha => htypes a (List.mem_cons_of_mem _ ha)) htail hrest (by omega)

end Written

/-! ## What is signed -/

section Signing

variable (hmac : List Byte → List Byte → List.Vector Byte 20) (crc32 : List Byte → U32)
variable {m : StunMessage} {key : List Byte} {body : List Byte}

theorem writeHeader_eq (hid : m.transactionId.length = kStunTransactionIdLength) :
    m.writeHeader = bytes16 m.type ++ bytes16 m.length ++
      (bytes32 kStunMagicCookie ++ m.transactionId) := by
  have hlegacy : m.isLegacy = false := decide_eq_false (by rw [hid]; decide)
  simp only [writeHeader, hlegacy, Bool.false_eq_true, if_false, List.append_assoc]

/-- `AddAttribute` of an attribute with its last value. -/
theorem addAttribute_known (m : StunMessage) (attr : StunAttribute)
    (h : attr.value.valueType = m.cls.getAttributeValueType attr.type) :
    (m.addAttribute attr).2 = { m with
      attrs := m.attrs ++ [attr]
      length := m.length + BitVec.ofNat 16
        (attr.value.length.toNat + paddingLength attr.value.length.toNat + 4) } := by
  rw [addAttribute_eq, if_neg (not_not.mpr h)]

theorem valueType_messageIntegrity (cls : MessageClass) :
    cls.getAttributeValueType STUN_ATTR_MESSAGE_INTEGRITY = .byteString := by
  cases cls <;> rfl

theorem valueType_fingerprint (cls : MessageClass) :
    cls.getAttributeValueType STUN_ATTR_FINGERPRINT = .uint32 := by
  cases cls <;> rfl

theorem addAttribute_messageIntegrity (m : StunMessage) {v : List Byte} (h : v.length = 20) :
    (m.addAttribute ⟨STUN_ATTR_MESSAGE_INTEGRITY, .byteString v⟩).2 = { m with
      attrs := m.attrs ++ [⟨STUN_ATTR_MESSAGE_INTEGRITY, .byteString v⟩]
      length := m.length + 24 } := by
  have hlength : (AttributeValue.byteString v).length = 20 := congrArg (BitVec.ofNat 16) h
  have hsize : (20 : U16).toNat + paddingLength (20 : U16).toNat + 4 = 24 := by decide
  rw [addAttribute_known m ⟨STUN_ATTR_MESSAGE_INTEGRITY, .byteString v⟩
    (valueType_messageIntegrity m.cls).symm, hlength, hsize]
  rfl

theorem addAttribute_fingerprint (m : StunMessage) (bits : U32) :
    (m.addAttribute ⟨STUN_ATTR_FINGERPRINT, .uint32 bits⟩).2 = { m with
      attrs := m.attrs ++ [⟨STUN_ATTR_FINGERPRINT, .uint32 bits⟩]
      length := m.length + 8 } := by
  have hlength : (AttributeValue.uint32 bits).length = 4 := rfl
  have hsize : (4 : U16).toNat + paddingLength (4 : U16).toNat + 4 = 8 := by decide
  rw [addAttribute_known m ⟨STUN_ATTR_FINGERPRINT, .uint32 bits⟩ (valueType_fingerprint m.cls).symm,
    hlength, hsize]
  rfl

theorem length_dummy : (List.replicate kStunMessageIntegritySize (0x30 : Byte)).length = 20 := rfl

/-- A message with one more attribute, and what stands before it. -/
theorem write_snoc (attr : StunAttribute) (value : List Byte) (length : U16)
    (hbody : writeAttributes m.transactionId m.attrs = some body)
    (hvalue : attr.value.write m.transactionId = some value) :
    ∃ buf, write { m with attrs := m.attrs ++ [attr], length } = some buf ∧
      buf = writeHeader { m with length } ++ body ++
        (bytes16 attr.type ++ bytes16 attr.value.length ++ value) ∧
      buf.take (buf.length - kStunAttributeHeaderSize - value.length) =
        writeHeader { m with length } ++ body := by
  have hattr : writeAttributes m.transactionId [attr] =
      some (bytes16 attr.type ++ bytes16 attr.value.length ++ value) := by
    simp only [writeAttributes, hvalue, Option.bind_eq_bind, Option.bind_some, List.append_nil]
  have hall := writeAttributes_append.mpr ⟨body, _, hbody, hattr, rfl⟩
  refine ⟨_, ?_, rfl, ?_⟩
  · rw [List.append_assoc]
    exact congrArg (Option.map _) hall
  · refine List.take_left' ?_
    simp only [List.length_append, length_bytes16]
    unfold kStunAttributeHeaderSize
    omega

/-- The message integrity is computed from the header, with the length up to its
end, and the attributes before it. -/
theorem addMessageIntegrity_eq (hbody : writeAttributes m.transactionId m.attrs = some body) :
    (m.addMessageIntegrity hmac key).2 = { m with
      length := m.length + 24
      attrs := m.attrs ++ [⟨STUN_ATTR_MESSAGE_INTEGRITY, .byteString (hmac key
        ((writeHeader { m with length := m.length + 24 }) ++ body)).toList⟩] } := by
  obtain ⟨buf, hwrite, -, htake⟩ := write_snoc ⟨STUN_ATTR_MESSAGE_INTEGRITY,
    .byteString (List.replicate kStunMessageIntegritySize 0x30)⟩
    (List.replicate kStunMessageIntegritySize 0x30) (m.length + 24) hbody rfl
  unfold addMessageIntegrity
  rw [addAttribute_messageIntegrity m length_dummy]
  dsimp only
  rw [hwrite]
  dsimp only
  rw [List.length_replicate] at htake
  rw [htake, List.dropLast_concat]

/-- The message with a dummy value, or signed. -/
theorem addMessageIntegrity_attrs (m : StunMessage) (key : List Byte) :
    ∃ v, (m.addMessageIntegrity hmac key).2 = { m with
      length := m.length + 24
      attrs := m.attrs ++ [⟨STUN_ATTR_MESSAGE_INTEGRITY, .byteString v⟩] } ∧ v.length = 20 := by
  unfold addMessageIntegrity
  rw [addAttribute_messageIntegrity m length_dummy]
  dsimp only
  split
  · exact ⟨_, rfl, rfl⟩
  · rw [List.dropLast_concat]
    exact ⟨_, rfl, List.Vector.toList_length _⟩

theorem addFingerprint_eq (hbody : writeAttributes m.transactionId m.attrs = some body) :
    (m.addFingerprint crc32).2 = { m with
      length := m.length + 8
      attrs := m.attrs ++ [⟨STUN_ATTR_FINGERPRINT, .uint32 (crc32
        ((writeHeader { m with length := m.length + 8 }) ++ body) ^^^
          STUN_FINGERPRINT_XOR_VALUE)⟩] } := by
  obtain ⟨buf, hwrite, -, htake⟩ := write_snoc ⟨STUN_ATTR_FINGERPRINT, .uint32 0⟩ (bytes32 0)
    (m.length + 8) hbody rfl
  unfold addFingerprint
  rw [addAttribute_fingerprint]
  dsimp only
  rw [hwrite]
  dsimp only
  rw [length_bytes32] at htake
  rw [htake, List.dropLast_concat]

theorem addFingerprint_attrs (m : StunMessage) :
    ∃ bits, (m.addFingerprint crc32).2 = { m with
      length := m.length + 8
      attrs := m.attrs ++ [⟨STUN_ATTR_FINGERPRINT, .uint32 bits⟩] } := by
  unfold addFingerprint
  rw [addAttribute_fingerprint]
  dsimp only
  split
  · exact ⟨_, rfl⟩
  · rw [List.dropLast_concat]
    exact ⟨_, rfl⟩

/-- The attributes that are added are those with the value type of their type. -/
theorem addAttributes_eq (m : StunMessage) (attrs : List StunAttribute) :
    ∃ added length, m.addAttributes attrs = { m with attrs := m.attrs ++ added, length } := by
  unfold addAttributes
  induction attrs generalizing m with
  | nil => exact ⟨[], m.length, by rw [List.append_nil]; rfl⟩
  | cons attr attrs ih =>
    rw [List.foldl_cons]
    by_cases h : attr.value.valueType = m.cls.getAttributeValueType attr.type
    · rw [addAttribute_known m attr h]
      obtain ⟨added, length, heq⟩ := ih { m with
        attrs := m.attrs ++ [attr]
        length := m.length + BitVec.ofNat 16
          (attr.value.length.toNat + paddingLength attr.value.length.toNat + 4) }
      exact ⟨attr :: added, length, by rw [heq]; simp only [List.append_assoc, List.singleton_append]⟩
    · rw [addAttribute_eq, if_pos h]
      exact ih m

theorem WellBuilt.addAttributes (h : WellBuilt m) (attrs : List StunAttribute) :
    WellBuilt (m.addAttributes attrs) := by
  unfold StunMessage.addAttributes
  induction attrs generalizing m with
  | nil => exact h
  | cons attr attrs ih => exact ih (h.addAttribute attr)

/-- A well built message with one more attribute, whose value is set later. -/
theorem WellBuilt.snoc (h : WellBuilt m) {attr : StunAttribute} {length : U16}
    (htype : attr.value.valueType = m.cls.getAttributeValueType attr.type)
    (hlength : length = m.length + BitVec.ofNat 16
      (attr.value.length.toNat + paddingLength attr.value.length.toNat + 4)) :
    WellBuilt { m with attrs := m.attrs ++ [attr], length } := by
  have hadd := h.addAttribute attr
  rw [addAttribute_known m attr htype, ← hlength] at hadd
  exact hadd

end Signing

/-! ## What is verified -/

section Verifying

variable {mem : Mem} {size : Nat} {type length : U16}

/-- A length that is patched. -/
theorem messageForHmac_holds {front body : List Byte} (hfront : front.length = 16)
    (hholds : mem.Holds 0 (bytes16 type ++ bytes16 length ++ front ++ body))
    (hsize : kStunHeaderSize + body.length + 24 < size) :
    (messageForHmac mem size (kStunHeaderSize + body.length)).Holds 0
      (bytes16 type ++ bytes16 (BitVec.ofNat 16 (body.length + 24)) ++ front ++ body) := by
  have hlen : size - (size - (kStunHeaderSize + body.length + kStunAttributeHeaderSize +
      kStunMessageIntegritySize)) - kStunHeaderSize = body.length + 24 := by
    unfold kStunHeaderSize kStunAttributeHeaderSize kStunMessageIntegritySize at *
    omega
  have hmore : size > kStunHeaderSize + body.length + kStunAttributeHeaderSize +
      kStunMessageIntegritySize := hsize
  unfold messageForHmac
  rw [if_pos hmore]
  dsimp only
  rw [hlen]
  simp only [Mem.holds_append, List.length_append, length_bytes16, hfront] at hholds ⊢
  obtain ⟨⟨⟨htype, -⟩, hrest⟩, hbody⟩ := hholds
  have hcopy : ∀ {p : Nat} {bs : List Byte}, p + bs.length ≤ 2 ∨ 4 ≤ p → mem.Holds p bs →
      (set16 mem 2 (BitVec.ofNat 16 (body.length + 24))).Holds p bs := by
    intro p bs hp h
    unfold Mem.Holds at h ⊢
    rw [← h, Mem.bytes_length]
    exact Mem.bytes_eq_iff.mpr fun i hi => set16_outside mem 2 _ (by omega)
  refine ⟨⟨⟨hcopy (Or.inl ?_) htype, ?_⟩, hcopy (Or.inr ?_) hrest⟩, hcopy (Or.inr ?_) hbody⟩
  · rw [length_bytes16]
  · exact Mem.holds_bytes16.mpr (be16_set16 mem 2 _)
  · omega
  · omega

theorem validateMessageIntegrity_of_layout (hmac : List Byte → List Byte → List.Vector Byte 20)
    {key front body tail : List Byte} (hfront : front.length = 16)
    (hholds : mem.Holds 0 (bytes16 type ++ bytes16 length ++ front ++ body ++
      (bytes16 STUN_ATTR_MESSAGE_INTEGRITY ++ bytes16 20 ++ (hmac key (bytes16 type ++
        bytes16 (BitVec.ofNat 16 (body.length + 24)) ++ front ++ body)).toList) ++ tail))
    (htail : 0 < tail.length) (hsize : size = kStunHeaderSize + body.length + 24 + tail.length)
    (hmod : size % 4 = 0) (hlength : size = length.toNat + kStunHeaderSize)
    (hwalk : Walk mem (SkipsHeader mem size) kStunHeaderSize (kStunHeaderSize + body.length)) :
    (validateMessageIntegrity hmac mem size key).1 = some true := by
  have hpre : (bytes16 type ++ bytes16 length ++ front ++ body).length =
      kStunHeaderSize + body.length := by
    simp only [List.length_append, length_bytes16, hfront]
    rfl
  obtain ⟨hsigned, -⟩ := Mem.holds_append.mp hholds
  obtain ⟨hbefore, hattr⟩ := Mem.holds_append.mp hsigned
  rw [hpre, Nat.zero_add] at hattr
  obtain ⟨hheader, hvalue⟩ := Mem.holds_append.mp hattr
  obtain ⟨htype, hlen⟩ := Mem.holds_append.mp hheader
  rw [Mem.holds_bytes16] at htype
  rw [length_bytes16, Mem.holds_bytes16] at hlen
  have hmsgLength : be16 mem 2 = length := by
    have h := (Mem.holds_append.mp (Mem.holds_append.mp (Mem.holds_append.mp hbefore).1).1).2
    rw [length_bytes16] at h
    exact Mem.holds_bytes16.mp h
  have hfound := ((findMessageIntegrity_spec (m := mem) hmod
    (show kStunHeaderSize % 4 = 0 from rfl) (show size - kStunHeaderSize < size + 1 by omega)).2.2
    (kStunHeaderSize + body.length)).mpr ⟨hwalk, by omega, htype, hlen, by omega⟩
  have hhash : (messageForHmac mem size (kStunHeaderSize + body.length)).bytes 0
      (kStunHeaderSize + body.length) =
      bytes16 type ++ bytes16 (BitVec.ofNat 16 (body.length + 24)) ++ front ++ body := by
    refine Mem.bytes_of_holds (messageForHmac_holds hfront hbefore (by omega)) ?_
    simp only [List.length_append, length_bytes16, hfront]
    rfl
  have hcompare : mem.bytes (kStunHeaderSize + body.length + kStunAttributeHeaderSize)
      kStunMessageIntegritySize = (hmac key (bytes16 type ++
        bytes16 (BitVec.ofNat 16 (body.length + 24)) ++ front ++ body)).toList := by
    refine Mem.bytes_of_holds ?_ (List.Vector.toList_length _).symm
    rw [List.length_append, length_bytes16, length_bytes16] at hvalue
    exact hvalue
  unfold validateMessageIntegrity
  rw [if_neg (not_not.mpr hmod)]
  dsimp only
  rw [hmsgLength, if_neg (not_not.mpr hlength), hfound]
  dsimp only
  rw [hhash, hcompare, decide_eq_true rfl]

theorem validateFingerprint_of_layout (crc32 : List Byte → U32) {pre : List Byte}
    (hholds : mem.Holds 0 (pre ++ (bytes16 STUN_ATTR_FINGERPRINT ++ bytes16 4 ++
      bytes32 (crc32 pre ^^^ STUN_FINGERPRINT_XOR_VALUE))))
    (hpre : kStunHeaderSize ≤ pre.length) (hmod : pre.length % 4 = 0)
    (hcookie : be32 mem 4 = kStunMagicCookie) :
    (validateFingerprint crc32 mem (pre.length + 8)).1 = true := by
  obtain ⟨hbefore, hattr⟩ := Mem.holds_append.mp hholds
  rw [Nat.zero_add] at hattr
  obtain ⟨hheader, hvalue⟩ := Mem.holds_append.mp hattr
  obtain ⟨htype, hlength⟩ := Mem.holds_append.mp hheader
  rw [Mem.holds_bytes16] at htype
  rw [length_bytes16, Mem.holds_bytes16] at hlength
  rw [List.length_append, length_bytes16, length_bytes16, Mem.holds_bytes32] at hvalue
  have hsub : pre.length + 8 - (kStunAttributeHeaderSize + 4) = pre.length := Nat.add_sub_cancel ..
  have hsize : ¬ ((pre.length + 8) % 4 ≠ 0 ∨
      pre.length + 8 < kStunHeaderSize + (kStunAttributeHeaderSize + 4)) := by
    unfold kStunHeaderSize kStunAttributeHeaderSize at *
    omega
  unfold validateFingerprint
  dsimp only
  rw [if_neg hsize, hsub]
  rw [if_neg (not_not.mpr (show be32 mem (kStunTransactionIdOffset - kStunMagicCookieLength) =
    kStunMagicCookie from hcookie)), if_neg (not_not.mpr htype), if_neg (not_not.mpr hlength)]
  dsimp only
  rw [show be32 mem (pre.length + kStunAttributeHeaderSize) = _ from hvalue,
    Mem.bytes_of_holds hbefore rfl, BitVec.xor_assoc, BitVec.xor_self, BitVec.xor_zero,
    decide_eq_true rfl]

end Verifying

/-- The attribute with the message integrity, as it is written. -/
theorem write_messageIntegrity (transactionId : List Byte) {v : List Byte} (hv : v.length = 20) :
    writeAttributes transactionId [⟨STUN_ATTR_MESSAGE_INTEGRITY, .byteString v⟩] =
      some (bytes16 STUN_ATTR_MESSAGE_INTEGRITY ++ bytes16 20 ++ v) := by
  have hlength : (AttributeValue.byteString v).length = 20 := congrArg (BitVec.ofNat 16) hv
  have htake : v.take (BitVec.ofNat 16 v.length).toNat = v := by
    rw [hv]
    exact List.take_of_length_le (Nat.le_of_eq hv)
  have hpad : writePadding (BitVec.ofNat 16 v.length) = [] := by
    rw [hv]
    decide
  simp only [writeAttributes, AttributeValue.write, htake, hpad, hlength, List.append_nil,
    Option.bind_eq_bind, Option.bind_some]

theorem write_fingerprint (transactionId : List Byte) (bits : U32) :
    writeAttributes transactionId [⟨STUN_ATTR_FINGERPRINT, .uint32 bits⟩] =
      some (bytes16 STUN_ATTR_FINGERPRINT ++ bytes16 4 ++ bytes32 bits) := by
  simp only [writeAttributes, AttributeValue.write, List.append_nil, Option.bind_eq_bind,
    Option.bind_some]
  rfl

/-- A message that is signed and written, piece by piece. -/
theorem signed_eq (hmac : List Byte → List Byte → List.Vector Byte 20) (crc32 : List Byte → U32)
    {m : StunMessage} (hwell : WellBuilt m) (key : List Byte) (attrs : List StunAttribute)
    {bytes : List Byte} (hwrite : (m.signed hmac crc32 key attrs).write = some bytes) :
    ∃ added length body tail v pre,
      writeAttributes m.transactionId m.attrs = some body ∧
      writeAttributes m.transactionId added = some tail ∧
      v = (hmac key (writeHeader { m with length := m.length + 24 } ++ body)).toList ∧
      pre = writeHeader { m with length } ++ body ++
        (bytes16 STUN_ATTR_MESSAGE_INTEGRITY ++ bytes16 20 ++ v) ++ tail ∧
      bytes = pre ++ (bytes16 STUN_ATTR_FINGERPRINT ++ bytes16 4 ++
        bytes32 (crc32 pre ^^^ STUN_FINGERPRINT_XOR_VALUE)) ∧
      m.signed hmac crc32 key attrs = { m with
        length
        attrs := m.attrs ++ [⟨STUN_ATTR_MESSAGE_INTEGRITY, .byteString v⟩] ++ added ++
          [⟨STUN_ATTR_FINGERPRINT, .uint32 (crc32 pre ^^^ STUN_FINGERPRINT_XOR_VALUE)⟩] } ∧
      WellBuilt (m.signed hmac crc32 key attrs) := by
  obtain ⟨v, hm2, hv⟩ := addMessageIntegrity_attrs hmac m key
  have hwell2 : WellBuilt (m.addMessageIntegrity hmac key).2 := by
    have hlength : (AttributeValue.byteString v).length = 20 := congrArg (BitVec.ofNat 16) hv
    rw [hm2]
    refine hwell.snoc (valueType_messageIntegrity m.cls).symm ?_
    rw [hlength]
    exact congrArg (m.length + ·) (by decide)
  have hwell3 := hwell2.addAttributes attrs
  obtain ⟨added, length3, hm3⟩ := addAttributes_eq (m.addMessageIntegrity hmac key).2 attrs
  unfold StunMessage.signed at hwrite ⊢
  obtain ⟨bits, hm4⟩ := addFingerprint_attrs crc32 ((m.addMessageIntegrity hmac key).2.addAttributes attrs)
  have hwell4 : WellBuilt
      (((m.addMessageIntegrity hmac key).2.addAttributes attrs).addFingerprint crc32).2 := by
    have hlength : (AttributeValue.uint32 bits).length = 4 := rfl
    rw [hm4]
    refine hwell3.snoc (valueType_fingerprint _).symm ?_
    rw [hlength]
    exact congrArg (_ + ·) (by decide)
  rw [hm3, hm2] at hm4
  -- what is written, and the parts before each attribute
  have hall : ∃ body4, writeAttributes m.transactionId (m.attrs ++
      [⟨STUN_ATTR_MESSAGE_INTEGRITY, .byteString v⟩] ++ added ++
        [⟨STUN_ATTR_FINGERPRINT, .uint32 bits⟩]) = some body4 ∧
      bytes = writeHeader { m with length := length3 + 8 } ++ body4 := by
    rw [hm3, hm2, hm4] at hwrite
    obtain ⟨body4, hbody4, rfl⟩ := Option.map_eq_some_iff.mp hwrite
    exact ⟨body4, hbody4, rfl⟩
  obtain ⟨body4, hbody4, rfl⟩ := hall
  obtain ⟨body3, fp, hbody3, hfp, rfl⟩ := writeAttributes_append.mp hbody4
  obtain ⟨body2, tail, hbody2, htail, rfl⟩ := writeAttributes_append.mp hbody3
  obtain ⟨body, mi, hbody, hmi, rfl⟩ := writeAttributes_append.mp hbody2
  rw [write_messageIntegrity _ hv] at hmi
  rw [write_fingerprint] at hfp
  cases hmi
  cases hfp
  -- the values that were computed from them
  have hvalue : v = (hmac key (writeHeader { m with length := m.length + 24 } ++ body)).toList := by
    have hattrs := congrArg StunMessage.attrs (hm2.symm.trans (addMessageIntegrity_eq hmac hbody))
    have hlast := List.append_cancel_left hattrs
    exact AttributeValue.byteString.inj (StunAttribute.mk.inj (List.cons.inj hlast).1).2
  have hbits : bits = crc32 (writeHeader { m with length := length3 + 8 } ++ (body ++
      (bytes16 STUN_ATTR_MESSAGE_INTEGRITY ++ bytes16 20 ++ v) ++ tail)) ^^^
        STUN_FINGERPRINT_XOR_VALUE := by
    rw [hm3, hm2] at *
    have hattrs := congrArg StunMessage.attrs (hm4.symm.trans (addFingerprint_eq crc32 hbody3))
    have hlast := List.append_cancel_left hattrs
    exact AttributeValue.uint32.inj (StunAttribute.mk.inj (List.cons.inj hlast).1).2
  refine ⟨added, length3 + 8, body, tail, v, _, hbody, htail, hvalue, rfl, ?_, ?_, hwell4⟩
  · rw [hbits]
    simp only [List.append_assoc]
  · rw [hm3, hm2, hm4, hbits]
    simp only [List.append_assoc]

theorem bodySize_signed (attrs added : List StunAttribute) {v : List Byte} (hv : v.length = 20)
    (bits : U32) : bodySize (attrs ++ [⟨STUN_ATTR_MESSAGE_INTEGRITY, .byteString v⟩] ++ added ++
        [⟨STUN_ATTR_FINGERPRINT, .uint32 bits⟩]) = bodySize attrs + 24 + bodySize added + 8 := by
  have hmi : bodySize [⟨STUN_ATTR_MESSAGE_INTEGRITY, .byteString v⟩] = 24 := by
    change 4 + (v.length + paddingLength v.length) + 0 = 24
    rw [hv]
    decide
  have hfp : bodySize [⟨STUN_ATTR_FINGERPRINT, .uint32 bits⟩] = 8 :=
    (by decide : 4 + (4 + paddingLength 4) + 0 = 8)
  rw [bodySize_append, bodySize_append, bodySize_append, hmi, hfp]

/-- The bytes of a signed message: the header and the attributes before the signature, which is that
of these with the length that ends behind it, then further attributes and the fingerprint. -/
structure SignedLayout (hmac : List Byte → List Byte → List.Vector Byte 20)
    (crc32 : List Byte → U32) (m : StunMessage) (key bytes : List Byte) (length : U16)
    (body tail pre : List Byte) : Prop where
  written : writeAttributes m.transactionId m.attrs = some body
  pre_eq : pre = bytes16 m.type ++ bytes16 length ++
    (bytes32 kStunMagicCookie ++ m.transactionId) ++ body ++
    (bytes16 STUN_ATTR_MESSAGE_INTEGRITY ++ bytes16 20 ++ (hmac key (bytes16 m.type ++
      bytes16 (BitVec.ofNat 16 (body.length + 24)) ++
      (bytes32 kStunMagicCookie ++ m.transactionId) ++ body)).toList) ++ tail
  bytes_eq : bytes = pre ++ (bytes16 STUN_ATTR_FINGERPRINT ++ bytes16 4 ++
    bytes32 (crc32 pre ^^^ STUN_FINGERPRINT_XOR_VALUE))
  bodySize_lt : bodySize m.attrs < 2 ^ 16
  length_eq : length.toNat = body.length + 24 + tail.length + 8
  body_mod : body.length % 4 = 0
  tail_mod : tail.length % 4 = 0

theorem signed_layout (hmac : List Byte → List Byte → List.Vector Byte 20)
    (crc32 : List Byte → U32) {m : StunMessage} (hwell : WellBuilt m) {key : List Byte}
    {attrs : List StunAttribute} {bytes : List Byte}
    (hid : m.transactionId.length = kStunTransactionIdLength)
    (hsize : bodySize (m.signed hmac crc32 key attrs).attrs < 2 ^ 16)
    (hwrite : (m.signed hmac crc32 key attrs).write = some bytes) :
    ∃ length body tail pre, SignedLayout hmac crc32 m key bytes length body tail pre := by
  obtain ⟨added, length, body, tail, v, pre, hbody, htail, hv, hpre, hbytes, hsigned, hwell4⟩ :=
    signed_eq hmac crc32 hwell key attrs hwrite
  have hlength := hwell4.length_toNat hsize
  rw [hsigned, bodySize_signed m.attrs added (hv ▸ List.Vector.toList_length _)] at hsize hlength
  dsimp only at hlength
  have hbodySize : bodySize m.attrs < 2 ^ 16 := by omega
  have haddedSize : bodySize added < 2 ^ 16 := by omega
  have hbodyLen := length_writeAttributes (fun attr hmem => size_lt_of_bodySize hbodySize hmem) hbody
  have htailLen := length_writeAttributes (fun attr hmem => size_lt_of_bodySize haddedSize hmem) htail
  -- the length at the time of the signature
  have hlength24 : m.length + 24 = BitVec.ofNat 16 (body.length + 24) := by
    apply BitVec.eq_of_toNat_eq
    have h24 : (24 : U16).toNat = 24 := rfl
    rw [BitVec.toNat_add, hwell.length_toNat hbodySize, BitVec.toNat_ofNat, hbodyLen, h24]
  have hheader : ∀ length', writeHeader { m with length := length' } =
      bytes16 m.type ++ bytes16 length' ++ (bytes32 kStunMagicCookie ++ m.transactionId) :=
    fun length' => writeHeader_eq (m := { m with length := length' }) hid
  rw [hheader, hlength24] at hv
  rw [hheader, hv] at hpre
  exact ⟨length, body, tail, pre, hbody, hpre, hbytes, hbodySize, by rw [hlength, hbodyLen, htailLen],
    hbodyLen ▸ bodySize_mod m.attrs, htailLen ▸ bodySize_mod added⟩

/-- What `AddMessageIntegrity` and `AddFingerprint` have signed is accepted, in a
message with the magic cookie, if no other MESSAGE-INTEGRITY stands before. -/
theorem validate_signed (hmac : List Byte → List Byte → List.Vector Byte 20)
    (crc32 : List Byte → U32) (cls : MessageClass) (calls : List BuildCall) (key : List Byte)
    (attrs : List StunAttribute)
    (hid : (build cls calls).transactionId.length = kStunTransactionIdLength)
    (hfirst : ∀ attr ∈ (build cls calls).attrs, attr.type ≠ STUN_ATTR_MESSAGE_INTEGRITY)
    (hsize : bodySize ((build cls calls).signed hmac crc32 key attrs).attrs < 2 ^ 16)
    (bytes : List Byte)
    (hwrite : ((build cls calls).signed hmac crc32 key attrs).write = some bytes) :
    (validateMessageIntegrity hmac (Mem.ofList bytes) bytes.length key).1 = some true ∧
      (validateFingerprint crc32 (Mem.ofList bytes) bytes.length).1 = true := by
  obtain ⟨hwell, -⟩ := wellBuilt_build cls calls
  generalize build cls calls = m at *
  obtain ⟨length, body, tail, pre, h⟩ := signed_layout hmac crc32 hwell hid hsize hwrite
  have hlength := h.length_eq
  have hbodyMod := h.body_mod
  have htailMod := h.tail_mod
  have hfront : (bytes32 kStunMagicCookie ++ m.transactionId).length = 16 := by
    rw [List.length_append, hid, length_bytes32]
    rfl
  have hpreLen : pre.length = kStunHeaderSize + body.length + 24 + tail.length := by
    rw [h.pre_eq]
    simp only [List.length_append, length_bytes16, length_bytes32, hid, List.Vector.toList_length]
    unfold kStunHeaderSize kStunTransactionIdLength
    omega
  have hbytesLen : bytes.length = pre.length + 8 := by
    rw [h.bytes_eq]
    simp only [List.length_append, length_bytes16, length_bytes32]
  have hholds : (Mem.ofList bytes).Holds 0 bytes := @Mem.holds_of_eq _ [] _ rfl
  generalize Mem.ofList bytes = mem at hholds ⊢
  have hparts := hholds
  rw [h.bytes_eq, h.pre_eq, List.append_assoc _ tail] at hparts
  obtain ⟨hbefore, -⟩ := Mem.holds_append.mp (Mem.holds_append.mp hparts).1
  obtain ⟨hheaderHolds, hbodyHolds⟩ := Mem.holds_append.mp hbefore
  have hheaderLen : (bytes16 m.type ++ bytes16 length ++
      (bytes32 kStunMagicCookie ++ m.transactionId)).length = kStunHeaderSize := by
    rw [List.length_append, hfront]
    rfl
  rw [hheaderLen, Nat.zero_add] at hbodyHolds
  constructor
  · have hwalk := @walk_writeAttributes _ _ _ mem bytes.length _
      (fun attr hmem => size_lt_of_bodySize h.bodySize_lt hmem) hfirst h.written hbodyHolds (by omega)
    refine validateMessageIntegrity_of_layout hmac hfront hparts ?_ ?_ ?_ ?_ hwalk
    · simp only [List.length_append, length_bytes16]
      omega
    · simp only [List.length_append, length_bytes16, length_bytes32]
      omega
    · unfold kStunHeaderSize at hpreLen
      omega
    · unfold kStunHeaderSize at *
      omega
  · rw [hbytesLen]
    refine validateFingerprint_of_layout crc32 (h.bytes_eq ▸ hholds) ?_ ?_ ?_
    · omega
    · unfold kStunHeaderSize at hpreLen
      omega
    · have hcookie := (Mem.holds_append.mp (Mem.holds_append.mp hheaderHolds).2).1
      exact Mem.holds_bytes32.mp hcookie

/-- A hash of the lengths. -/
def lengthHmac (key data : List Byte) : List.Vector Byte 20 :=
  List.Vector.replicate 20 (BitVec.ofNat 8 (key.length + data.length))

def lengthCrc32 (data : List Byte) : U32 := BitVec.ofNat 32 data.length

theorem validate_signed_request :
    ∃ bytes, ((build .ice [.setType 0x0001, .setTransactionID (List.replicate 12 7),
        .addAttribute ⟨STUN_ATTR_USERNAME, .byteString [0x41]⟩]).signed lengthHmac lengthCrc32
          [1, 2] [⟨STUN_ATTR_PRIORITY, .uint32 5⟩]).write = some bytes ∧
      (validateMessageIntegrity lengthHmac (Mem.ofList bytes) bytes.length [1, 2]).1 = some true ∧
      (validateFingerprint lengthCrc32 (Mem.ofList bytes) bytes.length).1 = true :=
  ⟨_, rfl, validate_signed lengthHmac lengthCrc32 .ice
    [.setType 0x0001, .setTransactionID (List.replicate 12 7),
      .addAttribute ⟨STUN_ATTR_USERNAME, .byteString [0x41]⟩] [1, 2]
    [⟨STUN_ATTR_PRIORITY, .uint32 5⟩] (by decide) (by decide) (by decide) _ rfl⟩

/-- A message with a legacy id has no magic cookie, and the verifier takes the
first MESSAGE-INTEGRITY for the signature. -/
theorem not_validate_signed :
    (∃ bytes, ((build .stun []).signed lengthHmac lengthCrc32 [1, 2] []).write = some bytes ∧
      (validateFingerprint lengthCrc32 (Mem.ofList bytes) bytes.length).1 = false) ∧
    (∃ bytes, ((build .stun [.setTransactionID (List.replicate 12 7),
        .addAttribute ⟨STUN_ATTR_MESSAGE_INTEGRITY, .byteString []⟩]).signed lengthHmac lengthCrc32
          [1, 2] []).write = some bytes ∧
      (validateMessageIntegrity lengthHmac (Mem.ofList bytes) bytes.length [1, 2]).1 =
        some false) :=
  ⟨⟨_, rfl, by decide +kernel⟩, ⟨_, rfl, by decide +kernel⟩⟩

end PerchWebrtc.Stun
