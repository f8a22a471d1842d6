import PerchWebrtc.Stun.Message

/-!
# STUN messages that are written and read

Each reader undoes its writer, and the length of a message is that of its
attributes as long as that fits in 16 bits.

* `AttributeValue.readValue_write`: each kind of attribute;
* `readAttributes_write`: the attributes of a message;
* `WellBuilt`: the length that `AddAttribute` keeps;
* `read_write`: a message that has been built comes back, without host names.
-/

namespace PerchWebrtc.Stun

open Net (IPAddress SocketAddress)

namespace AttributeValue

/-- The bytes of a value before the padding. -/
def size : AttributeValue → Nat
  | .address a => (addressLength a.ip).toNat
  | .xorAddress a => (addressLength a.ip).toNat
  | .uint32 _ => 4
  | .uint64 _ => 8
  | .byteString bytes => bytes.length
  | .errorCode _ _ reason => 4 + reason.length
  | .uint16List attrTypes => attrTypes.length * 2

/-- A value that can be written in a message with a transaction id: an address
has a family, an IPv6 address is not XORed with a legacy id, and the class of an
error has three bits. -/
def Representable (transactionId : List Byte) : AttributeValue → Prop
  | .address a => a.ip ≠ .unspec
  | .xorAddress a =>
    a.ip ≠ .unspec ∧ ((∃ ip, a.ip = .v6 ip) → transactionId.length = kStunTransactionIdLength)
  | .errorCode eclass _ _ => eclass.toNat < 8
  | _ => True

/-- What is written of a value; the host name of an address is not. -/
def withoutHostname : AttributeValue → AttributeValue
  | .address a => .address { a with hostname := [] }
  | .xorAddress a => .xorAddress { a with hostname := [] }
  | v => v

end AttributeValue

def StunAttribute.withoutHostname (attr : StunAttribute) : StunAttribute :=
  { attr with value := attr.value.withoutHostname }

/-- The bytes of an attribute. -/
def attributeSize (attr : StunAttribute) : Nat :=
  4 + (attr.value.size + paddingLength attr.value.size)

def bodySize (attrs : List StunAttribute) : Nat := (attrs.map attributeSize).sum

/-! ## Values -/

theorem consumePadding_writePadding (length : U16) (tail : ByteBuffer) :
    consumePadding length (writePadding length ++ tail) = tail := by
  have hlen : paddingLength length.toNat = (writePadding length).length :=
    (List.length_replicate ..).symm
  rw [consumePadding, consume_append _ hlen, Option.getD_some]

theorem paddingLength_addressLength (ip : IPAddress) : paddingLength (addressLength ip).toNat = 0 := by
  cases ip with
  | unspec => exact (by decide : paddingLength SIZE_UNDEF.toNat = 0)
  | v4 ip => exact (by decide : paddingLength SIZE_IP4.toNat = 0)
  | v6 ip => exact (by decide : paddingLength SIZE_IP6.toNat = 0)

theorem getXoredIP_getXoredIP {transactionId : List Byte} {ip : IPAddress}
    (h : (∃ ip', ip = .v6 ip') → transactionId.length = kStunTransactionIdLength) :
    getXoredIP transactionId (getXoredIP transactionId ip) = ip := by
  cases ip with
  | unspec => rfl
  | v4 ip => simp only [getXoredIP, BitVec.xor_assoc, BitVec.xor_self, BitVec.xor_zero]
  | v6 ip =>
    simp only [getXoredIP, if_pos (h ⟨ip, rfl⟩), BitVec.xor_assoc, BitVec.xor_self, BitVec.xor_zero]

theorem addressLength_getXoredIP {transactionId : List Byte} {ip : IPAddress}
    (h : (∃ ip', ip = .v6 ip') → transactionId.length = kStunTransactionIdLength) :
    addressLength (getXoredIP transactionId ip) = addressLength ip := by
  cases ip with
  | unspec => rfl
  | v4 ip => rfl
  | v6 ip =>
    simp only [getXoredIP, if_pos (h ⟨ip, rfl⟩)]
    rfl

theorem xoredPort_xoredPort (port : U16) : xoredPort (xoredPort port) = port := by
  rw [xoredPort, xoredPort, BitVec.xor_assoc, BitVec.xor_self, BitVec.xor_zero]

theorem readAddress_writeAddress {port : U16} {ip : IPAddress} (h : ip ≠ .unspec) :
    ∃ bs, writeAddress port ip = some bs ∧ bs.length = (addressLength ip).toNat ∧
      ∀ tail, readAddress (addressLength ip) (bs ++ tail) = some ({ ip, port }, tail) := by
  cases ip with
  | unspec => exact absurd rfl h
  | v4 ip =>
    refine ⟨_, rfl, rfl, fun tail => ?_⟩
    simp only [readAddress, List.cons_append, List.nil_append, List.append_assoc, readUInt8_cons,
      readUInt16_bytes16, readUInt32_bytes32, Option.bind_eq_bind, Option.bind_some]
    rfl
  | v6 ip =>
    refine ⟨_, rfl, ?_, fun tail => ?_⟩
    · simp only [List.length_append, List.length_ofFn, length_bytes16]
      rfl
    · have hlen : 16 = (List.ofFn ip).length := (List.length_ofFn ..).symm
      have hget : (fun i : Fin 16 => (List.ofFn ip).getD i 0) = ip := by
        funext i
        rw [List.getD_eq_getElem _ _ (by rw [List.length_ofFn]; exact i.isLt), List.getElem_ofFn]
      simp only [readAddress, List.cons_append, List.nil_append, List.append_assoc, readUInt8_cons,
        readUInt16_bytes16, readBytes_append (List.ofFn ip) hlen, Option.bind_eq_bind,
        Option.bind_some, hget]
      rfl

theorem readUInt16s_flatMap (attrTypes : List U16) (tail : ByteBuffer) :
    readUInt16s attrTypes.length (attrTypes.flatMap bytes16 ++ tail) = some (attrTypes, tail) := by
  induction attrTypes with
  | nil => rfl
  | cons v l ih =>
    simp only [List.length_cons, readUInt16s, List.flatMap_cons, List.append_assoc,
      readUInt16_bytes16, Option.bind_eq_bind, Option.bind_some, ih]

/-- The two parts of an error code. -/
theorem errorCode_parts {eclass : Byte} (number : Byte) (h : eclass.toNat < 8) :
    let val : U32 := (eclass.setWidth 32 <<< 8) ||| number.setWidth 32
    ((val >>> 8) &&& 0x7).setWidth 8 = eclass ∧ (val &&& 0xff).setWidth 8 = number := by
  intro val
  have hval : val.toNat = eclass.toNat * 256 + number.toNat := by
    change ((eclass.setWidth 32 <<< 8) ||| number.setWidth 32).toNat = _
    have hclass : (eclass.setWidth 32).toNat = eclass.toNat := by
      rw [BitVec.toNat_setWidth, Nat.mod_eq_of_lt (by omega)]
    have hnumber : (number.setWidth 32).toNat = number.toNat := by
      rw [BitVec.toNat_setWidth, Nat.mod_eq_of_lt (by omega)]
    rw [BitVec.toNat_or, BitVec.toNat_shiftLeft, hclass, hnumber, Nat.mod_eq_of_lt (by
      rw [Nat.shiftLeft_eq]
      omega), ← Nat.shiftLeft_add_eq_or_of_lt number.isLt, Nat.shiftLeft_eq]
  constructor
  · apply BitVec.eq_of_toNat_eq
    rw [BitVec.toNat_setWidth, toNat_and_mask (w := 3) _ _ rfl, BitVec.toNat_ushiftRight, hval,
      Nat.shiftRight_eq_div_pow]
    omega
  · apply BitVec.eq_of_toNat_eq
    rw [BitVec.toNat_setWidth, toNat_and_mask (w := 8) _ _ rfl, hval]
    omega

theorem createAttribute_value (v : AttributeValue) (type : U16) :
    createAttribute v.valueType type v.length = some ⟨v.valueType, type, v.length⟩ := by
  cases v <;> rfl

variable {v : AttributeValue}

theorem AttributeValue.length_toNat (h : v.size < 2 ^ 16) : v.length.toNat = v.size := by
  cases v with
  | address a => rfl
  | xorAddress a => rfl
  | uint32 bits => rfl
  | uint64 bits => rfl
  | byteString bytes =>
    exact Nat.mod_eq_of_lt h
  | errorCode eclass number reason =>
    change 4 + reason.length < 2 ^ 16 at h
    change (MIN_SIZE + BitVec.ofNat 16 reason.length).toNat = 4 + reason.length
    have hmin : MIN_SIZE.toNat = 4 := rfl
    rw [BitVec.toNat_add, BitVec.toNat_ofNat, hmin]
    omega
  | uint16List attrTypes =>
    exact Nat.mod_eq_of_lt h

/-- A value is written with its padding. -/
theorem AttributeValue.length_write {transactionId bs : List Byte} (hsize : v.size < 2 ^ 16)
    (h : v.write transactionId = some bs) : bs.length = v.size + paddingLength v.size := by
  have hlength := AttributeValue.length_toNat hsize
  have haddress : ∀ {port ip bs}, writeAddress port ip = some bs →
      bs.length = (addressLength ip).toNat := by
    intro port ip bs hwrite
    by_cases hne : ip = .unspec
    · rw [hne] at hwrite
      cases hwrite
    · obtain ⟨bs', hwrite', hlen, -⟩ := @readAddress_writeAddress port ip hne
      rw [hwrite'] at hwrite
      cases hwrite
      exact hlen
  cases v with
  | address a =>
    rw [AttributeValue.size, paddingLength_addressLength]
    exact haddress h
  | xorAddress a =>
    rw [AttributeValue.size, paddingLength_addressLength]
    rw [AttributeValue.write] at h
    split at h
    · cases h
    · rename_i hne
      rw [haddress h]
      cases hip : a.ip with
      | unspec => exact absurd hip hne
      | v4 ip => rfl
      | v6 ip =>
        rw [hip] at h
        unfold getXoredIP at h ⊢
        dsimp only at h ⊢
        split at h
        · rw [if_pos (by assumption)]
          rfl
        · cases h
  | uint32 bits =>
    cases h
    exact (by decide : 4 = 4 + paddingLength 4)
  | uint64 bits =>
    cases h
    exact (by decide : 8 = 8 + paddingLength 8)
  | byteString bytes =>
    change (BitVec.ofNat 16 bytes.length).toNat = bytes.length at hlength
    cases h
    rw [List.length_append, hlength, List.take_length, writePadding, List.length_replicate, hlength]
    rfl
  | errorCode eclass number reason =>
    change (MIN_SIZE + BitVec.ofNat 16 reason.length).toNat = 4 + reason.length at hlength
    cases h
    rw [List.length_append, List.length_append, writePadding, List.length_replicate, hlength,
      length_bytes32]
    rfl
  | uint16List attrTypes =>
    change (BitVec.ofNat 16 (attrTypes.length * 2)).toNat = attrTypes.length * 2 at hlength
    cases h
    rw [List.length_append, writePadding, List.length_replicate, hlength,
      length_flatMap_const length_bytes16, Nat.mul_comm]
    rfl

/-- A value that is written, with its padding, and then read. -/
theorem AttributeValue.readValue_write {transactionId : List Byte} (hsize : v.size < 2 ^ 16)
    (h : v.Representable transactionId) (type : U16) :
    ∃ bs, v.write transactionId = some bs ∧ ∀ tail, ∃ next,
        (⟨v.valueType, type, v.length⟩ : CreatedAttribute).readValue transactionId (bs ++ tail) =
          some (v.withoutHostname, next) ∧
        (⟨v.valueType, type, v.length⟩ : CreatedAttribute).readPadding next = tail := by
  have hlength := AttributeValue.length_toNat hsize
  cases v with
  | address a =>
    obtain ⟨bs, hwrite, -, hread⟩ := @readAddress_writeAddress a.port a.ip h
    refine ⟨bs, hwrite, fun tail => ⟨tail, ?_, rfl⟩⟩
    exact congrArg (Option.map _) (hread tail)
  | xorAddress a =>
    obtain ⟨hne, hid⟩ := h
    have hxne : getXoredIP transactionId a.ip ≠ .unspec := by
      intro hunspec
      have hback := getXoredIP_getXoredIP hid
      rw [hunspec] at hback
      exact hne hback.symm
    obtain ⟨bs, hwrite, -, hread⟩ := @readAddress_writeAddress (xoredPort a.port) _ hxne
    rw [addressLength_getXoredIP hid] at hread
    have hwrite' : (AttributeValue.xorAddress a).write transactionId = some bs := by
      rw [AttributeValue.write, if_neg hne]
      exact hwrite
    refine ⟨bs, hwrite', fun tail => ⟨tail, ?_, rfl⟩⟩
    refine (congrArg (Option.map _) (hread tail)).trans ?_
    rw [Option.map_some, getXoredIP_getXoredIP hid, xoredPort_xoredPort]
    rfl
  | uint32 bits =>
    refine ⟨_, rfl, fun tail => ⟨tail, ?_, rfl⟩⟩
    simp only [CreatedAttribute.readValue, AttributeValue.valueType, AttributeValue.length, ne_eq,
        not_true_eq_false, if_false, readUInt32_bytes32, Option.map_some,
        AttributeValue.withoutHostname]
  | uint64 bits =>
    refine ⟨_, rfl, fun tail => ⟨tail, ?_, rfl⟩⟩
    simp only [CreatedAttribute.readValue, AttributeValue.valueType, AttributeValue.length, ne_eq,
        not_true_eq_false, if_false, readUInt64_bytes64, Option.map_some,
        AttributeValue.withoutHostname]
  | byteString bytes =>
    change (BitVec.ofNat 16 bytes.length).toNat = bytes.length at hlength
    refine ⟨_, rfl, fun tail =>
      ⟨writePadding (BitVec.ofNat 16 bytes.length) ++ tail, ?_, ?_⟩⟩
    · rw [hlength, List.take_length, List.append_assoc]
      exact congrArg (Option.map _) (readBytes_append bytes hlength)
    · exact consumePadding_writePadding _ tail
  | errorCode eclass number reason =>
    change (MIN_SIZE + BitVec.ofNat 16 reason.length).toNat = 4 + reason.length at hlength
    obtain ⟨hclass, hnumber⟩ := errorCode_parts number h
    refine ⟨_, rfl, fun tail =>
      ⟨writePadding (MIN_SIZE + BitVec.ofNat 16 reason.length) ++ tail, ?_, ?_⟩⟩
    · have hmin : ¬ MIN_SIZE + BitVec.ofNat 16 reason.length < MIN_SIZE := by
        rw [BitVec.lt_def, hlength]
        exact Nat.not_lt.mpr (Nat.le_add_right 4 _)
      have hreason : (MIN_SIZE + BitVec.ofNat 16 reason.length - 4).toNat = reason.length := by
        have hfour : (4 : U16).toNat = 4 := rfl
        have hlt := (MIN_SIZE + BitVec.ofNat 16 reason.length).isLt
        rw [BitVec.toNat_sub, hlength, hfour]
        omega
      simp only [CreatedAttribute.readValue, AttributeValue.valueType, AttributeValue.length,
        List.append_assoc, if_neg hmin, readUInt32_bytes32, hreason, readString_append reason rfl,
        Option.bind_eq_bind, Option.bind_some, hclass, hnumber, AttributeValue.withoutHostname]
    · exact consumePadding_writePadding _ tail
  | uint16List attrTypes =>
    change (BitVec.ofNat 16 (attrTypes.length * 2)).toNat = attrTypes.length * 2 at hlength
    refine ⟨_, rfl, fun tail =>
      ⟨writePadding (BitVec.ofNat 16 (attrTypes.length * 2)) ++ tail, ?_, ?_⟩⟩
    · have heven : ¬ (BitVec.ofNat 16 (attrTypes.length * 2)).toNat % 2 ≠ 0 := by
        rw [hlength]
        omega
      have hhalf : (BitVec.ofNat 16 (attrTypes.length * 2)).toNat / 2 = attrTypes.length := by
        rw [hlength]
        omega
      simp only [CreatedAttribute.readValue, AttributeValue.valueType, AttributeValue.length,
        List.append_assoc, if_neg heven, hhalf, readUInt16s_flatMap, Option.map_some,
        AttributeValue.withoutHostname]
    · exact consumePadding_writePadding _ tail

/-! ## Messages -/

section Body

variable {cls : MessageClass} {transactionId : List Byte} {attrs : List StunAttribute}

theorem size_lt_of_bodySize (h : bodySize attrs < 2 ^ 16) {attr : StunAttribute} (hmem : attr ∈ attrs) :
    attr.value.size < 2 ^ 16 := by
  have hle : attributeSize attr ≤ bodySize attrs := List.le_sum_of_mem (List.mem_map_of_mem hmem)
  unfold attributeSize at hle
  omega

theorem length_le_bodySize : ∀ attrs : List StunAttribute, attrs.length ≤ bodySize attrs
  | [] => Nat.le_refl _
  | attr :: attrs => by
    have hle := length_le_bodySize attrs
    simp only [bodySize, List.map_cons, List.sum_cons, List.length_cons, attributeSize] at hle ⊢
    omega

/-- The attributes of a message, with any bytes behind them. -/
theorem readAttributes_write
    (htypes : ∀ attr ∈ attrs, attr.value.valueType = cls.getAttributeValueType attr.type)
    (hsizes : ∀ attr ∈ attrs, attr.value.size < 2 ^ 16)
    (h : ∀ attr ∈ attrs, attr.value.Representable transactionId) :
    ∃ bs, StunMessage.writeAttributes transactionId attrs = some bs ∧ bs.length = bodySize attrs ∧
      ∀ tail fuel, attrs.length < fuel → ∃ entries,
        readAttributes cls transactionId tail.length fuel (bs ++ tail) = some (entries, tail) ∧
        (entries.filterMap fun e => e.parsed.map Prod.fst) =
          attrs.map StunAttribute.withoutHostname := by
  induction attrs with
  | nil =>
    refine ⟨[], rfl, rfl, fun tail fuel hfuel => ⟨[], ?_, rfl⟩⟩
    obtain ⟨fuel, rfl⟩ := Nat.exists_eq_add_one_of_ne_zero (Nat.ne_of_gt hfuel)
    rw [List.nil_append, readAttributes, if_neg (Nat.lt_irrefl _)]
  | cons attr attrs ih =>
    obtain ⟨body, hbody, hlen, hread⟩ := ih (fun a ha => htypes a (List.mem_cons_of_mem _ ha))
      (fun a ha => hsizes a (List.mem_cons_of_mem _ ha)) fun a ha => h a (List.mem_cons_of_mem _ ha)
    obtain ⟨value, hvalue, hvread⟩ := AttributeValue.readValue_write
      (hsizes attr List.mem_cons_self) (h attr List.mem_cons_self) attr.type
    have hvlen := AttributeValue.length_write (hsizes attr List.mem_cons_self) hvalue
    refine ⟨bytes16 attr.type ++ bytes16 attr.value.length ++ value ++ body, ?_, ?_,
      fun tail fuel hfuel => ?_⟩
    · rw [StunMessage.writeAttributes, hvalue, hbody]
      rfl
    · simp only [List.length_append, length_bytes16, hvlen, hlen, bodySize, List.map_cons,
        List.sum_cons, attributeSize]
    · obtain ⟨fuel, rfl⟩ := Nat.exists_eq_add_one_of_ne_zero (Nat.ne_zero_of_lt hfuel)
      obtain ⟨entries, hentries, hattrs⟩ := hread tail fuel (Nat.lt_of_succ_lt_succ hfuel)
      obtain ⟨next, hnext, hpadding⟩ := hvread (body ++ tail)
      refine ⟨⟨bytes16 attr.type ++ bytes16 attr.value.length ++ value ++ body ++ tail, attr.type,
        attr.value.length, some (attr.withoutHostname, next)⟩ :: entries, ?_, ?_⟩
      · have hmore : (bytes16 attr.type ++ bytes16 attr.value.length ++ value ++ body ++ tail).length >
            tail.length := by
          simp only [List.length_append, length_bytes16]
          omega
        have hcreate := createAttribute_value attr.value attr.type
        rw [htypes attr List.mem_cons_self] at hcreate hnext hpadding
        rw [readAttributes, if_pos hmore]
        simp only [List.append_assoc, readUInt16_bytes16, Option.bind_eq_bind, Option.bind_some,
          hcreate, hnext, hpadding, hentries, StunAttribute.withoutHostname]
      · rw [List.filterMap_cons_some (by rfl), List.map_cons, hattrs]

end Body

/-- The length that `AddAttribute` keeps, and the value types it admits. -/
structure WellBuilt (m : StunMessage) : Prop where
  valueTypes : ∀ attr ∈ m.attrs, attr.value.valueType = m.cls.getAttributeValueType attr.type
  length : m.length = BitVec.ofNat 16 ((m.attrs.map fun attr =>
    attr.value.length.toNat + paddingLength attr.value.length.toNat + 4).sum)
  transactionId : isValidTransactionId m.transactionId = true

theorem wellBuilt_new (cls : MessageClass) : WellBuilt { cls } where
  valueTypes := fun attr hmem => absurd hmem List.not_mem_nil
  length := rfl
  transactionId := (by decide : isValidTransactionId (List.replicate 16 0x30) = true)

section WellBuilt

variable {m : StunMessage}

theorem WellBuilt.setType (h : WellBuilt m) (type : U16) : WellBuilt (m.setType type) :=
  ⟨h.valueTypes, h.length, h.transactionId⟩

theorem WellBuilt.setTransactionID (h : WellBuilt m) (str : List Byte) :
    WellBuilt (m.setTransactionID str).2 := by
  unfold StunMessage.setTransactionID
  by_cases hvalid : isValidTransactionId str = true
  · rw [if_pos hvalid]
    exact ⟨h.valueTypes, h.length, hvalid⟩
  · rw [if_neg hvalid]
    exact h

/-- An attribute that is added, or rejected. -/
theorem addAttribute_eq (m : StunMessage) (attr : StunAttribute) :
    m.addAttribute attr =
      if attr.value.valueType ≠ m.cls.getAttributeValueType attr.type then (false, m)
      else (true, { m with
        attrs := m.attrs ++ [attr]
        length := m.length + BitVec.ofNat 16
          (attr.value.length.toNat + paddingLength attr.value.length.toNat + 4) }) := by
  have hround : (if attr.value.length.toNat % 4 ≠ 0 then
      attr.value.length.toNat + (4 - attr.value.length.toNat % 4) else attr.value.length.toNat) =
      attr.value.length.toNat + paddingLength attr.value.length.toNat := by
    unfold paddingLength
    split <;> rfl
  unfold StunMessage.addAttribute
  dsimp only
  rw [hround]

theorem WellBuilt.addAttribute (h : WellBuilt m) (attr : StunAttribute) :
    WellBuilt (m.addAttribute attr).2 := by
  rw [addAttribute_eq]
  by_cases htype : attr.value.valueType = m.cls.getAttributeValueType attr.type
  · rw [if_neg (not_not.mpr htype)]
    refine ⟨fun a ha => ?_, ?_, h.transactionId⟩
    · rcases List.mem_append.mp ha with hold | hnew
      · exact h.valueTypes a hold
      · rw [List.mem_singleton.mp hnew]
        exact htype
    · dsimp only
      rw [h.length, List.map_append, List.sum_append, List.map_singleton, List.sum_singleton,
        BitVec.ofNat_add (List.sum _)]
  · rw [if_pos htype]
    exact h

theorem WellBuilt.length_toNat (h : WellBuilt m) (hsize : bodySize m.attrs < 2 ^ 16) :
    m.length.toNat = bodySize m.attrs := by
  have hsum : (m.attrs.map fun attr =>
      attr.value.length.toNat + paddingLength attr.value.length.toNat + 4) =
      m.attrs.map attributeSize := by
    refine List.map_congr_left fun attr hmem => ?_
    rw [AttributeValue.length_toNat (size_lt_of_bodySize hsize hmem), attributeSize]
    omega
  rw [h.length, hsum, BitVec.toNat_ofNat]
  exact Nat.mod_eq_of_lt hsize

end WellBuilt

/-- A message that can be written and read: its type has 14 bits, as many as
`Read` accepts, its attributes fit in 16 bits of length, and a legacy
transaction id does not start with the magic cookie. -/
structure Representable (m : StunMessage) : Prop where
  type : m.type &&& 0x8000 = 0
  size : bodySize m.attrs < 2 ^ 16
  values : ∀ attr ∈ m.attrs, attr.value.Representable m.transactionId
  legacy : m.transactionId.length = kStunLegacyTransactionIdLength →
    be32 (Mem.ofList m.transactionId) 0 ≠ kStunMagicCookie

/-- The header of a message. -/
theorem read_writeHeader {m : StunMessage} (h : WellBuilt m) (hrep : Representable m)
    {body : ByteBuffer} (hbody : body.length = bodySize m.attrs) :
    StunMessage.read m.cls (m.writeHeader ++ body) =
      (readAttributes m.cls m.transactionId 0 (body.length + 1) body).map fun r =>
        ⟨{ m with attrs := r.1.filterMap fun e => e.parsed.map Prod.fst }, r.1, r.2⟩ := by
  have hlength : m.length.toNat = body.length := (h.length_toNat hrep.size).trans hbody.symm
  have hvalid : m.transactionId.length = kStunTransactionIdLength ∨
      m.transactionId.length = kStunLegacyTransactionIdLength := of_decide_eq_true h.transactionId
  unfold StunMessage.read StunMessage.writeHeader
  simp only [List.append_assoc, readUInt16_bytes16, Option.bind_eq_bind, Option.bind_some]
  rw [if_neg (not_not.mpr hrep.type)]
  by_cases hlegacy : m.transactionId.length = kStunLegacyTransactionIdLength
  · -- the first four bytes of the id are read as the cookie
    have hsplit : m.transactionId = m.transactionId.take 4 ++ m.transactionId.drop 4 :=
      (List.take_append_drop 4 _).symm
    have hlow : kStunMagicCookieLength = (m.transactionId.take 4).length := by
      rw [List.length_take, hlegacy]
      rfl
    have hhigh : kStunTransactionIdLength = (m.transactionId.drop 4).length := by
      rw [List.length_drop, hlegacy]
      rfl
    have hcookie : be32 (Mem.ofList (m.transactionId.take 4)) 0 ≠ kStunMagicCookie := by
      have hcongr : be32 (Mem.ofList (m.transactionId.take 4)) 0 =
          be32 (Mem.ofList m.transactionId) 0 := by
        refine be32_congr fun i hi => ?_
        simp only [Mem.ofList, List.getD_eq_getElem?_getD, List.getElem?_take, Nat.zero_add,
          if_pos hi]
      rw [hcongr]
      exact hrep.legacy hlegacy
    have hlegacy' : m.isLegacy = true := decide_eq_true hlegacy
    have hread : ∀ tail, readString [] kStunMagicCookieLength (m.transactionId ++ tail) =
        some (m.transactionId.take 4, m.transactionId.drop 4 ++ tail) := by
      intro tail
      conv_lhs => rw [hsplit]
      rw [List.append_assoc, readString_append _ hlow]
    simp only [hlegacy', if_pos, List.nil_append, hread, Option.bind_some,
      readString_append _ hhigh, if_pos hcookie, List.take_append_drop, hlength, Nat.sub_self]
    rw [if_neg (not_not.mpr rfl)]
    cases readAttributes m.cls m.transactionId 0 (body.length + 1) body <;> rfl
  · have hid : kStunTransactionIdLength = m.transactionId.length :=
      (hvalid.resolve_right hlegacy).symm
    have hlegacy' : m.isLegacy = false := decide_eq_false hlegacy
    have hholds : (Mem.ofList (bytes32 kStunMagicCookie)).Holds 0 (bytes32 kStunMagicCookie) :=
      @Mem.holds_of_eq _ [] _ rfl
    have hcookie := Mem.holds_bytes32.mp hholds
    simp only [hlegacy', Bool.false_eq_true, if_false,
      readString_append (bytes32 kStunMagicCookie) (show kStunMagicCookieLength = _ from rfl),
      Option.bind_some, readString_append _ hid, hcookie, ne_eq, not_true_eq_false, hlength,
      Nat.sub_self]
    cases readAttributes m.cls m.transactionId 0 (body.length + 1) body <;> rfl

/-- What builds a message. -/
inductive BuildCall where
  | setType (type : U16)
  | setTransactionID (str : List Byte)
  | addAttribute (attr : StunAttribute)

def BuildCall.apply (m : StunMessage) : BuildCall → StunMessage
  | .setType type => m.setType type
  | .setTransactionID str => (m.setTransactionID str).2
  | .addAttribute attr => (m.addAttribute attr).2

def build (cls : MessageClass) (calls : List BuildCall) : StunMessage :=
  calls.foldl BuildCall.apply { cls }

theorem WellBuilt.apply {m : StunMessage} (h : WellBuilt m) (c : BuildCall) :
    WellBuilt (c.apply m) ∧ (c.apply m).cls = m.cls := by
  cases c with
  | setType type => exact ⟨h.setType type, rfl⟩
  | setTransactionID str =>
    refine ⟨h.setTransactionID str, ?_⟩
    simp only [BuildCall.apply, StunMessage.setTransactionID]
    split <;> rfl
  | addAttribute attr =>
    refine ⟨h.addAttribute attr, ?_⟩
    simp only [BuildCall.apply, addAttribute_eq]
    split <;> rfl

theorem wellBuilt_build (cls : MessageClass) (calls : List BuildCall) :
    WellBuilt (build cls calls) ∧ (build cls calls).cls = cls := by
  have hrun : ∀ m : StunMessage, WellBuilt m →
      WellBuilt (calls.foldl BuildCall.apply m) ∧ (calls.foldl BuildCall.apply m).cls = m.cls := by
    induction calls with
    | nil => exact fun m h => ⟨h, rfl⟩
    | cons c calls ih =>
      intro m h
      obtain ⟨hnext, hcls⟩ := h.apply c
      obtain ⟨hwell, hsame⟩ := ih _ hnext
      exact ⟨hwell, hsame.trans hcls⟩
  exact hrun _ (wellBuilt_new cls)

/-- A message that has been built is written and then read by a message of its
class with nothing left, and is the same but for the host names of its
addresses. -/
theorem read_write (cls : MessageClass) (calls : List BuildCall)
    (hrep : Representable (build cls calls)) :
    ∃ bytes entries, (build cls calls).write = some bytes ∧
      StunMessage.read cls bytes = some ⟨{ build cls calls with
        attrs := (build cls calls).attrs.map StunAttribute.withoutHostname }, entries, []⟩ := by
  obtain ⟨hwell, hcls⟩ := wellBuilt_build cls calls
  generalize build cls calls = m at *
  subst hcls
  obtain ⟨body, hwrite, hlen, hread⟩ := readAttributes_write hwell.valueTypes
    (fun attr hmem => size_lt_of_bodySize hrep.size hmem) hrep.values
  have hfuel : m.attrs.length < body.length + 1 := by
    have hle : m.attrs.length ≤ bodySize m.attrs := by
      exact length_le_bodySize m.attrs
    omega
  obtain ⟨entries, hentries, hattrs⟩ := hread [] _ hfuel
  rw [List.append_nil, List.length_nil] at hentries
  refine ⟨m.writeHeader ++ body, entries, ?_, ?_⟩
  · rw [StunMessage.write, hwrite]
    rfl
  · rw [read_writeHeader hwell hrep hlen, hentries, Option.map_some, hattrs]

/-- A response with an error, an XORed address and a byte string. -/
def errorResponse : List BuildCall :=
  [.setType 0x0113, .setTransactionID (List.replicate 12 7),
    .addAttribute ⟨STUN_ATTR_ERROR_CODE, .errorCode 4 37 [0x41, 0x42, 0x43]⟩,
    .addAttribute ⟨STUN_ATTR_XOR_PEER_ADDRESS, .xorAddress { ip := .v4 0x0A000001, port := 80 }⟩,
    .addAttribute ⟨STUN_ATTR_NONCE, .byteString [1, 2, 3, 4, 5]⟩]

theorem read_write_errorResponse :
    ∃ bytes entries, (build .turn errorResponse).write = some bytes ∧
      StunMessage.read .turn bytes = some ⟨{ build .turn errorResponse with
        attrs := (build .turn errorResponse).attrs.map StunAttribute.withoutHostname },
        entries, []⟩ := by
  refine read_write .turn errorResponse ⟨by decide, by decide, ?_, ?_⟩
  · intro attr hmem
    rcases List.mem_cons.mp hmem with rfl | hmem
    · exact (by decide : (4 : Byte).toNat < 8)
    rcases List.mem_cons.mp hmem with rfl | hmem
    · exact ⟨by decide, fun _ => rfl⟩
    rcases List.mem_cons.mp hmem with rfl | hmem
    · trivial
    · cases hmem
  · exact fun hlegacy => absurd hlegacy (by decide)

/-- The messages that are written and do not come back: one with the type of an
RTP packet, one with an error of a class above 7, one with an address with a
host name; an address without a family is not written. -/
theorem not_read_write :
    (∃ bytes, (build .stun [.setType 0x8001]).write = some bytes ∧
      StunMessage.read .stun bytes = none) ∧
    (∃ bytes, (build .stun
        [.addAttribute ⟨STUN_ATTR_ERROR_CODE, .errorCode 8 0 []⟩]).write = some bytes ∧
      (StunMessage.read .stun bytes).map (fun r => r.message.attrs) =
        some [⟨STUN_ATTR_ERROR_CODE, .errorCode 0 0 []⟩]) ∧
    (∃ bytes, (build .stun [.addAttribute ⟨STUN_ATTR_MAPPED_ADDRESS,
        .address { hostname := [0x61], ip := .v4 0, port := 80 }⟩]).write = some bytes ∧
      (StunMessage.read .stun bytes).map (fun r => r.message.attrs) =
        some [⟨STUN_ATTR_MAPPED_ADDRESS, .address { ip := .v4 0, port := 80 }⟩]) ∧
    (build .stun [.addAttribute ⟨STUN_ATTR_MAPPED_ADDRESS, .address {}⟩]).write = none := by
  refine ⟨⟨_, rfl, by decide⟩, ⟨_, rfl, by decide +kernel⟩, ⟨_, rfl, by decide +kernel⟩, rfl⟩

end PerchWebrtc.Stun
