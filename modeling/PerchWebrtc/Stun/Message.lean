import PerchWebrtc.Net.SocketAddress
import PerchWebrtc.Stun.ByteBuffer

/-!
# STUN messages

`StunMessage` and the subclasses of `StunAttribute` (`stun.h`, `stun.cc`). A
message class is the table of the attributes that it knows. The attributes of a
message have it as their owner.

A message that is read comes with a log: for each attribute the bytes from its
header on, its declared length, and the bytes left after its value.
-/

namespace PerchWebrtc.Stun

open Net (IPAddress SocketAddress)

def STUN_ATTR_MAPPED_ADDRESS : U16 := 0x0001
def STUN_ATTR_USERNAME : U16 := 0x0006
def STUN_ATTR_MESSAGE_INTEGRITY : U16 := 0x0008
def STUN_ATTR_ERROR_CODE : U16 := 0x0009
def STUN_ATTR_UNKNOWN_ATTRIBUTES : U16 := 0x000a
def STUN_ATTR_CHANNEL_NUMBER : U16 := 0x000c
def STUN_ATTR_LIFETIME : U16 := 0x000d
def STUN_ATTR_TURN_LIFETIME : U16 := 0x000d
def STUN_ATTR_MAGIC_COOKIE : U16 := 0x000f
def STUN_ATTR_BANDWIDTH : U16 := 0x0010
def STUN_ATTR_DESTINATION_ADDRESS : U16 := 0x0011
def STUN_ATTR_SOURCE_ADDRESS2 : U16 := 0x0012
def STUN_ATTR_XOR_PEER_ADDRESS : U16 := 0x0012
def STUN_ATTR_DATA : U16 := 0x0013
def STUN_ATTR_REALM : U16 := 0x0014
def STUN_ATTR_NONCE : U16 := 0x0015
def STUN_ATTR_XOR_RELAYED_ADDRESS : U16 := 0x0016
def STUN_ATTR_EVEN_PORT : U16 := 0x0018
def STUN_ATTR_REQUESTED_TRANSPORT : U16 := 0x0019
def STUN_ATTR_DONT_FRAGMENT : U16 := 0x001a
def STUN_ATTR_XOR_MAPPED_ADDRESS : U16 := 0x0020
def STUN_ATTR_RESERVATION_TOKEN : U16 := 0x0022
def STUN_ATTR_PRIORITY : U16 := 0x0024
def STUN_ATTR_USE_CANDIDATE : U16 := 0x0025
def STUN_ATTR_OPTIONS : U16 := 0x8001
def STUN_ATTR_SOFTWARE : U16 := 0x8022
def STUN_ATTR_ALTERNATE_SERVER : U16 := 0x8023
def STUN_ATTR_FINGERPRINT : U16 := 0x8028
def STUN_ATTR_ICE_CONTROLLED : U16 := 0x8029
def STUN_ATTR_ICE_CONTROLLING : U16 := 0x802a
def STUN_ATTR_RETRANSMIT_COUNT : U16 := 0xff00

inductive StunAttributeValueType where
  | unknown
  | address
  | xorAddress
  | uint32
  | uint64
  | byteString
  | errorCode
  | uint16List
  deriving DecidableEq

def STUN_ADDRESS_IPV4 : Byte := 1
def STUN_ADDRESS_IPV6 : Byte := 2

def kStunAttributeHeaderSize : Nat := 4
def kStunHeaderSize : Nat := 20
def kStunTransactionIdOffset : Nat := 8
def kStunTransactionIdLength : Nat := 12
def kStunMagicCookie : U32 := 0x2112A442
def kStunMagicCookieLength : Nat := 4
def kStunLegacyTransactionIdLength : Nat := 16
def kStunMessageIntegritySize : Nat := 20

def SIZE_UNDEF : U16 := 0
def SIZE_IP4 : U16 := 8
def SIZE_IP6 : U16 := 20
def MIN_SIZE : U16 := 4

/-- `StunMessage`, `RelayMessage`, `TurnMessage` and `IceMessage`. -/
inductive MessageClass where
  | stun
  | relay
  | turn
  | ice
  deriving DecidableEq

namespace MessageClass

/-- `StunMessage::GetAttributeValueType`. -/
def stunAttributeValueType (type : U16) : StunAttributeValueType :=
  if type = STUN_ATTR_MAPPED_ADDRESS then .address
  else if type = STUN_ATTR_USERNAME then .byteString
  else if type = STUN_ATTR_MESSAGE_INTEGRITY then .byteString
  else if type = STUN_ATTR_ERROR_CODE then .errorCode
  else if type = STUN_ATTR_UNKNOWN_ATTRIBUTES then .uint16List
  else if type = STUN_ATTR_REALM then .byteString
  else if type = STUN_ATTR_NONCE then .byteString
  else if type = STUN_ATTR_XOR_MAPPED_ADDRESS then .xorAddress
  else if type = STUN_ATTR_SOFTWARE then .byteString
  else if type = STUN_ATTR_ALTERNATE_SERVER then .byteString
  else if type = STUN_ATTR_FINGERPRINT then .uint32
  else if type = STUN_ATTR_RETRANSMIT_COUNT then .uint32
  else .unknown

def getAttributeValueType (cls : MessageClass) (type : U16) : StunAttributeValueType :=
  match cls with
  | .stun => stunAttributeValueType type
  | .relay =>
    if type = STUN_ATTR_LIFETIME then .uint32
    else if type = STUN_ATTR_MAGIC_COOKIE then .byteString
    else if type = STUN_ATTR_BANDWIDTH then .uint32
    else if type = STUN_ATTR_DESTINATION_ADDRESS then .address
    else if type = STUN_ATTR_SOURCE_ADDRESS2 then .address
    else if type = STUN_ATTR_DATA then .byteString
    else if type = STUN_ATTR_OPTIONS then .uint32
    else stunAttributeValueType type
  | .turn =>
    if type = STUN_ATTR_CHANNEL_NUMBER then .uint32
    else if type = STUN_ATTR_TURN_LIFETIME then .uint32
    else if type = STUN_ATTR_XOR_PEER_ADDRESS then .xorAddress
    else if type = STUN_ATTR_DATA then .byteString
    else if type = STUN_ATTR_XOR_RELAYED_ADDRESS then .xorAddress
    else if type = STUN_ATTR_EVEN_PORT then .byteString
    else if type = STUN_ATTR_REQUESTED_TRANSPORT then .uint32
    else if type = STUN_ATTR_DONT_FRAGMENT then .byteString
    else if type = STUN_ATTR_RESERVATION_TOKEN then .byteString
    else stunAttributeValueType type
  | .ice =>
    if type = STUN_ATTR_PRIORITY then .uint32
    else if type = STUN_ATTR_USE_CANDIDATE then .byteString
    else if type = STUN_ATTR_ICE_CONTROLLED then .uint64
    else if type = STUN_ATTR_ICE_CONTROLLING then .uint64
    else stunAttributeValueType type

end MessageClass

/-! ## Attributes -/

inductive AttributeValue where
  | address (address : SocketAddress)
  | xorAddress (address : SocketAddress)
  | uint32 (bits : U32)
  | uint64 (bits : U64)
  | byteString (bytes : List Byte)
  | errorCode (eclass number : Byte) (reason : List Byte)
  | uint16List (attrTypes : List U16)
  deriving DecidableEq

structure StunAttribute where
  type : U16
  value : AttributeValue
  deriving DecidableEq

/-- `EnsureAddressLength`. -/
def addressLength : IPAddress → U16
  | .unspec => SIZE_UNDEF
  | .v4 _ => SIZE_IP4
  | .v6 _ => SIZE_IP6

/-- The bytes that pad a value, by its length. -/
def paddingLength (length : Nat) : Nat := if length % 4 ≠ 0 then 4 - length % 4 else 0

def writePadding (length : U16) : List Byte := List.replicate (paddingLength length.toNat) 0

/-- Padding that is missing is not noticed. -/
def consumePadding (length : U16) (buf : ByteBuffer) : ByteBuffer :=
  (consume (paddingLength length.toNat) buf).getD buf

/-- `GetXoredIP`. -/
def getXoredIP (transactionId : List Byte) : IPAddress → IPAddress
  | .unspec => .unspec
  | .v4 ip => .v4 (ip ^^^ kStunMagicCookie)
  | .v6 ip =>
    if transactionId.length = kStunTransactionIdLength then
      .v6 fun i => ip i ^^^ (bytes32 kStunMagicCookie ++ transactionId).getD i 0
    else .unspec

def xoredPort (port : U16) : U16 := port ^^^ kStunMagicCookie.extractLsb' 16 16

/-- A family, a port and an address; `none` for an address without a family. -/
def writeAddress (port : U16) : IPAddress → Option (List Byte)
  | .unspec => none
  | .v4 ip => some ([0, STUN_ADDRESS_IPV4] ++ bytes16 port ++ bytes32 ip)
  | .v6 ip => some ([0, STUN_ADDRESS_IPV6] ++ bytes16 port ++ List.ofFn ip)

namespace AttributeValue

def valueType : AttributeValue → StunAttributeValueType
  | .address _ => .address
  | .xorAddress _ => .xorAddress
  | .uint32 _ => .uint32
  | .uint64 _ => .uint64
  | .byteString _ => .byteString
  | .errorCode .. => .errorCode
  | .uint16List _ => .uint16List

/-- `length()`. -/
def length : AttributeValue → U16
  | .address a => addressLength a.ip
  | .xorAddress a => addressLength a.ip
  | .uint32 _ => 4
  | .uint64 _ => 8
  | .byteString bytes => BitVec.ofNat 16 bytes.length
  | .errorCode _ _ reason => MIN_SIZE + BitVec.ofNat 16 reason.length
  | .uint16List attrTypes => BitVec.ofNat 16 (attrTypes.length * 2)

/-- `Write`; `none` stands for `false`. -/
def write (transactionId : List Byte) : AttributeValue → Option (List Byte)
  | .address a => writeAddress a.port a.ip
  | .xorAddress a =>
    if a.ip = .unspec then none
    else writeAddress (xoredPort a.port) (getXoredIP transactionId a.ip)
  | .uint32 bits => some (bytes32 bits)
  | .uint64 bits => some (bytes64 bits)
  | .byteString bytes =>
    let length := BitVec.ofNat 16 bytes.length
    some (bytes.take length.toNat ++ writePadding length)
  | .errorCode eclass number reason =>
    some (bytes32 ((eclass.setWidth 32 <<< 8) ||| number.setWidth 32) ++ reason ++
      writePadding (MIN_SIZE + BitVec.ofNat 16 reason.length))
  | .uint16List attrTypes =>
    some (attrTypes.flatMap bytes16 ++ writePadding (BitVec.ofNat 16 (attrTypes.length * 2)))

/-- The value of an attribute that holds an address. -/
def address? : AttributeValue → Option SocketAddress
  | .address a => some a
  | .xorAddress a => some a
  | _ => none

def uint32? : AttributeValue → Option U32
  | .uint32 bits => some bits
  | _ => none

def uint64? : AttributeValue → Option U64
  | .uint64 bits => some bits
  | _ => none

def byteString? : AttributeValue → Option (List Byte)
  | .byteString bytes => some bytes
  | _ => none

end AttributeValue

/-! ## Reading attributes -/

/-- An attribute that has been created for a header and is to be read. -/
structure CreatedAttribute where
  valueType : StunAttributeValueType
  type : U16
  length : U16

/-- `StunAttribute::Create`; integers do not get the length that is declared. -/
def createAttribute (valueType : StunAttributeValueType) (type length : U16) :
    Option CreatedAttribute :=
  match valueType with
  | .unknown => none
  | .uint32 => some ⟨.uint32, type, 4⟩
  | .uint64 => some ⟨.uint64, type, 8⟩
  | _ => some ⟨valueType, type, length⟩

/-- `StunAddressAttribute::Read`. -/
def readAddress (length : U16) (buf : ByteBuffer) : Option (SocketAddress × ByteBuffer) := do
  let (_, buf) ← readUInt8 buf
  let (stunFamily, buf) ← readUInt8 buf
  let (port, buf) ← readUInt16 buf
  if stunFamily = STUN_ADDRESS_IPV4 then
    if length ≠ SIZE_IP4 then none
    else
      let (v4addr, buf) ← readUInt32 buf
      some ({ ip := .v4 v4addr, port }, buf)
  else if stunFamily = STUN_ADDRESS_IPV6 then
    if length ≠ SIZE_IP6 then none
    else
      let (v6addr, buf) ← readBytes 16 buf
      some ({ ip := .v6 fun i => v6addr.getD i 0, port }, buf)
  else none

/-- `count` entries of a list. -/
def readUInt16s : Nat → ByteBuffer → Option (List U16 × ByteBuffer)
  | 0, buf => some ([], buf)
  | count + 1, buf => do
    let (attr, buf) ← readUInt16 buf
    let (attrTypes, buf) ← readUInt16s count buf
    some (attr :: attrTypes, buf)

namespace CreatedAttribute

/-- `Read`, up to the padding. -/
def readValue (a : CreatedAttribute) (transactionId : List Byte) (buf : ByteBuffer) :
    Option (AttributeValue × ByteBuffer) :=
  match a.valueType with
  | .unknown => none
  | .address => (readAddress a.length buf).map fun r => (.address r.1, r.2)
  | .xorAddress =>
    (readAddress a.length buf).map fun r =>
      (.xorAddress { ip := getXoredIP transactionId r.1.ip, port := xoredPort r.1.port }, r.2)
  | .uint32 => if a.length ≠ 4 then none else (readUInt32 buf).map fun r => (.uint32 r.1, r.2)
  | .uint64 => if a.length ≠ 8 then none else (readUInt64 buf).map fun r => (.uint64 r.1, r.2)
  | .byteString => (readBytes a.length.toNat buf).map fun r => (.byteString r.1, r.2)
  | .errorCode => do
    if a.length < MIN_SIZE then none
    else
      let (val, buf) ← readUInt32 buf
      let (reason, buf) ← readString [] (a.length - 4).toNat buf
      some (.errorCode (((val >>> 8) &&& 0x7).setWidth 8) ((val &&& 0xff).setWidth 8) reason, buf)
  | .uint16List =>
    if a.length.toNat % 2 ≠ 0 then none
    else (readUInt16s (a.length.toNat / 2) buf).map fun r => (.uint16List r.1, r.2)

/-- The padding after a value. -/
def readPadding (a : CreatedAttribute) (buf : ByteBuffer) : ByteBuffer :=
  match a.valueType with
  | .byteString => consumePadding a.length buf
  | .errorCode => consumePadding a.length buf
  | .uint16List => consumePadding a.length buf
  | _ => buf

end CreatedAttribute

/-! ## Messages -/

structure StunMessage where
  cls : MessageClass
  type : U16 := 0
  length : U16 := 0
  transactionId : List Byte := List.replicate 16 0x30
  attrs : List StunAttribute := []
  deriving DecidableEq

/-- What reading an attribute did: the bytes from the header on, the type and
the length that are declared there, and, unless the attribute is skipped, the
attribute and the bytes after its value. -/
structure Entry where
  header : ByteBuffer
  type : U16
  length : U16
  parsed : Option (StunAttribute × ByteBuffer)

/-- A message that has been read, the log, and the bytes after the message. -/
structure Reading where
  message : StunMessage
  entries : List Entry
  rest : ByteBuffer

def isValidTransactionId (transactionId : List Byte) : Bool :=
  decide (transactionId.length = kStunTransactionIdLength ∨
    transactionId.length = kStunLegacyTransactionIdLength)

/-- The length of an attribute that is unknown, rounded in 16 bits. -/
def skippedLength (attrLength : U16) : U16 :=
  if attrLength.toNat % 4 ≠ 0 then attrLength + BitVec.ofNat 16 (4 - attrLength.toNat % 4)
  else attrLength

/-- The loop of `Read`, while more than `rest` bytes are left. The first argument
bounds it. -/
def readAttributes (cls : MessageClass) (transactionId : List Byte) (rest : Nat) :
    Nat → ByteBuffer → Option (List Entry × ByteBuffer)
  | 0, _ => none
  | fuel + 1, buf =>
    if buf.length > rest then do
      let (attrType, value) ← readUInt16 buf
      let (attrLength, value) ← readUInt16 value
      match createAttribute (cls.getAttributeValueType attrType) attrType attrLength with
      | none =>
        let next ← consume (skippedLength attrLength).toNat value
        let (entries, left) ← readAttributes cls transactionId rest fuel next
        some (⟨buf, attrType, attrLength, none⟩ :: entries, left)
      | some attr =>
        let (v, next) ← attr.readValue transactionId value
        let (entries, left) ← readAttributes cls transactionId rest fuel (attr.readPadding next)
        some (⟨buf, attrType, attrLength, some (⟨attr.type, v⟩, next)⟩ :: entries, left)
    else some ([], buf)

namespace StunMessage

variable (m : StunMessage)

def isLegacy : Bool := decide (m.transactionId.length = kStunLegacyTransactionIdLength)

def setType (type : U16) : StunMessage := { m with type }

def setTransactionID (str : List Byte) : Bool × StunMessage :=
  if isValidTransactionId str then (true, { m with transactionId := str }) else (false, m)

def addAttribute (attr : StunAttribute) : Bool × StunMessage :=
  if attr.value.valueType ≠ m.cls.getAttributeValueType attr.type then (false, m)
  else
    let attrLength := attr.value.length.toNat
    let attrLength := if attrLength % 4 ≠ 0 then attrLength + (4 - attrLength % 4) else attrLength
    (true, { m with
      attrs := m.attrs ++ [attr]
      length := m.length + BitVec.ofNat 16 (attrLength + 4) })

/-- Attributes added one after the other. -/
def addAttributes (attrs : List StunAttribute) : StunMessage :=
  attrs.foldl (fun m attr => (m.addAttribute attr).2) m

/-- The first attribute of a type. -/
def getAttribute (type : U16) : Option StunAttribute :=
  m.attrs.find? fun attr => decide (attr.type = type)

/-- `GetAddress`, which takes an XOR mapped address for a mapped one. -/
def getAddress (type : U16) : Option SocketAddress :=
  let attr :=
    if type = STUN_ATTR_MAPPED_ADDRESS then
      (m.getAttribute STUN_ATTR_MAPPED_ADDRESS).or (m.getAttribute STUN_ATTR_XOR_MAPPED_ADDRESS)
    else m.getAttribute type
  attr.bind fun attr => attr.value.address?

def getUInt32 (type : U16) : Option U32 := (m.getAttribute type).bind fun attr => attr.value.uint32?

def getUInt64 (type : U16) : Option U64 := (m.getAttribute type).bind fun attr => attr.value.uint64?

def getByteString (type : U16) : Option (List Byte) :=
  (m.getAttribute type).bind fun attr => attr.value.byteString?

/-- The attributes as `Write` writes them. -/
def writeAttributes (transactionId : List Byte) : List StunAttribute → Option (List Byte)
  | [] => some []
  | attr :: attrs => do
    let value ← attr.value.write transactionId
    let tail ← writeAttributes transactionId attrs
    some (bytes16 attr.type ++ bytes16 attr.value.length ++ value ++ tail)

def writeHeader : List Byte :=
  bytes16 m.type ++ bytes16 m.length ++
    (if m.isLegacy then [] else bytes32 kStunMagicCookie) ++ m.transactionId

/-- `Write`; `none` stands for `false`, after part of the message. -/
def write : Option (List Byte) :=
  (writeAttributes m.transactionId m.attrs).map (m.writeHeader ++ ·)

/-- `Read`, by a message of a class. -/
def read (cls : MessageClass) (buf : ByteBuffer) : Option Reading := do
  let (type, buf) ← readUInt16 buf
  if type &&& 0x8000 ≠ 0 then none
  else
    let (length, buf) ← readUInt16 buf
    let (magicCookie, buf) ← readString [] kStunMagicCookieLength buf
    let (transactionId, buf) ← readString [] kStunTransactionIdLength buf
    let transactionId :=
      if be32 (Mem.ofList magicCookie) 0 ≠ kStunMagicCookie then magicCookie ++ transactionId
      else transactionId
    if length.toNat ≠ buf.length then none
    else
      let rest := buf.length - length.toNat
      let (entries, left) ← readAttributes cls transactionId rest (buf.length + 1) buf
      some ⟨⟨cls, type, length, transactionId, entries.filterMap fun e => e.parsed.map Prod.fst⟩,
        entries, left⟩

end StunMessage

end PerchWebrtc.Stun
