import PerchWebrtc.Net.SocketAddress
import PerchWebrtc.Sdp.Line

/-!
# Candidate lines

`BuildCandidate` and `ParseCandidate` (`webrtcsdp.cc`): an ICE candidate as the line
`a=candidate:<..>`, or as the text `candidate:<..>` alone. How addresses are written and read is
up to the platform. A number whose field has only blanks is not stored; the variable is what it
was.

* `parseCandidate_buildCandidate`: a line that is written is read again;
* `parseCandidate_lineForm`, `parseCandidate_rawForm`: the two forms, by their fields;
* `candidateLines`: both.
-/

namespace PerchWebrtc.Sdp

open Net (IPAddress SocketAddress)
open Framework (showNat showInt streamInt streamUInt)

/-! ## Addresses -/

/-- `inet_ntop` and `inet_pton` of the platform, for both families. -/
structure Inet where
  ntop4 : BitVec 32 → Text
  ntop6 : (Fin 16 → Byte) → Text
  pton4 : Text → Option (BitVec 32)
  pton6 : Text → Option (Fin 16 → Byte)

/-- `IPAddress::ToString`. -/
def Inet.ipToString (inet : Inet) : IPAddress → Text
  | .unspec => []
  | .v4 ip => inet.ntop4 ip
  | .v6 ip => inet.ntop6 ip

/-- `IPFromString`. -/
def Inet.ipFromString (inet : Inet) (str : Text) : Option IPAddress :=
  match inet.pton4 (cStr str) with
  | some ip => some (.v4 ip)
  | none => (inet.pton6 (cStr str)).map .v6

def bytes (s : Text) : List Byte := s.map fun c => BitVec.ofNat 8 c.toNat

/-- `SetIP` of a host name. -/
def Inet.setIP (inet : Inet) (hostname : Text) (a : SocketAddress) : SocketAddress :=
  { a with hostname := bytes hostname, ip := (inet.ipFromString hostname).getD .unspec }

/-- `SetPort`. -/
def setPort (port : Int) (a : SocketAddress) : SocketAddress := { a with port := BitVec.ofInt 16 port }

def portAsString (a : SocketAddress) : Text := showNat a.port.toNat

/-! ## Candidates -/

def LOCAL_PORT_TYPE : Text := "local".toList
def STUN_PORT_TYPE : Text := "stun".toList
def RELAY_PORT_TYPE : Text := "relay".toList

inductive ProtocolType
  | udp
  | tcp
  | ssltcp
deriving DecidableEq, Repr

def protoToString : ProtocolType → Text
  | .udp => "udp".toList
  | .tcp => "tcp".toList
  | .ssltcp => "ssltcp".toList

/-- `StringToProto`, which does not look at the case. -/
def stringToProto (value : Text) : Option ProtocolType :=
  [ProtocolType.udp, .tcp, .ssltcp].find? fun proto =>
    protoToString proto = (cStr value).map Char.toLower

structure Candidate where
  id : Text := []
  component : BitVec 32
  protocol : Text
  address : SocketAddress
  priority : BitVec 32
  username : Text := []
  password : Text := []
  type : Text
  networkName : Text := []
  generation : BitVec 32
  foundation : Text
  relatedAddress : SocketAddress := {}
deriving DecidableEq

/-! ## Writing -/

def kAttributeCandidate : String := "candidate"
def kAttributeCandidateTyp : Text := "typ".toList
def kAttributeCandidateRaddr : Text := "raddr".toList
def kAttributeCandidateRport : Text := "rport".toList
def kAttributeCandidateUsername : Text := "username".toList
def kAttributeCandidatePassword : Text := "password".toList
def kAttributeCandidateGeneration : Text := "generation".toList
def kCandidateHost : Text := "host".toList
def kCandidateSrflx : Text := "srflx".toList
def kCandidateRelay : Text := "relay".toList

/-- `host`, `srflx` or `relay`; nothing for another type. -/
def candidateTypeText (type : Text) : Text :=
  if type = LOCAL_PORT_TYPE then kCandidateHost
  else if type = STUN_PORT_TYPE then kCandidateSrflx
  else if type = RELAY_PORT_TYPE then kCandidateRelay
  else []

section

variable (inet : Inet)

/-- The part of the line for the related address. -/
def relatedAddressText (a : SocketAddress) : Text :=
  if a.isNil then []
  else kAttributeCandidateRaddr ++ ' ' :: inet.ipToString a.ip ++ ' ' :: kAttributeCandidateRport
    ++ ' ' :: portAsString a ++ [' ']

/-- One line of `BuildCandidate`. -/
def candidateLine (c : Candidate) : Text :=
  "a=candidate:".toList ++ c.foundation ++ ' ' :: showInt c.component.toInt ++ ' ' :: c.protocol
    ++ ' ' :: showNat c.priority.toNat ++ ' ' :: inet.ipToString c.address.ip
    ++ ' ' :: portAsString c.address ++ ' ' :: kAttributeCandidateTyp
    ++ ' ' :: candidateTypeText c.type ++ ' ' :: relatedAddressText inet c.relatedAddress
    ++ kAttributeCandidateGeneration ++ ' ' :: showNat c.generation.toNat

/-- `BuildCandidate`. -/
def buildCandidate (candidates : List Candidate) : Text :=
  candidates.flatMap fun c => candidateLine inet c ++ kLineBreak

/-! ## Reading -/

/-- `IsRawCandidate`: a second colon is taken for another candidate. -/
def isRawCandidate (line : Text) : Bool :=
  line.take kAttributeCandidate.length = kAttributeCandidate.toList
    && decide (kSdpDelimiterColon ∈ line)
    && decide (kSdpDelimiterColon ∉ (line.dropWhile (· ≠ kSdpDelimiterColon)).tail)

/-- The type for `host`, `srflx` and `relay`. -/
def candidateType (type : Text) : Option Text :=
  if type = kCandidateHost then some LOCAL_PORT_TYPE
  else if type = kCandidateSrflx then some STUN_PORT_TYPE
  else if type = kCandidateRelay then some RELAY_PORT_TYPE
  else none

/-- The fields behind the type: a related address, if there is one, and the rest. -/
def parseRaddr : List Text → SocketAddress → SocketAddress × List Text
  | name :: value :: fields, a =>
    if name = kAttributeCandidateRaddr then (inet.setIP value a, fields)
    else (a, name :: value :: fields)
  | fields, a => (a, fields)

/-- What a number of the text is stored over. -/
structure Uninitialized where
  int : Int
  uint : BitVec 32

variable (junk : Uninitialized)

def parseRport : List Text → SocketAddress → SocketAddress × List Text
  | name :: value :: fields, a =>
    if name = kAttributeCandidateRport then (setPort (streamInt junk.int value).1 a, fields)
    else (a, name :: value :: fields)
  | fields, a => (a, fields)

/-- The extensions, each a name and a value. -/
def parseExtensions : List Text → Candidate → Candidate
  | name :: value :: fields, c =>
    parseExtensions fields <|
      if name = kAttributeCandidateGeneration then
        { c with generation := (streamUInt junk.uint value).1 }
      else if name = kAttributeCandidateUsername then { c with username := value }
      else if name = kAttributeCandidatePassword then { c with password := value }
      else c
  | _, c => c

def expectedMinFields : Nat := 8

/-- `fields[i]`. -/
def fieldAt (fields : List Text) (i : Nat) : Text := fields.getD i []

/-- The candidate of the fields of a line, those that are optional included. -/
def candidateOfFields (fields : List Text) (foundation : Text) (protocol : ProtocolType)
    (type : Text) : Candidate :=
  let port := (streamInt junk.int (fieldAt fields 5)).1
  let (relatedAddress, rest) := parseRaddr inet (fields.drop expectedMinFields) {}
  let (relatedAddress, rest) := parseRport junk rest relatedAddress
  parseExtensions junk rest
    { component := BitVec.ofInt 32 (streamInt junk.int (fieldAt fields 1)).1
      protocol := protoToString protocol
      address := setPort port (inet.setIP (fieldAt fields 4) {})
      priority := (streamUInt junk.uint (fieldAt fields 3)).1
      type := type
      generation := 0
      foundation := foundation
      relatedAddress := relatedAddress }

/-- `ParseCandidate`, from the fields of the line. -/
def parseFields (firstLine : Text) (fields : List Text) : Except SdpParseError Candidate :=
  if fields.length < expectedMinFields ∨ fieldAt fields 6 ≠ kAttributeCandidateTyp then
    .error (parseFailedExpectMinFieldNum firstLine expectedMinFields)
  else
    match getValue (fieldAt fields 0) kAttributeCandidate with
    | .error e => .error e
    | .ok foundation =>
      match stringToProto (fieldAt fields 2) with
      | none => .error (parseFailed firstLine "Unsupported transport type.")
      | some protocol =>
        match candidateType (fieldAt fields 7) with
        | none => .error (parseFailed firstLine "Unsupported candidate type.")
        | some type => .ok (candidateOfFields inet junk fields foundation protocol type)

def parseCandidate (message : Text) (isRaw : Bool) : Except SdpParseError Candidate :=
  let firstLine := getFirstLine message
  if isRawCandidate firstLine then
    parseFields inet junk firstLine (split firstLine kSdpDelimiterSpace)
  else if !isLineType firstLine kLineTypeAttributes
      || !hasAttribute firstLine kAttributeCandidate.toList then
    if isRaw then .error (parseFailed firstLine "Expect line: candidate:<candidate-str>")
    else .error (parseFailedExpectLine firstLine kLineTypeAttributes kAttributeCandidate)
  else
    parseFields inet junk firstLine
      (split (firstLine.drop kLinePrefixLength) kSdpDelimiterSpace)

/-- `SdpDeserializeCandidate`. -/
def sdpDeserializeCandidate (message : Text) : Except SdpParseError Candidate :=
  parseCandidate inet junk message true

/-! ## The line of a candidate -/

def relatedAddressFields (a : SocketAddress) : List Text :=
  if a.isNil then []
  else [kAttributeCandidateRaddr, inet.ipToString a.ip, kAttributeCandidateRport, portAsString a]

/-- The fields of the line. -/
def candidateFields (c : Candidate) : List Text :=
  ["candidate:".toList ++ c.foundation, showInt c.component.toInt, c.protocol,
    showNat c.priority.toNat, inet.ipToString c.address.ip, portAsString c.address,
    kAttributeCandidateTyp, candidateTypeText c.type] ++
  relatedAddressFields inet c.relatedAddress ++
  [kAttributeCandidateGeneration, showNat c.generation.toNat]

theorem candidateLine_eq (c : Candidate) :
    candidateLine inet c
      = ['a', '='] ++ [kSdpDelimiterSpace].intercalate (candidateFields inet c) := by
  have hstart : "a=candidate:".toList = ['a', '='] ++ "candidate:".toList := rfl
  unfold candidateLine candidateFields relatedAddressText relatedAddressFields
  rw [hstart]
  generalize "candidate:".toList = start
  generalize kAttributeCandidateTyp = typ
  generalize kAttributeCandidateRaddr = raddr
  generalize kAttributeCandidateRport = rport
  generalize kAttributeCandidateGeneration = gen
  rw [kSdpDelimiterSpace]
  split <;> simp only [List.cons_append, List.nil_append, List.intercalate_cons_cons,
    List.intercalate_singleton, List.append_assoc]

/-! ## Reading a line that was written -/

/-- The text of an address has neither blanks nor line breaks, and is read as the address. -/
structure Inet.ReadsBack (ip : IPAddress) : Prop where
  reads : inet.ipFromString (inet.ipToString ip) = some ip
  plain : ∀ ch ∈ inet.ipToString ip, ch ≠ kSdpDelimiterSpace ∧ ch ≠ kNewLine

/-- A candidate that a line can carry. -/
structure Writable (c : Candidate) : Prop where
  type : c.type ∈ [LOCAL_PORT_TYPE, STUN_PORT_TYPE, RELAY_PORT_TYPE]
  protocol : ∃ proto, c.protocol = protoToString proto
  address : inet.ReadsBack c.address.ip
  relatedAddress : c.relatedAddress.isNil = false → inet.ReadsBack c.relatedAddress.ip
  foundation : ∀ ch ∈ c.foundation,
    ch ≠ kSdpDelimiterSpace ∧ ch ≠ kSdpDelimiterColon ∧ ch ≠ kNewLine

/-- The fields of a candidate that its line has. -/
structure SameFields (c c' : Candidate) : Prop where
  type : c'.type = c.type
  protocol : c'.protocol = c.protocol
  ip : c'.address.ip = c.address.ip
  port : c'.address.port = c.address.port
  relatedIp : c'.relatedAddress.ip = c.relatedAddress.ip
  relatedPort : c'.relatedAddress.port = c.relatedAddress.port
  priority : c'.priority = c.priority
  component : c'.component = c.component
  generation : c'.generation = c.generation
  foundation : c'.foundation = c.foundation

theorem stringToProto_protoToString (proto : ProtocolType) :
    stringToProto (protoToString proto) = some proto := by
  cases proto <;> decide

theorem candidateType_candidateTypeText {type : Text}
    (h : type ∈ [LOCAL_PORT_TYPE, STUN_PORT_TYPE, RELAY_PORT_TYPE]) :
    candidateType (candidateTypeText type) = some type := by
  simp only [List.mem_cons, List.not_mem_nil, or_false] at h
  obtain rfl | rfl | rfl := h <;> decide

variable (junk : Uninitialized) {fields : List Text} {line : Text}

theorem setPort_portAsString (a b : SocketAddress) :
    setPort (streamInt junk.int (portAsString b)).1 a = { a with port := b.port } := by
  have hint : Framework.InInt b.port.toNat := by
    have := b.port.isLt
    exact ⟨by omega, by omega⟩
  have hport : streamInt junk.int (portAsString b) = ((b.port.toNat : Int), true) :=
    Framework.streamInt_showInt junk.int hint
  rw [setPort, hport]
  simp

theorem component_showInt (component : BitVec 32) :
    BitVec.ofInt 32 (streamInt junk.int (showInt component.toInt)).1 = component := by
  have hint : Framework.InInt component.toInt :=
    ⟨BitVec.le_toInt component, BitVec.toInt_lt⟩
  rw [Framework.streamInt_showInt junk.int hint, BitVec.ofInt_toInt]

theorem parseRaddr_of_ne (a : SocketAddress) (h : ∀ f ∈ fields.head?, f ≠ kAttributeCandidateRaddr) :
    parseRaddr inet fields a = (a, fields) := by
  unfold parseRaddr
  split
  · exact if_neg (h _ rfl)
  · rfl

theorem parseRport_of_ne (a : SocketAddress) (h : ∀ f ∈ fields.head?, f ≠ kAttributeCandidateRport) :
    parseRport junk fields a = (a, fields) := by
  unfold parseRport
  split
  · exact if_neg (h _ rfl)
  · rfl

/-- The related address is read again, with the fields behind it. -/
theorem parse_relatedAddressFields {a : SocketAddress}
    (h : a.isNil = false → inet.ReadsBack a.ip) (fields : List Text)
    (hraddr : ∀ f ∈ fields.head?, f ≠ kAttributeCandidateRaddr)
    (hrport : ∀ f ∈ fields.head?, f ≠ kAttributeCandidateRport) :
    ∃ a', a'.ip = a.ip ∧ a'.port = a.port ∧
      parseRport junk (parseRaddr inet (relatedAddressFields inet a ++ fields) {}).2
        (parseRaddr inet (relatedAddressFields inet a ++ fields) {}).1 = (a', fields) := by
  cases hnil : a.isNil with
  | true =>
    obtain ⟨-, hip, hport⟩ := of_decide_eq_true hnil
    refine ⟨{}, hip.symm, hport.symm, ?_⟩
    rw [relatedAddressFields, if_pos hnil, List.nil_append, parseRaddr_of_ne inet {} hraddr]
    exact parseRport_of_ne junk {} hrport
  | false =>
    have hread : parseRaddr inet (relatedAddressFields inet a ++ fields) {}
        = (inet.setIP (inet.ipToString a.ip) {},
          kAttributeCandidateRport :: portAsString a :: fields) := by
      rw [relatedAddressFields, if_neg (Bool.eq_false_iff.mp hnil), List.cons_append,
        List.cons_append, parseRaddr, if_pos rfl]
      rfl
    refine ⟨{ inet.setIP (inet.ipToString a.ip) {} with port := a.port }, ?_, rfl, ?_⟩
    · exact congrArg (Option.getD · IPAddress.unspec) (h hnil).reads
    · rw [hread, parseRport, if_pos rfl, setPort_portAsString]

/-- Which fields are those of a candidate. -/
theorem parseFields_eq_ok_iff {firstLine : Text} {c : Candidate} :
    parseFields inet junk firstLine fields = .ok c ↔
      expectedMinFields ≤ fields.length ∧ fieldAt fields 6 = kAttributeCandidateTyp ∧
      ∃ foundation protocol type, getValue (fieldAt fields 0) kAttributeCandidate = .ok foundation ∧
        stringToProto (fieldAt fields 2) = some protocol ∧
        candidateType (fieldAt fields 7) = some type ∧
        c = candidateOfFields inet junk fields foundation protocol type := by
  unfold parseFields
  split
  · rename_i hfew
    refine iff_of_false (fun h => nomatch h) ?_
    rintro ⟨hlength, htyp, -⟩
    exact hfew.elim (Nat.not_lt.mpr hlength) (absurd htyp)
  · rename_i hfew
    obtain ⟨hlength, htyp⟩ := not_or.mp hfew
    rw [and_iff_right (Nat.not_lt.mp hlength), and_iff_right (not_not.mp htyp)]
    split
    · rename_i hvalue
      exact iff_of_false (fun h => nomatch h) fun ⟨_, _, _, h, _⟩ => nomatch hvalue.symm.trans h
    · rename_i foundation hvalue
      split
      · rename_i hproto
        exact iff_of_false (fun h => nomatch h) fun ⟨_, _, _, _, h, _⟩ => nomatch hproto.symm.trans h
      · rename_i protocol hproto
        split
        · rename_i htype
          exact iff_of_false (fun h => nomatch h)
            fun ⟨_, _, _, _, _, h, _⟩ => nomatch htype.symm.trans h
        · rename_i type htype
          constructor
          · intro h
            exact ⟨foundation, protocol, type, hvalue, hproto, htype, (Except.ok.inj h).symm⟩
          · rintro ⟨foundation', protocol', type', hvalue', hproto', htype', rfl⟩
            obtain rfl := Except.ok.inj (hvalue.symm.trans hvalue')
            obtain rfl := Option.some.inj (hproto.symm.trans hproto')
            obtain rfl := Option.some.inj (htype.symm.trans htype')
            rfl

theorem parseFields_candidateFields {c : Candidate} (h : Writable inet c) (firstLine : Text) :
    ∃ c', parseFields inet junk firstLine (candidateFields inet c) = .ok c' ∧ SameFields c c' := by
  obtain ⟨proto, hproto⟩ := h.protocol
  obtain ⟨related, hip, hport, hrelated⟩ := parse_relatedAddressFields inet junk h.relatedAddress
    [kAttributeCandidateGeneration, showNat c.generation.toNat]
    (fun f hf => by obtain rfl := Option.some.inj hf; decide)
    (fun f hf => by obtain rfl := Option.some.inj hf; decide)
  have hlength : expectedMinFields ≤ (candidateFields inet c).length := by
    rw [candidateFields, List.append_assoc, List.length_append]
    exact Nat.le_add_right ..
  have hfoundation : getValue (fieldAt (candidateFields inet c) 0) kAttributeCandidate
      = .ok c.foundation :=
    @getValue_append kAttributeCandidate (by decide) c.foundation
  have htransport : stringToProto (fieldAt (candidateFields inet c) 2) = some proto := by
    rw [← stringToProto_protoToString proto, ← hproto]
    rfl
  have htype : candidateType (fieldAt (candidateFields inet c) 7) = some c.type :=
    candidateType_candidateTypeText h.type
  refine ⟨_, (parseFields_eq_ok_iff inet junk).mpr
    ⟨hlength, rfl, _, _, _, hfoundation, htransport, htype, rfl⟩, ?_⟩
  have hoptional : (candidateFields inet c).drop expectedMinFields = relatedAddressFields inet
      c.relatedAddress ++ [kAttributeCandidateGeneration, showNat c.generation.toNat] := rfl
  have hextensions : ∀ d : Candidate,
      parseExtensions junk [kAttributeCandidateGeneration, showNat c.generation.toNat] d
        = { d with generation := c.generation } := by
    intro d
    rw [parseExtensions, if_pos rfl, Framework.streamUInt_showNat]
    rfl
  have hcomponent := component_showInt junk c.component
  have haddress := congrArg SocketAddress.port
    (setPort_portAsString junk (inet.setIP (inet.ipToString c.address.ip) {}) c.address)
  have hpriority := congrArg Prod.fst (Framework.streamUInt_showNat junk.uint c.priority)
  rw [candidateOfFields, hoptional]
  simp only [hrelated, hextensions]
  exact ⟨rfl, hproto.symm, congrArg (Option.getD · IPAddress.unspec) h.address.reads,
    haddress, hip, hport, hpriority, hcomponent, rfl, rfl⟩

/-- Neither a blank nor a line break. -/
def Plain (ch : Char) : Prop := ch ≠ kSdpDelimiterSpace ∧ ch ≠ kNewLine

theorem plain_of_all {s : Text} (h : s.all (fun ch => ch != kSdpDelimiterSpace && ch != kNewLine)) :
    ∀ ch ∈ s, Plain ch := by
  intro ch hch
  have hboth := List.all_eq_true.mp h ch hch
  rw [Bool.and_eq_true, bne_iff_ne, bne_iff_ne] at hboth
  exact hboth

theorem plain_of_isDigit {ch : Char} (h : ch.isDigit = true) : Plain ch := by
  constructor <;> rintro rfl <;> exact absurd h (by decide)

theorem plain_showNat {n : Nat} : ∀ ch ∈ showNat n, Plain ch := fun _ h =>
  plain_of_isDigit (Framework.isDigit_of_mem_showNat h)

theorem plain_showInt {n : Int} : ∀ ch ∈ showInt n, Plain ch := by
  cases n with
  | ofNat n => exact plain_showNat
  | negSucc n => exact List.forall_mem_cons.mpr ⟨⟨by decide, by decide⟩, plain_showNat⟩

theorem plain_candidateFields {c : Candidate} (h : Writable inet c) :
    ∀ f ∈ candidateFields inet c, ∀ ch ∈ f, Plain ch := by
  have hproto : ∀ ch ∈ c.protocol, Plain ch := by
    obtain ⟨proto, hproto⟩ := h.protocol
    rw [hproto]
    cases proto <;> exact plain_of_all (by decide)
  have htype : ∀ ch ∈ candidateTypeText c.type, Plain ch := by
    have hmem := h.type
    simp only [List.mem_cons, List.not_mem_nil, or_false] at hmem
    obtain hmem | hmem | hmem := hmem <;> rw [hmem] <;>
      exact plain_of_all (by decide)
  have hfoundation : ∀ ch ∈ "candidate:".toList ++ c.foundation, Plain ch := by
    rw [List.forall_mem_append]
    exact ⟨plain_of_all (by decide), fun ch hch => ⟨(h.foundation ch hch).1, (h.foundation ch hch).2.2⟩⟩
  have hrelated : ∀ f ∈ relatedAddressFields inet c.relatedAddress, ∀ ch ∈ f, Plain ch := by
    rw [relatedAddressFields]
    split
    · exact fun f hf => absurd hf List.not_mem_nil
    · rename_i hnil
      have hread := h.relatedAddress (Bool.eq_false_iff.mpr hnil)
      simp only [List.forall_mem_cons]
      exact ⟨plain_of_all (by decide), hread.plain, plain_of_all (by decide), plain_showNat,
        fun f hf => absurd hf List.not_mem_nil⟩
  rw [candidateFields, List.forall_mem_append, List.forall_mem_append]
  simp only [List.forall_mem_cons]
  exact ⟨⟨⟨hfoundation, plain_showInt, hproto, plain_showNat, h.address.plain, plain_showNat,
    plain_of_all (by decide), htype, fun f hf => absurd hf List.not_mem_nil⟩, hrelated⟩,
    plain_of_all (by decide), plain_showNat, fun f hf => absurd hf List.not_mem_nil⟩

theorem notMem_intercalate {α : Type} {x y : α} (hne : x ≠ y) :
    ∀ {fs : List (List α)}, (∀ f ∈ fs, x ∉ f) → x ∉ [y].intercalate fs
  | [], _ => List.not_mem_nil
  | [f], h => by
    rw [List.intercalate_singleton]
    exact h f List.mem_cons_self
  | f :: g :: fs, h => by
    have ih := notMem_intercalate hne fun f' hf' => h f' (List.mem_cons_of_mem f hf')
    rw [List.intercalate_cons_cons, List.mem_append, List.mem_append]
    rintro ((hf | hy) | hrest)
    · exact h f List.mem_cons_self hf
    · exact hne (List.mem_singleton.mp hy)
    · exact ih hrest

/-! ## The two forms -/

theorem parseCandidate_of_line {message : Text} (h : getFirstLine message = ['a', '='] ++ line)
    (hstart : line.take kAttributeCandidate.length = kAttributeCandidate.toList) (isRaw : Bool) :
    parseCandidate inet junk message isRaw
      = parseFields inet junk (['a', '='] ++ line) (split line kSdpDelimiterSpace) := by
  have hraw : isRawCandidate (['a', '='] ++ line) = false := by
    rw [isRawCandidate, decide_eq_false, Bool.false_and, Bool.false_and]
    intro htake
    have hhead := congrArg List.head? htake
    exact absurd hhead (show some 'a' ≠ some 'c' by decide)
  have htype : isLineType (['a', '='] ++ line) kLineTypeAttributes = true := by
    rw [isLineType, Bool.and_eq_true, Bool.and_eq_true]
    exact ⟨⟨decide_eq_true (Nat.le_add_left ..), rfl⟩, rfl⟩
  have hattr : hasAttribute (['a', '='] ++ line) kAttributeCandidate.toList = true :=
    decide_eq_true hstart
  rw [parseCandidate, h, hraw, htype, hattr]
  rfl

theorem parseCandidate_of_raw (hline : kNewLine ∉ line) (hraw : isRawCandidate line = true)
    (isRaw : Bool) :
    parseCandidate inet junk line isRaw
      = parseFields inet junk line (split line kSdpDelimiterSpace) := by
  rw [parseCandidate, getFirstLine_of_noNewLine hline]
  exact if_pos hraw

theorem formed_of_start (h : ∃ rest, line = kAttributeCandidate.toList ++ rest) :
    Formed (['a', '='] ++ line) := by
  obtain ⟨rest, rfl⟩ := h
  exact ⟨show 'a' ≠ kSdpDelimiterSpace by decide, rfl, show 'c' ≠ kSdpDelimiterSpace by decide⟩

theorem take_of_start (h : ∃ rest, line = kAttributeCandidate.toList ++ rest) :
    line.take kAttributeCandidate.length = kAttributeCandidate.toList := by
  obtain ⟨rest, rfl⟩ := h
  exact List.take_left' rfl

/-- **A line that is written is read again.** -/
theorem parseCandidate_buildCandidate {c : Candidate} (h : Writable inet c) (isRaw : Bool) :
    ∃ c', parseCandidate inet junk (buildCandidate inet [c]) isRaw = .ok c' ∧ SameFields c c' := by
  have hplain := plain_candidateFields inet h
  have hmessage : buildCandidate inet [c] = (['a', '='] ++
      [kSdpDelimiterSpace].intercalate (candidateFields inet c)) ++ kLineBreak := by
    rw [← candidateLine_eq]
    exact List.append_nil _
  have hstart : ∃ rest, [kSdpDelimiterSpace].intercalate (candidateFields inet c)
      = kAttributeCandidate.toList ++ rest := by
    have hcons : candidateFields inet c
        = ("candidate:".toList ++ c.foundation) :: (candidateFields inet c).tail := rfl
    have htail : (candidateFields inet c).tail ≠ [] := List.cons_ne_nil _ _
    rw [hcons, List.intercalate_cons_of_ne_nil htail]
    exact ⟨kSdpDelimiterColon :: (c.foundation ++ [kSdpDelimiterSpace] ++ _), rfl⟩
  have hnewLine : kNewLine ∉ ['a', '='] ++
      [kSdpDelimiterSpace].intercalate (candidateFields inet c) := by
    rw [List.mem_append, not_or]
    refine ⟨by decide, notMem_intercalate (by decide) fun f hf hmem => ?_⟩
    exact (hplain f hf _ hmem).2 rfl
  have hfirst := getFirstLine_append hnewLine (formed_of_start hstart)
  have hsplit : split ([kSdpDelimiterSpace].intercalate (candidateFields inet c))
      kSdpDelimiterSpace = candidateFields inet c :=
    List.splitOn_intercalate kSdpDelimiterSpace (fun f hf hmem => (hplain f hf _ hmem).1 rfl)
      (List.cons_ne_nil _ _)
  rw [hmessage, parseCandidate_of_line inet junk hfirst (take_of_start hstart), hsplit]
  exact parseFields_candidateFields inet junk h _

/-- `candidate:X`. -/
def rawForm (text : Text) : Text := "candidate:".toList ++ text

/-- `a=candidate:X` and a line break. -/
def lineForm (text : Text) : Text := (['a', '='] ++ rawForm text) ++ kLineBreak

section

variable {text : Text}

theorem isRawCandidate_rawForm : isRawCandidate (rawForm text) = true ↔ kSdpDelimiterColon ∉ text := by
  have htake : (rawForm text).take kAttributeCandidate.length = kAttributeCandidate.toList := rfl
  have hmem : kSdpDelimiterColon ∈ rawForm text := List.mem_append_left _ (by decide)
  have hrest : ((rawForm text).dropWhile (· ≠ kSdpDelimiterColon)).tail = text := by
    have hdrop : (rawForm text).dropWhile (· ≠ kSdpDelimiterColon) = kSdpDelimiterColon :: text :=
      rfl
    rw [hdrop, List.tail_cons]
  rw [isRawCandidate, decide_eq_true htake, decide_eq_true hmem, hrest]
  exact decide_eq_true_iff

variable (h : kNewLine ∉ text)

include h

theorem newLine_notMem_rawForm : kNewLine ∉ rawForm text := by
  intro hmem
  rcases List.mem_append.mp hmem with hmem | hmem
  · exact absurd hmem (by decide)
  · exact h hmem

theorem parseCandidate_lineForm (isRaw : Bool) :
    parseCandidate inet junk (lineForm text) isRaw = parseFields inet junk
      (['a', '='] ++ rawForm text) (split (rawForm text) kSdpDelimiterSpace) := by
  have hnewLine : kNewLine ∉ ['a', '='] ++ rawForm text := by
    rw [List.mem_append, not_or]
    exact ⟨by decide, newLine_notMem_rawForm h⟩
  have hstart : ∃ rest, rawForm text = kAttributeCandidate.toList ++ rest :=
    ⟨kSdpDelimiterColon :: text, rfl⟩
  exact parseCandidate_of_line inet junk
    (getFirstLine_append hnewLine (formed_of_start hstart)) (take_of_start hstart) isRaw

theorem parseCandidate_rawForm (hcolon : kSdpDelimiterColon ∉ text) (isRaw : Bool) :
    parseCandidate inet junk (rawForm text) isRaw
      = parseFields inet junk (rawForm text) (split (rawForm text) kSdpDelimiterSpace) :=
  parseCandidate_of_raw inet junk (newLine_notMem_rawForm h)
    (isRawCandidate_rawForm.mpr hcolon) isRaw

/-- A text with a second colon is not read. -/
theorem parseCandidate_rawForm_of_colon (hcolon : kSdpDelimiterColon ∈ text) (isRaw : Bool)
    (c : Candidate) : parseCandidate inet junk (rawForm text) isRaw ≠ .ok c := by
  have hraw : ¬ isRawCandidate (rawForm text) = true := fun hraw =>
    isRawCandidate_rawForm.mp hraw hcolon
  have htype : isLineType (rawForm text) kLineTypeAttributes = false := by
    have hhead : decide (charAt (rawForm text) 0 = kLineTypeAttributes) = false :=
      decide_eq_false (show 'c' ≠ 'a' by decide)
    rw [isLineType, hhead, Bool.and_false, Bool.false_and]
  rw [parseCandidate, getFirstLine_of_noNewLine (newLine_notMem_rawForm h)]
  simp only [if_neg hraw, htype, Bool.not_false, Bool.true_or, if_true]
  cases isRaw <;> exact fun heq => nomatch heq

end

theorem parseFields_ok_congr {firstLine firstLine' : Text} {c : Candidate} :
    parseFields inet junk firstLine fields = .ok c ↔
      parseFields inet junk firstLine' fields = .ok c := by
  rw [parseFields_eq_ok_iff, parseFields_eq_ok_iff]

section

variable {text : Text} {c : Candidate} (h : kNewLine ∉ text)

include h

theorem lineForm_of_rawForm (hraw : sdpDeserializeCandidate inet junk (rawForm text) = .ok c) :
    sdpDeserializeCandidate inet junk (lineForm text) = .ok c := by
  by_cases hcolon : kSdpDelimiterColon ∈ text
  · exact absurd hraw (parseCandidate_rawForm_of_colon inet junk h hcolon true c)
  · have hfields := (parseCandidate_rawForm inet junk h hcolon true).symm.trans hraw
    exact (parseCandidate_lineForm inet junk h true).trans
      ((parseFields_ok_congr inet junk).mp hfields)

theorem rawForm_of_lineForm (hcolon : kSdpDelimiterColon ∉ text)
    (hline : sdpDeserializeCandidate inet junk (lineForm text) = .ok c) :
    sdpDeserializeCandidate inet junk (rawForm text) = .ok c := by
  have hfields := (parseCandidate_lineForm inet junk h true).symm.trans hline
  exact (parseCandidate_rawForm inet junk h hcolon true).trans
    ((parseFields_ok_congr inet junk).mp hfields)

theorem rawForm_of_another (hanother : "candidate:".toList <:+: text) :
    sdpDeserializeCandidate inet junk (rawForm text) ≠ .ok c := by
  have hcolon : kSdpDelimiterColon ∈ "candidate:".toList := by decide
  exact parseCandidate_rawForm_of_colon inet junk h (hanother.subset hcolon) true c

/-- The two forms agree exactly on a text that has no colon or is in neither form a candidate. -/
theorem rawForm_iff_lineForm :
    (∀ c, sdpDeserializeCandidate inet junk (rawForm text) = .ok c ↔
      sdpDeserializeCandidate inet junk (lineForm text) = .ok c) ↔
    kSdpDelimiterColon ∉ text ∨ ∀ c, sdpDeserializeCandidate inet junk (lineForm text) ≠ .ok c := by
  constructor
  · intro hagree
    by_cases hcolon : kSdpDelimiterColon ∈ text
    · refine Or.inr fun c hline => ?_
      exact parseCandidate_rawForm_of_colon inet junk h hcolon true c ((hagree c).mpr hline)
    · exact Or.inl hcolon
  · rintro (hcolon | hrefused) c
    · exact ⟨lineForm_of_rawForm inet junk h, rawForm_of_lineForm inet junk h hcolon⟩
    · have hline := hrefused c
      exact iff_of_false (fun hraw => hline (lineForm_of_rawForm inet junk h hraw)) hline

end

/-- **Candidate lines**: a line that is written is read again; a text is read alike in the raw form
and in the line exactly if it has no colon or the line is refused. What is read in the raw form is
read in the line in any case, and a text with another candidate is not read in the raw form. -/
theorem candidateLines :
    (∀ c, Writable inet c → ∀ isRaw, ∃ c',
      parseCandidate inet junk (buildCandidate inet [c]) isRaw = .ok c' ∧ SameFields c c') ∧
    ∀ text, kNewLine ∉ text →
      ((∀ c, sdpDeserializeCandidate inet junk (rawForm text) = .ok c ↔
          sdpDeserializeCandidate inet junk (lineForm text) = .ok c) ↔
        kSdpDelimiterColon ∉ text ∨
          ∀ c, sdpDeserializeCandidate inet junk (lineForm text) ≠ .ok c) ∧
      ∀ c, (sdpDeserializeCandidate inet junk (rawForm text) = .ok c →
          sdpDeserializeCandidate inet junk (lineForm text) = .ok c) ∧
        ("candidate:".toList <:+: text →
          sdpDeserializeCandidate inet junk (rawForm text) ≠ .ok c) :=
  ⟨fun _ hc isRaw => parseCandidate_buildCandidate inet junk hc isRaw, fun _ h =>
    ⟨rawForm_iff_lineForm inet junk h, fun _ =>
      ⟨lineForm_of_rawForm inet junk h, rawForm_of_another inet junk h⟩⟩⟩

end

/-- The loopback addresses, as a platform writes and reads them. -/
def loopbackInet : Inet where
  ntop4 ip := ['.'].intercalate
    ([24, 16, 8, 0].map fun shift => showNat (ip.toNat / 2 ^ shift % 256))
  ntop6 _ := "::1".toList
  pton4 s := if s = "127.0.0.1".toList then some 0x7f000001 else none
  pton6 s := if s = "::1".toList then some fun i => if i = 15 then 1 else 0 else none

def loopback6 : SocketAddress := ⟨[], .v6 fun i => if i = 15 then 1 else 0, 9⟩

def loopbackCandidate : Candidate where
  component := 1
  protocol := protoToString .udp
  address := ⟨[], .v4 0x7f000001, 2345⟩
  priority := 2130706432
  type := STUN_PORT_TYPE
  generation := 2
  foundation := "a0+B/1".toList
  relatedAddress := loopback6

theorem candidateLines_loopback (junk : Uninitialized) :
    ∃ c', parseCandidate loopbackInet junk (buildCandidate loopbackInet [loopbackCandidate]) true
      = .ok c' ∧ SameFields loopbackCandidate c' := by
  refine (candidateLines loopbackInet junk).1 loopbackCandidate ⟨?_, ⟨.udp, rfl⟩, ?_, ?_, ?_⟩ true
  · decide
  · exact ⟨by decide +kernel, plain_of_all (by decide +kernel)⟩
  · exact fun _ => ⟨by decide +kernel, plain_of_all (by decide +kernel)⟩
  · have hplain := plain_of_all (s := loopbackCandidate.foundation) (by decide)
    have hcolon : kSdpDelimiterColon ∉ loopbackCandidate.foundation := by decide
    exact fun ch hch => ⟨(hplain ch hch).1, fun heq => hcolon (heq ▸ hch), (hplain ch hch).2⟩

/-- The address of an IPv6 candidate has colons: taken for another candidate, it is not read in the
raw form. -/
theorem not_rawForm_iff_lineForm :
    ¬ ∀ (inet : Inet) (junk : Uninitialized) (text : Text), kNewLine ∉ text → ∀ c,
      sdpDeserializeCandidate inet junk (rawForm text) = .ok c ↔
        sdpDeserializeCandidate inet junk (lineForm text) = .ok c := by
  intro h
  have hnewLine : kNewLine ∉ "1 1 udp 1 ::1 9 typ host".toList := by decide
  have hread : (sdpDeserializeCandidate loopbackInet ⟨0, 0⟩
      (lineForm "1 1 udp 1 ::1 9 typ host".toList)).toBool = true := by decide +kernel
  cases hline : sdpDeserializeCandidate loopbackInet ⟨0, 0⟩
      (lineForm "1 1 udp 1 ::1 9 typ host".toList) with
  | error e =>
    rw [hline] at hread
    exact absurd hread Bool.false_ne_true
  | ok c =>
    have hraw := (h loopbackInet ⟨0, 0⟩ _ hnewLine c).mpr hline
    exact parseCandidate_rawForm_of_colon loopbackInet ⟨0, 0⟩ hnewLine (by decide) true c hraw

end PerchWebrtc.Sdp
