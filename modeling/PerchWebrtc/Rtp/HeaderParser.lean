import PerchWebrtc.Rtp.HeaderExtension

/-!
# Parsing a received RTP header

`RTPHeaderParser::Parse` and the scan of the one-byte extension elements
(`rtp_utility.cc`). The packet starts at address 0 of a memory `m` and has
`length` bytes; the bytes after it are whatever lies there. Each function
returns the addresses it reads next to its result, in order.

* `parse_ok`: the two lengths reported;
* `scan_reads`: the scan reads inside the packet exactly if the elements it
  steps over end there;
* `parse_inside_iff`: a packet that is accepted is read inside its bounds and
  reports lengths that fit exactly if its padding count and its extension
  elements fit, neither of which the parser checks.
-/

namespace PerchWebrtc.Rtp

structure RTPHeaderExtension where
  transmissionTimeOffset : BitVec 32
  absoluteSendTime : BitVec 32

/-- The fields of `RTPHeader` that the parser writes. -/
structure RTPHeader where
  markerBit : Bool
  payloadType : Byte
  sequenceNumber : BitVec 16
  timestamp : BitVec 32
  ssrc : BitVec 32
  numCSRCs : Byte
  arrOfCSRCs : Nat → BitVec 32
  paddingLength : Byte
  headerLength : BitVec 16
  extension : RTPHeaderExtension

/-- A header as its users clear it before parsing. -/
def RTPHeader.cleared : RTPHeader :=
  ⟨false, 0, 0, 0, 0, 0, fun _ => 0, 0, 0, ⟨0, 0⟩⟩

/-- `ParsePaddingBytes`: the zero bytes from `ptr` to the end of the
extension, counted in eight bits. The first argument bounds the loop. -/
def parsePaddingBytes (m : Mem) (extEnd : Nat) : Nat → Nat → Byte → Byte × List Nat
  | 0, _, n => (n, [])
  | fuel + 1, ptr, n =>
    if extEnd - ptr > 0 then
      if m ptr ≠ 0 then (n, [ptr])
      else
        let r := parsePaddingBytes m extEnd fuel (ptr + 1) (n + 1)
        (r.1, ptr :: r.2)
    else (n, [])

/-- The `switch` on the type of an element whose data starts at `ptr`: the
header, and how many data bytes it reads; `none` where it gives up. -/
def parseElement (m : Mem) (type : RTPExtensionType) (len : Byte) (ptr : Nat) (h : RTPHeader) :
    Option (RTPHeader × Nat) :=
  match type with
  | .transmissionTimeOffset =>
    if len ≠ 2 then none
    else
      let transmissionTimeOffset := (be24 m ptr).setWidth 32
      -- Negative offset, correct sign for Word24 to Word32.
      let transmissionTimeOffset :=
        if transmissionTimeOffset &&& 0x800000 ≠ 0 then transmissionTimeOffset ||| 0xFF000000
        else transmissionTimeOffset
      some ({ h with extension.transmissionTimeOffset := transmissionTimeOffset }, 3)
  | .audioLevel => some (h, 0)
  | .absoluteSendTime =>
    if len ≠ 2 then none
    else some ({ h with extension.absoluteSendTime := (be24 m ptr).setWidth 32 }, 3)

/-- The id and the length field of the element at `ptr`. -/
def elementId (m : Mem) (ptr : Nat) : Byte := (m ptr &&& 0xf0) >>> 4
def elementLen (m : Mem) (ptr : Nat) : Byte := m ptr &&& 0x0f

/-- `ParseOneByteExtensionHeader` from `ptr`. Each round moves `ptr` on by at
least one, so `extEnd - ptr` rounds are enough. -/
def parseOneByteExtensionHeader (m : Mem) (map : RtpHeaderExtensionMap) (extEnd : Nat) :
    Nat → Nat → RTPHeader → RTPHeader × List Nat
  | 0, _, h => (h, [])
  | fuel + 1, ptr, h =>
    if extEnd - ptr > 0 then
      if elementId m ptr = 15 then (h, [ptr])
      else
        match map.getType (elementId m ptr) with
        | none => (h, [ptr])
        | some type =>
          match parseElement m type (elementLen m ptr) (ptr + 1) h with
          | none => (h, [ptr])
          | some (h', n) =>
            let padding := parsePaddingBytes m extEnd (extEnd - (ptr + 1 + n)) (ptr + 1 + n) 0
            let rest := parseOneByteExtensionHeader m map extEnd fuel
              (ptr + 1 + n + padding.1.toNat) h'
            (rest.1, ptr :: addrs (ptr + 1) n ++ padding.2 ++ rest.2)
    else (h, [])

/-- What `Parse` returns, the header it leaves behind and the addresses it
read. -/
structure Parsed where
  ok : Bool
  header : RTPHeader
  reads : List Nat

section Fields

variable (m : Mem)

/-! The fields of the first byte: version, padding, extension, CSRC count. -/

def V : Byte := m 0 >>> 6
def P : Bool := decide (m 0 &&& 0x20 ≠ 0)
def X : Bool := decide (m 0 &&& 0x10 ≠ 0)
def CC : Byte := m 0 &&& 0x0f
def CSRCocts : Byte := CC m * 4

/-- The end of the fixed header and the CSRC list, where `ptr` stands after
them. -/
def csrcEnd : Nat := 12 + 4 * (CC m).toNat

/-- The octets of the extension block, in the 16 bits of `XLen`. -/
def XLen : BitVec 16 := be16 m (csrcEnd m + 2) * 4

/-- The header after the fixed part and the CSRC list. -/
def fixedHeader (length : Nat) (header : RTPHeader) : RTPHeader :=
  { header with
    markerBit := decide (m 1 &&& 0x80 ≠ 0)
    payloadType := m 1 &&& 0x7f
    sequenceNumber := be16 m 2
    timestamp := be32 m 4
    ssrc := be32 m 8
    numCSRCs := CC m
    paddingLength := if P m then m (length - 1) else 0
    arrOfCSRCs := fun i => if i < (CC m).toNat then be32 m (12 + 4 * i) else header.arrOfCSRCs i
    headerLength := 12 + (CSRCocts m).setWidth 16
    extension := ⟨0, 0⟩ }

/-- The reads of the fixed header, the padding count and the CSRC list. -/
def fixedReads (length : Nat) : List Nat :=
  addrs 0 12 ++ (if P m then [length - 1] else []) ++ addrs 12 (4 * (CC m).toNat)

end Fields

/-- The scan of the extension block, if it has one-byte headers; `none` is the
absent extension map. -/
def scanExtension (m : Mem) (header : RTPHeader) (map : Option RtpHeaderExtensionMap) :
    RTPHeader × List Nat :=
  match map with
  | some map =>
    if be16 m (csrcEnd m) = kRtpOneByteHeaderExtensionId then
      parseOneByteExtensionHeader m map (csrcEnd m + 4 + (XLen m).toNat) (XLen m).toNat
        (csrcEnd m + 4) header
    else (header, [])
  | none => (header, [])

/-- The extension block of `Parse`, at `csrcEnd m`. -/
def parseExtension (m : Mem) (length : Nat) (header : RTPHeader)
    (map : Option RtpHeaderExtensionMap) : Parsed :=
  let remain := length - csrcEnd m
  if remain < 4 then ⟨false, header, fixedReads m length⟩
  else
    let header := { header with headerLength := header.headerLength + 4 }
    let reads := fixedReads m length ++ addrs (csrcEnd m) 4
    if remain < 4 + (XLen m).toNat then ⟨false, header, reads⟩
    else
      let scanned := scanExtension m header map
      ⟨true, { scanned.1 with headerLength := scanned.1.headerLength + XLen m },
        reads ++ scanned.2⟩

/-- `RTPHeaderParser::Parse`. -/
def parse (m : Mem) (length : Nat) (header : RTPHeader) (map : Option RtpHeaderExtensionMap) :
    Parsed :=
  if length < 12 then ⟨false, header, []⟩
  else if V m ≠ 2 then ⟨false, header, addrs 0 12⟩
  else if 12 + (CSRCocts m).toNat > length then ⟨false, header, addrs 0 12⟩
  else if X m then parseExtension m length (fixedHeader m length header) map
  else ⟨true, fixedHeader m length header, fixedReads m length⟩

/-! ## What the bytes declare -/

section Declared

variable (m : Mem) (length : Nat) (map : Option RtpHeaderExtensionMap)

/-- The header length, in the 16 bits of `headerLength`. -/
def declaredHeaderLength : BitVec 16 :=
  if X m then BitVec.ofNat 16 (csrcEnd m + 4) + XLen m else BitVec.ofNat 16 (csrcEnd m)

/-- The padding count in the last byte, where the padding bit is set. -/
def declaredPaddingLength : Byte := if P m then m (length - 1) else 0

/-- The data bytes of an element of type `type` whose length field is `len`;
`none` for an element the scan gives up at. -/
def dataBytes (type : RTPExtensionType) (len : Byte) : Option Nat :=
  match type with
  | .transmissionTimeOffset | .absoluteSendTime => if len = 2 then some 3 else none
  | .audioLevel => some 0

/-- The position and the number of data bytes of each element that a scan of
the extension block from `ptr` steps over. -/
def elementsFrom (m : Mem) (map : RtpHeaderExtensionMap) (extEnd : Nat) :
    Nat → Nat → List (Nat × Nat)
  | 0, _ => []
  | fuel + 1, ptr =>
    if ptr < extEnd ∧ elementId m ptr ≠ 15 then
      match (map.getType (elementId m ptr)).bind (dataBytes · (elementLen m ptr)) with
      | some n =>
        let padding := parsePaddingBytes m extEnd (extEnd - (ptr + 1 + n)) (ptr + 1 + n) 0
        (ptr, n) :: elementsFrom m map extEnd fuel (ptr + 1 + n + padding.1.toNat)
      | none => []
    else []

/-- The elements of the packet's extension block, if it is one with one-byte
headers and extensions are registered. -/
def elements : List (Nat × Nat) :=
  match map with
  | some map =>
    if X m ∧ be16 m (csrcEnd m) = kRtpOneByteHeaderExtensionId then
      elementsFrom m map (csrcEnd m + 4 + (XLen m).toNat) (XLen m).toNat (csrcEnd m + 4)
    else []
  | none => []

/-- The padding count leaves room for the header. -/
def PaddingFits : Prop :=
  (declaredHeaderLength m).toNat + (declaredPaddingLength m length).toNat ≤ length

/-- The data bytes of every element lie inside the packet. -/
def ElementsFit : Prop := ∀ e ∈ elements m map, e.1 + 1 + e.2 ≤ length

instance : Decidable (PaddingFits m length) := inferInstanceAs (Decidable (_ ≤ _))
instance : Decidable (ElementsFit m length map) := inferInstanceAs (Decidable (∀ e ∈ _, _ ≤ _))

end Declared

/-! ## The scan -/

theorem mem_parsePaddingBytes {m : Mem} {extEnd a : Nat} :
    ∀ {fuel ptr : Nat} {n : Byte}, a ∈ (parsePaddingBytes m extEnd fuel ptr n).2 → a < extEnd
  | 0, _, _, h => by simp [parsePaddingBytes] at h
  | fuel + 1, ptr, n, h => by
    rw [parsePaddingBytes] at h
    split at h
    · split at h
      · rw [List.mem_singleton] at h
        omega
      · rcases List.mem_cons.mp h with rfl | h
        · omega
        · exact mem_parsePaddingBytes h
    · simp at h

/-- An element reads the data bytes of its type and length. -/
theorem parseElement_map_snd (m : Mem) (type : RTPExtensionType) (len : Byte) (ptr : Nat)
    (h : RTPHeader) : (parseElement m type len ptr h).map Prod.snd = dataBytes type len := by
  cases type with
  | transmissionTimeOffset | absoluteSendTime =>
    by_cases hl : len = 2 <;> simp [parseElement, dataBytes, hl]
  | audioLevel => rfl

/-- The scan reads inside the packet exactly if the elements it steps over
end there. -/
theorem scan_reads {m : Mem} {map : RtpHeaderExtensionMap} {extEnd length : Nat}
    (hext : extEnd ≤ length) :
    ∀ (fuel ptr : Nat) (h : RTPHeader),
      (∀ a ∈ (parseOneByteExtensionHeader m map extEnd fuel ptr h).2, a < length) ↔
        ∀ e ∈ elementsFrom m map extEnd fuel ptr, e.1 + 1 + e.2 ≤ length
  | 0, _, _ => by simp [parseOneByteExtensionHeader, elementsFrom]
  | fuel + 1, ptr, h => by
    rw [parseOneByteExtensionHeader, elementsFrom]
    by_cases hp : ptr < extEnd
    · have hread : ∀ a ∈ [ptr], a < length := by simpa using by omega
      rw [if_pos (by omega)]
      by_cases h15 : elementId m ptr = 15
      · simpa [h15] using hread
      simp only [hp, h15, if_false, ne_eq, not_false_eq_true, and_self, if_true]
      cases ht : map.getType (elementId m ptr) with
      | none => simpa using hread
      | some type =>
        have hd := parseElement_map_snd m type (elementLen m ptr) (ptr + 1) h
        simp only [Option.bind_some]
        cases he : parseElement m type (elementLen m ptr) (ptr + 1) h with
        | none =>
          rw [he, Option.map_none] at hd
          simpa [← hd] using hread
        | some r =>
          obtain ⟨h', n⟩ := r
          rw [he, Option.map_some] at hd
          simp only [← hd]
          generalize hpad : parsePaddingBytes m extEnd (extEnd - (ptr + 1 + n)) (ptr + 1 + n) 0 = pad
          have ih := @scan_reads m map extEnd length hext fuel (ptr + 1 + n + pad.1.toNat) h'
          have hzeros : ∀ a ∈ pad.2, a < length := fun a ha => by
            have := mem_parsePaddingBytes (hpad ▸ ha)
            omega
          have hdata : (ptr < length ∧ ∀ a ∈ addrs (ptr + 1) n, a < length) ↔
              ptr + 1 + n ≤ length := by
            simp only [mem_addrs]
            constructor
            · intro ⟨_, hn⟩
              by_contra hlt
              have := hn (ptr + n)
              omega
            · intro hle
              exact ⟨by omega, fun a ha => by omega⟩
          simp only [List.forall_mem_append, List.forall_mem_cons, hdata, ih]
          exact ⟨fun hall => ⟨hall.1.1, hall.2⟩, fun hall => ⟨⟨hall.1, hzeros⟩, hall.2⟩⟩
    · rw [if_neg (by omega), if_neg (by tauto)]
      simp

/-! ## The packet -/

theorem csrcEnd_eq (m : Mem) : csrcEnd m = 12 + (CSRCocts m).toNat := by
  have hcc : (CC m).toNat ≤ 15 := by
    rw [CC, BitVec.toNat_and]
    exact Nat.and_le_right
  rw [csrcEnd, CSRCocts]
  bv_omega

theorem mem_fixedReads {m : Mem} {length : Nat} (hlen : 12 ≤ length) (hcsrc : csrcEnd m ≤ length) :
    ∀ a ∈ fixedReads m length, a < length := by
  intro a ha
  simp only [fixedReads, List.mem_append, mem_addrs] at ha
  rw [csrcEnd] at hcsrc
  rcases ha with (ha | ha) | ha
  · omega
  · split at ha <;> simp at ha
    omega
  · omega

theorem parseElement_header {m : Mem} {type : RTPExtensionType} {len : Byte} {ptr n : Nat}
    {h h' : RTPHeader} (he : parseElement m type len ptr h = some (h', n)) :
    ∃ e, h' = { h with extension := e } := by
  cases type with
  | transmissionTimeOffset | absoluteSendTime =>
    simp only [parseElement] at he
    split at he
    · cases he
    · rw [Option.some.injEq, Prod.mk.injEq] at he
      exact ⟨_, he.1.symm⟩
  | audioLevel =>
    simp only [parseElement, Option.some.injEq, Prod.mk.injEq] at he
    exact ⟨h.extension, he.1.symm⟩

/-- The scan writes the extension values only. -/
theorem scan_header (m : Mem) (map : RtpHeaderExtensionMap) (extEnd : Nat) :
    ∀ (fuel ptr : Nat) (h : RTPHeader), ∃ e,
      (parseOneByteExtensionHeader m map extEnd fuel ptr h).1 = { h with extension := e }
  | 0, _, h => ⟨h.extension, rfl⟩
  | fuel + 1, ptr, h => by
    rw [parseOneByteExtensionHeader]
    split <;> [skip; exact ⟨h.extension, rfl⟩]
    split
    · exact ⟨h.extension, rfl⟩
    split
    · exact ⟨h.extension, rfl⟩
    split
    · exact ⟨h.extension, rfl⟩
    rename_i h' n he
    obtain ⟨e, rfl⟩ := parseElement_header he
    obtain ⟨e', he'⟩ := scan_header m map extEnd fuel (ptr + 1 + n +
      (parsePaddingBytes m extEnd (extEnd - (ptr + 1 + n)) (ptr + 1 + n) 0).1.toNat)
      { h with extension := e }
    exact ⟨e', he'⟩

theorem scanExtension_header (m : Mem) (h : RTPHeader) (map : Option RtpHeaderExtensionMap) :
    ∃ e, (scanExtension m h map).1 = { h with extension := e } := by
  unfold scanExtension
  split <;> [skip; exact ⟨h.extension, rfl⟩]
  split <;> [exact scan_header ..; exact ⟨h.extension, rfl⟩]

theorem scanExtension_reads {m : Mem} {length : Nat} {h : RTPHeader}
    {map : Option RtpHeaderExtensionMap} (hX : X m = true)
    (hend : csrcEnd m + 4 + (XLen m).toNat ≤ length) :
    (∀ a ∈ (scanExtension m h map).2, a < length) ↔ ElementsFit m length map := by
  cases map with
  | none => simp [scanExtension, ElementsFit, elements]
  | some map =>
    simp only [scanExtension, ElementsFit, elements, hX, true_and]
    split
    · exact scan_reads hend ..
    · simp

/-- What an accepted packet satisfies: its length was checked, the header
reports the declared lengths, and its reads stay inside exactly if its
extension elements do. -/
theorem parse_ok {m : Mem} {length : Nat} {header : RTPHeader}
    {map : Option RtpHeaderExtensionMap} (h : (parse m length header map).ok = true) :
    12 ≤ length ∧ csrcEnd m ≤ length ∧
    (X m = true → csrcEnd m + 4 + (XLen m).toNat ≤ length) ∧
    (parse m length header map).header.headerLength = declaredHeaderLength m ∧
    (parse m length header map).header.paddingLength = declaredPaddingLength m length ∧
    ((∀ a ∈ (parse m length header map).reads, a < length) ↔ ElementsFit m length map) := by
  have hcsrc := csrcEnd_eq m
  have hhdr : 12 + (CSRCocts m).setWidth 16 = BitVec.ofNat 16 (csrcEnd m) := by
    rw [hcsrc]
    bv_omega
  unfold parse at h ⊢
  split at h
  · cases h
  split at h
  · cases h
  split at h
  · cases h
  rename_i h12 hV hc
  have hfixed := @mem_fixedReads m length (by omega) (by omega)
  cases hX : X m with
  | false =>
    simp only [hX, h12, hV, hc, if_false, Bool.false_eq_true, false_implies, true_and,
      declaredHeaderLength, ElementsFit, elements, false_and]
    refine ⟨by omega, by omega, hhdr, rfl, ?_⟩
    cases map <;> simpa using hfixed
  | true =>
    simp only [hX, h12, hV, hc, if_false, if_true, parseExtension] at h ⊢
    split at h
    · cases h
    split at h
    · cases h
    rename_i hr hx
    have hread : ∀ a ∈ fixedReads m length ++ addrs (csrcEnd m) 4, a < length := by
      simp only [List.forall_mem_append, mem_addrs]
      exact ⟨hfixed, fun a ha => by omega⟩
    rw [if_neg hr, if_neg hx]
    simp only [List.forall_mem_append] at hread ⊢
    obtain ⟨e, he⟩ := scanExtension_header m
      { fixedHeader m length header with
        headerLength := (fixedHeader m length header).headerLength + 4 } map
    refine ⟨by omega, by omega, fun _ => by omega, ?_, ?_, ?_⟩
    · rw [he, declaredHeaderLength, if_pos hX]
      simp only [fixedHeader, hhdr, BitVec.ofNat_add]
      rfl
    · rw [he]
      rfl
    · rw [← scanExtension_reads hX (by omega)]
      exact ⟨fun ha => ha.2, fun ha => ⟨hread, ha⟩⟩

/-- A packet that `Parse` accepts is read inside its bounds and reports
lengths that fit in it, exactly if its padding count and its extension
elements fit. -/
theorem parse_inside_iff {m : Mem} {length : Nat} {header : RTPHeader}
    {map : Option RtpHeaderExtensionMap} (h : (parse m length header map).ok = true) :
    ((∀ a ∈ (parse m length header map).reads, a < length) ∧
      (parse m length header map).header.headerLength.toNat +
        (parse m length header map).header.paddingLength.toNat ≤ length) ↔
    ElementsFit m length map ∧ PaddingFits m length := by
  obtain ⟨-, -, -, hh, hp, hr⟩ := parse_ok h
  rw [hh, hp, hr, PaddingFits]

/-- The map with the transmission time offset under id 1. -/
def offsetMap : RtpHeaderExtensionMap :=
  ⟨[(1, .transmissionTimeOffset)], List.pairwise_singleton _ _, by decide⟩

/-- A packet with one transmission time offset, three bytes of padding in its
extension block, and the byte `last` behind them, which ends the packet. -/
def offsetPacket (last : Byte) : Mem := Mem.ofList
  [0x90, 0, 0, 0, 0, 0, 0, 0, 0, 0, 0, 0, 0xBE, 0xDE, 0, 2, 0x12, 0, 0, 5, 0, 0, 0, last]

/-- With a zero behind the padding the packet is read inside its bounds. -/
theorem parse_inside_offsetPacket :
    (∀ a ∈ (parse (offsetPacket 0) 24 RTPHeader.cleared (some offsetMap)).reads, a < 24) ∧
      (parse (offsetPacket 0) 24 RTPHeader.cleared (some offsetMap)).header.headerLength.toNat +
        (parse (offsetPacket 0) 24 RTPHeader.cleared (some offsetMap)).header.paddingLength.toNat ≤ 24 :=
  (parse_inside_iff (by decide)).mpr (by decide)

/-- With the first byte of another offset there, its data is read from
behind the packet; and a packet of twelve bytes may declare 255 bytes of
padding. -/
theorem parse_outside :
    ((parse (offsetPacket 0x12) 24 RTPHeader.cleared (some offsetMap)).ok = true ∧
      ¬ ∀ a ∈ (parse (offsetPacket 0x12) 24 RTPHeader.cleared (some offsetMap)).reads, a < 24) ∧
    ¬ ∀ (m : Mem) (length : Nat) (header : RTPHeader) (map : Option RtpHeaderExtensionMap),
      (parse m length header map).ok = true →
        (∀ a ∈ (parse m length header map).reads, a < length) ∧
        (parse m length header map).header.headerLength.toNat +
          (parse m length header map).header.paddingLength.toNat ≤ length := by
  refine ⟨by decide, fun h => ?_⟩
  have := h (Mem.ofList [0xA0, 0, 0, 0, 0, 0, 0, 0, 0, 0, 0, 255]) 12 RTPHeader.cleared none
    (by decide)
  revert this
  decide

end PerchWebrtc.Rtp
