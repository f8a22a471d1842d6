import PerchWebrtc.Vp8.Packetization

/-!
# The VP8 payload parser

`RTPPayloadParser::ParseVP8` (`rtp_utility.cc`) on the bytes of a payload, and
the header that `RTPReceiverVideo::ReceiveVp8Codec` makes of its result.

* `parseVP8Extension_written`: the extension of the descriptor.
* `parseVP8_writeHeaderAndPayload`: the packets of the packetiser.
-/

namespace PerchWebrtc.Vp8

/-! ## The model -/

inductive FrameTypes where
  | kIFrame
  | kPFrame
  deriving DecidableEq

/-- The fields with the values that `SetType` gives them. The payload is the
bytes that `data` and `dataLength` describe. -/
structure RTPPayloadVP8 where
  frameType : FrameTypes := .kPFrame
  nonReferenceFrame : Bool := false
  beginningOfPartition : Bool := false
  partitionID : Nat := 0
  hasPictureID : Bool := false
  hasTl0PicIdx : Bool := false
  hasTID : Bool := false
  hasKeyIdx : Bool := false
  pictureID : Int := -1
  tl0PicIdx : Int := -1
  tID : Int := -1
  layerSync : Bool := false
  keyIdx : Int := -1
  frameWidth : Nat := 0
  frameHeight : Nat := 0
  data : List Byte := []

namespace RTPPayloadVP8

variable (vp8 : RTPPayloadVP8)

/-- The number and the bytes behind it. -/
def parseVP8PictureID : List Byte → Option (RTPPayloadVP8 × List Byte)
  | [] => none
  | b :: rest =>
    if b &&& 0x80 ≠ 0 then
      match rest with
      | [] => none
      | c :: rest =>
        some ({ vp8 with pictureID := (b &&& 0x7F).toNat * 2 ^ 8 + c.toNat }, rest)
    else some ({ vp8 with pictureID := (b &&& 0x7F).toNat }, rest)

def parseVP8Tl0PicIdx : List Byte → Option (RTPPayloadVP8 × List Byte)
  | [] => none
  | b :: rest => some ({ vp8 with tl0PicIdx := b.toNat }, rest)

def parseVP8TIDAndKeyIdx : List Byte → Option (RTPPayloadVP8 × List Byte)
  | [] => none
  | b :: rest =>
    let vp8 :=
      if vp8.hasTID then
        { vp8 with tID := (b >>> 6 &&& 0x03).toNat, layerSync := b &&& 0x20 ≠ 0 }
      else vp8
    some (if vp8.hasKeyIdx then { vp8 with keyIdx := (b &&& 0x1F).toNat } else vp8, rest)

/-- A field that is there or not. -/
def parseIf (present : Bool) (parse : RTPPayloadVP8 → List Byte → Option (RTPPayloadVP8 × List Byte))
    (data : List Byte) : Option (RTPPayloadVP8 × List Byte) :=
  if present then parse vp8 data else some (vp8, data)

def parseVP8Extension : List Byte → Option (RTPPayloadVP8 × List Byte)
  | [] => none
  | b :: rest =>
    let vp8 := { vp8 with
      hasPictureID := b &&& 0x80 ≠ 0
      hasTl0PicIdx := b &&& 0x40 ≠ 0
      hasTID := b &&& 0x20 ≠ 0
      hasKeyIdx := b &&& 0x10 ≠ 0 }
    (vp8.parseIf vp8.hasPictureID parseVP8PictureID rest).bind fun (vp8, rest) =>
      (vp8.parseIf vp8.hasTl0PicIdx parseVP8Tl0PicIdx rest).bind fun (vp8, rest) =>
        vp8.parseIf (vp8.hasTID || vp8.hasKeyIdx) parseVP8TIDAndKeyIdx rest

def parseVP8FrameSize (data : List Byte) : Option RTPPayloadVP8 :=
  if vp8.frameType ≠ .kIFrame then some vp8
  else if data.length < 10 then none
  else some { vp8 with
    frameWidth := ((data.getD 7 0).toNat * 2 ^ 8 + (data.getD 6 0).toNat) % 2 ^ 14
    frameHeight := ((data.getD 9 0).toNat * 2 ^ 8 + (data.getD 8 0).toNat) % 2 ^ 14 }

end RTPPayloadVP8

open RTPPayloadVP8

/-- `none` is false. It is not called without bytes, and the number of bytes
has 16 bits. -/
def parseVP8 : List Byte → Option RTPPayloadVP8
  | [] => none
  | b :: rest =>
    let vp8 : RTPPayloadVP8 :=
      { nonReferenceFrame := b &&& 0x20 ≠ 0
        beginningOfPartition := b &&& 0x10 ≠ 0
        partitionID := (b &&& 0x0F).toNat }
    if 8 < vp8.partitionID then none
    else
      (vp8.parseIf (b &&& 0x80 ≠ 0) parseVP8Extension rest).bind fun (vp8, data) =>
        match data with
        | [] => none
        | p :: _ =>
          let vp8 :=
            if vp8.beginningOfPartition && vp8.partitionID = 0 then
              { vp8 with frameType := if p &&& 0x01 ≠ 0 then .kPFrame else .kIFrame }
            else vp8
          (vp8.parseVP8FrameSize data).map fun vp8 => { vp8 with data := data }

/-- The header that the receiver hands on. -/
def RTPPayloadVP8.toHeader (vp8 : RTPPayloadVP8) : RTPVideoHeaderVP8 where
  nonReference := vp8.nonReferenceFrame
  pictureId := if vp8.hasPictureID then BitVec.ofInt 16 vp8.pictureID else kNoPictureId
  tl0PicIdx := if vp8.hasTl0PicIdx then BitVec.ofInt 16 vp8.tl0PicIdx else kNoTl0PicIdx
  temporalIdx := if vp8.hasTID then BitVec.ofInt 8 vp8.tID else kNoTemporalIdx
  layerSync := vp8.hasTID && vp8.layerSync
  keyIdx := if vp8.hasKeyIdx then BitVec.ofInt 32 vp8.keyIdx else kNoKeyIdx

/-- The ranges of the fields: a field is absent, or its value fits into its
bits. -/
structure RTPVideoHeaderVP8.InRange (hdr : RTPVideoHeaderVP8) : Prop where
  pictureId : hdr.pictureId = kNoPictureId ∨ hdr.pictureId.toNat < 2 ^ 15
  tl0PicIdx : hdr.tl0PicIdx = kNoTl0PicIdx ∨ hdr.tl0PicIdx.toNat < 2 ^ 8
  temporalIdx : hdr.temporalIdx = kNoTemporalIdx ∨ hdr.temporalIdx.toNat < 2 ^ 2
  layerSync : hdr.layerSync = true → hdr.temporalIdx ≠ kNoTemporalIdx
  keyIdx : hdr.keyIdx = kNoKeyIdx ∨ hdr.keyIdx.toNat < 2 ^ 5

/-- The part of the frame that a packet carries. -/
def RtpFormatVp8.packetPayload (fmt : RtpFormatVp8) (info : InfoStruct) : List Byte :=
  (fmt.payloadData.drop info.payloadStartPos).take info.size

/-! ## Bits -/

theorem xField_bits : ∀ i l t k : Bool,
    let x : Byte := (if i then kIBit else 0) ||| (if l then kLBit else 0) |||
      (if t then kTBit else 0) ||| if k then kKBit else 0
    decide (x &&& 0x80 ≠ 0) = i ∧ decide (x &&& 0x40 ≠ 0) = l ∧ decide (x &&& 0x20 ≠ 0) = t ∧
      decide (x &&& 0x10 ≠ 0) = k := by
  decide

theorem firstByte_parsed : ∀ (x n s : Bool) (i : Fin 16),
    let b : Byte := (if x then kXBit else 0) ||| (if n then kNBit else 0) |||
      (if s then kSBit else 0) ||| (BitVec.ofNat 8 i &&& kPartIdField)
    decide (b &&& 0x80 ≠ 0) = x ∧ decide (b &&& 0x20 ≠ 0) = n ∧ decide (b &&& 0x10 ≠ 0) = s ∧
      (b &&& 0x0F).toNat = i := by
  decide

theorem tidAndKeyIdx_bits : ∀ (t : Fin 4) (y : Bool) (k : Fin 32),
    let b : Byte := (BitVec.ofNat 8 t <<< 6 ||| if y then kYBit else 0) ||| BitVec.ofNat 8 k
    (b >>> 6 &&& 0x03).toNat = t ∧ decide (b &&& 0x20 ≠ 0) = y ∧ (b &&& 0x1F).toNat = k := by
  decide

theorem pictureId_bits : ∀ b : Byte, (0x80 ||| (b &&& 0x7F)) &&& 0x80 ≠ 0 ∧
    (0x80 ||| (b &&& 0x7F)) &&& 0x7F = b &&& 0x7F ∧ (b &&& 0x7F) &&& 0x80 = 0 ∧
    (b &&& 0x7F) &&& 0x7F = b &&& 0x7F ∧ (b &&& 0x7F).toNat = b.toNat % 2 ^ 7 := by
  decide

/-! ## The fields -/

section Fields

variable {hdr : RTPVideoHeaderVP8} (h : hdr.InRange) (vp8 : RTPPayloadVP8) (rest : List Byte)

include h

theorem toInt_pictureId (hpresent : hdr.pictureIdPresent = true) :
    hdr.pictureId.toInt = hdr.pictureId.toNat ∧ hdr.pictureId.toNat < 2 ^ 15 := by
  have hne : hdr.pictureId ≠ kNoPictureId := fun e => by
    simp [RTPVideoHeaderVP8.pictureIdPresent, RTPVideoHeaderVP8.pictureIdLength, e] at hpresent
  have hlt := h.pictureId.resolve_left hne
  exact ⟨BitVec.toInt_eq_toNat_of_lt (by omega), hlt⟩

theorem parseVP8PictureID_written (hpresent : hdr.pictureIdPresent = true) :
    vp8.parseVP8PictureID (hdr.writePictureID ++ rest) =
      some ({ vp8 with pictureID := hdr.pictureId.toNat }, rest) := by
  obtain ⟨hint, hlt⟩ := toInt_pictureId h hpresent
  have hne : hdr.pictureId ≠ kNoPictureId := fun e => by
    simp [RTPVideoHeaderVP8.pictureIdPresent, RTPVideoHeaderVP8.pictureIdLength, e] at hpresent
  have hlow : (hdr.pictureId.setWidth 8).toNat = hdr.pictureId.toNat % 2 ^ 8 :=
    BitVec.toNat_setWidth _ _
  unfold RTPVideoHeaderVP8.writePictureID RTPVideoHeaderVP8.pictureIdLength
  rw [if_neg hne, hint]
  by_cases hshort : (hdr.pictureId.toNat : Int) ≤ 0x7F
  · obtain ⟨-, -, hbit, hvalue, hmod⟩ := pictureId_bits (hdr.pictureId.setWidth 8)
    have hnat : (hdr.pictureId.setWidth 8 &&& 0x7F).toNat = hdr.pictureId.toNat := by
      rw [hmod, hlow]
      omega
    rw [if_pos hshort, if_neg (by decide), if_pos rfl, List.cons_append, List.nil_append]
    unfold parseVP8PictureID
    simp only [hbit, hvalue, hnat, ne_eq, not_true_eq_false, if_false]
  · obtain ⟨hbit, hvalue, -, -, hmod⟩ := pictureId_bits ((hdr.pictureId >>> 8).setWidth 8)
    have hhigh : ((hdr.pictureId >>> 8).setWidth 8).toNat = hdr.pictureId.toNat / 2 ^ 8 := by
      rw [BitVec.toNat_setWidth, BitVec.toNat_ushiftRight, Nat.shiftRight_eq_div_pow]
      omega
    have hnat : (((hdr.pictureId >>> 8).setWidth 8 &&& 0x7F : Byte).toNat * 2 ^ 8 +
        (hdr.pictureId.setWidth 8).toNat : Nat) = hdr.pictureId.toNat := by
      rw [hmod, hlow, hhigh]
      omega
    rw [if_neg hshort, if_pos rfl, List.cons_append, List.cons_append, List.nil_append]
    have hcast : ((128 : Nat) : Byte) = 0x80 := rfl
    unfold parseVP8PictureID
    simp only [hcast, hvalue]
    rw [if_pos hbit]
    simp only [← hnat, Nat.cast_add, Nat.cast_mul, Nat.cast_pow, Nat.cast_ofNat]

omit h in
theorem parseVP8Tl0PicIdx_written (hfield : hdr.tl0PicIdx.toNat < 2 ^ 8) :
    vp8.parseVP8Tl0PicIdx (hdr.tl0PicIdx.setWidth 8 :: rest) =
      some ({ vp8 with tl0PicIdx := hdr.tl0PicIdx.toNat }, rest) := by
  have hnat : (hdr.tl0PicIdx.setWidth 8 : Byte).toNat = hdr.tl0PicIdx.toNat := by
    rw [BitVec.toNat_setWidth, Nat.mod_eq_of_lt hfield]
  rw [parseVP8Tl0PicIdx, hnat]

/-- The octet of the temporal layer and the key index holds the number of the
layer, the sync bit and the index, each 0 if it is absent. -/
theorem tidAndKeyIdx_eq : ∃ (t : Fin 4) (k : Fin 32),
    hdr.tidAndKeyIdx =
      (BitVec.ofNat 8 t <<< 6 ||| if hdr.layerSync then kYBit else 0) ||| BitVec.ofNat 8 k ∧
    (hdr.tidFieldPresent = true → (t : Nat) = hdr.temporalIdx.toNat) ∧
    (hdr.keyIdxFieldPresent = true → (k : Nat) = hdr.keyIdx.toNat) := by
  obtain ⟨t, ht, hT⟩ : ∃ t : Fin 4,
      (if hdr.tidFieldPresent then
        hdr.temporalIdx <<< 6 ||| if hdr.layerSync then kYBit else 0
      else 0) = (BitVec.ofNat 8 t <<< 6 ||| if hdr.layerSync then kYBit else 0) ∧
      (hdr.tidFieldPresent = true → (t : Nat) = hdr.temporalIdx.toNat) := by
    by_cases hpresent : hdr.tidFieldPresent = true
    · have hlt := h.temporalIdx.resolve_left (of_decide_eq_true hpresent)
      refine ⟨⟨hdr.temporalIdx.toNat, hlt⟩, ?_, fun _ => rfl⟩
      rw [if_pos hpresent, BitVec.ofNat_toNat, BitVec.setWidth_eq]
    · have hsync : hdr.layerSync = false := by
        refine Bool.eq_false_iff.mpr fun hsync => hpresent ?_
        exact decide_eq_true (h.layerSync hsync)
      refine ⟨0, ?_, fun hyes => absurd hyes hpresent⟩
      rw [if_neg hpresent, hsync]
      rfl
  obtain ⟨k, hk, hK⟩ : ∃ k : Fin 32,
      (if hdr.keyIdxFieldPresent then hdr.keyIdx.setWidth 8 &&& kKeyIdxField else 0) =
        BitVec.ofNat 8 k ∧
      (hdr.keyIdxFieldPresent = true → (k : Nat) = hdr.keyIdx.toNat) := by
    by_cases hpresent : hdr.keyIdxFieldPresent = true
    · have hlt := h.keyIdx.resolve_left (of_decide_eq_true hpresent)
      refine ⟨⟨hdr.keyIdx.toNat, hlt⟩, ?_, fun _ => rfl⟩
      rw [if_pos hpresent]
      have hmask : ∀ k : Fin 32, BitVec.ofNat 8 k &&& kKeyIdxField = BitVec.ofNat 8 k := by decide
      rw [← hmask ⟨hdr.keyIdx.toNat, hlt⟩]
      congr 1
    · exact ⟨0, by rw [if_neg hpresent]; rfl, fun hyes => absurd hyes hpresent⟩
  refine ⟨t, k, ?_, hT, hK⟩
  rw [RTPVideoHeaderVP8.tidAndKeyIdx, ht, hk]

theorem parseVP8TIDAndKeyIdx_written (hT : vp8.hasTID = hdr.tidFieldPresent)
    (hK : vp8.hasKeyIdx = hdr.keyIdxFieldPresent) :
    vp8.parseVP8TIDAndKeyIdx (hdr.tidAndKeyIdx :: rest) =
      some ({ vp8 with
        tID := if hdr.tidFieldPresent then (hdr.temporalIdx.toNat : Int) else vp8.tID
        layerSync := if hdr.tidFieldPresent then hdr.layerSync else vp8.layerSync
        keyIdx := if hdr.keyIdxFieldPresent then (hdr.keyIdx.toNat : Int) else vp8.keyIdx },
        rest) := by
  obtain ⟨t, k, heq, htid, hkey⟩ := tidAndKeyIdx_eq h
  obtain ⟨hfirst, hsync, hlast⟩ := tidAndKeyIdx_bits t hdr.layerSync k
  rw [← heq] at hfirst hsync hlast
  unfold RTPPayloadVP8.parseVP8TIDAndKeyIdx
  by_cases h1 : hdr.tidFieldPresent = true <;> by_cases h2 : hdr.keyIdxFieldPresent = true
  · simp only [hT, hK, h1, h2, if_true, hfirst, hsync, hlast, htid h1, hkey h2]
  · simp only [hT, hK, h1, h2, if_true, if_false, hfirst, hsync, htid h1, Bool.false_eq_true]
  · simp only [hT, hK, h1, h2, if_true, if_false, hlast, hkey h2, Bool.false_eq_true]
  · rw [if_neg h1, if_neg h1, if_neg h2]
    change _ = some (vp8, rest)
    simp only [hT, hK, h1, h2, if_false, Bool.false_eq_true]

theorem parseIf_pictureID :
    vp8.parseIf hdr.pictureIdPresent parseVP8PictureID (hdr.writePictureID ++ rest) =
      some ({ vp8 with
        pictureID := if hdr.pictureIdPresent then (hdr.pictureId.toNat : Int)
          else vp8.pictureID }, rest) := by
  by_cases hpresent : hdr.pictureIdPresent = true
  · rw [parseIf, if_pos hpresent, if_pos hpresent, parseVP8PictureID_written h _ _ hpresent]
  · have hlength : hdr.pictureIdLength = 0 := by
      simpa [RTPVideoHeaderVP8.pictureIdPresent] using hpresent
    have hwritten : hdr.writePictureID = [] := by
      rw [RTPVideoHeaderVP8.writePictureID, hlength]
      rfl
    rw [parseIf, if_neg hpresent, if_neg hpresent, hwritten]
    rfl

theorem parseIf_tl0PicIdx :
    vp8.parseIf hdr.tl0PicIdxFieldPresent parseVP8Tl0PicIdx
      ((if hdr.tl0PicIdxFieldPresent then [hdr.tl0PicIdx.setWidth 8] else []) ++ rest) =
      some ({ vp8 with
        tl0PicIdx := if hdr.tl0PicIdxFieldPresent then (hdr.tl0PicIdx.toNat : Int)
          else vp8.tl0PicIdx }, rest) := by
  by_cases hpresent : hdr.tl0PicIdxFieldPresent = true
  · have hlt := h.tl0PicIdx.resolve_left (of_decide_eq_true hpresent)
    rw [parseIf, if_pos hpresent, if_pos hpresent, if_pos hpresent, List.singleton_append,
      parseVP8Tl0PicIdx_written _ _ hlt]
  · rw [parseIf, if_neg hpresent, if_neg hpresent, if_neg hpresent]
    rfl

theorem parseIf_tidAndKeyIdx (hT : vp8.hasTID = hdr.tidFieldPresent)
    (hK : vp8.hasKeyIdx = hdr.keyIdxFieldPresent) :
    vp8.parseIf (hdr.tidFieldPresent || hdr.keyIdxFieldPresent) parseVP8TIDAndKeyIdx
      ((if hdr.tidFieldPresent || hdr.keyIdxFieldPresent then [hdr.tidAndKeyIdx] else []) ++ rest) =
      some ({ vp8 with
        tID := if hdr.tidFieldPresent then (hdr.temporalIdx.toNat : Int) else vp8.tID
        layerSync := if hdr.tidFieldPresent then hdr.layerSync else vp8.layerSync
        keyIdx := if hdr.keyIdxFieldPresent then (hdr.keyIdx.toNat : Int) else vp8.keyIdx },
        rest) := by
  by_cases hpresent : (hdr.tidFieldPresent || hdr.keyIdxFieldPresent) = true
  · rw [parseIf, if_pos hpresent, if_pos hpresent, List.singleton_append,
      parseVP8TIDAndKeyIdx_written h _ _ hT hK]
  · have h1 : ¬ hdr.tidFieldPresent = true := fun e => hpresent (by simp [e])
    have h2 : ¬ hdr.keyIdxFieldPresent = true := fun e => hpresent (by simp [e])
    rw [parseIf, if_neg hpresent, if_neg hpresent, if_neg h1, if_neg h1, if_neg h2]
    rfl

/-- What the parser makes of the extension. -/
theorem parseVP8Extension_written {bufferLength : Nat} {extension : List Byte}
    (hpresent : hdr.xFieldPresent = true)
    (hwritten : hdr.writeExtensionFields bufferLength = some extension) :
    vp8.parseVP8Extension (extension ++ rest) = some ({ vp8 with
      hasPictureID := hdr.pictureIdPresent
      hasTl0PicIdx := hdr.tl0PicIdxFieldPresent
      hasTID := hdr.tidFieldPresent
      hasKeyIdx := hdr.keyIdxFieldPresent
      pictureID := if hdr.pictureIdPresent then (hdr.pictureId.toNat : Int) else vp8.pictureID
      tl0PicIdx := if hdr.tl0PicIdxFieldPresent then (hdr.tl0PicIdx.toNat : Int)
        else vp8.tl0PicIdx
      tID := if hdr.tidFieldPresent then (hdr.temporalIdx.toNat : Int) else vp8.tID
      layerSync := if hdr.tidFieldPresent then hdr.layerSync else vp8.layerSync
      keyIdx := if hdr.keyIdxFieldPresent then (hdr.keyIdx.toNat : Int) else vp8.keyIdx },
      rest) := by
  obtain ⟨hI, hL, hT, hK⟩ := xField_bits hdr.pictureIdPresent hdr.tl0PicIdxFieldPresent
    hdr.tidFieldPresent hdr.keyIdxFieldPresent
  rw [RTPVideoHeaderVP8.writeExtensionFields, if_pos hpresent] at hwritten
  obtain ⟨-, hextension⟩ := Option.ite_none_left_eq_some.mp hwritten
  rw [← Option.some.inj hextension, List.cons_append, RTPPayloadVP8.parseVP8Extension]
  simp only [hI, hL, hT, hK, List.append_assoc]
  rw [parseIf_pictureID h, Option.bind_some, parseIf_tl0PicIdx h, Option.bind_some,
    parseIf_tidAndKeyIdx h _ _ rfl rfl]

/-- A field that is present gives the header its value, one that is absent the
value that says so. -/
theorem toHeader_eq (hI : vp8.hasPictureID = hdr.pictureIdPresent)
    (hL : vp8.hasTl0PicIdx = hdr.tl0PicIdxFieldPresent) (hT : vp8.hasTID = hdr.tidFieldPresent)
    (hK : vp8.hasKeyIdx = hdr.keyIdxFieldPresent) (hN : vp8.nonReferenceFrame = hdr.nonReference)
    (hpictureID : hdr.pictureIdPresent = true → vp8.pictureID = hdr.pictureId.toNat)
    (htl0PicIdx : hdr.tl0PicIdxFieldPresent = true → vp8.tl0PicIdx = hdr.tl0PicIdx.toNat)
    (htID : hdr.tidFieldPresent = true → vp8.tID = hdr.temporalIdx.toNat)
    (hsync : hdr.tidFieldPresent = true → vp8.layerSync = hdr.layerSync)
    (hkeyIdx : hdr.keyIdxFieldPresent = true → vp8.keyIdx = hdr.keyIdx.toNat) :
    vp8.toHeader = hdr := by
  have h1 : (if vp8.hasPictureID then BitVec.ofInt 16 vp8.pictureID else kNoPictureId) =
      hdr.pictureId := by
    rw [hI]
    split_ifs with hpresent
    · rw [hpictureID hpresent, BitVec.ofInt_natCast, BitVec.ofNat_toNat, BitVec.setWidth_eq]
    · by_contra hne
      refine hpresent (decide_eq_true ?_)
      rw [RTPVideoHeaderVP8.pictureIdLength, if_neg (Ne.symm hne)]
      split <;> decide
  have h2 : (if vp8.hasTl0PicIdx then BitVec.ofInt 16 vp8.tl0PicIdx else kNoTl0PicIdx) =
      hdr.tl0PicIdx := by
    rw [hL]
    split_ifs with hpresent
    · rw [htl0PicIdx hpresent, BitVec.ofInt_natCast, BitVec.ofNat_toNat, BitVec.setWidth_eq]
    · exact (not_not.mp fun hne => hpresent (decide_eq_true hne)).symm
  have h3 : (if vp8.hasTID then BitVec.ofInt 8 vp8.tID else kNoTemporalIdx) =
      hdr.temporalIdx := by
    rw [hT]
    split_ifs with hpresent
    · rw [htID hpresent, BitVec.ofInt_natCast, BitVec.ofNat_toNat, BitVec.setWidth_eq]
    · exact (not_not.mp fun hne => hpresent (decide_eq_true hne)).symm
  have h4 : (vp8.hasTID && vp8.layerSync) = hdr.layerSync := by
    by_cases hpresent : hdr.tidFieldPresent = true
    · rw [hT, hpresent, hsync hpresent, Bool.true_and]
    · have hoff : hdr.layerSync = false := by
        refine Bool.eq_false_iff.mpr fun hsync => hpresent ?_
        exact decide_eq_true (h.layerSync hsync)
      rw [hT, Bool.eq_false_iff.mpr hpresent, hoff, Bool.false_and]
  have h5 : (if vp8.hasKeyIdx then BitVec.ofInt 32 vp8.keyIdx else kNoKeyIdx) = hdr.keyIdx := by
    rw [hK]
    split_ifs with hpresent
    · rw [hkeyIdx hpresent, BitVec.ofInt_natCast, BitVec.ofNat_toNat, BitVec.setWidth_eq]
    · exact (not_not.mp fun hne => hpresent (decide_eq_true hne)).symm
  unfold RTPPayloadVP8.toHeader
  rw [h1, h2, h3, h4, h5, hN]

/-- The extension where there is one, with the header that is made of it. -/
theorem parseIf_extension {bufferLength : Nat} {extension : List Byte}
    (hwritten : hdr.writeExtensionFields bufferLength = some extension)
    (hdefault : vp8.hasPictureID = false ∧ vp8.hasTl0PicIdx = false ∧ vp8.hasTID = false ∧
      vp8.hasKeyIdx = false) (hN : vp8.nonReferenceFrame = hdr.nonReference) :
    ∃ vp8', vp8.parseIf hdr.xFieldPresent parseVP8Extension (extension ++ rest) =
        some (vp8', rest) ∧
      vp8'.toHeader = hdr ∧ vp8'.beginningOfPartition = vp8.beginningOfPartition ∧
      vp8'.partitionID = vp8.partitionID ∧ vp8'.frameType = vp8.frameType := by
  by_cases hpresent : hdr.xFieldPresent = true
  · refine ⟨_, (if_pos hpresent).trans (parseVP8Extension_written h _ _ hpresent hwritten), ?_,
      rfl, rfl, rfl⟩
    exact toHeader_eq h _ rfl rfl rfl rfl hN (fun e => if_pos e) (fun e => if_pos e)
      (fun e => if_pos e) (fun e => if_pos e) (fun e => if_pos e)
  · rw [RTPVideoHeaderVP8.writeExtensionFields, if_neg hpresent] at hwritten
    have habsent : hdr.tidFieldPresent = false ∧ hdr.tl0PicIdxFieldPresent = false ∧
        hdr.pictureIdPresent = false ∧ hdr.keyIdxFieldPresent = false := by
      simpa [RTPVideoHeaderVP8.xFieldPresent, and_assoc] using hpresent
    obtain ⟨hT, hL, hI, hK⟩ := habsent
    obtain ⟨dI, dL, dT, dK⟩ := hdefault
    refine ⟨vp8, ?_, ?_, rfl, rfl, rfl⟩
    · rw [parseIf, if_neg hpresent, ← Option.some.inj hwritten, List.nil_append]
    · exact toHeader_eq h vp8 (dI.trans hI.symm) (dL.trans hL.symm) (dT.trans hT.symm)
        (dK.trans hK.symm) hN (by simp [hI]) (by simp [hL]) (by simp [hT]) (by simp [hT])
        (by simp [hK])

end Fields

/-! ## The packet -/

/-- The first packet of a key frame, as the parser sees it: the P bit of the
payload header is clear. -/
def InfoStruct.startsKeyFrame (info : InfoStruct) (payload : List Byte) : Prop :=
  info.firstFragment = true ∧ info.firstPartitionIx = 0 ∧ payload.headD 0 &&& 0x01 = 0

theorem parseVP8FrameSize_eq {vp8 : RTPPayloadVP8} {data : List Byte}
    (hkey : vp8.frameType = .kIFrame → 10 ≤ data.length) :
    ∃ vp8', vp8.parseVP8FrameSize data = some vp8' ∧ vp8'.toHeader = vp8.toHeader ∧
      vp8'.beginningOfPartition = vp8.beginningOfPartition ∧
      vp8'.partitionID = vp8.partitionID := by
  unfold parseVP8FrameSize
  by_cases htype : vp8.frameType = .kIFrame
  · rw [if_neg (not_not.mpr htype), if_neg (Nat.not_lt.mpr (hkey htype))]
    exact ⟨_, rfl, rfl, rfl, rfl⟩
  · rw [if_pos htype]
    exact ⟨vp8, rfl, rfl, rfl, rfl⟩

section Packet

variable {fmt : RtpFormatVp8} {info : InfoStruct}

/-- The parts of a packet. -/
theorem writeHeaderAndPayload_parts (hroom : fmt.hdrInfo.overhead < fmt.maxPayloadLen)
    (hix : info.firstPartitionIx ≤ 8) :
    ∃ first extension,
      fmt.writeHeaderAndPayload info = first :: (extension ++ fmt.packetPayload info) ∧
      fmt.hdrInfo.writeExtensionFields fmt.maxPayloadLen = some extension ∧
      decide (first &&& 0x80 ≠ 0) = fmt.hdrInfo.xFieldPresent ∧
      decide (first &&& 0x20 ≠ 0) = fmt.hdrInfo.nonReference ∧
      decide (first &&& 0x10 ≠ 0) = info.firstFragment ∧
      (first &&& 0x0F).toNat = info.firstPartitionIx := by
  obtain ⟨extension, hextension, -⟩ := RTPVideoHeaderVP8.writeExtensionFields_length hroom
  refine ⟨_, extension, ?_, hextension, firstByte_parsed fmt.hdrInfo.xFieldPresent
    fmt.hdrInfo.nonReference info.firstFragment ⟨info.firstPartitionIx, by omega⟩⟩
  unfold RtpFormatVp8.writeHeaderAndPayload
  rw [hextension]
  rfl

/-- A packet with payload is parsed back to the header it was written from, if
its partition index is one that the parser takes and, where it starts a key
frame, it carries the 10 bytes in which the parser looks for the frame's size. -/
theorem parseVP8_writeHeaderAndPayload (h : fmt.hdrInfo.InRange)
    (hroom : fmt.hdrInfo.overhead < fmt.maxPayloadLen) (hix : info.firstPartitionIx ≤ 8)
    (hpayload : fmt.packetPayload info ≠ [])
    (hkey : info.startsKeyFrame (fmt.packetPayload info) →
      10 ≤ (fmt.packetPayload info).length) :
    ∃ vp8, parseVP8 (fmt.writeHeaderAndPayload info) = some vp8 ∧ vp8.toHeader = fmt.hdrInfo ∧
      vp8.beginningOfPartition = info.firstFragment ∧ vp8.partitionID = info.firstPartitionIx ∧
      vp8.data = fmt.packetPayload info := by
  obtain ⟨first, extension, hwritten, hextension, hX, hN, hS, hid⟩ :=
    writeHeaderAndPayload_parts hroom hix
  obtain ⟨p, payload, hcons⟩ := List.exists_cons_of_ne_nil hpayload
  obtain ⟨vp8, hparsed, hheader, hbeginning, hpartition, htype⟩ :=
    parseIf_extension h
      { nonReferenceFrame := fmt.hdrInfo.nonReference
        beginningOfPartition := info.firstFragment
        partitionID := info.firstPartitionIx }
      (fmt.packetPayload info) hextension ⟨rfl, rfl, rfl, rfl⟩ rfl
  set typed : RTPPayloadVP8 :=
    if vp8.beginningOfPartition && vp8.partitionID = 0 then
      { vp8 with frameType := if p &&& 0x01 ≠ 0 then .kPFrame else .kIFrame }
    else vp8 with htyped
  have hsame : typed.toHeader = vp8.toHeader ∧
      typed.beginningOfPartition = vp8.beginningOfPartition ∧
      typed.partitionID = vp8.partitionID := by
    rw [htyped]
    split <;> exact ⟨rfl, rfl, rfl⟩
  have hlength : typed.frameType = .kIFrame → 10 ≤ (fmt.packetPayload info).length := by
    intro hI
    refine hkey ?_
    rw [htyped, hbeginning, hpartition] at hI
    split_ifs at hI with hstart hbit
    · simp only [Bool.and_eq_true, decide_eq_true_eq] at hstart
      refine ⟨hstart.1, hstart.2, ?_⟩
      rw [hcons]
      exact not_not.mp hbit
    · rw [htype] at hI
      cases hI
  obtain ⟨sized, hsized, hheader', hbeginning', hpartition'⟩ := parseVP8FrameSize_eq hlength
  refine ⟨{ sized with data := fmt.packetPayload info }, ?_, hheader'.trans (hsame.1.trans hheader),
    hbeginning'.trans (hsame.2.1.trans hbeginning),
    hpartition'.trans (hsame.2.2.trans hpartition), rfl⟩
  rw [hwritten, parseVP8]
  simp only [hX, hN, hS, hid]
  rw [if_neg (Nat.not_lt.mpr hix), hparsed, Option.bind_some]
  simp only [hcons] at hsized ⊢
  rw [← htyped, hsized, Option.map_some]

end Packet

/-! ## Examples -/

def exampleHeader : RTPVideoHeaderVP8 where
  nonReference := true
  pictureId := 0x1234
  tl0PicIdx := 0xFE
  temporalIdx := 2
  layerSync := true
  keyIdx := 17

def exampleFormat (maxPayloadLen : Nat) (sizes : List Nat) : RtpFormatVp8 :=
  RtpFormatVp8.create (List.replicate 40 0) exampleHeader maxPayloadLen
    (sizes.map fun size => { fragmentationLength := size }) .kStrict

/-- All fields are there, and the packet starts a key frame. -/
theorem parseVP8_writeHeaderAndPayload_full : ∃ vp8,
    parseVP8 ((exampleFormat 100 [40]).writeHeaderAndPayload ⟨0, 40, true, 0⟩) = some vp8 ∧
      vp8.toHeader = exampleHeader ∧ vp8.beginningOfPartition = true ∧ vp8.partitionID = 0 ∧
      vp8.data = List.replicate 40 0 :=
  parseVP8_writeHeaderAndPayload
    ⟨.inr (by decide), .inr (by decide), .inr (by decide), fun _ => by decide, .inr (by decide)⟩
    (by decide) (by decide) (by decide) fun _ => by decide

/-- The parser refuses the first packet of a key frame that was cut into
packets of 6 bytes of payload, and a packet of a tenth partition. -/
theorem not_parseVP8_writeHeaderAndPayload :
    exampleHeader.InRange ∧ exampleHeader.overhead < 12 ∧
    ((exampleFormat 12 [40]).calculatePackets.map fun packets => packets.2.head?.map fun info =>
      (info.firstFragment, info.firstPartitionIx,
        ((exampleFormat 12 [40]).packetPayload info).length,
        (parseVP8 ((exampleFormat 12 [40]).writeHeaderAndPayload info)).isNone)) =
      some (some (true, 0, 6, true)) ∧
    parseVP8 ((exampleFormat 12 [40]).writeHeaderAndPayload ⟨0, 6, false, 9⟩) = none := by
  refine ⟨⟨.inr ?_, .inr ?_, .inr ?_, fun _ => ?_, .inr ?_⟩, ?_, ?_, ?_⟩
  all_goals decide +kernel

end PerchWebrtc.Vp8
