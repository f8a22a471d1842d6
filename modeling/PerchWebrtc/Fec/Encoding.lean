import PerchWebrtc.Fec.BitStrings
import PerchWebrtc.Fec.PacketMasks

/-!
# What the encoder writes

Every FEC packet is the XOR of the media packets that the mask in it selects,
exactly if no gap of the media packets' sequence numbers jumps over the start of
a mask byte (`generateFEC_encodes_iff`).

* `generateFecUlpHeader_encodes`: the headers say what is in the payload;
* `generateFecPackets_near`, `generateFecPackets_some`: all the FEC packets;
* `generateFEC_near`, `generateFEC_some`: `GenerateFEC`.
-/

namespace PerchWebrtc.Fec

open Packet

/-- The media packets that the mask of an FEC packet selects. -/
def protectedBy (pkt : Packet) (media : List Packet) : List Packet :=
  media.filter fun p => pkt.maskSeqNums.contains (parseSequenceNumber p.data)

/-- `pkt` is the XOR of the packets its mask selects, as long as the longest of
them, and its mask begins at the first media packet. -/
structure Encodes (media : List Packet) (pkt : Packet) : Prop where
  xor : IsUlpXor (protectedBy pkt media) pkt
  longest : ∃ p ∈ protectedBy pkt media, p.payloadLength.toNat = pkt.protectionLength
  base : ∀ p ∈ media.head?, pkt.seqNumBase = parseSequenceNumber p.data
  eBit : pkt.data 0 &&& 0x80 = 0
  length : pkt.length.toNat = pkt.payloadStart + pkt.protectionLength

/-- The mask of an FEC packet selects numbers of media packets only. -/
def Designates (media : List Packet) (pkt : Packet) : Prop :=
  ∀ seqNum ∈ pkt.maskSeqNums, ∃ p ∈ media, parseSequenceNumber p.data = seqNum

/-! ## The headers -/

/-- The first byte: the E bit is cleared and the L bit is set. -/
def setFlags (l : Bool) (b : Byte) : Byte := if l then b &&& 0x7f ||| 0x40 else b &&& 0x7f &&& 0xbf

theorem setFlags_bits : ∀ (l : Bool) (b : Byte), setFlags l b &&& 0x80 = 0 ∧
    decide (setFlags l b &&& 0x40 ≠ 0) = l ∧ setFlags l b &&& 0x3f = b &&& 0x3f := by
  decide +kernel

section Header

variable (mask : Mem) (l : Bool) (first : Packet) (i : Nat) (fec : Packet)

theorem ulpHeaderSizeOf_eq : ulpHeaderSizeOf l = 2 + maskBytesOf l := by
  cases l <;> rfl

theorem maskBytesOf_bounds : 2 ≤ maskBytesOf l ∧ maskBytesOf l ≤ 6 := by
  cases l <;> decide

/-- The data with its headers. -/
def headerData : Mem :=
  (set16 ((fec.data.set 0 (setFlags l (fec.data 0))).copy 2 first.data 2 2) 10
    (fec.length - BitVec.ofNat 16 kFecHeaderSize - BitVec.ofNat 16 (ulpHeaderSizeOf l))).copy 12 mask
    (i * maskBytesOf l) (maskBytesOf l)

theorem header_data :
    (generateFecUlpHeader mask l first i fec).data = headerData mask l first i fec := by
  cases l <;> rfl

theorem header_zero : (generateFecUlpHeader mask l first i fec).data 0 = setFlags l (fec.data 0) := by
  rw [header_data, headerData, Mem.copy_outside _ _ (by omega), set16_outside _ _ _ (by omega),
    Mem.copy_outside _ _ (by omega), Mem.set_self]

theorem header_base : be16 (generateFecUlpHeader mask l first i fec).data 2 = be16 first.data 2 := by
  refine be16_congr fun j hj => ?_
  rw [header_data, headerData, Mem.copy_outside _ _ (by omega), set16_outside _ _ _ (by omega),
    Mem.copy_inside _ _ (by omega) (by omega), Nat.add_sub_cancel_left]

/-- The bytes that stay as they are. -/
theorem header_kept {j : Nat} (hj : j = 1 ∨ (4 ≤ j ∧ j < 10) ∨ 12 + maskBytesOf l ≤ j) :
    (generateFecUlpHeader mask l first i fec).data j = fec.data j := by
  have hbounds := maskBytesOf_bounds l
  rw [header_data, headerData, Mem.copy_outside _ _ (by omega), set16_outside _ _ _ (by omega),
    Mem.copy_outside _ _ (by omega), Mem.set_of_ne _ _ (by omega)]

theorem header_protectionLength : be16 (generateFecUlpHeader mask l first i fec).data 10 =
    fec.length - BitVec.ofNat 16 kFecHeaderSize - BitVec.ofNat 16 (ulpHeaderSizeOf l) := by
  rw [header_data, headerData]
  refine Eq.trans (be16_congr fun j hj => Mem.copy_outside _ _ (by omega)) (be16_set16 _ 10 _)

theorem header_mask {j : Nat} (hj : j < maskBytesOf l) :
    (generateFecUlpHeader mask l first i fec).data (12 + j) = mask (i * maskBytesOf l + j) := by
  rw [header_data, headerData, Mem.copy_inside _ _ (by omega) (by omega), Nat.add_sub_cancel_left]

theorem header_lBit : (generateFecUlpHeader mask l first i fec).lBit = l := by
  rw [lBit, header_zero]
  exact (setFlags_bits l _).2.1

theorem header_maskSize :
    (generateFecUlpHeader mask l first i fec).maskSizeBytes = maskBytesOf l := by
  rw [maskSizeBytes, header_lBit]
  rfl

theorem header_payloadStart :
    (generateFecUlpHeader mask l first i fec).payloadStart = kFecHeaderSize + ulpHeaderSizeOf l := by
  rw [payloadStart, ulpHeaderSize, header_lBit]
  rfl

end Header

theorem header_maskBit {mask : Mem} {l : Bool} {first fec : Packet} {i k : Nat}
    (hk : k < 8 * maskBytesOf l) :
    (generateFecUlpHeader mask l first i fec).maskBit k = maskBitAt mask (i * maskBytesOf l) k := by
  rw [maskBit, header_mask mask l first i fec (by omega), maskBitAt]

theorem base_add_offset (base : BitVec 16) (p : Packet) :
    base + BitVec.ofNat 16 (offset base p) = parseSequenceNumber p.data := by
  rw [offset, BitVec.ofNat_toNat, BitVec.setWidth_eq]
  grind

/-- The mask in the FEC packet selects the packets of its row. -/
theorem protectedBy_header {mask : Mem} {l : Bool} {first fec : Packet} {i : Nat}
    {media : List Packet}
    (hspan : ∀ p ∈ media, offset (parseSequenceNumber first.data) p < 8 * maskBytesOf l) :
    protectedBy (generateFecUlpHeader mask l first i fec) media =
      selected mask (i * maskBytesOf l) (parseSequenceNumber first.data) media := by
  refine List.filter_congr fun p hp => ?_
  have hoff := hspan p hp
  rw [Bool.eq_iff_iff, List.contains_iff_mem, maskSeqNums, header_maskSize, seqNumBase, header_base]
  simp only [List.mem_map, List.mem_filter, List.mem_range]
  constructor
  · rintro ⟨k, ⟨hk, hkbit⟩, hseq⟩
    have hk' : k = offset (parseSequenceNumber first.data) p := by
      have hdiff : parseSequenceNumber p.data - parseSequenceNumber first.data = BitVec.ofNat 16 k := by
        rw [← hseq]
        show parseSequenceNumber first.data + _ - _ = _
        grind
      have hbounds := maskBytesOf_bounds l
      rw [offset, hdiff, BitVec.toNat_ofNat, Nat.mod_eq_of_lt (by omega)]
    rw [← hk', ← header_maskBit hk]
    exact hkbit
  · intro h
    exact ⟨_, ⟨hoff, by rw [header_maskBit hoff]; exact h⟩, base_add_offset _ p⟩

/-- The mask in the FEC packet selects media packets, if its row does. -/
theorem generateFecUlpHeader_designates {mask : Mem} {l : Bool} {first fec : Packet} {i : Nat}
    {media : List Packet}
    (hbits : ∀ k < 8 * maskBytesOf l, maskBitAt mask (i * maskBytesOf l) k = true →
      k ∈ media.map (offset (parseSequenceNumber first.data))) :
    Designates media (generateFecUlpHeader mask l first i fec) := by
  intro seqNum hseq
  rw [maskSeqNums, header_maskSize, seqNumBase, header_base] at hseq
  obtain ⟨k, hk, rfl⟩ := List.mem_map.mp hseq
  obtain ⟨hk, hbit⟩ := List.mem_filter.mp hk
  replace hk : k < 8 * maskBytesOf l := List.mem_range.mp hk
  rw [header_maskBit hk] at hbit
  obtain ⟨p, hp, rfl⟩ := List.mem_map.mp (hbits k hk hbit)
  exact ⟨p, hp, (base_add_offset _ p).symm⟩

theorem header_protectionLength_toNat {mask : Mem} {l : Bool} {first fec : Packet} {i : Nat}
    (h : kFecHeaderSize + ulpHeaderSizeOf l ≤ fec.length.toNat) :
    (generateFecUlpHeader mask l first i fec).protectionLength + (kFecHeaderSize + ulpHeaderSizeOf l) =
      fec.length.toNat := by
  have hulp : ulpHeaderSizeOf l < 2 ^ 16 := by cases l <;> decide
  have hfec : (BitVec.ofNat 16 kFecHeaderSize).toNat = kFecHeaderSize := rfl
  have hulp' : (BitVec.ofNat 16 (ulpHeaderSizeOf l)).toNat = ulpHeaderSizeOf l := by
    rw [BitVec.toNat_ofNat, Nat.mod_eq_of_lt hulp]
  have hfirst : (fec.length - BitVec.ofNat 16 kFecHeaderSize).toNat =
      fec.length.toNat - kFecHeaderSize := by
    rw [BitVec.toNat_sub_of_le (by rw [BitVec.le_def, hfec]; omega), hfec]
  rw [protectionLength, header_protectionLength,
    BitVec.toNat_sub_of_le (by rw [BitVec.le_def, hfirst, hulp']; omega), hfirst, hulp']
  omega

/-- With its headers, the XOR of the selected packets is an FEC packet of
theirs. -/
theorem generateFecUlpHeader_encodes {mask : Mem} {l : Bool} {first fec : Packet} {i : Nat}
    {media : List Packet} (hhead : media.head? = some first)
    (hspan : ∀ p ∈ media, offset (parseSequenceNumber first.data) p < 8 * maskBytesOf l)
    (hsome : selected mask (i * maskBytesOf l) (parseSequenceNumber first.data) media ≠ [])
    (h : Accum (ulpHeaderSizeOf l)
      (selected mask (i * maskBytesOf l) (parseSequenceNumber first.data) media) fec) :
    Encodes media (generateFecUlpHeader mask l first i fec) := by
  rw [← @protectedBy_header mask l first fec i media hspan] at hsome h
  have hulp := ulpHeaderSizeOf_eq l
  have h10 : kFecHeaderSize = 10 := rfl
  obtain ⟨longest, hlongest, hlength⟩ := h.longest hsome
  have hheader := h.headers longest hlongest
  have hprot := @header_protectionLength_toNat mask l first fec i (by omega)
  have hpayload : ∀ p ∈ protectedBy (generateFecUlpHeader mask l first i fec) media,
      p.payloadLength.toNat + 12 = p.length.toNat := fun p hp => by
    rw [payloadLength_toNat (h.headers p hp), Nat.sub_add_cancel (h.headers p hp)]
  refine ⟨⟨?_, fun j hj => ?_, ?_, fun p hp => ?_, fun j hj hj' => ?_⟩,
    ⟨longest, hlongest, ?_⟩, fun p hp => ?_, ?_, ?_⟩
  · rw [header_zero, (setFlags_bits l _).2.2, h.header 0 (by omega)]
  · rw [header_kept mask l first i fec (by omega), h.header j (by omega)]
  · refine Eq.trans (be16_congr fun j hj => ?_) h.lengthRecovery
    exact header_kept mask l first i fec (by omega)
  · have hcovers := h.covers p hp
    have := hpayload p hp
    omega
  · rw [header_payloadStart, header_kept mask l first i fec (by omega)]
    exact h.payload j hj
  · have := hpayload longest hlongest
    omega
  · obtain rfl := Option.some.inj (hhead.symm.trans hp)
    exact header_base mask l first i fec
  · rw [header_zero]
    exact (setFlags_bits l _).1
  · rw [header_payloadStart, Nat.add_comm, hprot]
    rfl

/-! ## All FEC packets -/

theorem offset_first (p : Packet) : offset (parseSequenceNumber p.data) p = 0 := by
  rw [offset, BitVec.sub_self]
  rfl

section Packets

variable {mask : Mem} {maskSize : Nat} {l : Bool} {first : Packet} {media : List Packet}

/-- The row `r` of the mask selects some media packets, and nothing else. -/
structure RowSelects (mask : Mem) (l : Bool) (base : BitVec 16) (media : List Packet) (r : Nat) :
    Prop where
  some : selected mask (r * maskBytesOf l) base media ≠ []
  only : ∀ k < 8 * maskBytesOf l, maskBitAt mask (r * maskBytesOf l) k = true →
    k ∈ media.map (offset base)

/-- Where no gap jumps, every FEC packet comes out. -/
theorem generateFecPackets_near
    (hinc : ((first :: media).map (offset (parseSequenceNumber first.data))).Pairwise (· < ·))
    (hnear : NoJump ((first :: media).map (offset (parseSequenceNumber first.data))))
    (hfit : ∀ q ∈ first :: media, Fitting q)
    (hspan : ∀ p ∈ first :: media, offset (parseSequenceNumber first.data) p < 8 * maskBytesOf l) :
    ∀ {n i : Nat}, (i + n) * maskBytesOf l ≤ maskSize →
      (∀ r, i ≤ r → r < i + n →
        RowSelects mask l (parseSequenceNumber first.data) (first :: media) r) →
      ∃ fec, generateFecPackets (first :: media) mask l maskSize first i n = some fec ∧
        ∀ pkt ∈ fec, Encodes (first :: media) pkt ∧ Designates (first :: media) pkt
  | 0, i, _, _ => ⟨[], rfl, nofun⟩
  | n + 1, i, hsize, hrows => by
    have hulp := ulpHeaderSizeOf_eq l
    have hbounds := maskBytesOf_bounds l
    have hrow := hrows i (Nat.le_refl i) (by omega)
    have hinside : Inside maskSize (i * maskBytesOf l) (parseSequenceNumber first.data)
        (first :: media) := by
      intro q hq
      have hle : (i + 1) * maskBytesOf l ≤ (i + (n + 1)) * maskBytesOf l :=
        Nat.mul_le_mul_right _ (by omega)
      have hspan := hspan q hq
      rw [Nat.succ_mul] at hle
      omega
    obtain ⟨fec, hfec, haccum⟩ := @bitStringFrom_near (ulpHeaderSizeOf l) (i * maskBytesOf l) maskSize
      mask (parseSequenceNumber first.data) (by omega) (by omega) media [] _ first hinc hnear hinside
      hfit (Accum.start _)
    rw [List.nil_append] at haccum
    have hencodes := generateFecUlpHeader_encodes rfl hspan hrow.some haccum
    have hsize' : (i + 1 + n) * maskBytesOf l ≤ maskSize := by
      rw [Nat.add_right_comm]
      exact hsize
    obtain ⟨rest, hrest, hall⟩ := @generateFecPackets_near hinc hnear hfit hspan n (i + 1) hsize'
      fun r hr hr' => hrows r (by omega) (by omega)
    refine ⟨generateFecUlpHeader mask l first i fec :: rest, ?_, fun pkt hpkt => ?_⟩
    · rw [offset_first, Nat.zero_div, Nat.add_zero, Nat.zero_mod] at hfec
      rw [generateFecPackets, generateFecBitString, hfec, Option.bind_some, hrest]
      rfl
    · rcases List.mem_cons.mp hpkt with rfl | hpkt
      · exact ⟨hencodes, generateFecUlpHeader_designates hrow.only⟩
      · exact hall pkt hpkt

/-- FEC packets come out only where no gap jumps, and the walks stay inside of the masks. -/
theorem generateFecPackets_some (hsize : 8 * maskSize + 8 ≤ 2 ^ 16)
    (hadvances : Advances (first :: media)) :
    ∀ {n i : Nat} {fec : List Packet},
      generateFecPackets (first :: media) mask l maskSize first i n = some fec →
      ∀ r, i ≤ r → r < i + n →
        ((first :: media).map (offset (parseSequenceNumber first.data))).IsChain (· < ·) ∧
          NoJump ((first :: media).map (offset (parseSequenceNumber first.data))) ∧
          Inside maskSize (r * maskBytesOf l) (parseSequenceNumber first.data) (first :: media)
  | 0, i, _, _, r, hr, hr' => absurd hr' (Nat.not_lt.mpr hr)
  | n + 1, i, _, h, r, hr, hr' => by
    rw [generateFecPackets] at h
    obtain ⟨fec, hfec, h⟩ := Option.bind_eq_some_iff.mp h
    by_cases hfirst : r = i
    · subst hfirst
      refine @bitStringFrom_some (ulpHeaderSizeOf l) (r * maskBytesOf l) maskSize mask
        (parseSequenceNumber first.data) hsize media ⟨0, fun _ => 0⟩ fec first hadvances ?_
      rw [offset_first, Nat.zero_div, Nat.add_zero, Nat.zero_mod]
      exact hfec
    · obtain ⟨rest, hrest, -⟩ := Option.map_eq_some_iff.mp h
      exact generateFecPackets_some hsize hadvances hrest r (by omega) (by omega)

end Packets

/-! ## GenerateFEC -/

theorem maskBytesOf_decide (n : Nat) :
    maskBytesOf (decide (n > 8 * kMaskSizeLBitClear)) = maskBytes n := by
  unfold maskBytesOf maskBytes
  by_cases h : n > 8 * kMaskSizeLBitClear
  · rw [if_pos h, decide_eq_true h, if_pos rfl]
  · rw [if_neg h, decide_eq_false h, if_neg Bool.false_ne_true]

theorem getNumberOfFecPackets_le {numMediaPackets : Nat} (h : 0 < numMediaPackets)
    (protectionFactor : Byte) :
    getNumberOfFecPackets numMediaPackets protectionFactor.toNat ≤ numMediaPackets := by
  have hmul : numMediaPackets * protectionFactor.toNat ≤ numMediaPackets * 255 :=
    Nat.mul_le_mul_left _ (Nat.le_of_lt_succ protectionFactor.isLt)
  have hshift : (numMediaPackets * protectionFactor.toNat + (1 <<< 7)) >>> 8 ≤ numMediaPackets := by
    rw [Nat.shiftRight_eq_div_pow]
    show _ / 256 ≤ _
    have h128 : 1 <<< 7 = 128 := rfl
    omega
  unfold getNumberOfFecPackets
  simp only
  split
  · exact h
  · exact hshift

variable {base : BitVec 16}

/-- In the mask that is written, every row selects some of the media packets. -/
theorem selected_ne_nil {media : List Packet} (h : Ascending media base) {mask mask' : Mem}
    {n r : Nat} (hselects : Selects media.length mask (r * maskBytes media.length))
    (hn : numColumns (media.map (offset base)) = n)
    (hrow : RowIs mask' (maskBytes n) r (column (media.map (offset base)) fun q =>
      maskBitAt (mask.row (maskBytes media.length) r) 0 q)) :
    selected mask' (r * maskBytes n) base media ≠ [] := by
  obtain ⟨q, hq, hbit⟩ := hselects.some
  have hcols := h.numColumns_le
  have hlen := h.length_le
  have hfits := maskBytes_mul_le (hn ▸ hcols)
  have hfits' := maskBytes_mul_le (hlen.trans hcols)
  have hmem : offset base media[q] ∈ media.map (offset base) :=
    List.mem_map_of_mem (List.getElem_mem hq)
  have hle := le_getLastD h.increasing hmem
  have hcol : column (media.map (offset base))
      (fun q => maskBitAt (mask.row (maskBytes media.length) r) 0 q) (offset base media[q]) = true := by
    rw [column_getElem h.increasing _ (q := q)
      (by rw [List.getElem?_map, List.getElem?_eq_getElem hq]; rfl),
      ← maskBitAt_row mask (by omega), hbit]
  refine List.ne_nil_of_mem (List.mem_filter.mpr ⟨List.getElem_mem hq, ?_⟩)
  rw [hrow _ (by unfold numColumns at hn; omega), hcol]

/-- What is known of the media packets that are accepted. -/
structure Accepted (media : List Packet) (params : FecParams) : Prop where
  ne_nil : media ≠ []
  count : (BitVec.ofNat 16 media.length).toNat ≤ kMaxMediaPackets
  important : params.numImportantPackets ≤ (BitVec.ofNat 16 media.length).toNat
  important_nonneg : 0 ≤ params.numImportantPackets
  fitting : ∀ p ∈ media, Fitting p

variable {params : FecParams} {tables : MaskTables}

theorem accepted {media : List Packet} (haccepts : accepts media params [] = true) :
    Accepted media params := by
  simp only [accepts, Bool.and_eq_true, decide_eq_true_eq, List.all_eq_true,
    Bool.not_eq_true', List.isEmpty_eq_false_iff] at haccepts
  obtain ⟨⟨⟨⟨⟨hne, -⟩, hcount⟩, himp⟩, himp'⟩, hsizes⟩ := haccepts
  exact ⟨hne, hcount, himp, himp', fun p hp =>
    ⟨(hsizes p hp).1, by have := (hsizes p hp).2; omega⟩⟩

theorem Ascending.count {media : List Packet} (h : Ascending media base) :
    (BitVec.ofNat 16 media.length).toNat = media.length := by
  have hlen48 := h.length_le.trans h.numColumns_le
  have h48 : kMaxMediaPackets = 48 := rfl
  rw [BitVec.toNat_ofNat]
  omega

/-- Without FEC packets, nothing is written. -/
theorem generateFEC_none {media : List Packet} (haccepts : accepts media params [] = true)
    (hzero : getNumberOfFecPackets (BitVec.ofNat 16 media.length).toNat params.protectionFactor.toNat = 0) :
    generateFEC tables media params [] = some (0, []) := by
  rw [generateFEC, haccepts]
  simp only [Bool.not_true, Bool.false_eq_true, if_false]
  rw [if_pos hzero]

/-- Where no gap jumps, what `GenerateFEC` writes. -/
theorem generateFEC_near (htables : tables.WellFormed) {media : List Packet}
    (h : Ascending media base) (haccepts : accepts media params [] = true)
    (hnear : NoJump (media.map (offset base))) :
    ∃ fec, generateFEC tables media params [] = some (0, fec) ∧
      ∀ pkt ∈ fec, Encodes media pkt ∧ Designates media pkt := by
  have hok := accepted haccepts
  have himp := hok.important
  have himp' := hok.important_nonneg
  have hlen48 := h.length_le.trans h.numColumns_le
  rw [h.count] at himp
  by_cases hzero : getNumberOfFecPackets media.length params.protectionFactor.toNat = 0
  · exact ⟨[], generateFEC_none haccepts (by rw [h.count]; exact hzero), List.forall_mem_nil _⟩
  rw [generateFEC, haccepts]
  simp only [Bool.not_true, Bool.false_eq_true, if_false, h.count]
  have hnumle := getNumberOfFecPackets_le (List.length_pos_iff.mpr hok.ne_nil)
    params.protectionFactor
  generalize getNumberOfFecPackets media.length params.protectionFactor.toNat = num at *
  rw [if_neg hzero]
  have hselects := fun r (hr : r < num) => generatePacketMasks_selects htables params.fecMaskType
    hlen48 hnumle (by omega : params.numImportantPackets.toNat ≤ media.length)
    params.useUnequalProtection hr
  generalize generatePacketMasks media.length num params.numImportantPackets.toNat
    params.useUnequalProtection (tables.initMaskTable (initMaskType params.fecMaskType media.length))
    (fun _ => 0) = mask at *
  have hspec := fun r (hr : r < num) =>
    insertZerosInBitMasks_spec hok.ne_nil h hr (hselects r hr).within
  obtain ⟨columns, hcolumns, hcols, -⟩ := hspec 0 (by omega)
  rw [hcolumns, Option.bind_some]
  have hrows : ∀ r < num, RowIs columns.2 (maskBytes columns.1) r
      (column (media.map (offset base)) fun q =>
        maskBitAt (mask.row (maskBytes media.length) r) 0 q) := by
    intro r hr
    obtain ⟨columns', hcolumns', -, hrow⟩ := hspec r hr
    obtain rfl := Option.some.inj (hcolumns.symm.trans hcolumns')
    exact hrow
  cases media with
  | nil => exact absurd rfl hok.ne_nil
  | cons first rest =>
    obtain rfl : parseSequenceNumber first.data = base := h.first first rfl
    have hspan : ∀ p ∈ first :: rest, offset (parseSequenceNumber first.data) p <
        8 * maskBytesOf (decide (columns.1 > 8 * kMaskSizeLBitClear)) := by
      intro p hp
      have hle := le_getLastD h.increasing (List.mem_map_of_mem hp)
      have hfits := maskBytes_mul_le h.numColumns_le
      rw [maskBytesOf_decide, hcols]
      unfold numColumns at hfits ⊢
      omega
    have hsize : (0 + num) * maskBytesOf (decide (columns.1 > 8 * kMaskSizeLBitClear)) ≤
        packetMaskSize num := by
      rw [maskBytesOf_decide, Nat.zero_add]
      exact Nat.mul_le_mul_left num (maskBytes_le _)
    obtain ⟨fec, hfec, hall⟩ := @generateFecPackets_near columns.2 (packetMaskSize num) _ first rest
      h.increasing hnear hok.fitting hspan num 0 hsize fun r _ hr => by
        have hrow := hrows r (by omega)
        refine ⟨?_, ?_⟩
        · rw [maskBytesOf_decide]
          exact selected_ne_nil h (hselects r (by omega)) hcols.symm hrow
        · rw [maskBytesOf_decide]
          intro k hk hbit
          rw [hrow k hk] at hbit
          exact of_decide_eq_true (Bool.and_eq_true_iff.mp hbit).1
    exact ⟨fec, by rw [List.headD_cons, hfec]; rfl, hall⟩

/-- There are no more FEC packets than a mask has columns. -/
theorem getNumberOfFecPackets_le_max {numMediaPackets : Nat} (h : numMediaPackets ≤ kMaxMediaPackets)
    (protectionFactor : Byte) :
    getNumberOfFecPackets numMediaPackets protectionFactor.toNat ≤ kMaxMediaPackets := by
  cases numMediaPackets with
  | zero =>
    unfold getNumberOfFecPackets
    rw [Nat.zero_mul]
    simp only
    split <;> decide
  | succ n => exact (getNumberOfFecPackets_le (Nat.succ_pos n) protectionFactor).trans h

/-- FEC packets are written only where no gap jumps, and with the walks inside of the masks. -/
theorem generateFEC_some {first : Packet} {media : List Packet}
    (hadvances : Advances (first :: media)) (haccepts : accepts (first :: media) params [] = true)
    {num : Nat}
    (hnum : getNumberOfFecPackets (BitVec.ofNat 16 (first :: media).length).toNat
      params.protectionFactor.toNat = num + 1)
    {result : Int × List Packet} (h : generateFEC tables (first :: media) params [] = some result) :
    ∃ mask columns, insertZerosInBitMasks (num + 1) (first :: media) mask
        (maskBytes (BitVec.ofNat 16 (first :: media).length).toNat) = some columns ∧
      ((first :: media).map (offset (parseSequenceNumber first.data))).Pairwise (· < ·) ∧
      NoJump ((first :: media).map (offset (parseSequenceNumber first.data))) ∧
      Inside (packetMaskSize (num + 1)) (num * maskBytes columns.1)
        (parseSequenceNumber first.data) (first :: media) := by
  have hmax := getNumberOfFecPackets_le_max (accepted haccepts).count params.protectionFactor
  rw [hnum] at hmax
  have hsize : 8 * packetMaskSize (num + 1) + 8 ≤ 2 ^ 16 := by
    have hmul : (num + 1) * kMaskSizeLBitSet ≤ 48 * 6 := Nat.mul_le_mul_right _ hmax
    unfold packetMaskSize
    omega
  rw [generateFEC, haccepts] at h
  simp only [Bool.not_true, Bool.false_eq_true, if_false] at h
  rw [hnum, if_neg (Nat.succ_ne_zero num)] at h
  obtain ⟨columns, hcolumns, h⟩ := Option.bind_eq_some_iff.mp h
  obtain ⟨fec, hfec, -⟩ := Option.map_eq_some_iff.mp h
  obtain ⟨hinc, hnear, hinside⟩ :=
    generateFecPackets_some hsize hadvances hfec num (Nat.zero_le num) (by omega)
  rw [maskBytesOf_decide] at hinside
  exact ⟨_, columns, hcolumns, List.isChain_iff_pairwise.mp hinc, hnear, hinside⟩

theorem advances_of_increasing {media : List Packet}
    (h : (media.map (offset base)).Pairwise (· < ·)) : Advances media := by
  refine ((List.pairwise_map.mp h).imp fun hlt hsame => ?_).isChain
  unfold offset at hlt
  rw [hsame] at hlt
  exact Nat.lt_irrefl _ hlt

/-- `GenerateFEC` writes FEC packets that are the XOR of the media packets their
masks select, exactly if it writes none or no gap jumps over the start of a mask
byte. -/
theorem generateFEC_encodes_iff {tables : MaskTables} (htables : tables.WellFormed)
    {media : List Packet} {base : BitVec 16} (h : Ascending media base) {params : FecParams}
    (haccepts : accepts media params [] = true) :
    (∃ result, generateFEC tables media params [] = some result ∧
        (result.1 = 0 → ∀ pkt ∈ result.2, Encodes media pkt)) ↔
      getNumberOfFecPackets media.length params.protectionFactor.toNat = 0 ∨
        NoJump (media.map (offset base)) := by
  constructor
  · rintro ⟨result, hresult, -⟩
    by_contra hnot
    obtain ⟨hnum, hjump⟩ := not_or.mp hnot
    obtain ⟨num, hnum⟩ := Nat.exists_eq_succ_of_ne_zero hnum
    cases media with
    | nil => exact (accepted haccepts).ne_nil rfl
    | cons first rest =>
      obtain rfl : parseSequenceNumber first.data = base := h.first first rfl
      obtain ⟨-, -, -, -, hnear, -⟩ := generateFEC_some (advances_of_increasing h.increasing) haccepts
        (h.count.symm ▸ hnum) hresult
      exact hjump hnear
  · rintro (hzero | hnear)
    · exact ⟨_, generateFEC_none haccepts (h.count.symm ▸ hzero), fun _ => List.forall_mem_nil _⟩
    · obtain ⟨fec, hfec, hall⟩ := generateFEC_near htables h haccepts hnear
      exact ⟨_, hfec, fun _ pkt hpkt => (hall pkt hpkt).1⟩

/-- Byte `j` of a row that selects the first `k` packets. -/
def onesByte (k j : Nat) : Byte := (0xff : Byte) <<< (8 * j + 8 - k)

/-- Masks whose rows select all media packets, as the tables' masks for one FEC
packet and at most eight media packets do. -/
def onesTable (k n : Nat) : List Byte :=
  (List.range ((n + 1) * maskBytes (k + 1))).map fun a => onesByte (k + 1) (a % maskBytes (k + 1))

def onesTables : MaskTables := ⟨onesTable, onesTable⟩

theorem onesTable_isMask {k n : Nat} (hk : k < kMaxMediaPackets) :
    IsMask (k + 1) (n + 1) (onesTable k n) := by
  have hbit : ∀ r ≤ n, ∀ i < 8 * maskBytes (k + 1),
      maskBitAt (Mem.ofList (onesTable k n)) (r * maskBytes (k + 1)) i = decide (i < k + 1) := by
    intro r hr i hi
    have hlt : r * maskBytes (k + 1) + i / 8 < (n + 1) * maskBytes (k + 1) := by
      have hle : (r + 1) * maskBytes (k + 1) ≤ (n + 1) * maskBytes (k + 1) :=
        Nat.mul_le_mul_right _ (by omega)
      rw [Nat.succ_mul] at hle
      omega
    have hmod : (r * maskBytes (k + 1) + i / 8) % maskBytes (k + 1) = i / 8 := by
      rw [Nat.mul_comm, Nat.mul_add_mod, Nat.mod_eq_of_lt (by omega)]
    rw [maskBitAt, Mem.ofList, onesTable, List.getD_eq_getElem?_getD, List.getElem?_map,
      List.getElem?_range hlt, Option.map_some, Option.getD_some, hmod, onesByte,
      BitVec.getLsbD_shiftLeft, decide_eq_true (by omega), Bool.true_and]
    have hones : ∀ j < 8, (0xff : Byte).getLsbD j = true := by decide
    by_cases hik : i < k + 1
    · rw [decide_eq_false (by omega), hones _ (by omega), decide_eq_true hik]
      rfl
    · rw [decide_eq_true (by omega), decide_eq_false hik]
      rfl
  have hfits := maskBytes_mul_le (show k + 1 ≤ kMaxMediaPackets from hk)
  refine ⟨by rw [onesTable, List.length_map, List.length_range], fun r hr => ⟨0, by omega, ?_⟩,
    fun r hr i hi hi' => ?_⟩
  · rw [hbit r (by omega) 0 (by omega), decide_eq_true (by omega)]
  · rw [hbit r (by omega) i hi', decide_eq_false (by omega)]

theorem onesTables_wellFormed : onesTables.WellFormed :=
  ⟨fun _ hk _ _ => onesTable_isMask hk,
    fun _ hk _ _ => onesTable_isMask (hk.trans (by decide))⟩

/-- A media packet without payload. -/
def emptyPacket (seqNum : BitVec 16) : Packet := ⟨12, set16 (Mem.ofList [0x80]) 2 seqNum⟩

/-- One FEC packet for two media packets with a gap between them. -/
theorem generateFEC_encodes_gap :
    ∃ result, generateFEC onesTables [emptyPacket 0xffff, emptyPacket 2] ⟨128, 0, false, .kFecMaskRandom⟩
        [] = some result ∧
      (result.1 = 0 → ∀ pkt ∈ result.2, Encodes [emptyPacket 0xffff, emptyPacket 2] pkt) :=
  (@generateFEC_encodes_iff _ onesTables_wellFormed _ 0xffff ⟨by decide, by decide, by decide⟩ _
    (by decide)).mpr (.inr (by decide))

/-- The offset of the second packet is in the middle of the second mask byte. -/
theorem generateFEC_not_encodes :
    ¬ ∀ (tables : MaskTables), tables.WellFormed → ∀ (media : List Packet) (base : BitVec 16),
      Ascending media base → ∀ params : FecParams, accepts media params [] = true →
      ∃ result, generateFEC tables media params [] = some result ∧
        (result.1 = 0 → ∀ pkt ∈ result.2, Encodes media pkt) := by
  intro h
  obtain ⟨result, hresult, -⟩ := h onesTables onesTables_wellFormed
    [emptyPacket 0, emptyPacket 9] 0 ⟨by decide, by decide, by decide⟩
    ⟨128, 0, false, .kFecMaskRandom⟩ (by decide)
  have hnone : (generateFEC onesTables [emptyPacket 0, emptyPacket 9]
      ⟨128, 0, false, .kFecMaskRandom⟩ []).isNone = true := by decide +kernel
  rw [hresult] at hnone
  cases hnone

end PerchWebrtc.Fec
