import PerchWebrtc.Fec.Masks
import PerchWebrtc.Fec.UlpXor

/-!
# The bit strings of an FEC packet

`GenerateFecBitStrings` goes through the media packets with a mask byte and a
bit of it.

* `Accum.add`: the FEC packet is the XOR of the media packets that were added;
* `bitStringFrom_near`, `bitStringFrom_some`: the bit that is tested is the
  one of the packet's offset, exactly if no gap jumps over the start of a mask
  byte and the masks have the byte.
-/

namespace PerchWebrtc.Fec

open Packet

/-- The bytes of the FEC packet before its headers are filled in: the XOR of
the media packets that were added, and the length of the longest. -/
structure Accum (ulpHeaderSize : Nat) (added : List Packet) (fec : Packet) : Prop where
  header : ∀ i, i < 2 ∨ (4 ≤ i ∧ i < 8) → fec.data i = xorAll (added.map (xorByte · i))
  lengthRecovery : be16 fec.data 8 = xorAll (added.map payloadLength)
  payload : ∀ i, 12 ≤ i → fec.data (kFecHeaderSize + ulpHeaderSize + (i - 12)) =
    xorAll (added.map (xorByte · i))
  empty : added = [] → fec = ⟨0, fun _ => 0⟩
  longest : added ≠ [] → ∃ p ∈ added, fec.length.toNat + 2 = p.length.toNat + ulpHeaderSize
  covers : ∀ p ∈ added, p.length.toNat + ulpHeaderSize ≤ fec.length.toNat + 2
  headers : ∀ p ∈ added, 12 ≤ p.length.toNat

theorem Accum.start (ulpHeaderSize : Nat) : Accum ulpHeaderSize [] ⟨0, fun _ => 0⟩ :=
  ⟨fun _ _ => rfl, rfl, fun _ _ => rfl, fun _ => rfl, fun h => absurd rfl h, nofun, nofun⟩

/-- A media packet of a size that `GenerateFEC` accepts. -/
def Fitting (p : Packet) : Prop := 12 ≤ p.length.toNat ∧ p.length.toNat ≤ IP_PACKET_SIZE

section Add

variable {ulpHeaderSize : Nat} {p fec : Packet}

/-- The first media packet is copied: the same as a XOR with zeros. -/
theorem addMediaPacket_data (hulp : 4 ≤ ulpHeaderSize)
    (hzero : fec.length = 0 → fec.data = fun _ => 0) :
    let data := (addMediaPacket ulpHeaderSize p fec).data
    (∀ i, i < 2 ∨ (4 ≤ i ∧ i < 8) → data i = fec.data i ^^^ p.data i) ∧
      be16 data 8 = be16 fec.data 8 ^^^ p.payloadLength ∧
      ∀ i, 12 ≤ i → data (kFecHeaderSize + ulpHeaderSize + (i - 12)) =
        fec.data (kFecHeaderSize + ulpHeaderSize + (i - 12)) ^^^ p.xorByte i := by
  intro data
  have hpayload : ∀ i, 12 ≤ i → i < p.length.toNat →
      kRtpHeaderSize +
        (kFecHeaderSize + ulpHeaderSize + (i - 12) - (kFecHeaderSize + ulpHeaderSize)) = i := by
    intro i hi _
    unfold kRtpHeaderSize
    omega
  have h10 : kFecHeaderSize = 10 := rfl
  have h12 : kRtpHeaderSize = 12 := rfl
  by_cases hfirst : fec.length = 0
  · have hdata : data = (set16 ((fec.data.copy 0 p.data 0 2).copy 4 p.data 4 4) 8 p.payloadLength).copy
        (kFecHeaderSize + ulpHeaderSize) p.data kRtpHeaderSize (p.length.toNat - kRtpHeaderSize) :=
      if_pos hfirst
    have hz : ∀ i, fec.data i = 0#8 := fun i => congrFun (hzero hfirst) i
    refine ⟨fun i hi => ?_, ?_, fun i hi => ?_⟩
    · rw [hdata, Mem.copy_outside _ _ (by omega), set16_outside _ _ _ (by omega), hz,
        BitVec.zero_xor]
      rcases hi with hi | hi
      · rw [Mem.copy_outside _ _ (by omega), Mem.copy_inside _ _ (by omega) (by omega), Nat.zero_add,
          Nat.sub_zero]
      · rw [Mem.copy_inside _ _ (by omega) (by omega), Nat.add_sub_cancel' hi.1]
    · have hcongr : be16 data 8 =
          be16 (set16 ((fec.data.copy 0 p.data 0 2).copy 4 p.data 4 4) 8 p.payloadLength) 8 :=
        be16_congr fun i hi => by rw [hdata, Mem.copy_outside _ _ (by omega)]
      rw [hcongr, be16_set16, hzero hfirst]
      exact BitVec.zero_xor.symm
    · rw [hdata, hz, BitVec.zero_xor, xorByte]
      by_cases hlen : i < p.length.toNat
      · rw [Mem.copy_inside _ _ (by omega) (by omega), if_pos (by omega), hpayload i hi hlen]
      · rw [Mem.copy_outside _ _ (by omega), set16_outside _ _ _ (by omega),
          Mem.copy_outside _ _ (by omega), Mem.copy_outside _ _ (by omega), hz, if_neg (by omega)]
  · have hdata : data = (set16 ((fec.data.xor 0 p.data 0 2).xor 4 p.data 4 4) 8
        (be16 ((fec.data.xor 0 p.data 0 2).xor 4 p.data 4 4) 8 ^^^ p.payloadLength)).xor
        (kFecHeaderSize + ulpHeaderSize) p.data kRtpHeaderSize (p.length.toNat - kRtpHeaderSize) :=
      if_neg hfirst
    refine ⟨fun i hi => ?_, ?_, fun i hi => ?_⟩
    · rw [hdata, Mem.xor_outside _ _ (by omega), set16_outside _ _ _ (by omega)]
      rcases hi with hi | hi
      · rw [Mem.xor_outside _ _ (by omega), Mem.xor_inside _ _ (by omega) (by omega), Nat.zero_add,
          Nat.sub_zero]
      · rw [Mem.xor_inside _ _ (by omega) (by omega), Mem.xor_outside _ _ (by omega),
          Nat.add_sub_cancel' hi.1]
    · have hcongr : be16 data 8 = be16 (set16 ((fec.data.xor 0 p.data 0 2).xor 4 p.data 4 4) 8
          (be16 ((fec.data.xor 0 p.data 0 2).xor 4 p.data 4 4) 8 ^^^ p.payloadLength)) 8 :=
        be16_congr fun i hi => by rw [hdata, Mem.xor_outside _ _ (by omega)]
      have hheader : be16 ((fec.data.xor 0 p.data 0 2).xor 4 p.data 4 4) 8 = be16 fec.data 8 :=
        be16_congr fun i hi => by
          rw [Mem.xor_outside _ _ (by omega), Mem.xor_outside _ _ (by omega)]
      rw [hcongr, be16_set16, hheader]
    · rw [hdata, xorByte]
      by_cases hlen : i < p.length.toNat
      · rw [Mem.xor_inside _ _ (by omega) (by omega), set16_outside _ _ _ (by omega),
          Mem.xor_outside _ _ (by omega), Mem.xor_outside _ _ (by omega), if_pos (by omega),
          hpayload i hi hlen]
      · rw [Mem.xor_outside _ _ (by omega), set16_outside _ _ _ (by omega),
          Mem.xor_outside _ _ (by omega), Mem.xor_outside _ _ (by omega), if_neg (by omega),
          BitVec.xor_zero]

theorem addMediaPacket_length (hulp : 4 ≤ ulpHeaderSize) (hulp' : ulpHeaderSize ≤ 8)
    (hp : Fitting p) :
    (addMediaPacket ulpHeaderSize p fec).length.toNat + 2 =
      max (p.length.toNat + ulpHeaderSize) (fec.length.toNat + 2) := by
  obtain ⟨h12, h1500⟩ := hp
  have hnew : (p.length + BitVec.ofNat 16 (kFecHeaderSize + ulpHeaderSize - kRtpHeaderSize)).toNat + 2 =
      p.length.toNat + ulpHeaderSize := by
    have hoffset : kFecHeaderSize + ulpHeaderSize - kRtpHeaderSize = ulpHeaderSize - 2 := by
      unfold kFecHeaderSize kRtpHeaderSize
      omega
    have hbuffer : IP_PACKET_SIZE = 1500 := rfl
    rw [hoffset, BitVec.toNat_add, BitVec.toNat_ofNat]
    omega
  show (if p.length + BitVec.ofNat 16 (kFecHeaderSize + ulpHeaderSize - kRtpHeaderSize) > fec.length
    then p.length + BitVec.ofNat 16 (kFecHeaderSize + ulpHeaderSize - kRtpHeaderSize)
    else fec.length).toNat + 2 = _
  rw [← hnew]
  split <;> rename_i hgt <;> rw [gt_iff_lt, BitVec.lt_def] at hgt <;> omega

theorem Accum.add {added : List Packet} (h : Accum ulpHeaderSize added fec)
    (hulp : 4 ≤ ulpHeaderSize) (hulp' : ulpHeaderSize ≤ 8) (hp : Fitting p) :
    Accum ulpHeaderSize (added ++ [p]) (addMediaPacket ulpHeaderSize p fec) := by
  have hzero : fec.length = 0 → fec.data = fun _ => 0 := by
    intro hlen
    by_cases hadded : added = []
    · rw [h.empty hadded]
    · obtain ⟨q, hq, hlongest⟩ := h.longest hadded
      have hheader := h.headers q hq
      rw [hlen] at hlongest
      replace hlongest : 0 + 2 = q.length.toNat + ulpHeaderSize := hlongest
      omega
  obtain ⟨hheader, hlength, hpayload⟩ := addMediaPacket_data hulp hzero
  have hmax := @addMediaPacket_length ulpHeaderSize p fec hulp hulp' hp
  refine ⟨fun i hi => ?_, ?_, fun i hi => ?_, fun hnil => ?_, fun _ => ?_, fun q hq => ?_,
    fun q hq => ?_⟩
  · rw [hheader i hi, h.header i hi, List.map_append, List.map_singleton, xorAll_concat, xorByte,
      if_pos (by omega)]
  · rw [hlength, h.lengthRecovery, List.map_append, List.map_singleton, xorAll_concat]
  · rw [hpayload i hi, h.payload i hi, List.map_append, List.map_singleton, xorAll_concat]
  · exact absurd hnil (List.append_ne_nil_of_right_ne_nil _ (List.cons_ne_nil _ _))
  · rw [hmax]
    by_cases hlong : fec.length.toNat + 2 ≤ p.length.toNat + ulpHeaderSize
    · exact ⟨p, List.mem_append_right _ List.mem_cons_self, Nat.max_eq_left hlong⟩
    · have hadded : added ≠ [] := fun hnil => by
        have hlen := congrArg (fun q : Packet => q.length.toNat) (h.empty hnil)
        replace hlen : fec.length.toNat = 0 := hlen
        omega
      obtain ⟨q, hq, hlongest⟩ := h.longest hadded
      exact ⟨q, List.mem_append_left _ hq, by rw [Nat.max_eq_right (by omega), hlongest]⟩
  · rw [hmax]
    rcases List.mem_append.mp hq with hq | hq
    · exact (h.covers q hq).trans (Nat.le_max_right _ _)
    · rw [List.mem_singleton.mp hq]
      exact Nat.le_max_left _ _
  · rcases List.mem_append.mp hq with hq | hq
    · exact h.headers q hq
    · rw [List.mem_singleton.mp hq]
      exact hp.1

end Add

/-! ## The walk through the mask -/

/-- The next packet is in the same byte of the mask, or at the start of the
next one. -/
def Near (i j : Nat) : Prop := j / 8 = i / 8 ∨ j = 8 * (i / 8 + 1)

instance (i j : Nat) : Decidable (Near i j) := inferInstanceAs (Decidable (_ ∨ _))

/-- No gap jumps over the start of a mask byte. -/
def NoJump (offsets : List Nat) : Prop := offsets.IsChain Near

instance (offsets : List Nat) : Decidable (NoJump offsets) :=
  inferInstanceAs (Decidable (offsets.IsChain Near))

theorem and_bit_ne_zero (b : Byte) {i : Nat} (hi : i < 8) :
    b &&& ((1 : Byte) <<< i) ≠ 0 ↔ b.getLsbD i = true := by
  have htwo : (1 : Byte) <<< i = BitVec.twoPow 8 i := (BitVec.twoPow_eq 8 i).symm
  have hne : BitVec.twoPow 8 i ≠ 0 := fun h => by
    have hbit := congrArg (BitVec.getLsbD · i) h
    simp [hi] at hbit
  rw [htwo, BitVec.and_twoPow]
  cases b.getLsbD i
  · exact iff_of_false (fun h => h rfl) Bool.false_ne_true
  · exact iff_of_true hne rfl

/-- The media packets that a row of the mask selects. -/
def selected (mask : Mem) (row : Nat) (base : BitVec 16) (media : List Packet) : List Packet :=
  media.filter fun p => maskBitAt mask row (offset base p)

section Walk

variable {ulpHeaderSize row maskSize : Nat} {mask : Mem} {base : BitVec 16}

/-- The bit that is tested at the place of an offset. -/
theorem tested_iff (mask : Mem) (row i : Nat) :
    mask (row + i / 8) &&& ((1 : Byte) <<< (7 - i % 8)) ≠ 0 ↔ maskBitAt mask row i = true :=
  and_bit_ne_zero _ (by omega)

/-- The gap to the next packet. -/
theorem gap_toNat {p q : Packet} (h : offset base p < offset base q) :
    (parseSequenceNumber q.data - parseSequenceNumber p.data).toNat =
      offset base q - offset base p :=
  Circular.sub_toNat (Nat.le_of_lt h)

theorem Accum.addIf {added : List Packet} {p fec : Packet} (h : Accum ulpHeaderSize added fec)
    (hulp : 4 ≤ ulpHeaderSize) (hulp' : ulpHeaderSize ≤ 8) (hp : Fitting p) :
    Accum ulpHeaderSize (added ++ selected mask row base [p])
      (if mask (row + offset base p / 8) &&& ((1 : Byte) <<< (7 - offset base p % 8)) ≠ 0 then
        addMediaPacket ulpHeaderSize p fec
      else fec) := by
  split <;> rename_i hbit <;> rw [tested_iff] at hbit
  · have hsel : selected mask row base [p] = [p] := List.filter_eq_self.mpr (by simpa using hbit)
    rw [hsel]
    exact h.add hulp hulp' hp
  · have hsel : selected mask row base [p] = [] := List.filter_eq_nil_iff.mpr (by simpa using hbit)
    rw [hsel, List.append_nil]
    exact h

/-- The walk stays inside of the masks. -/
def Inside (maskSize row : Nat) (base : BitVec 16) (media : List Packet) : Prop :=
  ∀ q ∈ media, row + offset base q / 8 < maskSize

/-- Where no gap jumps, the walk adds the packets that the mask selects. -/
theorem bitStringFrom_near (hulp : 4 ≤ ulpHeaderSize) (hulp' : ulpHeaderSize ≤ 8) :
    ∀ {media added : List Packet} {fec p : Packet},
      ((p :: media).map (offset base)).Pairwise (· < ·) →
      NoJump ((p :: media).map (offset base)) → Inside maskSize row base (p :: media) →
      (∀ q ∈ p :: media, Fitting q) → Accum ulpHeaderSize added fec →
      ∃ fec', bitStringFrom ulpHeaderSize mask maskSize (p :: media) (row + offset base p / 8)
          (offset base p % 8) fec = some fec' ∧
        Accum ulpHeaderSize (added ++ selected mask row base (p :: media)) fec'
  | [], added, fec, p, _, _, hinside, hfit, h => by
    have hp := hinside p List.mem_cons_self
    refine ⟨_, ?_, h.addIf hulp hulp' (hfit p List.mem_cons_self)⟩
    rw [bitStringFrom, if_neg (by omega)]
  | q :: media, added, fec, p, hinc, hnear, hinside, hfit, h => by
    have hadd := @Accum.addIf ulpHeaderSize row mask base added p fec h hulp hulp'
      (hfit p List.mem_cons_self)
    have hpq : offset base p < offset base q :=
      List.rel_of_pairwise_cons hinc List.mem_cons_self
    have hp := hinside p List.mem_cons_self
    have hstep : Near (offset base p) (offset base q) := (List.isChain_cons_cons.mp hnear).1
    obtain ⟨fec', hfec', haccum⟩ := bitStringFrom_near hulp hulp' hinc.of_cons
      (List.isChain_cons_cons.mp hnear).2 (fun q hq => hinside q (List.mem_cons_of_mem _ hq))
      (fun q hq => hfit q (List.mem_cons_of_mem _ hq)) hadd
    refine ⟨fec', ?_, ?_⟩
    · rw [bitStringFrom, if_neg (by omega)]
      simp only [gap_toNat hpq]
      rw [← hfec']
      unfold Near at hstep
      split
      · congr 1 <;> omega
      · congr 1 <;> omega
    · rw [List.append_assoc] at haccum
      unfold selected at haccum ⊢
      rwa [← List.filter_append] at haccum

/-- No media packet has the number of the one before it. -/
def Advances (media : List Packet) : Prop :=
  media.IsChain fun p q => parseSequenceNumber q.data ≠ parseSequenceNumber p.data

instance (media : List Packet) : Decidable (Advances media) :=
  inferInstanceAs (Decidable (media.IsChain _))

theorem offset_add_gap {p q : Packet}
    (h : offset base p + (parseSequenceNumber q.data - parseSequenceNumber p.data).toNat < 2 ^ 16) :
    offset base q =
      offset base p + (parseSequenceNumber q.data - parseSequenceNumber p.data).toNat := by
  have hsplit : parseSequenceNumber q.data - base =
      (parseSequenceNumber p.data - base) + (parseSequenceNumber q.data - parseSequenceNumber p.data) := by
    grind
  unfold offset at *
  rw [hsplit, BitVec.toNat_add, Nat.mod_eq_of_lt h]

/-- The walk comes to a shift by 32 or more where a gap jumps, and has to stay
inside of the masks. -/
theorem bitStringFrom_some (hsize : 8 * maskSize + 8 ≤ 2 ^ 16) :
    ∀ {media : List Packet} {fec fec' p : Packet}, Advances (p :: media) →
    bitStringFrom ulpHeaderSize mask maskSize (p :: media) (row + offset base p / 8)
      (offset base p % 8) fec = some fec' →
    ((p :: media).map (offset base)).IsChain (· < ·) ∧
      NoJump ((p :: media).map (offset base)) ∧ Inside maskSize row base (p :: media)
  | [], fec, fec', p, _, h => by
    refine ⟨List.IsChain.singleton _, List.IsChain.singleton _, fun q hq => ?_⟩
    rw [bitStringFrom] at h
    rw [List.mem_singleton.mp hq]
    split at h
    · cases h
    · omega
  | q :: media, fec, fec', p, hadvances, h => by
    obtain ⟨hdiffer, hrest⟩ := List.isChain_cons_cons.mp hadvances
    have hgap : (parseSequenceNumber q.data - parseSequenceNumber p.data).toNat ≠ 0 := fun hzero =>
      hdiffer (by
        have hsame : parseSequenceNumber q.data - parseSequenceNumber p.data = 0 :=
          BitVec.eq_of_toNat_eq hzero
        grind)
    have hadd := @offset_add_gap base p q
    rw [bitStringFrom] at h
    split at h
    · cases h
    rename_i hguard
    simp only at h
    generalize (parseSequenceNumber q.data - parseSequenceNumber p.data).toNat = gap at *
    -- The next packet is in the same byte, or at the start of the next one.
    have hnext : offset base p % 8 + gap ≤ 8 ∧
        bitStringFrom ulpHeaderSize mask maskSize (q :: media)
          (row + (offset base p + gap) / 8) ((offset base p + gap) % 8)
          (if mask (row + offset base p / 8) &&& ((1 : Byte) <<< (7 - offset base p % 8)) ≠ 0 then
            addMediaPacket ulpHeaderSize p fec else fec) = some fec' := by
      by_cases hbyte : offset base p % 8 + gap = 8
      · rw [if_pos hbyte] at h
        refine ⟨hbyte.le, ?_⟩
        rw [← h]
        congr 1 <;> omega
      · rw [if_neg hbyte] at h
        have hbit : offset base p % 8 + gap ≤ 7 := by
          by_contra hjump
          rw [bitStringFrom, if_pos (by omega)] at h
          cases h
        refine ⟨by omega, ?_⟩
        rw [← h]
        congr 1 <;> omega
    obtain ⟨hnear, hwalk⟩ := hnext
    have hoffset := hadd (by omega)
    rw [← hoffset] at hwalk
    obtain ⟨hinc, hnoJump, hinside⟩ := bitStringFrom_some hsize hrest hwalk
    refine ⟨List.isChain_cons_cons.mpr ⟨by omega, hinc⟩,
      List.isChain_cons_cons.mpr ⟨by unfold Near; omega, hnoJump⟩, fun q' hq' => ?_⟩
    rcases List.mem_cons.mp hq' with rfl | hq'
    · omega
    · exact hinside q' hq'

end Walk

end PerchWebrtc.Fec
