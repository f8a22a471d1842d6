import PerchWebrtc.Rtcp.Feedback
import PerchWebrtc.Rtcp.Sender

/-!
# Bitrates as a mantissa and an exponent

REMB, TMMBR and TMMBN carry a bitrate as a mantissa of 18 or 17 bits and an
exponent of 6 bits.

* `faithful_iff`: which bitrates the loop for the exponent is right for;
* `remb_faithful_iff`, `tmmbr_faithful_iff`, `tmmbn_faithful_iff`: the same of
  what the parser returns for the items that the sender builds.
-/

namespace PerchWebrtc.Rtcp

/-! ## The fields of an item -/

section

variable (m : Mem) (ptr : Nat)

/-- The exponent and the mantissa of a REMB item at `ptr`. -/
def rembExp : Nat := ((m (ptr + 1) >>> 2) &&& 0x3f).toNat

def rembMantissa : BitVec 32 :=
  ((m (ptr + 1) &&& 0x03).setWidth 32 <<< 16) + ((m (ptr + 2)).setWidth 32 <<< 8) +
    (m (ptr + 3)).setWidth 32

/-- The exponent and the mantissa of a TMMBR or TMMBN item at `ptr`. -/
def mxtbrExp : Nat := ((m (ptr + 4) >>> 2) &&& 0x3f).toNat

def mxtbrMantissa : BitVec 32 :=
  ((m (ptr + 4) &&& 0x03).setWidth 32 <<< 15) + ((m (ptr + 5)).setWidth 32 <<< 7) +
    ((m (ptr + 6) >>> 1) &&& 0x7f).setWidth 32

end

/-! ## The exponent -/

/-- A mantissa and an exponent stand for a rate in bit/s: they are less than
`2 ^ exponent` below it, and neither the rate nor a shift that the loop for the
exponent tries takes more than 32 bits. -/
structure Faithful (maxMantissa : BitVec 32) (rate : Nat) (mantissa : BitVec 32)
    (exponent : Nat) : Prop where
  le : mantissa.toNat * 2 ^ exponent ≤ rate
  lt : rate < mantissa.toNat * 2 ^ exponent + 2 ^ exponent
  product : rate < 2 ^ 32
  shifts : ∀ i < 64, (∀ j < i, maxMantissa <<< j < BitVec.ofNat 32 rate) →
    maxMantissa.toNat * 2 ^ i < 2 ^ 32

/-- A mantissa of `w` bits, which may be shifted by `k`. -/
structure MaxMantissa (maxMantissa : BitVec 32) (w k : Nat) : Prop where
  max : maxMantissa.toNat = 2 ^ w - 1
  lt : k < 64
  fits : ∀ i < k + 1, (maxMantissa <<< i).toNat = maxMantissa.toNat * 2 ^ i
  le : ∀ i < 64, (maxMantissa <<< i).toNat ≤ maxMantissa.toNat * 2 ^ k

theorem maxMantissa_remb : MaxMantissa 262143 18 14 :=
  ⟨by decide, by decide, by decide +kernel, by decide +kernel⟩

theorem maxMantissa_tmmb : MaxMantissa 131071 17 15 :=
  ⟨by decide, by decide, by decide +kernel, by decide +kernel⟩

section

open RTCPSender

variable {maxMantissa bitrate : BitVec 32} {w k : Nat}

/-- The exponent is the first one that is large enough. -/
theorem bitrateExponent_spec (h : MaxMantissa maxMantissa w k)
    (hle : bitrate.toNat ≤ maxMantissa.toNat * 2 ^ k) :
    bitrateExponent maxMantissa bitrate ≤ k ∧
      bitrate.toNat ≤ maxMantissa.toNat * 2 ^ bitrateExponent maxMantissa bitrate := by
  have hk : bitrate ≤ maxMantissa <<< k := by
    rw [BitVec.le_def, h.fits k (Nat.lt_succ_self k)]
    exact hle
  rw [bitrateExponent]
  cases hfind : (List.range 64).find? fun i => decide (bitrate ≤ maxMantissa <<< i) with
  | none =>
    rw [List.find?_range_eq_none] at hfind
    have := hfind k h.lt
    rw [decide_eq_true hk] at this
    cases this
  | some e =>
    rw [List.find?_range_eq_some] at hfind
    obtain ⟨he, -, hbefore⟩ := hfind
    have hek : e ≤ k := by
      by_contra hlt
      have := hbefore k (Nat.not_le.mp hlt)
      rw [decide_eq_true hk] at this
      cases this
    have he := of_decide_eq_true he
    rw [BitVec.le_def, h.fits e (by omega)] at he
    exact ⟨hek, he⟩

/-- Without an exponent that is large enough, it stays 0. -/
theorem bitrateExponent_of_gt (h : MaxMantissa maxMantissa w k)
    (hgt : maxMantissa.toNat * 2 ^ k < bitrate.toNat) :
    bitrateExponent maxMantissa bitrate = 0 := by
  have hnone : (List.range 64).find? (fun i => decide (bitrate ≤ maxMantissa <<< i)) = none := by
    rw [List.find?_range_eq_none]
    intro i hi
    have := h.le i hi
    rw [Bool.not_eq_true', decide_eq_false_iff_not, BitVec.le_def]
    omega
  rw [bitrateExponent, hnone]
  rfl

/-- The rates that the loop is right for: up to the largest mantissa, shifted
as far as it may be. -/
theorem faithful_iff (h : MaxMantissa maxMantissa w k) {rate : Nat} {mantissa : BitVec 32}
    (hbitrate : bitrate = BitVec.ofNat 32 rate)
    (hmantissa : mantissa.toNat =
      (bitrate >>> bitrateExponent maxMantissa bitrate).toNat % 2 ^ w) :
    Faithful maxMantissa rate mantissa (bitrateExponent maxMantissa bitrate) ↔
      rate ≤ maxMantissa.toNat * 2 ^ k := by
  have hlimit : maxMantissa.toNat * 2 ^ k < 2 ^ 32 := by
    rw [← h.fits k (Nat.lt_succ_self k)]
    exact (maxMantissa <<< k).isLt
  have hrate : rate < 2 ^ 32 → bitrate.toNat = rate := fun hlt => by
    rw [hbitrate, BitVec.toNat_ofNat, Nat.mod_eq_of_lt hlt]
  rw [BitVec.toNat_ushiftRight, Nat.shiftRight_eq_div_pow] at hmantissa
  constructor
  · intro hf
    by_contra hgt
    have hb := hrate hf.product
    have h0 := @bitrateExponent_of_gt maxMantissa bitrate w k h (by omega)
    have hlt := hf.lt
    rw [h0, Nat.pow_zero, Nat.div_one, hb] at hmantissa
    rw [h0, Nat.pow_zero, hmantissa] at hlt
    have hmod := Nat.mod_lt rate (Nat.two_pow_pos w)
    have hpow := Nat.le_mul_of_pos_right maxMantissa.toNat (Nat.two_pow_pos k)
    have hmax := h.max
    omega
  · intro hle
    have hb := hrate (by omega)
    obtain ⟨hek, hfits⟩ := @bitrateExponent_spec maxMantissa bitrate w k h (by omega)
    generalize he : bitrateExponent maxMantissa bitrate = e at hmantissa hek hfits ⊢
    rw [hb] at hmantissa hfits
    have hdiv : rate / 2 ^ e ≤ maxMantissa.toNat :=
      Nat.div_le_of_le_mul (by rwa [Nat.mul_comm])
    have hmax := h.max
    have hw := Nat.two_pow_pos w
    rw [Nat.mod_eq_of_lt (by omega)] at hmantissa
    have hdm := Nat.div_add_mod rate (2 ^ e)
    have hmod := Nat.mod_lt rate (Nat.two_pow_pos e)
    rw [Nat.mul_comm] at hdm
    refine ⟨?_, ?_, by omega, ?_⟩
    · rw [hmantissa]
      omega
    · rw [hmantissa]
      omega
    · intro i hi hbefore
      have hie : i ≤ e := by
        by_contra hlt
        have := hbefore e (Nat.not_le.mp hlt)
        rw [BitVec.lt_def, h.fits e (by omega), ← hbitrate, hb] at this
        omega
      have hpow : 2 ^ i ≤ 2 ^ k := Nat.pow_le_pow_right (by decide) (hie.trans hek)
      exact (Nat.mul_le_mul_left _ hpow).trans_lt hlimit

theorem bitrateExponent_lt (maxMantissa bitrate : BitVec 32) :
    bitrateExponent maxMantissa bitrate < 64 := by
  rw [bitrateExponent]
  cases hfind : (List.range 64).find? fun i => decide (bitrate ≤ maxMantissa <<< i) with
  | none => decide
  | some e =>
    rw [List.find?_range_eq_some] at hfind
    exact List.mem_range.mp hfind.2.1

end

/-! ## The bytes -/

section

variable {m : Mem} {ptr : Nat}

/-- The first byte: the exponent and two bits of the mantissa. -/
theorem exponentByte_toNat (e : Nat) (mantissa : BitVec 32) (shift : Nat) :
    ((BitVec.ofNat 32 e <<< 2) + ((mantissa >>> shift) &&& 0x03)).setWidth 8 =
      BitVec.ofNat 8 (4 * e + mantissa.toNat / 2 ^ shift % 4) := by
  apply BitVec.eq_of_toNat_eq
  rw [BitVec.toNat_setWidth, BitVec.toNat_add, BitVec.toNat_shiftLeft, BitVec.toNat_ofNat,
    toNat_and_mask _ (0x03 : BitVec 32) (show (0x03 : BitVec 32).toNat = 2 ^ 2 - 1 from rfl),
    BitVec.toNat_ushiftRight, Nat.shiftRight_eq_div_pow, BitVec.toNat_ofNat, Nat.shiftLeft_eq]
  generalize mantissa.toNat / 2 ^ shift = q
  omega

/-- The exponent and the two bits again. -/
theorem exponentByte_fields {e q : Nat} (he : e < 64) (hq : q < 4) {b : Byte}
    (hb : b = BitVec.ofNat 8 (4 * e + q)) :
    ((b >>> 2) &&& 0x3f).toNat = e ∧ (b &&& 0x03).toNat = q := by
  have htoNat : b.toNat = 4 * e + q := by
    rw [hb, BitVec.toNat_ofNat]
    omega
  rw [toNat_and_mask (b >>> 2) (0x3f : Byte) (show (0x3f : Byte).toNat = 2 ^ 6 - 1 from rfl),
    toNat_and_mask b (0x03 : Byte) (show (0x03 : Byte).toNat = 2 ^ 2 - 1 from rfl),
    BitVec.toNat_ushiftRight, Nat.shiftRight_eq_div_pow, htoNat]
  omega

theorem remb_fields {e : Nat} (he : e < 64) {mantissa : BitVec 32}
    (h1 : m (ptr + 1) = ((BitVec.ofNat 32 e <<< 2) + ((mantissa >>> 16) &&& 0x03)).setWidth 8)
    (h2 : m (ptr + 2) = (mantissa >>> 8).setWidth 8) (h3 : m (ptr + 3) = mantissa.setWidth 8) :
    rembExp m ptr = e ∧ (rembMantissa m ptr).toNat = mantissa.toNat % 2 ^ 18 := by
  rw [exponentByte_toNat] at h1
  obtain ⟨hexp, hbits⟩ := exponentByte_fields he (Nat.mod_lt _ (by decide)) h1
  refine ⟨hexp, ?_⟩
  rw [rembMantissa, BitVec.toNat_add, BitVec.toNat_add, BitVec.toNat_shiftLeft,
    BitVec.toNat_shiftLeft, BitVec.toNat_setWidth, BitVec.toNat_setWidth, BitVec.toNat_setWidth,
    hbits, h2, h3, BitVec.toNat_setWidth, BitVec.toNat_setWidth, BitVec.toNat_ushiftRight,
    Nat.shiftRight_eq_div_pow, Nat.shiftLeft_eq, Nat.shiftLeft_eq]
  omega

theorem mxtbr_fields {e : Nat} (he : e < 64) {mantissa packetOH : BitVec 32}
    (h4 : m (ptr + 4) = ((BitVec.ofNat 32 e <<< 2) + ((mantissa >>> 15) &&& 0x03)).setWidth 8)
    (h5 : m (ptr + 5) = (mantissa >>> 7).setWidth 8)
    (h6 : m (ptr + 6) = ((mantissa <<< 1) + ((packetOH >>> 8) &&& 0x01)).setWidth 8) :
    mxtbrExp m ptr = e ∧ (mxtbrMantissa m ptr).toNat = mantissa.toNat % 2 ^ 17 := by
  rw [exponentByte_toNat] at h4
  obtain ⟨hexp, hbits⟩ := exponentByte_fields he (Nat.mod_lt _ (by decide)) h4
  have hlow : ((m (ptr + 6) >>> 1) &&& 0x7f).toNat = mantissa.toNat % 2 ^ 7 := by
    rw [toNat_and_mask _ (0x7f : Byte) (show (0x7f : Byte).toNat = 2 ^ 7 - 1 from rfl),
      BitVec.toNat_ushiftRight, Nat.shiftRight_eq_div_pow, h6, BitVec.toNat_setWidth,
      BitVec.toNat_add, BitVec.toNat_shiftLeft,
      toNat_and_mask _ (0x01 : BitVec 32) (show (0x01 : BitVec 32).toNat = 2 ^ 1 - 1 from rfl),
      Nat.shiftLeft_eq]
    generalize (packetOH >>> 8).toNat = q
    omega
  refine ⟨hexp, ?_⟩
  rw [mxtbrMantissa, BitVec.toNat_add, BitVec.toNat_add, BitVec.toNat_shiftLeft,
    BitVec.toNat_shiftLeft, BitVec.toNat_setWidth, BitVec.toNat_setWidth, BitVec.toNat_setWidth,
    hbits, hlow, h5, BitVec.toNat_setWidth, BitVec.toNat_ushiftRight,
    Nat.shiftRight_eq_div_pow, Nat.shiftLeft_eq, Nat.shiftLeft_eq]
  omega

end

/-! ## The items that are returned -/

section

open RTCPParserV2

variable {m : Mem} {dataEnd : Nat} {p : RTCPParserV2} {blockEnd : Nat} {ptr : Nat}

theorem iterate_rembItem {ssrcs : List (BitVec 32)} (hp : p.At .PSFB_REMBItem ptr blockEnd)
    (hroom : ptr + 4 + 4 * ssrcs.length ≤ blockEnd) (hcount : (m ptr).toNat = ssrcs.length)
    (hssrcs : m.Holds (ptr + 4) (ssrcs.flatMap bytes32)) :
    (iterate m dataEnd p).Returned .kRtcpPsfbRembItemCode
      (.REMBItem (rembMantissa m ptr <<< rembExp m ptr) ssrcs) := by
  have hlen : ¬ p.reset.length < 4 := by
    rw [RTCPParserV2.length, hp.reset.ptr, hp.reset.blockEnd]
    omega
  have hrest : ¬ (p.reset.read 4).length < 4 * ssrcs.length := by
    change ¬ p.reset.ptrRTCPBlockEnd - (p.reset.ptrRTCPData + 4) < 4 * ssrcs.length
    rw [hp.reset.ptr, hp.reset.blockEnd]
    omega
  have hlist := Mem.map_be32_of_holds hssrcs
  have hread : (p.reset.read 4).ptrRTCPData = ptr + 4 := congrArg (· + 4) hp.ptr
  have hitem : parseItem m p.reset = (true, { (p.reset.read 4).read (4 * ssrcs.length) with
      packetType := .kRtcpPsfbRembItemCode
      packet := .REMBItem (rembMantissa m ptr <<< rembExp m ptr) ssrcs }) := by
    rw [parseItem, hp.reset.state]
    dsimp only
    rw [parsePsfbREMBItem, if_neg hlen]
    dsimp only
    rw [hp.reset.ptr, hcount, if_neg hrest, hread, hlist]
    rfl
  rw [iterate_item hp (by decide) hitem]
  exact ⟨rfl, rfl⟩

/-- An item of 8 octets that is read whole. -/
theorem iterate_itemOf {n : Nat} {state : ParseState} {packetType : RTCPPacketTypes}
    {packet : RTCPPacket} (hp : p.At state ptr blockEnd) (hst : state ≠ .TopLevel)
    (hroom : ptr + n ≤ blockEnd)
    (hparse : parseItem m p.reset = p.reset.parseItemOf n packetType packet) :
    (iterate m dataEnd p).Returned packetType packet := by
  have hlen : ¬ p.reset.length < n := by
    rw [RTCPParserV2.length, hp.reset.ptr, hp.reset.blockEnd]
    omega
  rw [parseItemOf, if_neg hlen] at hparse
  rw [iterate_item hp hst hparse]
  exact ⟨rfl, rfl⟩

theorem iterate_tmmbrItem (hp : p.At .RTPFB_TMMBRItem ptr blockEnd) (hroom : ptr + 8 ≤ blockEnd) :
    (iterate m dataEnd p).Returned .kRtcpRtpfbTmmbrItemCode
      (.TMMBRItem (tmmbItem m ptr)) :=
  iterate_itemOf hp (by decide) hroom (by
    rw [parseItem, hp.reset.state, ← hp.reset.ptr]
    rfl)

theorem iterate_tmmbnItem (hp : p.At .RTPFB_TMMBNItem ptr blockEnd) (hroom : ptr + 8 ≤ blockEnd) :
    (iterate m dataEnd p).Returned .kRtcpRtpfbTmmbnItemCode
      (.TMMBNItem (tmmbItem m ptr)) :=
  iterate_itemOf hp (by decide) hroom (by
    rw [parseItem, hp.reset.state, ← hp.reset.ptr]
    rfl)

/-! ## The items that are built -/

/-- The item of a REMB, in any compound packet. -/
theorem remb_faithful_iff (s : RTCPSender) (buffer post : List Byte)
    (hbuilt : (s.buildREMB buffer).1 = 0) (hp : p.At .PSFB_REMBItem (buffer.length + 16) blockEnd)
    (hroom : buffer.length + 20 + 4 * s.rembSSRC.1.length ≤ blockEnd)
    (hm : m = Mem.ofList ((s.buildREMB buffer).2 ++ post)) :
    (iterate m dataEnd p).Returned .kRtcpPsfbRembItemCode
      (.REMBItem (rembMantissa m (buffer.length + 16) <<< rembExp m (buffer.length + 16))
        s.rembSSRC.1) ∧
    (Faithful 262143 s.rembBitrate.toNat (rembMantissa m (buffer.length + 16))
      (rembExp m (buffer.length + 16)) ↔ s.rembBitrate.toNat ≤ 2 ^ 32 - 2 ^ 14) := by
  rw [RTCPSender.buildREMB] at hbuilt hm
  dsimp only at hbuilt hm
  split at hbuilt
  · cases hbuilt
  rename_i hfits
  rw [if_neg hfits] at hm
  dsimp only at hm
  generalize hitem : RTCPSender.bitrateExponent 262143 s.rembBitrate = e at hm
  have he : e < 64 := hitem ▸ bitrateExponent_lt _ _
  simp only [List.append_assoc, List.cons_append, List.nil_append] at hm
  have hholds := Mem.holds_of_eq hm
  simp only [Mem.holds_cons, Mem.holds_append, length_bytes32, Nat.add_assoc, Nat.reduceAdd]
    at hholds
  obtain ⟨-, -, -, -, -, -, -, -, -, -, hcount, h1, h2, h3, hssrcs, -⟩ := hholds
  have hlt := s.rembSSRC.2
  have hcount : (m (buffer.length + 16)).toNat = s.rembSSRC.1.length := by
    rw [hcount, BitVec.toNat_ofNat, Nat.mod_eq_of_lt hlt]
  obtain ⟨hexp, hmantissa⟩ := @remb_fields m (buffer.length + 16) e he _ h1 h2 h3
  refine ⟨iterate_rembItem hp (by omega) hcount hssrcs, ?_⟩
  rw [hexp, ← hitem]
  rw [← hitem] at hmantissa
  exact faithful_iff maxMantissa_remb
    (by rw [BitVec.ofNat_toNat, BitVec.setWidth_eq]) hmantissa

/-- The bitrate at an item that `tmmbBytes` are written for. -/
theorem tmmb_faithful_iff (tmmbr packetOH : BitVec 32)
    (hbytes : m.Holds (ptr + 4) (RTCPSender.tmmbBytes tmmbr packetOH)) :
    Faithful 131071 (tmmbr.toNat * 1000) (mxtbrMantissa m ptr) (mxtbrExp m ptr) ↔
      tmmbr.toNat ≤ 4294934 := by
  rw [RTCPSender.tmmbBytes] at hbytes
  simp only [Mem.holds_cons, Nat.add_assoc, Nat.reduceAdd] at hbytes
  obtain ⟨h4, h5, h6, -⟩ := hbytes
  obtain ⟨hexp, hmantissa⟩ := @mxtbr_fields m ptr _ (bitrateExponent_lt _ _) _ _ h4 h5 h6
  have hrate : tmmbr * 1000 = BitVec.ofNat 32 (tmmbr.toNat * 1000) := by
    apply BitVec.eq_of_toNat_eq
    rw [BitVec.toNat_mul, BitVec.toNat_ofNat]
    rfl
  rw [hexp, faithful_iff maxMantissa_tmmb hrate hmantissa]
  change _ ≤ 131071 * 32768 ↔ _
  omega

theorem tmmbr_faithful_iff (s : RTCPSender) (env : Module) (buffer post : List Byte)
    (hbuilt : (s.buildTMMBR env buffer).2 ≠ buffer)
    (hp : p.At .RTPFB_TMMBRItem (buffer.length + 12) blockEnd)
    (hroom : buffer.length + 20 ≤ blockEnd)
    (hm : m = Mem.ofList ((s.buildTMMBR env buffer).2 ++ post)) :
    (iterate m dataEnd p).Returned .kRtcpRtpfbTmmbrItemCode
      (.TMMBRItem (tmmbItem m (buffer.length + 12))) ∧
    (Faithful 131071 (s.tmmbr_Send.toNat * 1000) (mxtbrMantissa m (buffer.length + 12))
      (mxtbrExp m (buffer.length + 12)) ↔ s.tmmbr_Send.toNat ≤ 4294934) := by
  refine ⟨iterate_tmmbrItem hp hroom, ?_⟩
  rw [RTCPSender.buildTMMBR] at hbuilt hm
  split at hbuilt
  · exact absurd rfl hbuilt
  rename_i hsends
  split at hbuilt
  · exact absurd rfl hbuilt
  rename_i hzero
  split at hbuilt
  · exact absurd rfl hbuilt
  rename_i hfits
  rw [if_neg hsends, if_neg hzero, if_neg hfits] at hm
  dsimp only at hm
  simp only [List.append_assoc, List.cons_append, List.nil_append] at hm
  have hholds := Mem.holds_of_eq hm
  simp only [Mem.holds_cons, Mem.holds_append, length_bytes32, Nat.add_assoc, Nat.reduceAdd]
    at hholds
  obtain ⟨-, -, -, -, -, -, -, -, -, -, hbytes, -⟩ := hholds
  exact tmmb_faithful_iff s.tmmbr_Send s.packetOH_Send hbytes

theorem tmmbn_faithful_iff (s : RTCPSender) (buffer post : List Byte) {n : Nat}
    (hbuilt : (s.buildTMMBN buffer).1 = 0)
    (hn : n < (s.boundingSetToSend.filter fun e => 0 < e.tmmbr).length)
    (hp : p.At .RTPFB_TMMBNItem (buffer.length + 12 + 8 * n) blockEnd)
    (hroom : buffer.length + 12 + 8 * n + 8 ≤ blockEnd)
    (hm : m = Mem.ofList ((s.buildTMMBN buffer).2 ++ post)) :
    (iterate m dataEnd p).Returned .kRtcpRtpfbTmmbnItemCode
      (.TMMBNItem (tmmbItem m (buffer.length + 12 + 8 * n))) ∧
    (Faithful 131071 ((s.boundingSetToSend.filter fun e => 0 < e.tmmbr)[n].tmmbr.toNat * 1000)
      (mxtbrMantissa m (buffer.length + 12 + 8 * n)) (mxtbrExp m (buffer.length + 12 + 8 * n)) ↔
      (s.boundingSetToSend.filter fun e => 0 < e.tmmbr)[n].tmmbr.toNat ≤ 4294934) := by
  refine ⟨iterate_tmmbnItem hp hroom, ?_⟩
  rw [RTCPSender.buildTMMBN] at hbuilt hm
  dsimp only at hbuilt hm
  split at hbuilt
  · cases hbuilt
  rename_i hfits
  rw [if_neg hfits] at hm
  dsimp only at hm
  generalize s.boundingSetToSend.filter (fun e => 0 < e.tmmbr) = boundingSet at hn hm ⊢
  simp only [List.append_assoc, List.cons_append, List.nil_append] at hm
  have hholds := Mem.holds_of_eq hm
  simp only [Mem.holds_cons, Mem.holds_append, length_bytes16, length_bytes32, Nat.add_assoc,
    Nat.reduceAdd] at hholds
  obtain ⟨-, -, -, -, -, -, -, -, hitems, -⟩ := hholds
  have hentry := @Mem.holds_flatMap m _ (fun e : SetElement => bytes32 e.ssrc ++
    RTCPSender.tmmbBytes e.tmmbr e.packetOh) 8 (fun _ => rfl) _ _ hitems n hn
  rw [Mem.holds_append, length_bytes32] at hentry
  exact tmmb_faithful_iff _ _ hentry.2

end

/-- The bitrates that survive, for every item of a packet: in bit/s up to
`2 ^ 32 - 2 ^ 14` in a REMB, in kbit/s up to 4294934 in a TMMBR and in a
TMMBN. -/
theorem bitrates_faithful_iff (s : RTCPSender) (buffer post : List Byte) (p : RTCPParserV2)
    (blockEnd dataEnd : Nat) :
    ((s.buildREMB buffer).1 = 0 → p.At .PSFB_REMBItem (buffer.length + 16) blockEnd →
      buffer.length + 20 + 4 * s.rembSSRC.1.length ≤ blockEnd →
      let m := Mem.ofList ((s.buildREMB buffer).2 ++ post)
      let mantissa := rembMantissa m (buffer.length + 16)
      let exponent := rembExp m (buffer.length + 16)
      (RTCPParserV2.iterate m dataEnd p).Returned .kRtcpPsfbRembItemCode
        (.REMBItem (mantissa <<< exponent) s.rembSSRC.1) ∧
      (Faithful 262143 s.rembBitrate.toNat mantissa exponent ↔
        s.rembBitrate.toNat ≤ 2 ^ 32 - 2 ^ 14)) ∧
    (∀ env : Module, (s.buildTMMBR env buffer).2 ≠ buffer →
      p.At .RTPFB_TMMBRItem (buffer.length + 12) blockEnd →
      buffer.length + 20 ≤ blockEnd →
      let m := Mem.ofList ((s.buildTMMBR env buffer).2 ++ post)
      let mantissa := mxtbrMantissa m (buffer.length + 12)
      let exponent := mxtbrExp m (buffer.length + 12)
      (RTCPParserV2.iterate m dataEnd p).Returned .kRtcpRtpfbTmmbrItemCode
        (.TMMBRItem { RTCPParserV2.tmmbItem m (buffer.length + 12) with
          MaxTotalMediaBitRate := (mantissa <<< exponent) / 1000 }) ∧
      (Faithful 131071 (s.tmmbr_Send.toNat * 1000) mantissa exponent ↔
        s.tmmbr_Send.toNat ≤ 4294934)) ∧
    (∀ (n : Nat) (hn : n < (s.boundingSetToSend.filter fun e => 0 < e.tmmbr).length),
      (s.buildTMMBN buffer).1 = 0 → p.At .RTPFB_TMMBNItem (buffer.length + 12 + 8 * n) blockEnd →
      buffer.length + 12 + 8 * n + 8 ≤ blockEnd →
      let m := Mem.ofList ((s.buildTMMBN buffer).2 ++ post)
      let mantissa := mxtbrMantissa m (buffer.length + 12 + 8 * n)
      let exponent := mxtbrExp m (buffer.length + 12 + 8 * n)
      let tmmbr := (s.boundingSetToSend.filter fun e => 0 < e.tmmbr)[n].tmmbr
      (RTCPParserV2.iterate m dataEnd p).Returned .kRtcpRtpfbTmmbnItemCode
        (.TMMBNItem { RTCPParserV2.tmmbItem m (buffer.length + 12 + 8 * n) with
          MaxTotalMediaBitRate := (mantissa <<< exponent) / 1000 }) ∧
      (Faithful 131071 (tmmbr.toNat * 1000) mantissa exponent ↔ tmmbr.toNat ≤ 4294934)) := by
  refine ⟨?_, ?_, ?_⟩
  · intro hbuilt hp hroom
    exact remb_faithful_iff s buffer post hbuilt hp hroom rfl
  · intro env hbuilt hp hroom
    exact tmmbr_faithful_iff s env buffer post hbuilt hp hroom rfl
  · intro n hn hbuilt hp hroom
    exact tmmbn_faithful_iff s buffer post hbuilt hn hp hroom rfl

/-- The largest bitrate of a REMB that survives, in a packet of its own. -/
theorem remb_faithful_largest :
    let s : RTCPSender := { SSRC := 1, rembBitrate := 4294950912, rembSSRC := ⟨[2], by decide⟩ }
    let m := Mem.ofList ((s.buildREMB []).2 ++ [])
    Faithful 262143 4294950912 (rembMantissa m 16) (rembExp m 16) := by
  intro s m
  have hp : ((RTCPParserV2.iterate m 24 (RTCPParserV2.iterate m 24
      (RTCPParserV2.new m 24 true)))).At .PSFB_REMBItem 16 24 :=
    ⟨by decide +kernel, by decide +kernel, by decide +kernel, by decide +kernel⟩
  exact ((bitrates_faithful_iff s [] [] _ 24 24).1 (by decide +kernel) hp (by decide)).2.mpr
    (by decide)

/-- The largest bitrate of all is received as 262143 bit/s. -/
theorem not_remb_faithful :
    let s : RTCPSender := { SSRC := 1, rembBitrate := 4294967295, rembSSRC := ⟨[2], by decide⟩ }
    let m := Mem.ofList (s.buildREMB []).2
    (s.buildREMB []).1 = 0 ∧ rembMantissa m 16 <<< rembExp m 16 = 262143 ∧
      ¬ Faithful 262143 4294967295 (rembMantissa m 16) (rembExp m 16) := by
  intro s m
  have hmantissa : rembMantissa m 16 = 262143 := by decide +kernel
  have hexp : rembExp m 16 = 0 := by decide +kernel
  refine ⟨by decide +kernel, by rw [hmantissa, hexp]; rfl, fun h => ?_⟩
  have hlt := h.lt
  rw [hmantissa, hexp] at hlt
  exact absurd hlt (by decide)

end PerchWebrtc.Rtcp
