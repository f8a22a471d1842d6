import PerchWebrtc.Isac.BitstreamEncoder

/-!
# The bit stream of the iSAC decoder

What the arithmetic decoders have in common: the window on the stream and the bytes that
enter it. A decoder follows an encoder whose interval has the code of the stream in it.

* `renormalize_ok`: the bytes that enter the window are those that left the interval;
* `narrow_ok`: a symbol;
* `byteCount_ok`: the number of bytes that the encoder wrote.
-/

namespace PerchWebrtc.Isac

open RangeCode BitstrEnc

/-- A result of type `int16_t`. -/
def int16 (x : Int) : Int := x.bmod (2 ^ 16)

theorem int16_of_fits {x : Int} (hlow : -2 ^ 15 ≤ x) (hhigh : x < 2 ^ 15) : int16 x = x := by
  unfold int16
  rw [Int.bmod_eq_iff (by decide)]
  omega

structure BitstrDec where
  /-- The words of the stream, and of the memory after it. -/
  stream : Nat → BitVec 16
  wUpper : BitVec 32
  streamval : BitVec 32
  streamIndex : Nat
  full : Bool

namespace BitstrDec

def init (stream : Nat → BitVec 16) : BitstrDec where
  stream
  wUpper := 0xFFFFFFFF
  streamval := 0
  streamIndex := 0
  full := true

/-- The first call for a stream reads two words. -/
def start (s : BitstrDec) : BitstrDec :=
  if s.streamIndex = 0 then
    { s with
      streamval := (s.stream 0).setWidth 32 <<< 16 ||| (s.stream 1).setWidth 32
      streamIndex := 2 }
  else s

def readByte (s : BitstrDec) : BitstrDec :=
  if s.full = false then
    { s with
      streamval := s.streamval <<< 8 ||| (s.stream s.streamIndex &&& 0x00FF).setWidth 32
      streamIndex := s.streamIndex + 1
      full := true }
  else
    { s with
      streamval := s.streamval <<< 8 ||| (s.stream s.streamIndex >>> 8).setWidth 32
      full := false }

/-- `none` without fuel. -/
def renormalize : Nat → BitstrDec → Option BitstrDec
  | 0, _ => none
  | fuel + 1, s =>
    if s.wUpper.toNat < 2 ^ 24 then renormalize fuel { s.readByte with wUpper := s.wUpper <<< 8 }
    else some s

/-- The interval of a symbol is shifted to start at 0. -/
def narrow (fuel : Nat) (s : BitstrDec) (wLower wUpper : BitVec 32) : Option BitstrDec :=
  renormalize fuel { s with
    wUpper := wUpper - (wLower + 1)
    streamval := s.streamval - (wLower + 1) }

/-- The pointer is stored as an index of type `uint16_t`. -/
def finish (s : BitstrDec) : BitstrDec := { s with streamIndex := s.streamIndex % 2 ^ 16 }

/-- The bytes of the stream, from the width of the interval. -/
def byteCount (s : BitstrDec) : Int :=
  if s.wUpper.toNat > 0x01FFFFFF then
    int16 (s.streamIndex * 2 - 3 + if s.full then 0 else 1)
  else int16 (s.streamIndex * 2 - 2 + if s.full then 0 else 1)

/-! ## Following an encoder -/

/-- The bytes that were read. -/
def consumed (s : BitstrDec) : Nat := 2 * s.streamIndex + if s.full then 0 else 1

/-- The decoder is where an encoder with this interval was after `length` bytes. -/
structure Follows (s : BitstrDec) (code wUpper length : Nat) : Prop where
  wUpper : s.wUpper.toNat = wUpper
  consumed : s.consumed = length + 4
  streamval : s.streamval.toNat + code = value 256 (streamByte s.stream) (length + 4)

variable {s : BitstrDec} {code wUpper length : Nat}

/-- Eight bits below a shifted number. -/
theorem toNat_shift_or {x y : BitVec 32} (hx : x.toNat < 2 ^ 24) (hy : y.toNat < 256) :
    (x <<< 8 ||| y).toNat = x.toNat * 256 + y.toNat := by
  have hor := Nat.two_pow_add_eq_or_of_lt (i := 8) hy x.toNat
  rw [BitVec.toNat_or, BitVec.toNat_shiftLeft, Nat.shiftLeft_eq, Nat.mod_eq_of_lt (by omega),
    Nat.mul_comm x.toNat, ← hor]

theorem readByte_spec (hsmall : s.streamval.toNat < 2 ^ 24) :
    s.readByte.streamval.toNat = s.streamval.toNat * 256 + streamByte s.stream s.consumed ∧
      s.readByte.consumed = s.consumed + 1 ∧ s.readByte.stream = s.stream := by
  have hword := (s.stream s.streamIndex).isLt
  unfold readByte
  cases hfull : s.full with
  | false =>
    have hbyte : ((s.stream s.streamIndex &&& 0x00FF).setWidth 32).toNat =
        (s.stream s.streamIndex).toNat % 256 := by
      have hand : (s.stream s.streamIndex &&& 0x00FF).toNat =
          (s.stream s.streamIndex).toNat % 2 ^ 8 := by
        rw [BitVec.toNat_and]
        exact Nat.and_two_pow_sub_one_eq_mod _ 8
      rw [BitVec.toNat_setWidth, hand, Nat.mod_eq_of_lt (by omega)]
      rfl
    refine ⟨?_, ?_, rfl⟩
    · rw [if_pos rfl]
      dsimp only
      rw [toNat_shift_or hsmall (by omega), hbyte]
      simp [streamByte, consumed, hfull, show (2 * s.streamIndex + 1) / 2 = s.streamIndex by omega]
    · simp [consumed, hfull]
      omega
  | true =>
    have hbyte : ((s.stream s.streamIndex >>> 8).setWidth 32).toNat =
        (s.stream s.streamIndex).toNat / 256 := by
      rw [BitVec.toNat_setWidth, BitVec.toNat_ushiftRight, Nat.shiftRight_eq_div_pow,
        Nat.mod_eq_of_lt (by omega)]
    refine ⟨?_, ?_, rfl⟩
    · rw [if_neg (by decide)]
      dsimp only
      rw [toNat_shift_or hsmall (by omega), hbyte]
      simp [streamByte, consumed, hfull]
    · simp [consumed, hfull]

/-- The window is narrower than the interval. -/
theorem Follows.streamval_le (h : s.Follows code wUpper length)
    (hwithin : Within (value 256 (streamByte s.stream) (length + 4)) code wUpper) :
    s.streamval.toNat ≤ wUpper := by
  have hval := h.streamval
  have hhigh := hwithin.high
  omega

theorem Follows.readByte (h : s.Follows code wUpper length) (hsmall : wUpper < 2 ^ 24)
    (hwithin : Within (value 256 (streamByte s.stream) (length + 4)) code wUpper) :
    Follows { s.readByte with wUpper := s.wUpper <<< 8 } (code * 256) (wUpper * 256)
      (length + 1) := by
  have hle := h.streamval_le hwithin
  obtain ⟨hval, hconsumed, hstream⟩ := readByte_spec (s := s) (by omega)
  refine ⟨?_, ?_, ?_⟩
  · show (s.wUpper <<< 8).toNat = wUpper * 256
    rw [BitVec.toNat_shiftLeft, Nat.shiftLeft_eq, h.wUpper, Nat.mod_eq_of_lt (by omega)]
  · show s.readByte.consumed = length + 1 + 4
    rw [hconsumed, h.consumed]
  · show s.readByte.streamval.toNat + code * 256 =
      value 256 (streamByte s.readByte.stream) (length + 1 + 4)
    rw [hval, hstream, h.consumed, show length + 1 + 4 = length + 4 + 1 by omega, value,
      ← h.streamval]
    omega

theorem renormalize_ok {fuel j : Nat} (h : s.Follows code wUpper length)
    (hwithin : Within (value 256 (streamByte s.stream) (length + j + 4)) (code * 256 ^ j)
      (wUpper * 256 ^ j))
    (hwide : 2 ^ 24 ≤ wUpper * 256 ^ j) (hword : wUpper * 256 ^ j < 2 ^ 32) (hfuel : j < fuel) :
    ∃ s', renormalize fuel s = some s' ∧ s'.Follows (code * 256 ^ j) (wUpper * 256 ^ j)
      (length + j) ∧ s'.stream = s.stream := by
  induction fuel generalizing s code wUpper length j with
  | zero => exact absurd hfuel (Nat.not_lt_zero j)
  | succ fuel ih =>
    rw [renormalize, h.wUpper]
    cases j with
    | zero =>
      rw [if_neg (by omega)]
      refine ⟨s, rfl, ?_, rfl⟩
      simpa using h
    | succ j =>
      have hpow : ∀ x : Nat, x * 256 ^ (j + 1) = x * 256 * 256 ^ j := fun x => by
        rw [Nat.pow_succ', Nat.mul_assoc]
      have hsmall : wUpper < 2 ^ 24 := by
        by_contra hlarge
        have hpos : 1 ≤ 256 ^ j := Nat.one_le_pow j 256 (by decide)
        have hge : 2 ^ 24 * 256 * 1 ≤ wUpper * 256 * 256 ^ j :=
          Nat.mul_le_mul (Nat.mul_le_mul_right 256 (not_lt.mp hlarge)) hpos
        rw [hpow] at hword
        omega
      rw [if_pos hsmall]
      have hnow : Within (value 256 (streamByte s.stream) (length + 4)) code wUpper := by
        have hbefore := hwithin.unshifts (by decide)
        rwa [show length + (j + 1) + 4 = length + 4 + (j + 1) by omega,
          value_add_div (streamByte_lt s.stream)] at hbefore
      have hstream : s.readByte.stream = s.stream :=
        (readByte_spec (s := s) (by have := h.streamval_le hnow; omega)).2.2
      have hnext : Within (value 256 (streamByte s.readByte.stream) (length + 1 + j + 4))
          (code * 256 * 256 ^ j) (wUpper * 256 * 256 ^ j) := by
        rw [hstream, ← hpow code, ← hpow wUpper, Nat.add_assoc length 1 j, Nat.add_comm 1 j]
        exact hwithin
      rw [hpow code, hpow wUpper, Nat.add_comm j 1, ← Nat.add_assoc length 1 j]
      rw [hpow wUpper] at hwide hword
      obtain ⟨s', hrest, hfollows, hkept⟩ :=
        ih (h.readByte hsmall hnow) hnext hwide hword (by omega)
      exact ⟨s', hrest, hfollows, hkept.trans hstream⟩

/-- The symbol of the encoder, whose interval was shifted by `j` bytes. -/
theorem narrow_ok {fuel j : Nat} {lo hi : BitVec 32} (h : s.Follows code wUpper length)
    (hlt : lo < hi)
    (hwithin : Within (value 256 (streamByte s.stream) (length + j + 4))
      ((code + lo.toNat + 1) * 256 ^ j) ((hi.toNat - lo.toNat - 1) * 256 ^ j))
    (hwide : 2 ^ 24 ≤ (hi.toNat - lo.toNat - 1) * 256 ^ j)
    (hword : (hi.toNat - lo.toNat - 1) * 256 ^ j < 2 ^ 32) (hfuel : j < fuel) :
    ∃ s', narrow fuel s lo hi = some s' ∧ s'.stream = s.stream ∧
      s'.Follows ((code + lo.toNat + 1) * 256 ^ j) ((hi.toNat - lo.toNat - 1) * 256 ^ j)
        (length + j) := by
  have hlt' : lo.toNat < hi.toNat := hlt
  have hhi := hi.isLt
  have hlower : (lo + 1).toNat = lo.toNat + 1 := by
    rw [BitVec.toNat_add, show ((1 : BitVec 32)).toNat = 1 from rfl, Nat.mod_eq_of_lt (by omega)]
  have hnow := hwithin.unshifts (by decide)
  rw [show length + j + 4 = length + 4 + j by omega,
    value_add_div (streamByte_lt s.stream)] at hnow
  have hlow := hnow.low
  have hval := h.streamval
  have hfollows : Follows { s with
      wUpper := hi - (lo + 1)
      streamval := s.streamval - (lo + 1) } (code + lo.toNat + 1) (hi.toNat - lo.toNat - 1)
      length := by
    refine ⟨?_, h.consumed, ?_⟩
    · show (hi - (lo + 1)).toNat = _
      rw [BitVec.toNat_sub_of_le (by rw [BitVec.le_def, hlower]; omega), hlower]
      omega
    · show (s.streamval - (lo + 1)).toNat + (code + lo.toNat + 1) =
        value 256 (streamByte s.stream) (length + 4)
      rw [BitVec.toNat_sub_of_le (by rw [BitVec.le_def, hlower]; omega), hlower]
      omega
  obtain ⟨s', hrest, hnext, hstream⟩ := renormalize_ok hfollows hwithin hwide hword hfuel
  exact ⟨s', hrest, hstream, hnext⟩

theorem start_follows (stream : Nat → BitVec 16) :
    (init stream).start.Follows 0 (2 ^ 32 - 1) 0 := by
  refine ⟨rfl, rfl, ?_⟩
  have hhigh := (stream 0).isLt
  have hlow := (stream 1).isLt
  have hor := Nat.two_pow_add_eq_or_of_lt (i := 16) hlow (stream 0).toNat
  have hval : ((stream 0).setWidth 32 <<< 16 ||| (stream 1).setWidth 32).toNat =
      2 ^ 16 * (stream 0).toNat + (stream 1).toNat := by
    rw [BitVec.toNat_or, BitVec.toNat_shiftLeft, BitVec.toNat_setWidth, BitVec.toNat_setWidth,
      Nat.shiftLeft_eq, Nat.mod_eq_of_lt (a := (stream 0).toNat) (by omega),
      Nat.mod_eq_of_lt (a := (stream 1).toNat) (by omega), Nat.mod_eq_of_lt (by omega),
      Nat.mul_comm (stream 0).toNat, hor]
  show ((stream 0).setWidth 32 <<< 16 ||| (stream 1).setWidth 32).toNat + 0 =
    value 256 (streamByte stream) (2 * 2)
  rw [hval, value_words]
  simp only [value]
  omega

theorem byteCount_ok (h : s.Follows code wUpper length) (hshort : length ≤ 2 ^ 14) :
    s.finish.byteCount = (length + if wUpper > 0x01FFFFFF then 1 else 2 : Nat) := by
  have hconsumed := h.consumed
  unfold consumed at hconsumed
  have hindex : s.streamIndex % 2 ^ 16 = s.streamIndex := Nat.mod_eq_of_lt (by omega)
  unfold byteCount finish
  dsimp only
  rw [h.wUpper, hindex]
  have hbytes : (s.streamIndex : Int) * 2 + (if s.full then 0 else 1) = length + 4 := by
    split at hconsumed <;> rename_i hfull
    · rw [if_pos hfull]
      omega
    · rw [if_neg hfull]
      omega
  by_cases hwide : wUpper > 0x01FFFFFF
  · rw [if_pos hwide, if_pos hwide, int16_of_fits (by omega) (by omega)]
    omega
  · rw [if_neg hwide, if_neg hwide, int16_of_fits (by omega) (by omega)]
    omega

/-- A symbol of the encoder, which has the cdf from `cdfLo` to `cdfHi`. -/
structure Narrowed (cdfLo cdfHi : BitVec 16) (s s' : BitstrEnc) : Prop where
  lt : cdfLo < cdfHi
  wide : 2 ^ 24 ≤ s.wUpper.toNat
  wide' : 2 ^ 24 ≤ s'.wUpper.toNat
  shifted : ∃ j, Shifted (s.code + (scale s.wUpper cdfLo).toNat + 1)
    ((scale s.wUpper cdfHi).toNat - (scale s.wUpper cdfLo).toNat - 1) j s s'

/-- The decoder is where the encoder was. -/
def InStep (t : BitstrDec) (s : BitstrEnc) : Prop := t.Follows s.code s.wUpper.toNat s.length

/-- A code in the interval of an encoder. -/
def Codes (stream : Nat → BitVec 16) (s : BitstrEnc) : Prop :=
  Within (value 256 (streamByte stream) (s.length + 4)) s.code s.wUpper.toNat

variable {t : BitstrDec} {e e' : BitstrEnc} {cdfLo cdfHi : BitVec 16}

theorem InStep.wUpper_eq (h : t.InStep e) : t.wUpper = e.wUpper := BitVec.eq_of_toNat_eq h.wUpper

/-- A code that is in the interval after a symbol was in it before, in the part of the symbol. -/
theorem Narrowed.within (h : Narrowed cdfLo cdfHi e e') {stream : Nat → BitVec 16}
    (hcodes : Codes stream e') :
    e.code + (scale e.wUpper cdfLo).toNat < value 256 (streamByte stream) (e.length + 4) ∧
      value 256 (streamByte stream) (e.length + 4) ≤ e.code + (scale e.wUpper cdfHi).toNat := by
  obtain ⟨j, hshift⟩ := h.shifted
  have hlt := scale_lt h.wide h.lt
  unfold Codes at hcodes
  rw [hshift.length, hshift.code, hshift.wUpper] at hcodes
  have hnow := hcodes.unshifts (by decide)
  rw [show e.length + j + 4 = e.length + 4 + j by omega, value_add_div (streamByte_lt stream)] at hnow
  exact hnow.narrow (by omega)

theorem Narrowed.codes (h : Narrowed cdfLo cdfHi e e') {stream : Nat → BitVec 16}
    (hcodes : Codes stream e') : Codes stream e := by
  obtain ⟨hlow, hhigh⟩ := h.within hcodes
  have hle := scale_le e.wUpper cdfHi
  exact ⟨by omega, by omega⟩

/-- The decoder finds the symbol's part of the interval. -/
theorem Narrowed.streamval (h : Narrowed cdfLo cdfHi e e') (hstep : t.InStep e)
    (hcodes : Codes t.stream e') :
    scale t.wUpper cdfLo < t.streamval ∧ t.streamval ≤ scale t.wUpper cdfHi := by
  obtain ⟨hlow, hhigh⟩ := h.within hcodes
  have hval := hstep.streamval
  rw [hstep.wUpper_eq]
  constructor
  · show (scale e.wUpper cdfLo).toNat < t.streamval.toNat
    omega
  · show t.streamval.toNat ≤ (scale e.wUpper cdfHi).toNat
    omega

/-- And follows the encoder with it. -/
theorem Narrowed.follow {fuel : Nat} (hfuel : 4 ≤ fuel) (h : Narrowed cdfLo cdfHi e e')
    (hstep : t.InStep e) (hcodes : Codes t.stream e') :
    ∃ t', t.narrow fuel (scale t.wUpper cdfLo) (scale t.wUpper cdfHi) = some t' ∧
      t'.stream = t.stream ∧ t'.InStep e' := by
  obtain ⟨j, hshift⟩ := h.shifted
  have hlt := scale_lt h.wide h.lt
  have hwide := h.wide'
  have hword := e'.wUpper.isLt
  rw [hshift.wUpper] at hwide hword
  have hj : j < 4 := by
    by_contra hlong
    have hpow : 256 ^ 4 ≤ 256 ^ j := Nat.pow_le_pow_right (by decide) (not_lt.mp hlong)
    have hge : 255 * 256 ^ 4 ≤
        ((scale e.wUpper cdfHi).toNat - (scale e.wUpper cdfLo).toNat - 1) * 256 ^ j :=
      Nat.mul_le_mul (by omega) hpow
    omega
  unfold Codes at hcodes
  rw [hshift.length, hshift.code, hshift.wUpper] at hcodes
  rw [hstep.wUpper_eq]
  obtain ⟨t', hnarrow, hstream, hfollows⟩ := narrow_ok hstep
    (show scale e.wUpper cdfLo < scale e.wUpper cdfHi by rw [BitVec.lt_def]; omega) hcodes
      hwide hword (hj.trans_le hfuel)
  refine ⟨t', hnarrow, hstream, ?_⟩
  unfold InStep
  rw [hshift.length, hshift.code, hshift.wUpper]
  exact hfollows

end BitstrDec

end PerchWebrtc.Isac
