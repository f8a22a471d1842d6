import PerchWebrtc.Framework.RangeCode

/-!
# The bit stream of the iSAC encoder

`arith_routines.c`, and what the arithmetic encoders have in common: the interval, the carry
into the words that were written, and the bytes that leave the interval.

* `propagateCarry_ok`, `putByte_ok`: the written bytes as a number;
* `encodeInterval_ok`: a symbol narrows the interval and shifts it;
* `encTerminate_ok`: the bytes after which any others may follow.
-/

namespace PerchWebrtc.Isac

open RangeCode

def STREAM_MAXW16_60MS : Nat := 200
def ISAC_DISALLOWED_BITSTREAM_LENGTH : Int := 6440

/-- `W_upper` times a value of a cdf, which is in Q16. -/
def scale (wUpper : BitVec 32) (cdf : BitVec 16) : BitVec 32 :=
  (wUpper >>> 16) * cdf.setWidth 32 + ((wUpper &&& 0x0000FFFF) * cdf.setWidth 32) >>> 16

/-- The product is not rounded before its lower half is dropped. -/
theorem scale_toNat (wUpper : BitVec 32) (cdf : BitVec 16) :
    (scale wUpper cdf).toNat = wUpper.toNat * cdf.toNat / 2 ^ 16 := by
  have hw := wUpper.isLt
  have hc := cdf.isLt
  have hlsb : (wUpper &&& 0x0000FFFF).toNat = wUpper.toNat % 2 ^ 16 := by
    rw [BitVec.toNat_and]
    exact Nat.and_two_pow_sub_one_eq_mod _ 16
  have hmsb : (wUpper >>> 16).toNat = wUpper.toNat / 2 ^ 16 := by
    rw [BitVec.toNat_ushiftRight, Nat.shiftRight_eq_div_pow]
  have hcdf : (cdf.setWidth 32).toNat = cdf.toNat := by
    rw [BitVec.toNat_setWidth, Nat.mod_eq_of_lt (by omega)]
  generalize wUpper.toNat = w at hw hlsb hmsb ⊢
  generalize cdf.toNat = c at hc hcdf ⊢
  have hhigh : w / 2 ^ 16 * c ≤ (2 ^ 16 - 1) * (2 ^ 16 - 1) :=
    Nat.mul_le_mul (by omega) (by omega)
  have hlow : w % 2 ^ 16 * c ≤ (2 ^ 16 - 1) * (2 ^ 16 - 1) :=
    Nat.mul_le_mul (by omega) (by omega)
  have hsplit : w * c = 2 ^ 16 * (w / 2 ^ 16 * c) + w % 2 ^ 16 * c := by
    rw [← Nat.mul_assoc, ← Nat.add_mul, Nat.div_add_mod]
  have hupper : ((wUpper >>> 16) * cdf.setWidth 32).toNat = w / 2 ^ 16 * c := by
    rw [BitVec.toNat_mul, hmsb, hcdf, Nat.mod_eq_of_lt (by omega)]
  have hlower : ((wUpper &&& 0x0000FFFF) * cdf.setWidth 32).toNat = w % 2 ^ 16 * c := by
    rw [BitVec.toNat_mul, hlsb, hcdf, Nat.mod_eq_of_lt (by omega)]
  unfold scale
  rw [BitVec.toNat_add, hupper, BitVec.toNat_ushiftRight, hlower, Nat.shiftRight_eq_div_pow,
    hsplit, Nat.mul_add_div (by decide)]
  omega

structure BitstrEnc where
  stream : Nat → BitVec 16
  wUpper : BitVec 32
  streamval : BitVec 32
  streamIndex : Nat
  /-- Both bytes of the current word are empty. -/
  full : Bool

namespace BitstrEnc

def init (stream : Nat → BitVec 16) : BitstrEnc where
  stream
  wUpper := 0xFFFFFFFF
  streamval := 0
  streamIndex := 0
  full := true

/-- `none` outside of the stream. -/
def store (s : BitstrEnc) (p : Nat) (word : BitVec 16) : Option BitstrEnc :=
  if p < STREAM_MAXW16_60MS then some { s with stream := Function.update s.stream p word }
  else none

/-- A carry into the word before `p`, and on while a word becomes 0. -/
def carryBack : Nat → BitstrEnc → Option BitstrEnc
  | 0, _ => none
  | p + 1, s => do
    let word := s.stream p + 1
    let s ← s.store p word
    if word = 0 then carryBack p s else some s

def propagateCarry (s : BitstrEnc) : Option BitstrEnc :=
  if s.full = false then do
    let negCarry := s.stream s.streamIndex + 0x0100
    let s ← s.store s.streamIndex negCarry
    if negCarry = 0 then carryBack s.streamIndex s else some s
  else carryBack s.streamIndex s

/-- The most significant byte of `streamval` is written. -/
def putByte (s : BitstrEnc) : Option BitstrEnc :=
  let byte : BitVec 16 := (s.streamval >>> 24).setWidth 16
  if s.full = false then do
    let s ← s.store s.streamIndex (s.stream s.streamIndex + byte)
    some { s with streamIndex := s.streamIndex + 1, full := true }
  else do
    let s ← s.store s.streamIndex (byte <<< 8)
    some { s with full := false }

/-- The loop that makes `W_upper` at least 2²⁴; `none` without fuel. -/
def renormalize : Nat → BitstrEnc → Option (Int × BitstrEnc)
  | 0, _ => none
  | fuel + 1, s =>
    if s.wUpper.toNat < 2 ^ 24 then do
      let s ← putByte { s with wUpper := s.wUpper <<< 8 }
      if s.streamIndex > STREAM_MAXW16_60MS - 1 then some (-ISAC_DISALLOWED_BITSTREAM_LENGTH, s)
      else renormalize fuel { s with streamval := s.streamval <<< 8 }
    else some (0, s)

/-- An integer is added to the bit stream, with its carry. -/
def addInteger (s : BitstrEnc) (x : BitVec 32) : Option BitstrEnc :=
  let next := { s with streamval := s.streamval + x }
  if next.streamval < x then next.propagateCarry else some next

/-- One symbol, from its two values of the cdf on. -/
def encodeInterval (fuel : Nat) (s : BitstrEnc) (cdfLo cdfHi : BitVec 16) :
    Option (Int × BitstrEnc) := do
  let wLower := scale s.wUpper cdfLo + 1
  let s ← addInteger { s with wUpper := scale s.wUpper cdfHi - wLower } wLower
  renormalize fuel s

/-- The bytes in the stream. -/
def length (s : BitstrEnc) : Nat := 2 * s.streamIndex + if s.full then 0 else 1

def encTerminate (s : BitstrEnc) : Option (Nat × BitstrEnc) := do
  let last ←
    if s.wUpper.toNat > 0x01FFFFFF then do
      let s ← s.addInteger 0x01000000
      s.putByte
    else do
      let s ← s.addInteger 0x00010000
      if s.full then do
        let s ← s.store s.streamIndex ((s.streamval >>> 16).setWidth 16)
        some { s with streamIndex := s.streamIndex + 1 }
      else do
        let s ← s.store s.streamIndex
          (s.stream s.streamIndex ||| (s.streamval >>> 24).setWidth 16)
        let s ← s.store (s.streamIndex + 1) ((s.streamval >>> 8).setWidth 16 &&& 0xFF00)
        some { s with streamIndex := s.streamIndex + 1 }
  some (last.length, { last with streamIndex := s.streamIndex })

/-! ## The written bytes -/

/-- The words have their more significant byte first. -/
def streamByte (stream : Nat → BitVec 16) (i : Nat) : Nat :=
  if i % 2 = 0 then (stream (i / 2)).toNat / 256 else (stream (i / 2)).toNat % 256

theorem streamByte_lt (stream : Nat → BitVec 16) (i : Nat) : streamByte stream i < 256 := by
  have hword := (stream (i / 2)).isLt
  unfold streamByte
  split <;> omega

theorem value_words (stream : Nat → BitVec 16) (n : Nat) :
    value 256 (streamByte stream) (2 * n) = value (2 ^ 16) (fun i => (stream i).toNat) n := by
  rw [value_pairs]
  refine value_congr fun i _ => ?_
  have hleft : streamByte stream (2 * i) = (stream i).toNat / 256 := by simp [streamByte]
  have hright : streamByte stream (2 * i + 1) = (stream i).toNat % 256 := by
    simp [streamByte, show (2 * i + 1) / 2 = i by omega]
  rw [hleft, hright]
  omega

def written (s : BitstrEnc) : Nat := value 256 (streamByte s.stream) s.length

/-- The lower end of the interval, with all the bytes that were written. -/
def code (s : BitstrEnc) : Nat := s.written * 2 ^ 32 + s.streamval.toNat

/-- The word that is half filled. -/
def Blank (s : BitstrEnc) : Prop := s.full = false → (s.stream s.streamIndex).toNat % 256 = 0

variable {s : BitstrEnc}

theorem length_of_full (h : s.full = true) : s.length = 2 * s.streamIndex := by
  simp [length, h]

theorem length_of_half (h : s.full = false) : s.length = 2 * s.streamIndex + 1 := by
  simp [length, h]

theorem written_of_full (h : s.full = true) :
    s.written = value (2 ^ 16) (fun i => (s.stream i).toNat) s.streamIndex := by
  rw [written, length_of_full h, value_words]

theorem written_of_half (h : s.full = false) :
    s.written = value (2 ^ 16) (fun i => (s.stream i).toNat) s.streamIndex * 256 +
      (s.stream s.streamIndex).toNat / 256 := by
  rw [written, length_of_half h, value, value_words]
  simp [streamByte]

/-- What a carry changes. -/
structure Carried (s s' : BitstrEnc) : Prop where
  written : s'.written = s.written + 1
  wUpper : s'.wUpper = s.wUpper
  streamval : s'.streamval = s.streamval
  streamIndex : s'.streamIndex = s.streamIndex
  full : s'.full = s.full
  blank : s.Blank → s'.Blank

theorem store_ok {p : Nat} (hp : p < STREAM_MAXW16_60MS) (word : BitVec 16) :
    s.store p word = some { s with stream := Function.update s.stream p word } := if_pos hp

theorem value_update (stream : Nat → BitVec 16) (p : Nat) (word : BitVec 16) :
    value (2 ^ 16) (fun i => (Function.update stream p word i).toNat) p =
      value (2 ^ 16) (fun i => (stream i).toNat) p :=
  value_congr fun i hi => by rw [Function.update_of_ne (by omega)]

theorem carryBack_ok {p : Nat} (hp : p ≤ STREAM_MAXW16_60MS)
    (h : value (2 ^ 16) (fun i => (s.stream i).toNat) p + 1 < (2 ^ 16) ^ p) :
    ∃ stream, carryBack p s = some { s with stream } ∧ (∀ i, p ≤ i → stream i = s.stream i) ∧
      value (2 ^ 16) (fun i => (stream i).toNat) p =
        value (2 ^ 16) (fun i => (s.stream i).toNat) p + 1 := by
  induction p generalizing s with
  | zero => exact absurd h (by simp [value])
  | succ p ih =>
    have hword := (s.stream p).isLt
    have hnext : (s.stream p + 1).toNat = ((s.stream p).toNat + 1) % 2 ^ 16 := by
      simp [BitVec.toNat_add]
    rw [value] at h
    simp only [carryBack, store_ok (show p < STREAM_MAXW16_60MS by omega), Option.bind_eq_bind,
      Option.bind_some]
    by_cases hzero : s.stream p + 1 = 0
    · rw [if_pos hzero]
      rw [hzero] at hnext
      have hlast : (s.stream p).toNat = 2 ^ 16 - 1 := by
        rw [show ((0 : BitVec 16)).toNat = 0 from rfl] at hnext
        omega
      have hlow : value (2 ^ 16) (fun i => (s.stream i).toNat) p + 1 < (2 ^ 16) ^ p := by
        have hpow : (2 ^ 16) ^ (p + 1) = (2 ^ 16) ^ p * 2 ^ 16 := Nat.pow_succ _ _
        omega
      obtain ⟨stream, hcarry, hafter, hvalue⟩ := ih
        (s := { s with stream := Function.update s.stream p (s.stream p + 1) }) (by omega)
        ((value_update _ _ _).symm ▸ hlow)
      have hupdated : stream p = 0 := (hafter p le_rfl).trans
        ((Function.update_self _ _ _).trans hzero)
      refine ⟨stream, hcarry, fun i hi => ?_, ?_⟩
      · exact (hafter i (by omega)).trans (Function.update_of_ne (by omega) _ _)
      · rw [value, value, hvalue, value_update, hupdated, hlast,
          show ((0 : BitVec 16)).toNat = 0 from rfl]
        omega
    · rw [if_neg hzero]
      have hsmall : (s.stream p).toNat + 1 < 2 ^ 16 := by
        by_contra hlarge
        refine hzero (BitVec.eq_of_toNat_eq ?_)
        rw [hnext, show (s.stream p).toNat + 1 = 2 ^ 16 by omega]
        rfl
      refine ⟨_, rfl, fun i hi => Function.update_of_ne (by omega) _ _, ?_⟩
      rw [value, value, value_update, Function.update_self, hnext, Nat.mod_eq_of_lt hsmall]
      exact (Nat.add_assoc _ _ _).symm

/-- The carry stays inside the bytes that were written. -/
theorem propagateCarry_ok (hroom : s.streamIndex < STREAM_MAXW16_60MS) (hblank : s.Blank)
    (hfits : s.written + 1 < 256 ^ s.length) :
    ∃ s', s.propagateCarry = some s' ∧ s.Carried s' := by
  cases hfull : s.full with
  | true =>
    have hpow : (256 : Nat) ^ s.length = (2 ^ 16) ^ s.streamIndex := by
      rw [length_of_full hfull, Nat.pow_mul]
      rfl
    rw [written_of_full hfull, hpow] at hfits
    obtain ⟨stream, hcarry, -, hvalue⟩ := carryBack_ok hroom.le hfits
    refine ⟨{ s with stream }, ?_, ?_, rfl, rfl, rfl, rfl, fun _ hhalf => ?_⟩
    · rw [propagateCarry, if_neg (by simp [hfull]), hcarry]
    · rw [written_of_full hfull, written_of_full (s := { s with stream }) hfull]
      exact hvalue
    · exact absurd (hfull.symm.trans hhalf) (by decide)
  | false =>
    have hword := (s.stream s.streamIndex).isLt
    have hzero := hblank hfull
    have hnext : (s.stream s.streamIndex + 0x0100).toNat =
        ((s.stream s.streamIndex).toNat + 256) % 2 ^ 16 := BitVec.toNat_add _ _
    have hpow : (256 : Nat) ^ s.length = (2 ^ 16) ^ s.streamIndex * 256 := by
      rw [length_of_half hfull, Nat.pow_succ, Nat.pow_mul]
      rfl
    rw [written_of_half hfull, hpow] at hfits
    rw [propagateCarry, if_pos hfull]
    dsimp only
    generalize s.stream s.streamIndex + 0x0100 = negCarry at hnext ⊢
    have hbefore := value_update s.stream s.streamIndex negCarry
    simp only [store_ok hroom, Option.bind_eq_bind, Option.bind_some]
    by_cases hwrap : negCarry = 0
    · rw [if_pos hwrap]
      have hlast : (s.stream s.streamIndex).toNat / 256 = 255 := by
        rw [hwrap, show ((0 : BitVec 16)).toNat = 0 from rfl] at hnext
        omega
      obtain ⟨stream, hcarry, hafter, hvalue⟩ := carryBack_ok
        (s := { s with stream := Function.update s.stream s.streamIndex negCarry }) hroom.le
        (hbefore.symm ▸ (by omega))
      have hupdated : stream s.streamIndex = 0 :=
        (hafter s.streamIndex le_rfl).trans ((Function.update_self _ _ _).trans hwrap)
      refine ⟨_, hcarry, ?_, rfl, rfl, rfl, rfl, fun _ _ => ?_⟩
      · rw [written_of_half hfull, written_of_half (s := { s with stream }) hfull]
        dsimp only
        rw [hvalue, hbefore, hupdated, hlast, show ((0 : BitVec 16)).toNat = 0 from rfl]
        omega
      · dsimp only
        rw [hupdated]
        rfl
    · rw [if_neg hwrap]
      have hsmall : (s.stream s.streamIndex).toNat + 256 < 2 ^ 16 := by
        by_contra hlarge
        refine hwrap (BitVec.eq_of_toNat_eq ?_)
        rw [hnext, show (s.stream s.streamIndex).toNat + 256 = 2 ^ 16 by omega]
        rfl
      rw [Nat.mod_eq_of_lt hsmall] at hnext
      refine ⟨_, rfl, ?_, rfl, rfl, rfl, rfl, fun _ _ => ?_⟩
      · rw [written_of_half hfull, written_of_half (by exact hfull)]
        dsimp only
        rw [hbefore, Function.update_self, hnext]
        omega
      · dsimp only
        rw [Function.update_self, hnext]
        omega

/-- What an integer changes. -/
structure Added (x : BitVec 32) (s s' : BitstrEnc) : Prop where
  code : s'.code = s.code + x.toNat
  wUpper : s'.wUpper = s.wUpper
  streamIndex : s'.streamIndex = s.streamIndex
  full : s'.full = s.full
  length : s'.length = s.length
  blank : s.Blank → s'.Blank

theorem addInteger_ok (hroom : s.streamIndex < STREAM_MAXW16_60MS) (hblank : s.Blank)
    {x : BitVec 32} (hfits : s.code + x.toNat < 256 ^ (s.length + 4)) :
    ∃ s', s.addInteger x = some s' ∧ s.Added x s' := by
  have hval := s.streamval.isLt
  have hx := x.isLt
  have hsum : (s.streamval + x).toNat = (s.streamval.toNat + x.toNat) % 2 ^ 32 :=
    BitVec.toNat_add _ _
  unfold addInteger
  dsimp only
  by_cases hcarry : s.streamval + x < x
  · rw [if_pos hcarry]
    have hover : 2 ^ 32 ≤ s.streamval.toNat + x.toNat := by
      have hlt : (s.streamval + x).toNat < x.toNat := hcarry
      omega
    have hpow : (256 : Nat) ^ (s.length + 4) = 256 ^ s.length * 2 ^ 32 := Nat.pow_add _ _ 4
    obtain ⟨s', hcarried, hwritten, hupper, hstreamval, hindex, hfull, hkept⟩ :=
      propagateCarry_ok (s := { s with streamval := s.streamval + x }) hroom hblank (by
        rw [code, hpow] at hfits
        show s.written + 1 < 256 ^ s.length
        omega)
    refine ⟨s', hcarried, ?_, hupper, hindex, hfull, ?_, hkept⟩
    · have hwritten' : s'.written = s.written + 1 := hwritten
      rw [code, hwritten', hstreamval, hsum, code]
      omega
    · rw [length, hindex, hfull]
      rfl
  · rw [if_neg hcarry]
    refine ⟨_, rfl, ?_, rfl, rfl, rfl, rfl, id⟩
    have hle : ¬ (s.streamval + x).toNat < x.toNat := hcarry
    show s.written * 2 ^ 32 + (s.streamval + x).toNat = s.written * 2 ^ 32 + s.streamval.toNat + x.toNat
    omega

/-- What a byte changes. -/
structure Put (s s' : BitstrEnc) : Prop where
  length : s'.length = s.length + 1
  written : s'.written = s.written * 256 + s.streamval.toNat / 2 ^ 24
  wUpper : s'.wUpper = s.wUpper
  streamval : s'.streamval = s.streamval
  blank : s'.Blank

theorem putByte_ok (hroom : s.streamIndex < STREAM_MAXW16_60MS) (hblank : s.Blank) :
    ∃ s', s.putByte = some s' ∧ s.Put s' := by
  have hval := s.streamval.isLt
  have hbyte : ((s.streamval >>> 24).setWidth 16 : BitVec 16).toNat =
      s.streamval.toNat / 2 ^ 24 := by
    rw [BitVec.toNat_setWidth, BitVec.toNat_ushiftRight, Nat.shiftRight_eq_div_pow,
      Nat.mod_eq_of_lt (by omega)]
  unfold putByte
  dsimp only
  generalize ((s.streamval >>> 24).setWidth 16 : BitVec 16) = byte at hbyte ⊢
  cases hfull : s.full with
  | false =>
    have hword := (s.stream s.streamIndex).isLt
    have hzero := hblank hfull
    have hnext : (s.stream s.streamIndex + byte).toNat =
        (s.stream s.streamIndex).toNat + byte.toNat := by
      rw [BitVec.toNat_add, Nat.mod_eq_of_lt (by omega)]
    simp only [store_ok hroom, if_true, Option.bind_eq_bind, Option.bind_some]
    refine ⟨_, rfl, ?_, ?_, rfl, rfl, fun h => absurd h Bool.noConfusion⟩
    · rw [length_of_half hfull, length_of_full rfl]
      rfl
    · rw [written_of_half hfull, written_of_full rfl]
      dsimp only
      rw [value, value_update, Function.update_self, hnext, hbyte]
      omega
  | true =>
    have hnext : (byte <<< 8).toNat = byte.toNat * 256 := by
      rw [BitVec.toNat_shiftLeft, Nat.shiftLeft_eq, Nat.mod_eq_of_lt (by omega)]
    simp only [store_ok hroom, Bool.true_eq_false, if_false, Option.bind_eq_bind, Option.bind_some]
    refine ⟨_, rfl, ?_, ?_, rfl, rfl, fun _ => ?_⟩
    · rw [length_of_full hfull, length_of_half rfl]
    · rw [written_of_full hfull, written_of_half rfl]
      dsimp only
      rw [value_update, Function.update_self, hnext, hbyte]
      omega
    · dsimp only
      rw [Function.update_self, hnext]
      omega

/-- Between the symbols. -/
structure Ready (s : BitstrEnc) : Prop where
  room : s.streamIndex < STREAM_MAXW16_60MS
  blank : s.Blank
  fits : s.code + s.wUpper.toNat < 256 ^ (s.length + 4)

/-- The interval is shifted by `j` bytes. -/
structure Shifted (code wUpper : Nat) (j : Nat) (s s' : BitstrEnc) : Prop where
  length : s'.length = s.length + j
  code : s'.code = code * 256 ^ j
  wUpper : s'.wUpper.toNat = wUpper * 256 ^ j

theorem Shifted.trans {code wUpper i j : Nat} {s' s'' : BitstrEnc} (h : Shifted code wUpper i s s')
    (h' : Shifted s'.code s'.wUpper.toNat j s' s'') :
    Shifted code wUpper (i + j) s s'' where
  length := by rw [h'.length, h.length, Nat.add_assoc]
  code := by rw [h'.code, h.code, Nat.mul_assoc, ← Nat.pow_add]
  wUpper := by rw [h'.wUpper, h.wUpper, Nat.mul_assoc, ← Nat.pow_add]

/-- A byte leaves the interval. -/
theorem putByte_ready (h : s.Ready) (hsmall : s.wUpper.toNat < 2 ^ 24) :
    ∃ s', putByte { s with wUpper := s.wUpper <<< 8 } = some s' ∧
      Shifted s.code s.wUpper.toNat 1 s { s' with streamval := s'.streamval <<< 8 } ∧ s'.Blank := by
  obtain ⟨s', hput, hlength, hwritten, hupper, hval, hblank⟩ :=
    putByte_ok (s := { s with wUpper := s.wUpper <<< 8 }) h.room h.blank
  refine ⟨s', hput, ⟨hlength, ?_, ?_⟩, hblank⟩
  · have hshift : (s'.streamval <<< 8).toNat = s.streamval.toNat * 2 ^ 8 % 2 ^ 32 := by
      rw [hval, BitVec.toNat_shiftLeft, Nat.shiftLeft_eq]
    have hlast := s.streamval.isLt
    show s'.written * 2 ^ 32 + (s'.streamval <<< 8).toNat = s.code * 256 ^ 1
    rw [hshift, hwritten, code]
    show (s.written * 256 + s.streamval.toNat / 2 ^ 24) * 2 ^ 32 +
      s.streamval.toNat * 2 ^ 8 % 2 ^ 32 = _
    omega
  · show s'.wUpper.toNat = s.wUpper.toNat * 256 ^ 1
    rw [hupper, BitVec.toNat_shiftLeft, Nat.shiftLeft_eq, Nat.mod_eq_of_lt (by omega)]
    rfl

/-- Bytes leave the interval until it is at least 2²⁴ wide. -/
theorem renormalize_ok {fuel m : Nat} (h : s.Ready)
    (hwide : 2 ^ 24 ≤ s.wUpper.toNat * 256 ^ m) (hfuel : m < fuel) :
    ∃ c s', renormalize fuel s = some (c, s') ∧
      (c = 0 → s'.Ready ∧ 2 ^ 24 ≤ s'.wUpper.toNat ∧ ∃ j, Shifted s.code s.wUpper.toNat j s s') := by
  induction fuel generalizing s m with
  | zero => exact absurd hfuel (Nat.not_lt_zero m)
  | succ fuel ih =>
    rw [renormalize]
    by_cases hsmall : s.wUpper.toNat < 2 ^ 24
    · obtain ⟨s₁, hput, hshift, hblank⟩ := putByte_ready h hsmall
      simp only [if_pos hsmall, hput, Option.bind_eq_bind, Option.bind_some]
      by_cases hlong : s₁.streamIndex > STREAM_MAXW16_60MS - 1
      · rw [if_pos hlong]
        exact ⟨_, _, rfl, fun hzero => absurd hzero (by decide)⟩
      rw [if_neg hlong]
      obtain ⟨k, rfl⟩ : ∃ k, m = k + 1 := Nat.exists_eq_add_one.mpr <| by
        by_contra hnone
        rw [show m = 0 by omega] at hwide
        omega
      have hfits : (s.code + s.wUpper.toNat) * 256 < 256 ^ (s.length + 4) * 256 :=
        Nat.mul_lt_mul_of_pos_right h.fits (by decide)
      obtain ⟨c, s', hrest, hready⟩ := ih (m := k)
        (s := { s₁ with streamval := s₁.streamval <<< 8 })
        ⟨Nat.lt_of_le_pred (by decide) (not_lt.mp hlong), hblank, by
          rw [hshift.code, hshift.wUpper, hshift.length, ← Nat.add_mul,
            show s.length + 1 + 4 = s.length + 4 + 1 by omega, Nat.pow_succ 256 (s.length + 4)]
          simpa using hfits⟩
        (by
          rw [hshift.wUpper, Nat.mul_assoc, ← Nat.pow_add, Nat.add_comm 1 k]
          exact hwide) (by omega)
      refine ⟨c, s', hrest, fun hzero => ?_⟩
      obtain ⟨hnext, hlarge, j, hshifts⟩ := hready hzero
      exact ⟨hnext, hlarge, 1 + j, hshift.trans hshifts⟩
    · rw [if_neg hsmall]
      exact ⟨0, s, rfl, fun _ => ⟨h, by omega, 0, rfl, by simp, by simp⟩⟩

/-- Two values of a cdf are 256 apart in the interval. -/
theorem scale_lt {wUpper : BitVec 32} (hwide : 2 ^ 24 ≤ wUpper.toNat) {cdfLo cdfHi : BitVec 16}
    (hlt : cdfLo < cdfHi) :
    (scale wUpper cdfLo).toNat + 256 ≤ (scale wUpper cdfHi).toNat := by
  rw [scale_toNat, scale_toNat]
  have hnext : cdfLo.toNat + 1 ≤ cdfHi.toNat := hlt
  have hstep : wUpper.toNat * cdfLo.toNat + 2 ^ 24 ≤ wUpper.toNat * cdfHi.toNat :=
    calc wUpper.toNat * cdfLo.toNat + 2 ^ 24
        ≤ wUpper.toNat * cdfLo.toNat + wUpper.toNat := Nat.add_le_add_left hwide _
      _ = wUpper.toNat * (cdfLo.toNat + 1) := (Nat.mul_succ _ _).symm
      _ ≤ wUpper.toNat * cdfHi.toNat := Nat.mul_le_mul_left _ hnext
  omega

theorem scale_le (wUpper : BitVec 32) (cdf : BitVec 16) :
    (scale wUpper cdf).toNat ≤ wUpper.toNat := by
  rw [scale_toNat]
  have hle : wUpper.toNat * cdf.toNat ≤ wUpper.toNat * 2 ^ 16 :=
    Nat.mul_le_mul_left _ cdf.isLt.le
  omega

/-- A symbol narrows the interval. -/
theorem encodeInterval_ok {fuel : Nat} (hfuel : 4 ≤ fuel) (h : s.Ready)
    (hwide : 2 ^ 24 ≤ s.wUpper.toNat) {cdfLo cdfHi : BitVec 16} (hlt : cdfLo < cdfHi) :
    ∃ c s', encodeInterval fuel s cdfLo cdfHi = some (c, s') ∧
      (c = 0 → s'.Ready ∧ 2 ^ 24 ≤ s'.wUpper.toNat ∧
        ∃ j, Shifted (s.code + (scale s.wUpper cdfLo).toNat + 1)
          ((scale s.wUpper cdfHi).toNat - (scale s.wUpper cdfLo).toNat - 1) j s s') := by
  have hlo := scale_lt hwide hlt
  have hhi := scale_le s.wUpper cdfHi
  have hw := s.wUpper.isLt
  have hval := s.streamval.isLt
  unfold encodeInterval
  generalize scale s.wUpper cdfLo = lo at hlo ⊢
  generalize scale s.wUpper cdfHi = hi at hlo hhi ⊢
  have hlower : (lo + 1).toNat = lo.toNat + 1 := by
    rw [BitVec.toNat_add, show ((1 : BitVec 32)).toNat = 1 from rfl, Nat.mod_eq_of_lt (by omega)]
  have hupper : (hi - (lo + 1)).toNat = hi.toNat - lo.toNat - 1 := by
    rw [BitVec.toNat_sub_of_le (by rw [BitVec.le_def, hlower]; omega), hlower]
    omega
  obtain ⟨s₁, hadd, hadded⟩ := addInteger_ok (s := { s with wUpper := hi - (lo + 1) }) h.room
    h.blank (x := lo + 1) (by
      have hfits := h.fits
      rw [hlower]
      exact Nat.lt_of_le_of_lt (Nat.add_le_add_left (show lo.toNat + 1 ≤ s.wUpper.toNat by omega) _)
        hfits)
  have hnext : s₁.wUpper.toNat = hi.toNat - lo.toNat - 1 := by rw [hadded.wUpper, hupper]
  have hcode : s₁.code = s.code + lo.toNat + 1 := by
    rw [hadded.code, hlower]
    exact (Nat.add_assoc _ _ _).symm
  have hlength : s₁.length = s.length := hadded.length
  obtain ⟨c, s', hrest, hready⟩ := renormalize_ok (m := 3) (s := s₁)
    ⟨by rw [hadded.streamIndex]; exact h.room, hadded.blank h.blank, by
      have hfits := h.fits
      rw [hcode, hnext, hlength]
      omega⟩
    (by rw [hnext]; omega) (show 3 < fuel by omega)
  simp only [hadd, Option.bind_eq_bind, Option.bind_some]
  refine ⟨c, s', hrest, fun hzero => ?_⟩
  obtain ⟨hnext', hlarge, j, hshift⟩ := hready hzero
  rw [hcode, hnext] at hshift
  exact ⟨hnext', hlarge, j, hshift.length.trans (by rw [hlength]), hshift.code, hshift.wUpper⟩

/-! ## The end of the stream -/

/-- The two bytes of the end begin in the last half of the stream's last word. -/
def Overruns (s : BitstrEnc) : Prop :=
  s.streamIndex = STREAM_MAXW16_60MS - 1 ∧ s.full = false ∧ s.wUpper.toNat ≤ 0x01FFFFFF

/-- A code that begins with the first `n` bytes. -/
def Begins (stream : Nat → BitVec 16) (n : Nat) (d : Nat → Nat) : Prop :=
  (∀ i, d i < 256) ∧ ∀ i < n, d i = streamByte stream i

theorem within_of_begins {stream : Nat → BitVec 16} {d : Nat → Nat} {n k code wUpper : Nat}
    (h : Begins stream n d) (hvalue : value 256 (streamByte stream) n = (code + 256 ^ k) / 256 ^ k)
    (hwide : 2 * 256 ^ k ≤ wUpper) : Within (value 256 d (n + k)) code wUpper := by
  have hwhole : value 256 d (n + k) / 256 ^ k = (code + 256 ^ k) / 256 ^ k := by
    rw [value_add_div h.1, value_congr h.2, hvalue]
  have hpos : 0 < 256 ^ k := Nat.pow_pos (by decide)
  generalize 256 ^ k = unit at hwhole hwide hpos
  rw [Nat.add_div_right _ hpos] at hwhole
  have hx := Nat.div_add_mod (value 256 d (n + k)) unit
  have hxmod := Nat.mod_lt (value 256 d (n + k)) hpos
  have hc := Nat.div_add_mod code unit
  have hcmod := Nat.mod_lt code hpos
  rw [hwhole, Nat.mul_succ] at hx
  exact ⟨by omega, by omega⟩

theorem code_add_div (s : BitstrEnc) : s.code / 256 ^ 3 =
    s.written * 256 + s.streamval.toNat / 2 ^ 24 := by
  unfold code
  omega

/-- One byte is enough for a wide interval. -/
theorem encTerminate_wide (h : s.Ready) (hwide : s.wUpper.toNat > 0x01FFFFFF) :
    ∃ s', s.encTerminate = some (s.length + 1, s') ∧
      value 256 (streamByte s'.stream) (s.length + 1) = (s.code + 256 ^ 3) / 256 ^ 3 := by
  have hfits := h.fits
  obtain ⟨s₁, hadd, hadded⟩ := addInteger_ok h.room h.blank (x := 0x01000000) (by
    rw [show ((0x01000000 : BitVec 32)).toNat = 2 ^ 24 from rfl]
    omega)
  have hroom : s₁.streamIndex < STREAM_MAXW16_60MS := hadded.streamIndex ▸ h.room
  obtain ⟨s₂, hput, hput'⟩ := putByte_ok hroom (hadded.blank h.blank)
  have hlength : s₂.length = s.length + 1 := by rw [hput'.length, hadded.length]
  refine ⟨{ s₂ with streamIndex := s.streamIndex }, ?_, ?_⟩
  · simp only [encTerminate, if_pos hwide, hadd, hput, Option.bind_eq_bind, Option.bind_some,
      hlength]
  · have hwritten : value 256 (streamByte s₂.stream) (s.length + 1) = s₂.written := by
      rw [written, hlength]
    have hcode : s₁.code = s.code + 256 ^ 3 := hadded.code
    exact hwritten.trans (hput'.written.trans (s₁.code_add_div.symm.trans (by rw [hcode])))

/-- And two bytes for any. -/
theorem encTerminate_narrow (h : s.Ready) (hwide : 2 ^ 24 ≤ s.wUpper.toNat)
    (hnarrow : ¬ s.wUpper.toNat > 0x01FFFFFF) (hroom : ¬ s.Overruns) :
    ∃ s', s.encTerminate = some (s.length + 2, s') ∧
      value 256 (streamByte s'.stream) (s.length + 2) = (s.code + 256 ^ 2) / 256 ^ 2 := by
  have hfits := h.fits
  obtain ⟨s₁, hadd, hadded⟩ := addInteger_ok h.room h.blank (x := 0x00010000) (by
    rw [show ((0x00010000 : BitVec 32)).toNat = 2 ^ 16 from rfl]
    omega)
  have hroom₁ : s₁.streamIndex < STREAM_MAXW16_60MS := hadded.streamIndex ▸ h.room
  have hcode : s₁.code = s.code + 256 ^ 2 := hadded.code
  have hblank := hadded.blank h.blank
  have hval := s₁.streamval.isLt
  rw [← hcode, ← hadded.length, code]
  cases hfull : s₁.full with
  | true =>
    have hword : ((s₁.streamval >>> 16).setWidth 16 : BitVec 16).toNat =
        s₁.streamval.toNat / 2 ^ 16 := by
      rw [BitVec.toNat_setWidth, BitVec.toNat_ushiftRight, Nat.shiftRight_eq_div_pow,
        Nat.mod_eq_of_lt (by omega)]
    refine ⟨{ s₁ with
      stream := Function.update s₁.stream s₁.streamIndex ((s₁.streamval >>> 16).setWidth 16)
      streamIndex := s.streamIndex }, ?_, ?_⟩
    · simp only [encTerminate, if_neg hnarrow, hadd, hfull, store_ok hroom₁, Option.bind_eq_bind,
        Option.bind_some, if_true, Option.some.injEq, Prod.mk.injEq, and_true]
      rw [length_of_full hfull, length_of_full rfl]
      rfl
    · rw [length_of_full hfull, written_of_full hfull]
      show value 256 (streamByte (Function.update s₁.stream s₁.streamIndex _))
        (2 * (s₁.streamIndex + 1)) = _
      rw [value_words, value, value_update, Function.update_self, hword]
      omega
  | false =>
    have hindex : s₁.streamIndex + 1 < STREAM_MAXW16_60MS := by
      by_contra hlast
      exact hroom ⟨hadded.streamIndex ▸ by omega, hadded.full ▸ hfull, not_lt.mp hnarrow⟩
    have hzero := hblank hfull
    have hword := (s₁.stream s₁.streamIndex).isLt
    have hhigh : (s₁.stream s₁.streamIndex ||| (s₁.streamval >>> 24).setWidth 16).toNat =
        (s₁.stream s₁.streamIndex).toNat + s₁.streamval.toNat / 2 ^ 24 := by
      have hor := Nat.two_pow_add_eq_or_of_lt (i := 8) (b := s₁.streamval.toNat / 2 ^ 24)
        (by omega) ((s₁.stream s₁.streamIndex).toNat / 256)
      rw [show 2 ^ 8 * ((s₁.stream s₁.streamIndex).toNat / 256) =
        (s₁.stream s₁.streamIndex).toNat by omega] at hor
      rw [BitVec.toNat_or, BitVec.toNat_setWidth, BitVec.toNat_ushiftRight,
        Nat.shiftRight_eq_div_pow, Nat.mod_eq_of_lt (by omega), ← hor]
    have hlow : ((s₁.streamval >>> 8).setWidth 16 &&& 0xFF00 : BitVec 16).toNat / 256 =
        s₁.streamval.toNat / 2 ^ 16 % 256 := by
      have hand : ∀ x : Nat, (x &&& 0xFF00) / 2 ^ 8 = x / 2 ^ 8 % 2 ^ 8 := fun x => by
        rw [← Nat.shiftRight_eq_div_pow, Nat.shiftRight_and_distrib, Nat.shiftRight_eq_div_pow x]
        exact Nat.and_two_pow_sub_one_eq_mod _ 8
      rw [BitVec.toNat_and, BitVec.toNat_setWidth, BitVec.toNat_ushiftRight,
        Nat.shiftRight_eq_div_pow]
      refine (hand _).trans ?_
      omega
    refine ⟨{ s₁ with
      stream := Function.update (Function.update s₁.stream s₁.streamIndex
        (s₁.stream s₁.streamIndex ||| (s₁.streamval >>> 24).setWidth 16)) (s₁.streamIndex + 1)
        ((s₁.streamval >>> 8).setWidth 16 &&& 0xFF00)
      streamIndex := s.streamIndex }, ?_, ?_⟩
    · simp only [encTerminate, if_neg hnarrow, hadd, hfull, store_ok hroom₁, Option.bind_eq_bind,
        Option.bind_some, Bool.false_eq_true, if_false, store_ok hindex, Option.some.injEq,
        Prod.mk.injEq, and_true]
      rw [length_of_half hfull, length_of_half rfl]
      rfl
    · rw [length_of_half hfull, written_of_half hfull]
      show value 256 (streamByte (Function.update (Function.update s₁.stream s₁.streamIndex _)
        (s₁.streamIndex + 1) _)) (2 * (s₁.streamIndex + 1) + 1) = _
      rw [value, value_words, value_update, value, value_update, Function.update_self, hhigh]
      have hlast : ∀ stream : Nat → BitVec 16, streamByte stream (2 * (s₁.streamIndex + 1)) =
          (stream (s₁.streamIndex + 1)).toNat / 256 := fun stream => by simp [streamByte]
      rw [hlast, Function.update_self, hlow]
      omega

/-- The bytes of the end of the stream. -/
def endLength (s : BitstrEnc) : Nat := if s.wUpper.toNat > 0x01FFFFFF then 1 else 2

theorem encTerminate_ok (h : s.Ready) (hwide : 2 ^ 24 ≤ s.wUpper.toNat) (hroom : ¬ s.Overruns) :
    ∃ s', s.encTerminate = some (s.length + s.endLength, s') ∧
      ∀ d, Begins s'.stream (s.length + s.endLength) d →
        Within (value 256 d (s.length + 4)) s.code s.wUpper.toNat := by
  unfold endLength
  by_cases hlarge : s.wUpper.toNat > 0x01FFFFFF
  · obtain ⟨s', hend, hvalue⟩ := encTerminate_wide h hlarge
    rw [if_pos hlarge]
    exact ⟨s', hend, fun d hd => within_of_begins (k := 3) hd hvalue (by omega)⟩
  · obtain ⟨s', hend, hvalue⟩ := encTerminate_narrow h hwide hlarge hroom
    rw [if_neg hlarge]
    exact ⟨s', hend, fun d hd => within_of_begins (k := 2) hd hvalue (by omega)⟩

theorem encTerminate_overruns (h : s.Ready) (hwide : 2 ^ 24 ≤ s.wUpper.toNat) (hover : s.Overruns) :
    s.encTerminate = none := by
  have hfits := h.fits
  obtain ⟨hindex, hfull, hnarrow⟩ := hover
  obtain ⟨s₁, hadd, hadded⟩ := addInteger_ok h.room h.blank (x := 0x00010000) (by
    rw [show ((0x00010000 : BitVec 32)).toNat = 2 ^ 16 from rfl]
    omega)
  have hlast : s₁.streamIndex = STREAM_MAXW16_60MS - 1 := hadded.streamIndex.trans hindex
  have hfull₁ : s₁.full = false := hadded.full.trans hfull
  have hroom₁ : s₁.streamIndex < STREAM_MAXW16_60MS := hadded.streamIndex ▸ h.room
  have hbeyond : ∀ (q : BitstrEnc) (word : BitVec 16), q.store (s₁.streamIndex + 1) word = none :=
    fun q word => if_neg (by rw [hlast]; decide)
  simp only [encTerminate, if_neg (not_lt.mpr hnarrow), hadd, hfull₁, store_ok hroom₁, hbeyond,
    Option.bind_eq_bind, Option.bind_some, Option.bind_none, Bool.false_eq_true, if_false]

theorem init_ready (stream : Nat → BitVec 16) : (init stream).Ready where
  room := by
    show 0 < STREAM_MAXW16_60MS
    decide
  blank h := absurd h Bool.noConfusion
  fits := by
    show 0 * 2 ^ 32 + 0 + (2 ^ 32 - 1) < 256 ^ (0 + 4)
    decide

end BitstrEnc

end PerchWebrtc.Isac
