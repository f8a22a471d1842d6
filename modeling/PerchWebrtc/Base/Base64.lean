import PerchWebrtc.Framework.Bytes

/-!
# Base64

`Base64::EncodeFromArray` and `Base64::DecodeFromArray` (`base64.cc`), with all flags of the
decoder. Positions are from the start of the quantum that is decoded.

* `first_byte`, `second_byte`, `third_byte` and `first_sextet`, `second_sextet`, `third_sextet`,
  `fourth_sextet`: three bytes and four values of six bits;
* `nextQuantum_full`, `nextQuantum_padded`, `nextQuantum_illegal`: what the decoder makes of a
  quantum of the encoder;
* `scan_strict`, `nextQuantum_strict`: what a strict decoder has taken of any characters;
* `decodeLoop_encode`, `strict_loop`, `decode_inverts`.
-/

namespace PerchWebrtc.Base.Base64

def kPad : Byte := 0x3d

def pd : Byte := 0xfd
def sp : Byte := 0xfe
def il : Byte := 0xff

def Base64Table : List Byte :=
  ['A', 'B', 'C', 'D', 'E', 'F', 'G', 'H', 'I', 'J', 'K', 'L', 'M', 'N', 'O', 'P', 'Q', 'R', 'S',
    'T', 'U', 'V', 'W', 'X', 'Y', 'Z', 'a', 'b', 'c', 'd', 'e', 'f', 'g', 'h', 'i', 'j', 'k', 'l',
    'm', 'n', 'o', 'p', 'q', 'r', 's', 't', 'u', 'v', 'w', 'x', 'y', 'z', '0', '1', '2', '3', '4',
    '5', '6', '7', '8', '9', '+', '/'].map fun ch => BitVec.ofNat 8 ch.toNat

def DecodeTable : List Byte := [
  il, il, il, il, il, il, il, il, il, sp,
  sp, sp, sp, sp, il, il, il, il, il, il,
  il, il, il, il, il, il, il, il, il, il,
  il, il, sp, il, il, il, il, il, il, il,
  il, il, il, 62, il, il, il, 63, 52, 53,
  54, 55, 56, 57, 58, 59, 60, 61, il, il,
  il, pd, il, il, il, 0, 1, 2, 3, 4,
  5, 6, 7, 8, 9, 10, 11, 12, 13, 14,
  15, 16, 17, 18, 19, 20, 21, 22, 23, 24,
  25, il, il, il, il, il, il, 26, 27, 28,
  29, 30, 31, 32, 33, 34, 35, 36, 37, 38,
  39, 40, 41, 42, 43, 44, 45, 46, 47, 48,
  49, 50, 51, il, il, il, il, il, il, il] ++ List.replicate 126 il

def base64Char (c : Byte) : Byte := Base64Table.getD c.toNat 0

def decodeChar (ch : Byte) : Byte := DecodeTable.getD ch.toNat il

/-- A round of the loop takes three bytes, or what is left of them. -/
def encodeFromArray : List Byte → List Byte
  | [] => []
  | [a] => [base64Char ((a >>> 2) &&& 0x3f#8), base64Char ((a <<< 4) &&& 0x3f#8), kPad, kPad]
  | [a, b] =>
    [base64Char ((a >>> 2) &&& 0x3f#8), base64Char ((a <<< 4) &&& 0x3f#8 ||| (b >>> 4) &&& 0x0f#8),
      base64Char ((b <<< 2) &&& 0x3f#8), kPad]
  | a :: b :: c :: data =>
    [base64Char ((a >>> 2) &&& 0x3f#8), base64Char ((a <<< 4) &&& 0x3f#8 ||| (b >>> 4) &&& 0x0f#8),
      base64Char ((b <<< 2) &&& 0x3f#8 ||| (c >>> 6) &&& 0x03#8), base64Char (c &&& 0x3f#8)] ++
        encodeFromArray data

/-! ## The decoder -/

inductive ParseFlag where
  | strict
  | white
  | any
  deriving DecidableEq

inductive PadFlag where
  | yes
  | any
  | no
  deriving DecidableEq

inductive TermFlag where
  | buffer
  | char
  | any
  deriving DecidableEq

structure DecodeFlags where
  parse : ParseFlag
  pad : PadFlag
  term : TermFlag
  deriving DecidableEq

def DO_STRICT : DecodeFlags := ⟨.strict, .yes, .buffer⟩

/-- The variables of the loop of `GetNextQuantum`; `qbuf` holds the values of the characters that
count, so that its length is `byte_len`. -/
structure Quantum where
  qbuf : List Byte := []
  dpos : ℕ := 0
  padLen : ℕ := 0
  padStart : ℕ := 0

/-- One character, by its value; `none` where the loop breaks. -/
def scanChar (parse : ParseFlag) (illegalPads : Bool) (value : Byte) (q : Quantum) : Option Quantum :=
  let skipped := { q with dpos := q.dpos + 1 }
  if value = il ∨ illegalPads ∧ value = pd then
    if parse ≠ .any then none else some skipped
  else if value = sp then
    if parse = .strict then none else some skipped
  else if value = pd then
    if q.qbuf.length < 2 then
      if parse ≠ .any then none else some skipped
    else if q.qbuf.length + q.padLen ≥ 4 then
      if parse ≠ .any then none else some skipped
    else some { skipped with
      padLen := q.padLen + 1
      padStart := if q.padLen + 1 = 1 then q.dpos else q.padStart }
  else if q.padLen > 0 then
    if parse ≠ .any then none
    else some { skipped with padLen := 0, qbuf := q.qbuf ++ [value] }
  else some { skipped with qbuf := q.qbuf ++ [value] }

def scan (parse : ParseFlag) (illegalPads : Bool) : List Byte → Quantum → Quantum
  | [], q => q
  | ch :: data, q =>
    if q.qbuf.length < 4 then
      match scanChar parse illegalPads (decodeChar ch) q with
      | some q => scan parse illegalPads data q
      | none => q
    else q

/-- The values, how far the quantum reaches, and whether it is padded. -/
def getNextQuantum (parse : ParseFlag) (illegalPads : Bool) (data : List Byte) :
    List Byte × ℕ × Bool :=
  let q := scan parse illegalPads data {}
  if q.qbuf.length + q.padLen = 4 then (q.qbuf, q.dpos, true)
  else (q.qbuf, if q.padLen ≠ 0 then q.padStart else q.dpos, false)

/-- The bytes of the values, and the bits that are left of them. -/
def quantumBytes (qbuf : List Byte) : List Byte × Byte :=
  let q := fun i => qbuf.getD i 0
  let c₀ := q 0 <<< 2 ||| (q 1 >>> 4) &&& 0x3#8
  let c₁ := (q 1 <<< 4) &&& 0xf0#8 ||| (q 2 >>> 2) &&& 0xf#8
  let c₂ := (q 2 <<< 6) &&& 0xc0#8 ||| q 3
  if qbuf.length ≥ 4 then ([c₀, c₁, c₂], 0)
  else if qbuf.length ≥ 3 then ([c₀, c₁], c₂)
  else if qbuf.length ≥ 2 then ([c₀], c₁)
  else ([], c₀)

structure Decoded where
  success : Bool
  result : List Byte
  dataUsed : ℕ
  deriving DecidableEq

/-- The loop, with fuel for its rounds; one that does not end it takes four characters. -/
def decodeLoop (flags : DecodeFlags) : ℕ → List Byte → List Byte → ℕ → Decoded
  | 0, _, result, dpos => ⟨true, result, dpos⟩
  | fuel + 1, data, result, dpos =>
    if data = [] then ⟨true, result, dpos⟩
    else
      let (qbuf, used, padded) := getNextQuantum flags.parse (flags.pad = .no) data
      let (bytes, c) := quantumBytes qbuf
      if qbuf.length < 4 then
        ⟨!(flags.term ≠ .any && c ≠ 0) && !(flags.pad = .yes && !padded), result ++ bytes, dpos + used⟩
      else decodeLoop flags fuel (data.drop used) (result ++ bytes) (dpos + used)

def decodeFromArray (data : List Byte) (flags : DecodeFlags) : Decoded :=
  let decoded := decodeLoop flags data.length data [] 0
  { decoded with
    success := decoded.success && !(flags.term = .buffer && decoded.dataUsed ≠ data.length) }

/-! ## Bits -/

section

variable (a b c : Byte)

theorem first_byte :
    ((a >>> 2) &&& 0x3f#8) <<< 2 |||
      (((a <<< 4) &&& 0x3f#8 ||| (b >>> 4) &&& 0x0f#8) >>> 4) &&& 0x3#8 = a :=
  byte_ext (forall_bits (by simp))

theorem second_byte :
    (((a <<< 4) &&& 0x3f#8 ||| (b >>> 4) &&& 0x0f#8) <<< 4) &&& 0xf0#8 |||
      (((b <<< 2) &&& 0x3f#8 ||| (c >>> 6) &&& 0x03#8) >>> 2) &&& 0xf#8 = b :=
  byte_ext (forall_bits (by simp))

theorem third_byte :
    (((b <<< 2) &&& 0x3f#8 ||| (c >>> 6) &&& 0x03#8) <<< 6) &&& 0xc0#8 ||| c &&& 0x3f#8 = c :=
  byte_ext (forall_bits (by simp))

end

/-! ## Values of six bits -/

/-- A value of the table. -/
def Sextet (v : Byte) : Prop := v &&& 0x3f#8 = v

instance (v : Byte) : Decidable (Sextet v) := inferInstanceAs (Decidable (_ = _))

theorem sextet_and (v : Byte) : Sextet (v &&& 0x3f#8) := by
  rw [Sextet, BitVec.and_assoc]
  rfl

theorem sextet_or {v v' : Byte} (h : Sextet v) (h' : Sextet v') : Sextet (v ||| v') := by
  have hbits : (v ||| v') &&& 0x3f#8 = v &&& 0x3f#8 ||| v' &&& 0x3f#8 := byte_ext (forall_bits (by simp))
  rw [Sextet, hbits, h, h']

theorem sextet_of_mask (v mask : Byte) (h : Sextet mask) : Sextet (v &&& mask) := by
  rw [Sextet, BitVec.and_assoc, h]

theorem decode_table : ∀ v : Byte, Sextet v → decodeChar (base64Char v) = v := by decide +kernel

theorem values : ∀ ch : Byte,
    Sextet (decodeChar ch) ∧ base64Char (decodeChar ch) = ch ∨ decodeChar ch = il ∨
      decodeChar ch = sp ∨ decodeChar ch = pd ∧ ch = kPad := by decide +kernel

theorem decode_kPad : decodeChar kPad = pd := by decide

theorem sextet_ne {v : Byte} (h : Sextet v) : v ≠ il ∧ v ≠ sp ∧ v ≠ pd := by
  refine ⟨?_, ?_, ?_⟩ <;>
  · rintro rfl
    exact absurd h (by decide)

section

variable {p q r s : Byte}

/-- The values of the encoder, from the bytes of the decoder. -/
theorem first_sextet (hp : Sextet p) : ((p <<< 2 ||| (q >>> 4) &&& 0x3#8) >>> 2) &&& 0x3f#8 = p := by
  have hbits : ((p <<< 2 ||| (q >>> 4) &&& 0x3#8) >>> 2) &&& 0x3f#8 = p &&& 0x3f#8 :=
    byte_ext (forall_bits (by simp))
  rw [hbits, hp]

theorem second_sextet (hq : Sextet q) :
    ((p <<< 2 ||| (q >>> 4) &&& 0x3#8) <<< 4) &&& 0x3f#8 |||
      (((q <<< 4) &&& 0xf0#8 ||| (r >>> 2) &&& 0xf#8) >>> 4) &&& 0x0f#8 = q := by
  have hbits : ((p <<< 2 ||| (q >>> 4) &&& 0x3#8) <<< 4) &&& 0x3f#8 |||
      (((q <<< 4) &&& 0xf0#8 ||| (r >>> 2) &&& 0xf#8) >>> 4) &&& 0x0f#8 = q &&& 0x3f#8 :=
    byte_ext (forall_bits (by simp))
  rw [hbits, hq]

theorem third_sextet (hr : Sextet r) (hs : Sextet s) :
    (((q <<< 4) &&& 0xf0#8 ||| (r >>> 2) &&& 0xf#8) <<< 2) &&& 0x3f#8 |||
      (((r <<< 6) &&& 0xc0#8 ||| s) >>> 6) &&& 0x03#8 = r := by
  have hbits : (((q <<< 4) &&& 0xf0#8 ||| (r >>> 2) &&& 0xf#8) <<< 2) &&& 0x3f#8 |||
      (((r <<< 6) &&& 0xc0#8 ||| s &&& 0x3f#8) >>> 6) &&& 0x03#8 = r &&& 0x3f#8 :=
    byte_ext (forall_bits (by simp))
  rwa [hs, hr] at hbits

theorem fourth_sextet (hs : Sextet s) : ((r <<< 6) &&& 0xc0#8 ||| s) &&& 0x3f#8 = s := by
  have hbits : ((r <<< 6) &&& 0xc0#8 ||| s) &&& 0x3f#8 = s &&& 0x3f#8 := byte_ext (forall_bits (by simp))
  rw [hbits, hs]

end

/-! ## Quanta of the encoder -/

section

variable {parse : ParseFlag} {illegalPads : Bool} {data qbuf : List Byte} {q : Quantum} {v : Byte}

/-- A character that counts. -/
theorem scan_sextet (hv : Sextet v) (hroom : q.qbuf.length < 4) (hpads : q.padLen = 0) :
    scan parse illegalPads (base64Char v :: data) q =
      scan parse illegalPads data { q with dpos := q.dpos + 1, qbuf := q.qbuf ++ [v] } := by
  obtain ⟨hil, hsp, hpd⟩ := sextet_ne hv
  rw [scan, if_pos hroom, decode_table v hv, scanChar, if_neg (by simp [hil, hpd]), if_neg hsp,
    if_neg hpd, if_neg (by omega)]

theorem scan_full (hfull : q.qbuf.length = 4) : scan parse illegalPads data q = q := by
  cases data with
  | nil => rfl
  | cons ch data => rw [scan, if_neg (by omega)]

/-- A pad that is legal. -/
theorem scan_pad (hqbuf : 2 ≤ q.qbuf.length) (hsum : q.qbuf.length + q.padLen < 4) :
    scan parse false (kPad :: data) q =
      scan parse false data
        { q with
          dpos := q.dpos + 1
          padLen := q.padLen + 1
          padStart := if q.padLen + 1 = 1 then q.dpos else q.padStart } := by
  rw [scan, if_pos (by omega), decode_kPad, scanChar, if_neg (by decide), if_neg (by decide),
    if_pos rfl, if_neg (by omega), if_neg (by omega)]

/-- Where pads are illegal, a pad is skipped or ends the quantum. -/
theorem scan_illegal (hroom : q.qbuf.length < 4) :
    scan parse true (kPad :: data) q =
      if parse ≠ .any then q else scan parse true data { q with dpos := q.dpos + 1 } := by
  rw [scan, if_pos hroom, decode_kPad, scanChar, if_pos (by simp)]
  by_cases hparse : parse = .any
  · rw [if_neg (not_not.mpr hparse), if_neg (not_not.mpr hparse)]
  · rw [if_pos hparse, if_pos hparse]

/-- Characters that count, in front of others. -/
theorem scan_sextets {vs : List Byte} (hvs : ∀ v ∈ vs, Sextet v)
    (hroom : q.qbuf.length + vs.length ≤ 4) (hpads : q.padLen = 0) :
    scan parse illegalPads (vs.map base64Char ++ data) q =
      scan parse illegalPads data { q with dpos := q.dpos + vs.length, qbuf := q.qbuf ++ vs } := by
  induction vs generalizing q with
  | nil => simp
  | cons v vs ih =>
    rw [List.length_cons] at hroom
    obtain ⟨hv, hvs⟩ := List.forall_mem_cons.mp hvs
    have hnext := ih (q := { q with dpos := q.dpos + 1, qbuf := q.qbuf ++ [v] }) hvs
      (by simp; omega) hpads
    have hdpos : q.dpos + 1 + vs.length = q.dpos + (vs.length + 1) := by omega
    rw [List.map_cons, List.cons_append, scan_sextet hv (by omega) hpads, hnext]
    simp [hdpos]

/-- The pads that fill the quantum. -/
theorem scan_pads (parse : ParseFlag) (hlength : q.qbuf.length = 2 ∨ q.qbuf.length = 3)
    (hpads : q.padLen = 0) :
    scan parse false (List.replicate (4 - q.qbuf.length) kPad) q =
      { q with
        dpos := q.dpos + (4 - q.qbuf.length)
        padLen := 4 - q.qbuf.length
        padStart := q.dpos } := by
  obtain htwo | hthree := hlength
  · rw [htwo]
    show scan parse false [kPad, kPad] q = _
    rw [scan_pad (by omega) (by omega), scan_pad (by dsimp only; omega) (by dsimp only; omega)]
    simp [scan, hpads]
  · rw [hthree]
    show scan parse false [kPad] q = _
    rw [scan_pad (by omega) (by omega)]
    simp [scan, hpads]

theorem scan_pads_illegal (parse : ParseFlag)
    (hlength : q.qbuf.length = 2 ∨ q.qbuf.length = 3) :
    scan parse true (List.replicate (4 - q.qbuf.length) kPad) q =
      if parse = .any then { q with dpos := q.dpos + (4 - q.qbuf.length) } else q := by
  obtain htwo | hthree := hlength
  · rw [htwo]
    show scan parse true [kPad, kPad] q = _
    rw [scan_illegal (by omega), scan_illegal (by dsimp only; omega)]
    cases parse <;> rfl
  · rw [hthree]
    show scan parse true [kPad] q = _
    rw [scan_illegal (by omega)]
    cases parse <;> rfl

end

section

variable {vs : List Byte}

theorem nextQuantum_full (parse : ParseFlag) (illegalPads : Bool) (hvs : ∀ v ∈ vs, Sextet v)
    (hlength : vs.length = 4) (data : List Byte) :
    getNextQuantum parse illegalPads (vs.map base64Char ++ data) = (vs, 4, true) := by
  rw [getNextQuantum, scan_sextets hvs (by simp [hlength]) rfl, scan_full (by simpa using hlength)]
  simp [hlength]

/-- A quantum of two or three characters and its pads. -/
theorem nextQuantum_padded (parse : ParseFlag) (hvs : ∀ v ∈ vs, Sextet v)
    (hlength : vs.length = 2 ∨ vs.length = 3) :
    getNextQuantum parse false (vs.map base64Char ++ List.replicate (4 - vs.length) kPad) =
      (vs, 4, true) := by
  have hpads := scan_pads parse (q := { qbuf := vs, dpos := vs.length }) hlength rfl
  rw [getNextQuantum, scan_sextets hvs (by simp; omega) rfl, Nat.zero_add, List.nil_append, hpads]
  obtain htwo | hthree := hlength
  · simp [htwo]
  · simp [hthree]

/-- Where pads are illegal, they are skipped with all other characters, or end the quantum. -/
theorem nextQuantum_illegal (parse : ParseFlag) (hvs : ∀ v ∈ vs, Sextet v)
    (hlength : vs.length = 2 ∨ vs.length = 3) :
    getNextQuantum parse true (vs.map base64Char ++ List.replicate (4 - vs.length) kPad) =
      (vs, if parse = .any then 4 else vs.length, false) := by
  have hpads := scan_pads_illegal parse (q := { qbuf := vs, dpos := vs.length }) hlength
  rw [getNextQuantum, scan_sextets hvs (by simp; omega) rfl, Nat.zero_add, List.nil_append, hpads]
  obtain htwo | hthree := hlength
  · cases parse <;> simp [htwo]
  · cases parse <;> simp [hthree]

end

/-! ## The encoder undone -/

section

variable (a b c : Byte) (flags : DecodeFlags)

theorem quantumBytes_one :
    quantumBytes [(a >>> 2) &&& 0x3f#8, (a <<< 4) &&& 0x3f#8] = ([a], 0) := by
  have hfirst : ((a >>> 2) &&& 0x3f#8) <<< 2 ||| (((a <<< 4) &&& 0x3f#8) >>> 4) &&& 0x3#8 = a :=
    byte_ext (forall_bits (by simp))
  have hunused : (((a <<< 4) &&& 0x3f#8) <<< 4) &&& 0xf0#8 ||| ((0 : Byte) >>> 2) &&& 0xf#8 = 0 :=
    byte_ext (forall_bits (by simp))
  exact Prod.ext (congrArg ([·]) hfirst) hunused

theorem quantumBytes_two :
    quantumBytes [(a >>> 2) &&& 0x3f#8, (a <<< 4) &&& 0x3f#8 ||| (b >>> 4) &&& 0x0f#8,
      (b <<< 2) &&& 0x3f#8] = ([a, b], 0) := by
  have hsecond : (((a <<< 4) &&& 0x3f#8 ||| (b >>> 4) &&& 0x0f#8) <<< 4) &&& 0xf0#8 |||
      (((b <<< 2) &&& 0x3f#8) >>> 2) &&& 0xf#8 = b := byte_ext (forall_bits (by simp))
  have hunused : (((b <<< 2) &&& 0x3f#8) <<< 6) &&& 0xc0#8 ||| (0 : Byte) = 0 :=
    byte_ext (forall_bits (by simp))
  exact Prod.ext (congrArg₂ (fun x y => [x, y]) (first_byte a b) hsecond) hunused

theorem quantumBytes_three :
    quantumBytes [(a >>> 2) &&& 0x3f#8, (a <<< 4) &&& 0x3f#8 ||| (b >>> 4) &&& 0x0f#8,
      (b <<< 2) &&& 0x3f#8 ||| (c >>> 6) &&& 0x03#8, c &&& 0x3f#8] = ([a, b, c], 0) := by
  have hbytes : [_, _, _] = [a, b, c] :=
    congrArg₂ (· :: ·) (first_byte a b)
      (congrArg₂ (· :: ·) (second_byte a b c) (congrArg ([·]) (third_byte b c)))
  exact Prod.ext hbytes rfl

/-- The padding is disallowed that is there, and other characters than those that count are not
skipped. -/
def Refuses (length : ℕ) : Prop := flags.pad = .no ∧ flags.parse ≠ .any ∧ length % 3 ≠ 0

instance (length : ℕ) : Decidable (Refuses flags length) := inferInstanceAs (Decidable (_ ∧ _))

/-- One round of the loop. -/
theorem decodeLoop_round {data qbuf : List Byte} {used : ℕ} {padded : Bool} (hne : data ≠ [])
    (hquantum : getNextQuantum flags.parse (flags.pad = .no) data = (qbuf, used, padded))
    (fuel : ℕ) (result : List Byte) (dpos : ℕ) :
    decodeLoop flags (fuel + 1) data result dpos =
      if qbuf.length < 4 then
        ⟨!(flags.term ≠ .any && (quantumBytes qbuf).2 ≠ 0) && !(flags.pad = .yes && !padded),
          result ++ (quantumBytes qbuf).1, dpos + used⟩
      else
        decodeLoop flags fuel (data.drop used) (result ++ (quantumBytes qbuf).1) (dpos + used) := by
  rw [decodeLoop, if_neg hne, hquantum]

/-- A last quantum of the encoder. -/
theorem decodeLoop_last (vs : List Byte) {bytes : List Byte} (hvs : ∀ v ∈ vs, Sextet v)
    (hlength : vs.length = 2 ∨ vs.length = 3) (hbytes : quantumBytes vs = (bytes, 0)) (fuel : ℕ)
    (result : List Byte) (dpos : ℕ) :
    decodeLoop flags (fuel + 1) (vs.map base64Char ++ List.replicate (4 - vs.length) kPad) result
        dpos =
      ⟨true, result ++ bytes,
        dpos + if flags.pad = .no ∧ flags.parse ≠ .any then vs.length else 4⟩ := by
  have hne : vs.map base64Char ++ List.replicate (4 - vs.length) kPad ≠ [] := by
    intro hnil
    have hzero := congrArg List.length hnil
    simp at hzero
    omega
  have hlt : vs.length < 4 := by omega
  by_cases hpad : flags.pad = .no
  · have hquantum := nextQuantum_illegal flags.parse hvs hlength
    rw [← decide_eq_true hpad] at hquantum
    rw [decodeLoop_round flags hne hquantum, if_pos hlt, hbytes]
    by_cases hany : flags.parse = .any
    · simp [hpad, hany]
    · simp [hpad, hany]
  · have hquantum := nextQuantum_padded flags.parse hvs hlength
    rw [← decide_eq_false hpad] at hquantum
    rw [decodeLoop_round flags hne hquantum, if_pos hlt, hbytes]
    simp [hpad]

/-- The size that the encoder reserves. -/
theorem length_encode (bs : List Byte) :
    (encodeFromArray bs).length = (bs.length + 2) / 3 * 4 := by
  induction bs using encodeFromArray.induct with
  | case1 => rfl
  | case2 a => simp [encodeFromArray]
  | case3 a b => simp [encodeFromArray]
  | case4 a b c data ih =>
    rw [encodeFromArray, List.length_append, ih]
    simp only [List.length_cons, List.length_nil]
    omega

/-- How many pads are not taken. -/
theorem used_last (length : ℕ) (hlength : length % 3 = 1 ∨ length % 3 = 2) :
    (if flags.pad = .no ∧ flags.parse ≠ .any then length % 3 + 1 else 4) =
      4 - if Refuses flags length then 3 - length % 3 else 0 := by
  by_cases hrefuses : flags.pad = .no ∧ flags.parse ≠ .any
  · rw [if_pos hrefuses, if_pos ⟨hrefuses.1, hrefuses.2, by omega⟩]
    omega
  · rw [if_neg hrefuses, if_neg fun h => hrefuses ⟨h.1, h.2.1⟩]

theorem decodeLoop_full {vs bytes : List Byte} (hvs : ∀ v ∈ vs, Sextet v) (hlength : vs.length = 4)
    (hbytes : quantumBytes vs = (bytes, 0)) (fuel : ℕ) (data result : List Byte) (dpos : ℕ) :
    decodeLoop flags (fuel + 1) (vs.map base64Char ++ data) result dpos =
      decodeLoop flags fuel data (result ++ bytes) (dpos + 4) := by
  have hne : vs.map base64Char ++ data ≠ [] := by
    intro hnil
    have hzero := congrArg List.length hnil
    simp [hlength] at hzero
  have hdrop : (vs.map base64Char ++ data).drop 4 = data :=
    List.drop_left' (by rw [List.length_map, hlength])
  rw [decodeLoop_round flags hne (nextQuantum_full _ _ hvs hlength data), if_neg (by omega), hbytes,
    hdrop]

theorem decodeLoop_encode (bs : List Byte) : ∀ (fuel : ℕ) (result : List Byte) (dpos : ℕ),
    (encodeFromArray bs).length ≤ fuel →
      decodeLoop flags fuel (encodeFromArray bs) result dpos =
        ⟨true, result ++ bs, dpos + ((encodeFromArray bs).length -
          if Refuses flags bs.length then 3 - bs.length % 3 else 0)⟩ := by
  induction bs using encodeFromArray.induct with
  | case1 =>
    intro fuel result dpos _
    cases fuel <;> simp [decodeLoop, encodeFromArray, Refuses]
  | case2 a =>
    rintro (_ | fuel) result dpos hfuel
    · exact absurd hfuel (by simp [encodeFromArray])
    have hlast := decodeLoop_last flags [(a >>> 2) &&& 0x3f#8, (a <<< 4) &&& 0x3f#8]
      (by simp [sextet_and]) (.inl rfl) (quantumBytes_one a) fuel result dpos
    exact hlast.trans (congrArg (fun used => Decoded.mk true (result ++ [a]) (dpos + used))
      (used_last flags 1 (.inl rfl)))
  | case3 a b =>
    rintro (_ | fuel) result dpos hfuel
    · exact absurd hfuel (by simp [encodeFromArray])
    have hlast := decodeLoop_last flags
      [(a >>> 2) &&& 0x3f#8, (a <<< 4) &&& 0x3f#8 ||| (b >>> 4) &&& 0x0f#8, (b <<< 2) &&& 0x3f#8]
      (by simp [sextet_and, sextet_or, sextet_of_mask _ 0x0f#8 (by decide)]) (.inr rfl)
      (quantumBytes_two a b) fuel result dpos
    exact hlast.trans (congrArg (fun used => Decoded.mk true (result ++ [a, b]) (dpos + used))
      (used_last flags 2 (.inr rfl)))
  | case4 a b c data ih =>
    rintro (_ | fuel) result dpos hfuel
    · exact absurd hfuel (by simp [encodeFromArray])
    have hvs : ∀ v ∈ [(a >>> 2) &&& 0x3f#8, (a <<< 4) &&& 0x3f#8 ||| (b >>> 4) &&& 0x0f#8,
        (b <<< 2) &&& 0x3f#8 ||| (c >>> 6) &&& 0x03#8, c &&& 0x3f#8], Sextet v := by
      simp [sextet_and, sextet_or, sextet_of_mask _ 0x0f#8 (by decide),
        sextet_of_mask _ 0x03#8 (by decide)]
    have hfull := decodeLoop_full flags hvs rfl (quantumBytes_three a b c) fuel
      (encodeFromArray data) result dpos
    have hrest := ih fuel (result ++ [a, b, c]) (dpos + 4)
      (by simp [encodeFromArray] at hfuel; omega)
    have hlength : (a :: b :: c :: data).length % 3 = data.length % 3 := by
      simp only [List.length_cons]
      omega
    have hrefuses : Refuses flags (a :: b :: c :: data).length ↔ Refuses flags data.length := by
      rw [Refuses, hlength, Refuses]
    have hused : dpos + 4 + ((encodeFromArray data).length -
        if Refuses flags data.length then 3 - data.length % 3 else 0) =
          dpos + ((encodeFromArray (a :: b :: c :: data)).length -
            if Refuses flags (a :: b :: c :: data).length then 3 - (a :: b :: c :: data).length % 3
              else 0) := by
      rw [hlength, if_congr hrefuses rfl rfl, length_encode, length_encode]
      simp only [List.length_cons]
      split
      case isTrue h =>
        have hmod := h.2.2
        omega
      case isFalse => omega
    rw [← hused]
    refine (hfull.trans hrest).trans ?_
    rw [List.append_assoc]
    rfl

end

/-! ## Strict decoding -/

section

variable {data : List Byte} {q : Quantum}

/-- What a strict decoder has taken: characters that count, and pads behind at least two of them. -/
structure Taken (data : List Byte) (q q' : Quantum) : Prop where
  taken : ∃ vs n rest, data = vs.map base64Char ++ List.replicate n kPad ++ rest ∧
    (∀ v ∈ vs, Sextet v) ∧ q'.qbuf = q.qbuf ++ vs ∧ q'.padLen = q.padLen + n ∧
    q'.dpos = q.dpos + vs.length + n ∧ (0 < q.padLen → vs = [])
  pads : 0 < q'.padLen → 2 ≤ q'.qbuf.length
  sum_le : q'.qbuf.length + q'.padLen ≤ 4

theorem taken_self (hpads : 0 < q.padLen → 2 ≤ q.qbuf.length)
    (hsum : q.qbuf.length + q.padLen ≤ 4) : Taken data q q :=
  ⟨⟨[], 0, data, by simp⟩, hpads, hsum⟩

/-- The loop breaks. -/
theorem scan_break {ch : Byte} (hbreak : scanChar .strict false (decodeChar ch) q = none) :
    scan .strict false (ch :: data) q = q := by
  rw [scan, hbreak]
  exact ite_self q

theorem scan_strict (data : List Byte) : ∀ q : Quantum, (0 < q.padLen → 2 ≤ q.qbuf.length) →
    q.qbuf.length + q.padLen ≤ 4 → Taken data q (scan .strict false data q) := by
  induction data with
  | nil => exact fun q => taken_self
  | cons ch data ih =>
    intro q hpads hsum
    -- What is taken of the characters behind one that is taken.
    by_cases hroom : q.qbuf.length < 4
    case neg =>
      rw [scan, if_neg hroom]
      exact taken_self hpads hsum
    obtain ⟨hv, hch⟩ | hil | hsp | ⟨hpd, rfl⟩ := values ch
    · by_cases hnone : q.padLen = 0
      · have hnext := ih { q with dpos := q.dpos + 1, qbuf := q.qbuf ++ [decodeChar ch] }
          (fun hpos => absurd hnone hpos.ne') (by simp; omega)
        rw [← hch, scan_sextet hv hroom hnone, hch]
        obtain ⟨⟨vs, n, rest, hdata, hvs, hqbuf, hpadLen, hdpos, hempty⟩, hpads', hsum'⟩ := hnext
        refine ⟨⟨decodeChar ch :: vs, n, rest, ?_, ?_, ?_, hpadLen, ?_, ?_⟩, hpads', hsum'⟩
        · rw [List.map_cons, hch, hdata]
          rfl
        · exact List.forall_mem_cons.mpr ⟨hv, hvs⟩
        · rw [hqbuf, List.append_assoc]
          rfl
        · rw [hdpos, List.length_cons]
          dsimp only
          omega
        · exact fun hpos => absurd hnone hpos.ne'
      · obtain ⟨hil, hsp, hpd⟩ := sextet_ne hv
        rw [scan_break]
        · exact taken_self hpads hsum
        · rw [scanChar, if_neg (by simp [hil]), if_neg hsp, if_neg hpd, if_pos (by omega)]
          rfl
    · rw [scan_break (by rw [hil]; rfl)]
      exact taken_self hpads hsum
    · rw [scan_break (by rw [hsp]; rfl)]
      exact taken_self hpads hsum
    · by_cases hlegal : 2 ≤ q.qbuf.length ∧ q.qbuf.length + q.padLen < 4
      · have hnext := ih
          { q with
            dpos := q.dpos + 1
            padLen := q.padLen + 1
            padStart := if q.padLen + 1 = 1 then q.dpos else q.padStart }
          (fun _ => hlegal.1) (by dsimp only; omega)
        rw [scan_pad hlegal.1 hlegal.2]
        obtain ⟨⟨vs, n, rest, hdata, hvs, hqbuf, hpadLen, hdpos, hempty⟩, hpads', hsum'⟩ := hnext
        obtain rfl := hempty (Nat.succ_pos _)
        refine ⟨⟨[], n + 1, rest, ?_, hvs, hqbuf, ?_, ?_, fun _ => rfl⟩, hpads', hsum'⟩
        · rw [hdata, List.replicate_succ]
          rfl
        · rw [hpadLen]
          dsimp only
          omega
        · rw [hdpos]
          dsimp only
          omega
      · rw [scan_break]
        · exact taken_self hpads hsum
        · rw [hpd, scanChar, if_neg (by decide), if_neg (by decide), if_pos rfl]
          by_cases hfew : q.qbuf.length < 2
          · rw [if_pos hfew]
            rfl
          · rw [if_neg hfew, if_pos (by omega)]
            rfl

/-- The quanta of a strict decoder that count: four characters, or two or three with their pads. -/
theorem nextQuantum_strict (data : List Byte) {qbuf : List Byte} {used : ℕ} {padded : Bool}
    (hquantum : getNextQuantum .strict false data = (qbuf, used, padded))
    (hcomplete : 4 ≤ qbuf.length ∨ padded = true) :
    used = 4 ∧ (∀ v ∈ qbuf, Sextet v) ∧ 2 ≤ qbuf.length ∧ qbuf.length ≤ 4 ∧ ∃ rest,
      data = qbuf.map base64Char ++ List.replicate (4 - qbuf.length) kPad ++ rest := by
  obtain ⟨⟨vs, n, rest, hdata, hvs, hqbuf, hpadLen, hdpos, -⟩, hpads, hsum⟩ :=
    scan_strict data {} (fun hpos => absurd hpos (lt_irrefl 0)) (by decide)
  rw [List.nil_append] at hqbuf
  rw [Nat.zero_add] at hpadLen
  rw [Nat.zero_add] at hdpos
  rw [getNextQuantum, hqbuf, hpadLen, hdpos] at hquantum
  rw [hqbuf, hpadLen] at hpads hsum
  by_cases hfour : vs.length + n = 4
  · rw [if_pos hfour] at hquantum
    cases hquantum
    refine ⟨hfour, hvs, ?_, by omega, rest, ?_⟩
    · by_contra hfew
      have hpos := hpads (by omega)
      omega
    · rw [hdata, show 4 - qbuf.length = n by omega]
  · rw [if_neg hfour] at hquantum
    cases hquantum
    obtain hfull | hpadded := hcomplete
    · omega
    · cases hpadded

theorem encode_two {x y : Byte} (hx : Sextet x) (hy : Sextet y)
    (hunused : (quantumBytes [x, y]).2 = 0) :
    encodeFromArray (quantumBytes [x, y]).1 = [base64Char x, base64Char y, kPad, kPad] := by
  have hsecond := second_sextet (p := x) (r := 0) hy
  have hunused : (y <<< 4) &&& 0xf0#8 ||| ((0 : Byte) >>> 2) &&& 0xf#8 = 0 := hunused
  rw [hunused] at hsecond
  have hlow : ((x <<< 2 ||| (y >>> 4) &&& 0x3#8) <<< 4) &&& 0x3f#8 = y := by simpa using hsecond
  show encodeFromArray [x <<< 2 ||| (y >>> 4) &&& 0x3#8] = _
  rw [encodeFromArray, first_sextet hx, hlow]

theorem encode_three {x y z : Byte} (hx : Sextet x) (hy : Sextet y) (hz : Sextet z)
    (hunused : (quantumBytes [x, y, z]).2 = 0) :
    encodeFromArray (quantumBytes [x, y, z]).1 =
      [base64Char x, base64Char y, base64Char z, kPad] := by
  have hthird := third_sextet (q := y) (s := 0) hz (by decide)
  have hunused : (z <<< 6) &&& 0xc0#8 ||| (0 : Byte) = 0 := hunused
  rw [hunused] at hthird
  have hlow : (((y <<< 4) &&& 0xf0#8 ||| (z >>> 2) &&& 0xf#8) <<< 2) &&& 0x3f#8 = z := by
    simpa using hthird
  show encodeFromArray [x <<< 2 ||| (y >>> 4) &&& 0x3#8,
    (y <<< 4) &&& 0xf0#8 ||| (z >>> 2) &&& 0xf#8] = _
  rw [encodeFromArray, first_sextet hx, second_sextet hy, hlow]

theorem encode_four {x y z u : Byte} (hx : Sextet x) (hy : Sextet y) (hz : Sextet z)
    (hu : Sextet u) (bs : List Byte) :
    encodeFromArray ((quantumBytes [x, y, z, u]).1 ++ bs) =
      [base64Char x, base64Char y, base64Char z, base64Char u] ++ encodeFromArray bs := by
  show encodeFromArray ((x <<< 2 ||| (y >>> 4) &&& 0x3#8) ::
    ((y <<< 4) &&& 0xf0#8 ||| (z >>> 2) &&& 0xf#8) :: ((z <<< 6) &&& 0xc0#8 ||| u) :: bs) = _
  rw [encodeFromArray, first_sextet hx, second_sextet hy, third_sextet hz hu, fourth_sextet hu]

/-- The last quantum, if it is accepted. -/
theorem encode_last {qbuf : List Byte} (hvs : ∀ v ∈ qbuf, Sextet v)
    (hlength : qbuf.length = 2 ∨ qbuf.length = 3) (hunused : (quantumBytes qbuf).2 = 0) :
    encodeFromArray (quantumBytes qbuf).1 =
      qbuf.map base64Char ++ List.replicate (4 - qbuf.length) kPad := by
  obtain htwo | hthree := hlength
  · obtain ⟨x, y, rfl⟩ := List.length_eq_two.mp htwo
    exact encode_two (hvs x (by simp)) (hvs y (by simp)) hunused
  · obtain ⟨x, y, z, rfl⟩ := List.length_eq_three.mp hthree
    exact encode_three (hvs x (by simp)) (hvs y (by simp)) (hvs z (by simp)) hunused

theorem strict_loop (fuel : ℕ) : ∀ (data result : List Byte) (dpos : ℕ), data.length ≤ fuel →
    (decodeLoop DO_STRICT fuel data result dpos).success = true →
    (decodeLoop DO_STRICT fuel data result dpos).dataUsed = dpos + data.length →
      ∃ bs, data = encodeFromArray bs := by
  induction fuel with
  | zero =>
    intro data result dpos hfuel _ _
    exact ⟨[], List.length_eq_zero_iff.mp (Nat.le_zero.mp hfuel)⟩
  | succ fuel ih =>
    intro data result dpos hfuel hsuccess hused
    by_cases hnil : data = []
    · exact ⟨[], hnil⟩
    obtain ⟨⟨qbuf, used, padded⟩, hquantum⟩ : ∃ x, getNextQuantum .strict false data = x := ⟨_, rfl⟩
    have hloop := decodeLoop_round DO_STRICT hnil hquantum fuel result dpos
    rw [hloop] at hsuccess hused
    by_cases hlast : qbuf.length < 4
    · rw [if_pos hlast] at hsuccess hused
      obtain ⟨hunused, hpadded⟩ : (quantumBytes qbuf).2 = 0 ∧ padded = true := by
        simpa [DO_STRICT] using hsuccess
      obtain ⟨rfl, hvs, hfew, -, rest, hdata⟩ := nextQuantum_strict data hquantum (.inr hpadded)
      have hrest : rest = [] := by
        have hlength := congrArg List.length hdata
        have hused : dpos + 4 = dpos + data.length := hused
        simp only [List.length_append, List.length_map, List.length_replicate] at hlength
        exact List.length_eq_zero_iff.mp (by omega)
      refine ⟨(quantumBytes qbuf).1, ?_⟩
      rw [encode_last hvs (by omega) hunused, hdata, hrest, List.append_nil]
    · rw [if_neg hlast] at hsuccess hused
      obtain ⟨rfl, hvs, -, hle, rest, hdata⟩ :=
        nextQuantum_strict data hquantum (.inl (Nat.not_lt.mp hlast))
      have hfour : qbuf.length = 4 := Nat.le_antisymm hle (Nat.not_lt.mp hlast)
      rw [hfour, Nat.sub_self, List.replicate_zero, List.append_nil] at hdata
      have hdrop : data.drop 4 = rest := by
        rw [hdata]
        exact List.drop_left' (by rw [List.length_map, hfour])
      have hlength : data.length = 4 + rest.length := by
        rw [hdata, List.length_append, List.length_map, hfour]
      rw [hdrop] at hsuccess hused
      obtain ⟨bs, hbs⟩ := ih rest _ _ (by omega) hsuccess (by rw [hused, hlength, Nat.add_assoc])
      match qbuf, hfour with
      | [x, y, z, u], _ =>
        refine ⟨(quantumBytes [x, y, z, u]).1 ++ bs, ?_⟩
        rw [encode_four (hvs x (by simp)) (hvs y (by simp)) (hvs z (by simp)) (hvs u (by simp)),
          hdata, hbs]
        rfl

end

/-- What is encoded is decoded, but where its pads are refused, and a strict decoder accepts the
encodings only. -/
theorem decode_inverts :
    (∀ (bs : List Byte) (flags : DecodeFlags),
      decodeFromArray (encodeFromArray bs) flags = ⟨true, bs, (encodeFromArray bs).length⟩ ↔
        ¬ Refuses flags bs.length) ∧
    ∀ data : List Byte, (decodeFromArray data DO_STRICT).success = true ↔
      ∃ bs, data = encodeFromArray bs := by
  have hdecode : ∀ (bs : List Byte) (flags : DecodeFlags), decodeFromArray (encodeFromArray bs) flags =
      let used := (encodeFromArray bs).length -
        if Refuses flags bs.length then 3 - bs.length % 3 else 0
      ⟨!(flags.term = .buffer && used ≠ (encodeFromArray bs).length), bs, used⟩ := by
    intro bs flags
    rw [decodeFromArray, decodeLoop_encode flags bs _ [] 0 le_rfl]
    simp
  have hinverts : ∀ (bs : List Byte) (flags : DecodeFlags), ¬ Refuses flags bs.length →
      decodeFromArray (encodeFromArray bs) flags = ⟨true, bs, (encodeFromArray bs).length⟩ := by
    intro bs flags hrefuses
    rw [hdecode, if_neg hrefuses]
    simp
  refine ⟨fun bs flags => ⟨fun h hrefuses => ?_, hinverts bs flags⟩, fun data => ⟨fun h => ?_, ?_⟩⟩
  · have hmod := hrefuses.2.2
    have hused := congrArg Decoded.dataUsed h
    rw [hdecode, if_pos hrefuses, length_encode] at hused
    dsimp only at hused
    omega
  · obtain ⟨hloop, hterm⟩ : (decodeLoop DO_STRICT data.length data [] 0).success = true ∧
        (decodeLoop DO_STRICT data.length data [] 0).dataUsed = data.length := by
      obtain ⟨hloop, hterm⟩ := (Bool.and_eq_true _ _).mp h
      refine ⟨hloop, of_not_not fun hne => ?_⟩
      rw [decide_eq_true hne] at hterm
      cases hterm
    exact strict_loop data.length data [] 0 le_rfl hloop (by rw [hterm, Nat.zero_add])
  · rintro ⟨bs, rfl⟩
    rw [hinverts bs DO_STRICT (fun h => absurd h.1 (by decide))]

/-- Padding that is disallowed, for one byte. -/
theorem not_decode_inverts :
    ¬ ∀ (bs : List Byte) (flags : DecodeFlags), flags.term = .buffer →
      decodeFromArray (encodeFromArray bs) flags = ⟨true, bs, (encodeFromArray bs).length⟩ := by
  intro h
  exact absurd (h [1] ⟨.strict, .no, .buffer⟩ rfl) (by decide)

end PerchWebrtc.Base.Base64
