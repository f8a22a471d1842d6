import PerchWebrtc.Base.HexEncode
import PerchWebrtc.Framework.Numerals
import PerchWebrtc.Framework.Transcribe

/-!
# Encoders of strings

The encoders and decoders of `stringencode.cc`: escape characters, URLs, HTML and XML. A read
outside the source or a write outside the buffer has no result.

* `Rounds`: the bodies of the loops;
* `escape`, `unescape`, `encode`, `decode`, `urlEncode`, `urlDecode`, `htmlEncode`, `htmlDecode`,
  `xmlEncode`, `xmlDecode`.
-/

namespace PerchWebrtc.Base

open Framework

/-- The bytes of a literal. -/
def text (chars : List Char) : List Byte := chars.map fun ch => BitVec.ofNat 8 ch.toNat

/-- The zero that ends a C string is found, too. -/
def strchr (chars : List Byte) (ch : Byte) : Prop := ch = 0 ∨ ch ∈ chars.takeWhile (· ≠ 0)

instance (chars : List Byte) (ch : Byte) : Decidable (strchr chars ch) :=
  inferInstanceAs (Decidable (_ ∨ _))

def URL_UNSAFE : Byte := 0x1
def XML_UNSAFE : Byte := 0x2
def HTML_UNSAFE : Byte := 0x2

def ASCII_CLASS : List Byte := [
  1, 1, 1, 1, 1, 1, 1, 1, 1, 1, 1, 1, 1, 1, 1, 1, 1, 1, 1, 1, 1, 1, 1, 1, 1, 1, 1, 1, 1, 1, 1, 1,
  1, 0, 3, 1, 1, 1, 3, 2, 0, 0, 0, 1, 1, 0, 0, 1, 0, 0, 0, 0, 0, 0, 0, 0, 0, 0, 1, 1, 3, 1, 3, 1,
  1, 0, 0, 0, 0, 0, 0, 0, 0, 0, 0, 0, 0, 0, 0, 0, 0, 0, 0, 0, 0, 0, 0, 0, 0, 0, 0, 1, 1, 1, 1, 0,
  1, 0, 0, 0, 0, 0, 0, 0, 0, 0, 0, 0, 0, 0, 0, 0, 0, 0, 0, 0, 0, 0, 0, 0, 0, 0, 0, 1, 1, 1, 0, 1]

/-- A character of a class. -/
def InClass (mask ch : Byte) : Prop := ch < 128 ∧ ASCII_CLASS.getD ch.toNat 0 &&& mask ≠ 0

instance (mask ch : Byte) : Decidable (InClass mask ch) := inferInstanceAs (Decidable (_ ∧ _))

/-! ## Reading the source -/

section Source

variable (source : List Byte)

/-- `(p < srclen) && (source[p] == ch)` -/
def charAt (p : ℕ) (ch : Byte) : Option Bool :=
  if p < source.length then (source[p]?).map fun b => decide (b = ch) else some false

def memcmp (p : ℕ) (chars : List Byte) : Option Bool :=
  if p + chars.length ≤ source.length then
    some (decide ((source.drop p).take chars.length = chars))
  else none

/-- The two hexadecimal digits that stand at a position, if they do. -/
def hexPair (p : ℕ) : Option (Option Byte) :=
  if p + 1 < source.length then do
    let c₁ ← source[p]?
    match hexDecode c₁ with
    | none => some none
    | some h₁ => do
      let c₂ ← source[p + 1]?
      some ((hexDecode c₂).map fun h₂ => h₁ <<< 4 ||| h₂)
  else some none

/-- The same behind an escape character. -/
def escapedPair (escape ch : Byte) (p : ℕ) : Option (Option Byte) :=
  if ch = escape then hexPair source p else some none

/-- `(p + n - 1 < srclen) && (memcmp(source + p, chars, n) == 0)` -/
def matchesAt (p : ℕ) (chars : List Byte) : Option Bool :=
  if p + (chars.length - 1) < source.length then memcmp source p chars else some false

/-- The first of the entities whose name stands at a position. -/
def namedAt (p : ℕ) : List (List Byte × Byte) → Option (Option (List Byte × Byte))
  | [] => some none
  | e :: es => do
    let found ← matchesAt source p e.1
    if found then some (some e) else namedAt p es

end Source

def isspace (ch : Byte) : Bool := ch = 0x20 ∨ 0x09 ≤ ch ∧ ch ≤ 0x0d

/-- The value of a digit, below the base. -/
def digitValue (base : ℕ) (ch : Byte) : Option ℕ :=
  ((hexDecode ch).map (·.toNat)).filter (· < base)

def isDigit (base : ℕ) (ch : Byte) : Bool := (digitValue base ch).isSome

/-- "0x" in front of a number in base 16. -/
def skipBase (base : ℕ) (chars : List Byte) : Option (List Byte) :=
  if base = 16 ∧ chars.head? = some 0x30 then do
    let x ← chars.tail.head?
    if x = 0x78 ∨ x = 0x58 then do
      let d ← chars.tail.tail.head?
      if isDigit 16 d then some chars.tail.tail else some chars
    else some chars
  else some chars

def ULONG_MAX : ℕ := 2 ^ 64 - 1

/-- The value of digits behind a sign or another character. -/
def number (base : ℕ) (sign : Byte) (digits : List Byte) : BitVec 64 :=
  let value := digits.foldl (fun v ch => v * base + (digitValue base ch).getD 0) 0
  if ULONG_MAX < value then BitVec.ofNat 64 ULONG_MAX
  else if sign = 0x2d then -BitVec.ofNat 64 value
  else BitVec.ofNat 64 value

/-- The number of a text and how many characters it has; there is none if the text ends before the
number does. -/
def strtoul (base : ℕ) (chars : List Byte) : Option (BitVec 64 × ℕ) := do
  let rest := chars.dropWhile isspace
  let sign ← rest.head?
  let rest ← skipBase base (if sign = 0x2b ∨ sign = 0x2d then rest.tail else rest)
  let digits := rest.takeWhile (isDigit base)
  let _ ← rest[digits.length]?
  if digits = [] then some (0, 0)
  else some (number base sign digits, chars.length - rest.length + digits.length)

/-! ## UTF-8 -/

/-- How many bytes of the `srclen` at a position a character has, zero if they are none, and its
value. -/
def utf8Decode (source : List Byte) (p srclen : ℕ) : Option (ℕ × BitVec 64) := do
  let s₀ ← source[p]?
  if s₀ &&& 0x80#8 = 0x00 then some (1, s₀.setWidth 64)
  else if srclen < 2 then some (0, 0)
  else do
    let s₁ ← source[p + 1]?
    if s₁ &&& 0xc0#8 ≠ 0x80 then some (0, 0)
    else
      let value16 := (s₁ &&& 0x3f#8).setWidth 64
      if s₀ &&& 0xe0#8 = 0xc0 then
        some (2, (s₀ &&& 0x1f#8).setWidth 64 <<< 6 ||| value16)
      else if srclen < 3 then some (0, 0)
      else do
        let s₂ ← source[p + 2]?
        if s₂ &&& 0xc0#8 ≠ 0x80 then some (0, 0)
        else
          let value16 := value16 <<< 6 ||| (s₂ &&& 0x3f#8).setWidth 64
          if s₀ &&& 0xf0#8 = 0xe0 then
            some (3, (s₀ &&& 0x0f#8).setWidth 64 <<< 12 ||| value16)
          else if srclen < 4 then some (0, 0)
          else do
            let s₃ ← source[p + 3]?
            if s₃ &&& 0xc0#8 ≠ 0x80 then some (0, 0)
            else
              let value16 := value16 <<< 6 ||| (s₃ &&& 0x3f#8).setWidth 64
              if s₀ &&& 0xf8#8 = 0xf0 then
                some (4, (s₀ &&& 0x07#8).setWidth 64 <<< 18 ||| value16)
              else some (0, 0)

/-- The bytes of a character, none if there is no room for them. -/
def utf8Encode (buflen : ℕ) (value : BitVec 64) : List Byte :=
  if value ≤ 0x7f ∧ buflen ≥ 1 then [value.setWidth 8]
  else if value ≤ 0x7ff ∧ buflen ≥ 2 then
    [0xc0#8 ||| (value >>> 6).setWidth 8, 0x80#8 ||| (value &&& 0x3f#64).setWidth 8]
  else if value ≤ 0xffff ∧ buflen ≥ 3 then
    [0xe0#8 ||| (value >>> 12).setWidth 8, 0x80#8 ||| ((value >>> 6) &&& 0x3f#64).setWidth 8,
      0x80#8 ||| (value &&& 0x3f#64).setWidth 8]
  else if value ≤ 0x1fffff ∧ buflen ≥ 4 then
    [0xf0#8 ||| (value >>> 18).setWidth 8, 0x80#8 ||| ((value >>> 12) &&& 0x3f#64).setWidth 8,
      0x80#8 ||| ((value >>> 6) &&& 0x3f#64).setWidth 8, 0x80#8 ||| (value &&& 0x3f#64).setWidth 8]
  else []

/-- `sprintfn` with "&#%lu;", cut to the size of its buffer. -/
def characterReference (size : ℕ) (val : BitVec 64) : List Byte :=
  (text ['&', '#'] ++ text (showNat val.toNat) ++ text [';']).take (size - 1)

/-! ## The loops -/

namespace Rounds

variable (source : List Byte) (buflen : ℕ)

def escape (illegal : List Byte) (escape : Byte) (s : Cursor) : Option (Cursor ⊕ Cursor) := do
  let ch ← source[s.srcpos]?
  let s := { s with srcpos := s.srcpos + 1 }
  if ch = escape ∨ strchr illegal ch then
    if s.bufpos + 2 ≥ buflen then some (.inl s)
    else (s.write buflen [escape, ch]).map .inr
  else (s.write buflen [ch]).map .inr

def unescape (escape : Byte) (s : Cursor) : Option (Cursor ⊕ Cursor) := do
  let ch ← source[s.srcpos]?
  let s := { s with srcpos := s.srcpos + 1 }
  if ch = escape ∧ s.srcpos < source.length then do
    let ch ← source[s.srcpos]?
    let s := { s with srcpos := s.srcpos + 1 }
    (s.write buflen [ch]).map .inr
  else (s.write buflen [ch]).map .inr

def encode (illegal : List Byte) (escape : Byte) (s : Cursor) : Option (Cursor ⊕ Cursor) := do
  let ch ← source[s.srcpos]?
  let s := { s with srcpos := s.srcpos + 1 }
  if ch ≠ escape ∧ ¬ strchr illegal ch then (s.write buflen [ch]).map .inr
  else if s.bufpos + 3 ≥ buflen then some (.inl s)
  else
    (s.write buflen [escape, hexEncode ((ch >>> 4) &&& 0xf#8), hexEncode (ch &&& 0xf#8)]).map .inr

def decode (escape : Byte) (s : Cursor) : Option (Cursor ⊕ Cursor) := do
  let ch ← source[s.srcpos]?
  let s := { s with srcpos := s.srcpos + 1 }
  let pair ← escapedPair source escape ch s.srcpos
  match pair with
  | some byte => (s.write buflen [byte]).map fun s => .inr { s with srcpos := s.srcpos + 2 }
  | none => (s.write buflen [ch]).map .inr

def urlEncode (s : Cursor) : Option (Cursor ⊕ Cursor) := do
  let ch ← source[s.srcpos]?
  let s := { s with srcpos := s.srcpos + 1 }
  if InClass URL_UNSAFE ch then
    if s.bufpos + 3 ≥ buflen then some (.inl s)
    else
      (s.write buflen [0x25, hexEncode ((ch >>> 4) &&& 0xf#8), hexEncode (ch &&& 0xf#8)]).map .inr
  else (s.write buflen [ch]).map .inr

def urlDecode (s : Cursor) : Option (Cursor ⊕ Cursor) := do
  let ch ← source[s.srcpos]?
  let s := { s with srcpos := s.srcpos + 1 }
  if ch = 0x2b then (s.write buflen [0x20]).map .inr
  else do
    let pair ← escapedPair source 0x25 ch s.srcpos
    match pair with
    | some byte => (s.write buflen [byte]).map fun s => .inr { s with srcpos := s.srcpos + 2 }
    | none => (s.write buflen [ch]).map .inr

/-- What stands for an unsafe character; the two encoders differ in the apostrophe. -/
def entity (apostrophe : List Byte) (ch : Byte) : List Byte :=
  if ch = 0x3c then text ['&', 'l', 't', ';']
  else if ch = 0x3e then text ['&', 'g', 't', ';']
  else if ch = 0x27 then apostrophe
  else if ch = 0x22 then text ['&', 'q', 'u', 'o', 't', ';']
  else if ch = 0x26 then text ['&', 'a', 'm', 'p', ';']
  else []

/-- An escape sequence is copied if there is room for it. -/
def copySequence (escseq : List Byte) (s : Cursor) : Option (Cursor ⊕ Cursor) :=
  if s.bufpos + escseq.length ≥ buflen then some (.inl s) else (s.write buflen escseq).map .inr

def htmlEncode (s : Cursor) : Option (Cursor ⊕ Cursor) := do
  let ch ← source[s.srcpos]?
  if ch < 128 then
    let s := { s with srcpos := s.srcpos + 1 }
    if InClass HTML_UNSAFE ch then
      copySequence buflen (entity (text ['&', '#', '3', '9', ';']) ch) s
    else (s.write buflen [ch]).map .inr
  else do
    let (vallen, val) ← utf8Decode source s.srcpos (source.length - s.srcpos)
    if vallen ≠ 0 then
      copySequence buflen (characterReference 11 val) { s with srcpos := s.srcpos + vallen }
    else
      copySequence buflen (characterReference 11 (ch.setWidth 64))
        { s with srcpos := s.srcpos + 1 }

def xmlEncode (s : Cursor) : Option (Cursor ⊕ Cursor) := do
  let ch ← source[s.srcpos]?
  let s := { s with srcpos := s.srcpos + 1 }
  if InClass XML_UNSAFE ch then
    copySequence buflen (entity (text ['&', 'a', 'p', 'o', 's', ';']) ch) s
  else (s.write buflen [ch]).map .inr

/-- The named entities in the order in which they are compared. -/
def named : List (List Byte × Byte) :=
  [(text ['l', 't', ';'], 0x3c), (text ['g', 't', ';'], 0x3e),
    (text ['a', 'p', 'o', 's', ';'], 0x27), (text ['q', 'u', 'o', 't', ';'], 0x22),
    (text ['a', 'm', 'p', ';'], 0x26)]

/-- The cursor stands at the '#' of a reference. -/
def reference (s : Cursor) : Option (Cursor ⊕ Cursor) := do
  let hex ← charAt source (s.srcpos + 1) 0x78
  let base := if hex then 16 else 10
  let s := if hex then { s with srcpos := s.srcpos + 1 } else s
  let (val, n) ← strtoul base (source.drop (s.srcpos + 1))
  let ends ← charAt source (s.srcpos + 1 + n) 0x3b
  if ends then
    let s := { s with srcpos := s.srcpos + 1 + n + 1 }
    let bytes := utf8Encode (buflen - s.bufpos) val
    if bytes = [] then some (.inl s) else (s.write buflen bytes).map .inr
  else some (.inl s)

def xmlDecode (s : Cursor) : Option (Cursor ⊕ Cursor) := do
  let ch ← source[s.srcpos]?
  let s := { s with srcpos := s.srcpos + 1 }
  if ch ≠ 0x26 then (s.write buflen [ch]).map .inr
  else do
    let found ← namedAt source s.srcpos named
    match found with
    | some (name, value) =>
      (s.write buflen [value]).map fun s => .inr { s with srcpos := s.srcpos + name.length }
    | none => do
      let hash ← charAt source s.srcpos 0x23
      if hash then reference source buflen s else some (.inl s)

end Rounds

/-! ## The functions -/

section

variable (buffer : Mem) (buflen : ℕ) (source : List Byte)

/-- Nothing is done for an empty buffer. -/
def transform (body : Round) : Option (Mem × ℕ) :=
  if buflen ≤ 0 then some (buffer, 0) else transcribe body source buflen buffer

def escape (illegal : List Byte) (escape : Byte) : Option (Mem × ℕ) :=
  transform buffer buflen source fun source buflen => Rounds.escape source buflen illegal escape

def unescape (escape : Byte) : Option (Mem × ℕ) :=
  transform buffer buflen source fun source buflen => Rounds.unescape source buflen escape

def encode (illegal : List Byte) (escape : Byte) : Option (Mem × ℕ) :=
  transform buffer buflen source fun source buflen => Rounds.encode source buflen illegal escape

def decode (escape : Byte) : Option (Mem × ℕ) :=
  transform buffer buflen source fun source buflen => Rounds.decode source buflen escape

def urlEncode : Option (Mem × ℕ) := transform buffer buflen source Rounds.urlEncode

def urlDecode : Option (Mem × ℕ) := transform buffer buflen source Rounds.urlDecode

def htmlEncode : Option (Mem × ℕ) := transform buffer buflen source Rounds.htmlEncode

def xmlEncode : Option (Mem × ℕ) := transform buffer buflen source Rounds.xmlEncode

def xmlDecode : Option (Mem × ℕ) := transform buffer buflen source Rounds.xmlDecode

def htmlDecode : Option (Mem × ℕ) := xmlDecode buffer buflen source

end

variable {buffer : Mem} {buflen : ℕ} {source : List Byte}

theorem transform_eq (h : 0 < buflen) (body : Round) :
    transform buffer buflen source body = transcribe body source buflen buffer :=
  if_neg (Nat.not_le.mpr h)

end PerchWebrtc.Base
