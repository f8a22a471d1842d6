import Mathlib

/-!
# Numbers in text

Integers as a stream writes them, and as one reads them: blanks, a sign and digits.

* `showInt`, `readInt`: the digits of an integer, and the integer at the start of a text;
* `readInt_showInt`: what is written is read again, whatever comes behind it but a digit;
* `streamInt_showInt`, `streamUInt_showNat`: the same for integers of 32 bits.
-/

namespace PerchWebrtc.Framework

/-- `isspace`. -/
def isSpace (c : Char) : Bool := [' ', '\t', '\n', '\x0b', '\x0c', '\r'].contains c

def showNat (n : Nat) : List Char := Nat.toDigits 10 n

def showInt : Int → List Char
  | .ofNat n => showNat n
  | .negSucc n => '-' :: showNat (n + 1)

/-- The number whose digits come first, and the text behind them. -/
def readNat (cs : List Char) : Option (Nat × List Char) :=
  match cs.takeWhile Char.isDigit with
  | [] => none
  | d :: ds => some (Nat.ofDigitChars 10 (d :: ds) 0, cs.dropWhile Char.isDigit)

/-- The sign in front of a number, and the text behind it. -/
def readSign : List Char → Int × List Char
  | '-' :: cs => (-1, cs)
  | '+' :: cs => (1, cs)
  | cs => (1, cs)

/-- The integer after the blanks. -/
def readInt (cs : List Char) : Option (Int × List Char) :=
  let (sign, cs) := readSign (cs.dropWhile isSpace)
  (readNat cs).map fun r => (sign * r.1, r.2)

section

variable {n : Nat} {rest : List Char}

theorem isDigit_of_mem_showNat {c : Char} (h : c ∈ showNat n) : c.isDigit = true :=
  Nat.isDigit_of_mem_toDigits (by decide) (by decide) h

theorem showNat_ne_nil (n : Nat) : showNat n ≠ [] := Nat.toDigits_ne_nil

/-- No digit follows. -/
def EndsNumber (rest : List Char) : Prop := ∀ c ∈ rest.head?, c.isDigit = false

theorem takeWhile_showNat (h : EndsNumber rest) :
    (showNat n ++ rest).takeWhile Char.isDigit = showNat n := by
  rw [List.takeWhile_append_of_pos fun c hc => isDigit_of_mem_showNat hc]
  cases rest with
  | nil => simp
  | cons c rest => simp [h c rfl]

theorem dropWhile_showNat (h : EndsNumber rest) :
    (showNat n ++ rest).dropWhile Char.isDigit = rest := by
  rw [List.dropWhile_append_of_pos fun c hc => isDigit_of_mem_showNat hc]
  cases rest with
  | nil => rfl
  | cons c rest => simp [h c rfl]

theorem readNat_showNat (h : EndsNumber rest) : readNat (showNat n ++ rest) = some (n, rest) := by
  have hne := showNat_ne_nil n
  have hvalue : Nat.ofDigitChars 10 (showNat n) 0 = n := Nat.ofDigitChars_ten_toDigits
  rw [readNat, takeWhile_showNat h, dropWhile_showNat h]
  generalize showNat n = ds at hne hvalue
  cases ds with
  | nil => exact absurd rfl hne
  | cons d ds => rw [← hvalue]

/-- A digit is neither a blank nor a sign. -/
theorem isDigit_apart {c : Char} (h : c.isDigit = true) :
    isSpace c = false ∧ c ≠ '-' ∧ c ≠ '+' := by
  have hne : ∀ d : Char, d.isDigit = false → c ≠ d := by
    rintro d hd rfl
    exact Bool.false_ne_true (hd.symm.trans h)
  refine ⟨?_, hne _ (by decide), hne _ (by decide)⟩
  simp only [isSpace, List.contains_cons, List.contains_nil, Bool.or_eq_false_iff,
    beq_eq_false_iff_ne]
  exact ⟨hne _ (by decide), hne _ (by decide), hne _ (by decide), hne _ (by decide),
    hne _ (by decide), hne _ (by decide), trivial⟩

theorem readSign_digit {c : Char} (h : c.isDigit = true) (cs : List Char) :
    readSign (c :: cs) = (1, c :: cs) := by
  obtain ⟨-, hminus, hplus⟩ := isDigit_apart h
  unfold readSign
  split
  · simp_all
  · simp_all
  · rfl

theorem readInt_digits {cs : List Char} (h : ∃ c cs', cs = c :: cs' ∧ c.isDigit = true) :
    readInt cs = (readNat cs).map fun r => ((r.1 : Int), r.2) := by
  obtain ⟨c, cs', rfl, hc⟩ := h
  have hdrop : (c :: cs').dropWhile isSpace = c :: cs' := by
    rw [List.dropWhile_cons_of_neg (by simp [(isDigit_apart hc).1])]
  simp only [readInt, hdrop, readSign_digit hc, Int.one_mul]

theorem showNat_append (n : Nat) (rest : List Char) :
    ∃ c cs', showNat n ++ rest = c :: cs' ∧ c.isDigit = true := by
  have hdigit := @isDigit_of_mem_showNat n
  have hne := showNat_ne_nil n
  generalize showNat n = ds at hdigit hne
  cases ds with
  | nil => exact absurd rfl hne
  | cons d ds => exact ⟨d, ds ++ rest, rfl, hdigit List.mem_cons_self⟩

theorem readInt_showNat (h : EndsNumber rest) :
    readInt (showNat n ++ rest) = some ((n : Int), rest) := by
  rw [readInt_digits (showNat_append n rest), readNat_showNat h]
  rfl

theorem readInt_showInt (n : Int) (h : EndsNumber rest) :
    readInt (showInt n ++ rest) = some (n, rest) := by
  cases n with
  | ofNat n => exact readInt_showNat h
  | negSucc n =>
    have hsign : readSign (('-' :: (showNat (n + 1) ++ rest)).dropWhile isSpace)
        = (-1, showNat (n + 1) ++ rest) := rfl
    rw [showInt, List.cons_append, readInt, hsign]
    simp only [readNat_showNat h, Option.map_some]
    rw [Int.negSucc_eq]
    simp

end

/-! ## Integers of 32 bits -/

def InInt (n : Int) : Prop := -2 ^ 31 ≤ n ∧ n < 2 ^ 31

/-- `is >> n` for an `int`, which was `old`: its value, and whether the stream does not fail.
Nothing is stored if the text has only blanks, and the nearest `int` if the number is none. -/
def streamInt (old : Int) (cs : List Char) : Int × Bool :=
  if cs.all isSpace then (old, false)
  else
    match readInt cs with
    | none => (0, false)
    | some (n, _) =>
      if n < -2 ^ 31 then (-2 ^ 31, false)
      else if 2 ^ 31 ≤ n then (2 ^ 31 - 1, false)
      else (n, true)

/-- `is >> n` for an `unsigned int`; a number with a sign is its residue. -/
def streamUInt (old : BitVec 32) (cs : List Char) : BitVec 32 × Bool :=
  if cs.all isSpace then (old, false)
  else
    match readInt cs with
    | none => (0, false)
    | some (n, _) =>
      if 2 ^ 32 ≤ n.natAbs then (BitVec.allOnes 32, false) else (BitVec.ofInt 32 n, true)

theorem streamInt_inInt {old n : Int} {cs : List Char} (h : streamInt old cs = (n, true)) :
    InInt n := by
  unfold streamInt at h
  split at h
  · exact absurd (congrArg Prod.snd h) Bool.false_ne_true
  · split at h
    · exact absurd (congrArg Prod.snd h) Bool.false_ne_true
    · split at h
      · exact absurd (congrArg Prod.snd h) Bool.false_ne_true
      · split at h
        · exact absurd (congrArg Prod.snd h) Bool.false_ne_true
        · rename_i hlow hhigh
          obtain rfl := congrArg Prod.fst h
          exact ⟨Int.not_lt.mp hlow, Int.not_le.mp hhigh⟩

theorem not_all_isSpace_of_digit {c : Char} {cs : List Char} (hc : c ∈ cs)
    (h : c.isDigit = true) : cs.all isSpace = false := by
  rw [List.all_eq_false]
  exact ⟨c, hc, by simp [(isDigit_apart h).1]⟩

theorem exists_digit_showInt (n : Int) : ∃ c ∈ showInt n, c.isDigit = true := by
  cases n with
  | ofNat n =>
    obtain ⟨c, hc⟩ := List.exists_mem_of_ne_nil _ (showNat_ne_nil n)
    exact ⟨c, hc, isDigit_of_mem_showNat hc⟩
  | negSucc n =>
    obtain ⟨c, hc⟩ := List.exists_mem_of_ne_nil _ (showNat_ne_nil (n + 1))
    exact ⟨c, List.mem_cons_of_mem _ hc, isDigit_of_mem_showNat hc⟩

theorem readInt_showInt_nil (n : Int) : readInt (showInt n) = some (n, []) := by
  have hread := readInt_showInt n (show EndsNumber [] from fun c hc => nomatch hc)
  rwa [List.append_nil] at hread

theorem streamInt_showInt (old : Int) {n : Int} (h : InInt n) :
    streamInt old (showInt n) = (n, true) := by
  obtain ⟨c, hc, hdigit⟩ := exists_digit_showInt n
  rw [streamInt, if_neg (Bool.eq_false_iff.mp (not_all_isSpace_of_digit hc hdigit)),
    readInt_showInt_nil]
  exact (if_neg (Int.not_lt.mpr h.1)).trans (if_neg (Int.not_le.mpr h.2))

theorem streamUInt_showNat (old n : BitVec 32) :
    streamUInt old (showNat n.toNat) = (n, true) := by
  have hread : readInt (showNat n.toNat) = some ((n.toNat : Int), []) := readInt_showInt_nil n.toNat
  have hblank : (showNat n.toNat).all isSpace = false := by
    obtain ⟨c, hc, hdigit⟩ := exists_digit_showInt n.toNat
    exact not_all_isSpace_of_digit hc hdigit
  rw [streamUInt, if_neg (Bool.eq_false_iff.mp hblank), hread]
  refine (if_neg (Nat.not_le.mpr n.isLt)).trans ?_
  rw [BitVec.ofInt_natCast, BitVec.ofNat_toNat, BitVec.setWidth_eq]

end PerchWebrtc.Framework
