import PerchWebrtc.Base.StringEncode

/-!
# Texts with entities

What `xml_decode` reads: characters, named entities and references to characters.

* `strtoul_append`, `exists_strtoul`: a number ends inside a text;
* `reference_eq`: a round at a reference;
* `Item`, `Item.rewrites`: what stands for a character, and that it is replaced.
-/

namespace PerchWebrtc.Base

open Framework

/-! ## Numbers -/

section Numbers

variable {p : Byte → Bool} {base : ℕ} {ch : Byte} {chars rest more : List Byte} {r : BitVec 64 × ℕ}

theorem mem_dropWhile (h : ch ∈ chars) (hp : p ch = false) : ch ∈ chars.dropWhile p := by
  rw [← List.takeWhile_append_dropWhile (p := p) (l := chars), List.mem_append] at h
  rcases h with h | h
  · exact absurd ((List.mem_takeWhile_imp h).symm.trans hp) (by decide)
  · exact h

theorem skipBase_nil : skipBase base [] = some [] := if_neg (by simp)

/-- Where no digit can follow a prefix. -/
theorem skipBase_of_ne {c : Byte} (h : ¬ (base = 16 ∧ c = 0x30)) (chars : List Byte) :
    skipBase base (c :: chars) = some (c :: chars) :=
  if_neg fun hc => h ⟨hc.1, Option.some.inj hc.2⟩

/-- A zero in base 16. -/
theorem skipBase_zero (x d : Byte) (chars : List Byte) :
    skipBase 16 (0x30 :: x :: d :: chars) =
      if (x = 0x78 ∨ x = 0x58) ∧ isDigit 16 d = true then some (d :: chars)
      else some (0x30 :: x :: d :: chars) := by
  refine (if_pos ⟨rfl, rfl⟩).trans ?_
  show (if x = 0x78 ∨ x = 0x58 then if isDigit 16 d = true then some (d :: chars) else _ else _) = _
  by_cases hx : x = 0x78 ∨ x = 0x58
  · by_cases hd : isDigit 16 d = true
    · rw [if_pos hx, if_pos hd, if_pos ⟨hx, hd⟩]
    · rw [if_pos hx, if_neg hd, if_neg (mt And.right hd)]
  · rw [if_neg hx, if_neg (mt And.left hx)]

/-- Another character behind the zero, at the end. -/
theorem skipBase_zero_single (x : Byte) :
    skipBase 16 [0x30, x] = if x = 0x78 ∨ x = 0x58 then none else some [0x30, x] :=
  (if_pos ⟨rfl, rfl⟩).trans rfl

theorem skipBase_zero_nil : skipBase 16 [0x30] = none := (if_pos ⟨rfl, rfl⟩).trans rfl

theorem skipBase_append (h : skipBase base chars = some rest) (hne : rest ≠ []) :
    skipBase base (chars ++ more) = some (rest ++ more) := by
  match chars with
  | [] =>
    rw [skipBase_nil] at h
    exact absurd (Option.some.inj h).symm hne
  | c :: chars =>
    by_cases hc : base = 16 ∧ c = 0x30
    · obtain ⟨rfl, rfl⟩ := hc
      match chars with
      | [] => cases skipBase_zero_nil.symm.trans h
      | [x] =>
        rw [skipBase_zero_single] at h
        split at h
        case isTrue => cases h
        case isFalse hx =>
          obtain rfl := Option.some.inj h
          cases more with
          | nil => exact (skipBase_zero_single x).trans (if_neg hx)
          | cons d more => exact (skipBase_zero x d more).trans (if_neg (mt And.left hx))
      | x :: d :: chars =>
        rw [skipBase_zero] at h
        refine (skipBase_zero x d (chars ++ more)).trans ?_
        split at h
        case isTrue hx =>
          obtain rfl := Option.some.inj h
          exact if_pos hx
        case isFalse hx =>
          obtain rfl := Option.some.inj h
          exact if_neg hx
    · rw [skipBase_of_ne hc] at h
      obtain rfl := Option.some.inj h
      exact skipBase_of_ne hc _

/-- The semicolon is not part of a prefix. -/
theorem exists_skipBase (base : ℕ) (h : 0x3b ∈ chars) :
    ∃ rest, skipBase base chars = some rest ∧ 0x3b ∈ rest := by
  match chars with
  | c :: chars =>
    by_cases hc : base = 16 ∧ c = 0x30
    · obtain ⟨rfl, rfl⟩ := hc
      match chars with
      | [] => exact absurd h (by decide)
      | [x] =>
        obtain rfl : 0x3b = x := by simpa using h
        exact ⟨_, rfl, h⟩
      | x :: d :: chars =>
        rw [skipBase_zero]
        split
        case isTrue hx =>
          refine ⟨_, rfl, ?_⟩
          have hne : (0x3b : Byte) ≠ x := by
            rintro rfl
            exact absurd hx.1 (by decide)
          exact (List.mem_cons.mp ((List.mem_cons.mp h).resolve_left (by decide))).resolve_left hne
        case isFalse => exact ⟨_, rfl, h⟩
    · exact ⟨_, skipBase_of_ne hc chars, h⟩

/-- What follows a sign. -/
def afterSign (sign : Byte) (chars : List Byte) : List Byte :=
  if sign = 0x2b ∨ sign = 0x2d then chars.tail else chars

/-- The result, behind the blanks. -/
theorem strtoul_eq {sign : Byte} {tail : List Byte} (h : chars.dropWhile isspace = sign :: tail) :
    strtoul base chars = (skipBase base (afterSign sign (sign :: tail))).bind fun rest =>
      (rest[(rest.takeWhile (isDigit base)).length]?).map fun _ =>
        if rest.takeWhile (isDigit base) = [] then (0, 0)
        else (number base sign (rest.takeWhile (isDigit base)),
          chars.length - rest.length + (rest.takeWhile (isDigit base)).length) := by
  simp only [strtoul, h, List.head?_cons, Option.bind_eq_bind, Option.bind_some, afterSign]
  congr 1
  funext rest
  cases rest[(rest.takeWhile (isDigit base)).length]? with
  | none => rfl
  | some ch => exact (apply_ite some _ _ _).symm

theorem strtoul_blanks (h : chars.dropWhile isspace = []) : strtoul base chars = none := by
  simp [strtoul, h]

/-- A number that ends inside a text is that of every longer text. -/
theorem strtoul_append (h : strtoul base chars = some r) :
    strtoul base (chars ++ more) = some r := by
  cases hblanks : chars.dropWhile isspace with
  | nil => cases (strtoul_blanks hblanks).symm.trans h
  | cons sign tail =>
    have hblanks' : (chars ++ more).dropWhile isspace = sign :: (tail ++ more) := by
      rw [List.dropWhile_append, hblanks]
      rfl
    rw [strtoul_eq hblanks, Option.bind_eq_some_iff] at h
    obtain ⟨rest, hrest, h⟩ := h
    obtain ⟨behind, hbehind, rfl⟩ := Option.map_eq_some_iff.mp h
    obtain ⟨hlength, -⟩ := List.getElem?_eq_some_iff.mp hbehind
    have hne : rest ≠ [] := List.ne_nil_of_length_pos (Nat.zero_lt_of_lt hlength)
    have hafter : afterSign sign (sign :: (tail ++ more)) =
        afterSign sign (sign :: tail) ++ more := by
      rw [afterSign, afterSign]
      split
      · rfl
      · rfl
    have hdigits : (rest ++ more).takeWhile (isDigit base) = rest.takeWhile (isDigit base) := by
      rw [List.takeWhile_append, if_neg (Nat.ne_of_lt hlength)]
    rw [strtoul_eq hblanks', hafter, skipBase_append hrest hne, Option.bind_some, hdigits,
      List.getElem?_append_left hlength, hbehind, Option.map_some, List.length_append,
      List.length_append, Nat.add_sub_add_right]

/-- A number ends before a semicolon. -/
theorem exists_strtoul (base : ℕ) (h : 0x3b ∈ chars) : ∃ r, strtoul base chars = some r := by
  have hblanks := mem_dropWhile (p := isspace) h (by decide)
  cases hrest : chars.dropWhile isspace with
  | nil =>
    rw [hrest] at hblanks
    exact absurd hblanks List.not_mem_nil
  | cons sign tail =>
    rw [hrest] at hblanks
    have hafter : 0x3b ∈ afterSign sign (sign :: tail) := by
      rw [afterSign]
      split
      case isTrue hsign =>
        refine (List.mem_cons.mp hblanks).resolve_left ?_
        rintro rfl
        exact absurd hsign (by decide)
      case isFalse => exact hblanks
    obtain ⟨rest, hskip, hmem⟩ := exists_skipBase base hafter
    have hdigit : isDigit base 0x3b = false := by
      rw [isDigit, digitValue, show hexDecode 0x3b = none from rfl]
      rfl
    have hlength : (rest.takeWhile (isDigit base)).length < rest.length := by
      have hpos := List.length_pos_of_mem (mem_dropWhile hmem hdigit)
      have hsplit := congrArg List.length
        (List.takeWhile_append_dropWhile (p := isDigit base) (l := rest))
      rw [List.length_append] at hsplit
      omega
    rw [strtoul_eq hrest, hskip, Option.bind_some, List.getElem?_eq_getElem hlength]
    exact ⟨_, rfl⟩

end Numbers

/-! ## References to characters -/

/-- The number behind "&#", and how many characters it has. -/
def referenceNumber (chars : List Byte) : Option (BitVec 64 × ℕ) :=
  if chars.head? = some 0x78 then (strtoul 16 chars.tail).map fun r => (r.1, r.2 + 1)
  else strtoul 10 chars

/-- How many bytes a character has. -/
def utf8Length (value : BitVec 64) : ℕ :=
  if value ≤ 0x7f then 1
  else if value ≤ 0x7ff then 2
  else if value ≤ 0xffff then 3
  else if value ≤ 0x1fffff then 4
  else 0

section References

variable {source chars more : List Byte} {r : BitVec 64 × ℕ} {buflen : ℕ} {s : Cursor}

theorem referenceNumber_append (h : referenceNumber chars = some r) (more : List Byte) :
    referenceNumber (chars ++ more) = some r := by
  cases chars with
  | nil => cases h
  | cons c chars =>
    rw [referenceNumber] at h
    rw [referenceNumber]
    split at h
    case isTrue hx =>
      obtain ⟨r, hr, rfl⟩ := Option.map_eq_some_iff.mp h
      exact (if_pos hx).trans (congrArg (Option.map _) (strtoul_append hr))
    case isFalse hx => exact (if_neg hx).trans (strtoul_append h)

theorem exists_referenceNumber (h : 0x3b ∈ chars) : ∃ r, referenceNumber chars = some r := by
  rw [referenceNumber]
  split
  case isTrue hx =>
    obtain ⟨c, chars, rfl⟩ := List.exists_cons_of_ne_nil (List.ne_nil_of_mem h)
    obtain rfl := Option.some.inj hx
    obtain ⟨r, hr⟩ := exists_strtoul 16 ((List.mem_cons.mp h).resolve_left (by decide))
    exact ⟨_, by rw [List.tail_cons, hr, Option.map_some]⟩
  case isFalse => exact exists_strtoul 10 h

theorem length_utf8Encode (value : BitVec 64) : (utf8Encode 4 value).length = utf8Length value := by
  rw [utf8Encode, utf8Length]
  by_cases h₁ : value ≤ 0x7f
  · rw [if_pos ⟨h₁, by decide⟩, if_pos h₁]
    rfl
  rw [if_neg (mt And.left h₁), if_neg h₁]
  by_cases h₂ : value ≤ 0x7ff
  · rw [if_pos ⟨h₂, by decide⟩, if_pos h₂]
    rfl
  rw [if_neg (mt And.left h₂), if_neg h₂]
  by_cases h₃ : value ≤ 0xffff
  · rw [if_pos ⟨h₃, by decide⟩, if_pos h₃]
    rfl
  rw [if_neg (mt And.left h₃), if_neg h₃]
  by_cases h₄ : value ≤ 0x1fffff
  · rw [if_pos ⟨h₄, by decide⟩, if_pos h₄]
    rfl
  · rw [if_neg (mt And.left h₄), if_neg h₄]
    rfl

/-- A character is written if there is room for it. -/
theorem utf8Encode_eq (value : BitVec 64) (buflen : ℕ) (hbuflen : 1 < buflen) :
    utf8Encode buflen value = if utf8Length value ≤ buflen then utf8Encode 4 value else [] := by
  unfold utf8Length utf8Encode
  by_cases h₁ : value ≤ 0x7f
  · rw [if_pos ⟨h₁, by omega⟩, if_pos h₁, if_pos (by omega), if_pos ⟨h₁, by decide⟩]
  simp only [h₁, false_and, if_false]
  by_cases h₂ : value ≤ 0x7ff
  · rw [if_pos ⟨h₂, by omega⟩, if_pos h₂, if_pos (by omega), if_pos ⟨h₂, by decide⟩]
  simp only [h₂, false_and, if_false]
  by_cases h₃ : value ≤ 0xffff
  · by_cases hroom : 3 ≤ buflen
    · rw [if_pos ⟨h₃, hroom⟩, if_pos h₃, if_pos hroom, if_pos ⟨h₃, by decide⟩]
    · rw [if_neg (fun h => hroom h.2), if_neg (by omega), if_pos h₃, if_neg hroom]
  simp only [h₃, false_and, if_false]
  by_cases h₄ : value ≤ 0x1fffff
  · by_cases hroom : 4 ≤ buflen
    · rw [if_pos ⟨h₄, hroom⟩, if_pos h₄, if_pos hroom, if_pos ⟨h₄, by decide⟩]
    · rw [if_neg (fun h => hroom h.2), if_pos h₄, if_neg hroom]
  · simp only [h₄, false_and, if_false, ite_self]

theorem charAt_eq (p : ℕ) (ch : Byte) :
    charAt source p ch = some (decide (source[p]? = some ch)) := by
  rw [charAt]
  split
  case isTrue h =>
    rw [List.getElem?_eq_getElem h, Option.map_some]
    congr 1
    exact decide_eq_decide.mpr Option.some_inj.symm
  case isFalse h =>
    rw [List.getElem?_eq_none (Nat.not_lt.mp h)]
    rfl

/-- A round at a reference: the number, and what stands behind it. -/
theorem reference_eq (hash : Byte) (chars : List Byte)
    (h : source.drop s.srcpos = hash :: chars) :
    Rounds.reference source buflen s = (referenceNumber chars).bind fun r =>
      if chars[r.2]? = some 0x3b then
        if utf8Encode (buflen - s.bufpos) r.1 = [] then
          some (.inl { s with srcpos := s.srcpos + 1 + r.2 + 1 })
        else (s.write buflen (utf8Encode (buflen - s.bufpos) r.1)).map fun t =>
          .inr { t with srcpos := s.srcpos + 1 + r.2 + 1 }
      else some (.inl
        { s with srcpos := if chars.head? = some 0x78 then s.srcpos + 1 else s.srcpos }) := by
  have hat : ∀ i, source[s.srcpos + (i + 1)]? = chars[i]? := by
    intro i
    rw [← List.getElem?_drop, h, List.getElem?_cons_succ]
  have hdrop : ∀ i, source.drop (s.srcpos + (i + 1)) = chars.drop i := by
    intro i
    rw [← List.drop_drop, h, List.drop_succ_cons]
  have hhead : source[s.srcpos + 1]? = chars.head? := (hat 0).trans List.head?_eq_getElem?.symm
  simp only [Rounds.reference, charAt_eq, hhead, Option.bind_eq_bind, Option.bind_some]
  rw [referenceNumber]
  by_cases hx : chars.head? = some 0x78
  · obtain ⟨more, rfl⟩ : ∃ more, chars = 0x78 :: more := by
      cases chars with
      | nil => cases hx
      | cons c chars =>
        obtain rfl := Option.some.inj hx
        exact ⟨chars, rfl⟩
    simp only [hx, decide_true, if_true, List.tail_cons]
    rw [hdrop 1, List.drop_succ_cons, List.drop_zero]
    cases strtoul 16 more with
    | none => rfl
    | some r =>
      have hpos : s.srcpos + 1 + 1 + r.2 = s.srcpos + (r.2 + 1 + 1) := by omega
      have hend : s.srcpos + 1 + (r.2 + 1) + 1 = s.srcpos + (r.2 + 1 + 1) + 1 := by omega
      simp only [Option.bind_some, Option.map_some, decide_eq_true_eq]
      rw [hpos, hend, hat, write_map_srcpos, Option.map_map]
      rfl
  · simp only [hx, decide_false, Bool.false_eq_true, if_false]
    rw [hdrop 0, List.drop_zero]
    cases strtoul 10 chars with
    | none => rfl
    | some r =>
      have hpos : s.srcpos + 1 + r.2 = s.srcpos + (r.2 + 1) := by omega
      simp only [Option.bind_some, decide_eq_true_eq]
      rw [hpos, hat, write_map_srcpos, Option.map_map]
      rfl

theorem matchesAt_eq (h : chars ≠ []) (p : ℕ) :
    matchesAt source p chars = some (decide (chars <+: source.drop p)) := by
  have hpos := List.length_pos_iff.mpr h
  rw [matchesAt]
  by_cases hroom : p + chars.length ≤ source.length
  · rw [if_pos (by omega), memcmp, if_pos hroom]
    congr 1
    exact decide_eq_decide.mpr (eq_comm.trans List.prefix_iff_eq_take.symm)
  · rw [if_neg (by omega), decide_eq_false]
    intro hstarts
    have hlength := hstarts.length_le
    rw [List.length_drop] at hlength
    omega

theorem namedAt_eq {es : List (List Byte × Byte)} (h : ∀ e ∈ es, e.1 ≠ []) (p : ℕ) :
    namedAt source p es = some (es.find? fun e => decide (e.1 <+: source.drop p)) := by
  induction es with
  | nil => rfl
  | cons e es ih =>
    rw [namedAt, matchesAt_eq (h e List.mem_cons_self), List.find?_cons,
      ih fun e he => h e (List.mem_cons_of_mem _ he), Option.bind_eq_bind, Option.bind_some]
    by_cases hstarts : e.1 <+: source.drop p
    · simp [hstarts]
    · simp [hstarts]

end References

/-! ## Texts that stand for characters -/

/-- A text that is replaced, and by which bytes. -/
inductive Item : List Byte → List Byte → Prop
  | plain {ch : Byte} (h : ch ≠ 0x26) : Item [ch] [ch]
  | named {e : List Byte × Byte} (h : e ∈ Rounds.named) : Item (0x26 :: e.1) [e.2]
  | reference {chars : List Byte} {value : BitVec 64}
      (h : referenceNumber (chars ++ [0x3b]) = some (value, chars.length))
      (hvalue : value ≤ 0x1fffff) : Item (0x26 :: 0x23 :: (chars ++ [0x3b])) (utf8Encode 4 value)

theorem utf8Length_ne_zero {value : BitVec 64} (h : value ≤ 0x1fffff) : utf8Length value ≠ 0 := by
  simp only [utf8Length, h, if_true]
  split
  · decide
  · split
    · decide
    · split
      · decide
      · decide

theorem utf8Length_eq_zero {value : BitVec 64} (h : ¬ value ≤ 0x1fffff) : utf8Length value = 0 := by
  have hle : ∀ bound : BitVec 64, bound ≤ 0x1fffff → ¬ value ≤ bound :=
    fun bound hbound hvalue => h (BitVec.le_trans hvalue hbound)
  rw [utf8Length, if_neg (hle _ (by decide)), if_neg (hle _ (by decide)),
    if_neg (hle _ (by decide)), if_neg h]

section Items

variable {text bytes source front rest : List Byte} {buflen : ℕ} {s : Cursor}

theorem named_ne_nil : ∀ e ∈ Rounds.named, e.1 ≠ [] := by decide

theorem getElem?_front (front : List Byte) (ch : Byte) (rest : List Byte) :
    (front ++ ch :: rest)[front.length]? = some ch := by simp

theorem drop_front (front : List Byte) (ch : Byte) (rest : List Byte) :
    (front ++ ch :: rest).drop (front.length + 1) = rest := by simp

theorem xmlDecode_plain {ch : Byte} (hs : s.srcpos = front.length) (h : ch ≠ 0x26) :
    Rounds.xmlDecode (front ++ ch :: rest) buflen s =
      (s.write buflen [ch]).map fun t => .inr { t with srcpos := front.length + 1 } := by
  rw [Rounds.xmlDecode, hs, getElem?_front]
  simp only [Option.bind_eq_bind, Option.bind_some, ne_eq, h, not_false_iff, if_true]
  rw [write_map_srcpos, Option.map_map]
  rfl

/-- Behind an ampersand, the entities are compared first. -/
theorem xmlDecode_ampersand (hs : s.srcpos = front.length) :
    Rounds.xmlDecode (front ++ 0x26 :: rest) buflen s =
      match Rounds.named.find? fun e => decide (e.1 <+: rest) with
      | some e => (s.write buflen [e.2]).map fun t =>
          .inr { t with srcpos := front.length + 1 + e.1.length }
      | none =>
        if rest.head? = some 0x23 then
          Rounds.reference (front ++ 0x26 :: rest) buflen { s with srcpos := front.length + 1 }
        else some (.inl { s with srcpos := front.length + 1 }) := by
  rw [Rounds.xmlDecode, hs, getElem?_front]
  simp only [Option.bind_eq_bind, Option.bind_some, ne_eq, not_true, if_false]
  rw [namedAt_eq named_ne_nil, drop_front, Option.bind_some]
  cases Rounds.named.find? fun e => decide (e.1 <+: rest) with
  | some e =>
    simp only [write_map_srcpos buflen [e.2] s (front.length + 1), Option.map_map]
    rfl
  | none =>
    have hhead : (front ++ 0x26 :: rest)[front.length + 1]? = rest.head? := by
      rw [← List.head?_drop, drop_front]
    simp only [charAt_eq, Option.bind_some, hhead, decide_eq_true_eq]

theorem find_named_hash (rest : List Byte) :
    Rounds.named.find? (fun e => decide (e.1 <+: 0x23 :: rest)) = none := by
  have hhead : ∀ e ∈ Rounds.named, e.1.head? ≠ some 0x23 := by decide
  refine List.find?_eq_none.mpr fun e he => ?_
  rw [decide_eq_true_eq]
  intro hstarts
  obtain ⟨c, name, hname⟩ := List.exists_cons_of_ne_nil (named_ne_nil e he)
  have hne := hhead e he
  rw [hname] at hstarts hne
  exact hne (congrArg some (List.cons_prefix_cons.mp hstarts).1)

theorem find_named {e : List Byte × Byte} (h : e ∈ Rounds.named) (rest : List Byte) :
    Rounds.named.find? (fun e' => decide (e'.1 <+: e.1 ++ rest)) = some e := by
  -- No name starts with another.
  have hapart : ∀ e ∈ Rounds.named, ∀ e' ∈ Rounds.named, e.1 <+: e'.1 ∨ e'.1 <+: e.1 → e' = e := by
    decide
  have hself : e.1 <+: e.1 ++ rest := List.prefix_append _ _
  have hsome : (Rounds.named.find? fun e' => decide (e'.1 <+: e.1 ++ rest)).isSome :=
    List.find?_isSome.mpr ⟨e, h, by simp⟩
  obtain ⟨e', he'⟩ := Option.isSome_iff_exists.mp hsome
  have hstarts : e'.1 <+: e.1 ++ rest := by simpa using List.find?_some he'
  rw [he', hapart e h e' (List.mem_of_find?_eq_some he')
    (List.prefix_or_prefix_of_prefix hself hstarts)]

theorem utf8Encode_ne_nil {value : BitVec 64} (h : value ≤ 0x1fffff) : utf8Encode 4 value ≠ [] := by
  intro hnil
  have hlength := length_utf8Encode value
  rw [hnil] at hlength
  exact utf8Length_ne_zero h hlength.symm

/-- A reference that ends, to a character for which there is room. -/
theorem xmlDecode_reference {chars : List Byte} {value : BitVec 64} {n : ℕ}
    (hs : s.srcpos = front.length) (hnumber : referenceNumber chars = some (value, n))
    (hends : chars[n]? = some 0x3b) (hroom : s.bufpos + 1 < buflen)
    (hvalue : value ≤ 0x1fffff) (hfits : s.bufpos + utf8Length value ≤ buflen) :
    Rounds.xmlDecode (front ++ 0x26 :: 0x23 :: chars) buflen s =
      (s.write buflen (utf8Encode 4 value)).map fun t =>
        .inr { t with srcpos := front.length + 1 + 1 + n + 1 } := by
  have hbytes : utf8Encode (buflen - s.bufpos) value = utf8Encode 4 value := by
    rw [utf8Encode_eq value _ (by omega), if_pos (by omega)]
  rw [xmlDecode_ampersand hs, find_named_hash]
  refine (if_pos rfl).trans ?_
  rw [reference_eq 0x23 chars (drop_front _ _ _), hnumber, Option.bind_some,
    if_pos hends, hbytes, if_neg (utf8Encode_ne_nil hvalue), write_map_srcpos, Option.map_map]
  rfl

/-- What stands for characters is replaced by them. -/
theorem Item.rewrites (h : Item text bytes) : Rewrites Rounds.xmlDecode text bytes := by
  cases h with
  | @plain ch h =>
    refine ⟨by simp, by simp, fun front rest buflen s hs hroom => ?_⟩
    rw [List.singleton_append, xmlDecode_plain hs h, List.length_append]
    rfl
  | @named e h =>
    refine ⟨by simp, by simp, fun front rest buflen s hs hroom => ?_⟩
    have hend : front.length + 1 + e.1.length = (front ++ 0x26 :: e.1).length := by
      rw [List.length_append, List.length_cons]
      omega
    rw [List.cons_append, xmlDecode_ampersand hs, find_named h, ← hend]
  | @reference chars value h hvalue =>
    refine ⟨by simp, utf8Encode_ne_nil hvalue, fun front rest buflen s hs hroom => ?_⟩
    rw [length_utf8Encode] at hroom
    have hpos := Nat.pos_of_ne_zero (utf8Length_ne_zero hvalue)
    have hend : front.length + 1 + 1 + chars.length + 1 =
        (front ++ 0x26 :: 0x23 :: (chars ++ [0x3b])).length := by
      simp only [List.length_append, List.length_cons, List.length_nil]
      omega
    rw [List.cons_append, List.cons_append,
      xmlDecode_reference hs (referenceNumber_append h rest) (by simp) (by omega) hvalue (by omega),
      ← hend]

end Items

end PerchWebrtc.Base
