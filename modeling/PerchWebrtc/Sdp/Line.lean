import PerchWebrtc.Framework.Numerals

/-!
# Lines of a session description

`webrtcsdp.cc`: the first line of a message, its type and attribute, and the errors that name a
line. A string is the list of its characters; those behind its end are zero.

* `getFirstLine_append`, `getFirstLine_of_noNewLine`: the first line of a message that is one line,
  with or without its line break;
* `getValue_append`: the value behind an attribute and a colon.
-/

namespace PerchWebrtc.Sdp

abbrev Text := List Char

def kLinePrefixLength : Nat := 2
def kSdpDelimiterEqual : Char := '='
def kSdpDelimiterSpace : Char := ' '
def kSdpDelimiterColon : Char := ':'
def kNewLine : Char := '\n'
def kReturn : Char := '\r'
def kLineBreak : Text := [kReturn, kNewLine]
def kLineTypeAttributes : Char := 'a'

/-- The characters of `c_str()`. -/
def cStr (s : Text) : Text := s.takeWhile (· ≠ '\x00')

/-- `cline[i]`. -/
def charAt (s : Text) (i : Nat) : Char := s.getD i '\x00'

/-- The text in front of the first line break. -/
def untilNewLine (message : Text) : Option Text :=
  if kNewLine ∈ message then
    let line := message.takeWhile (· ≠ kNewLine)
    some (if line.getLast? = some kReturn then line.dropLast else line)
  else none

/-! ## Errors -/

structure SdpParseError where
  line : Text
  description : String
deriving DecidableEq, Repr

/-- `ParseFailed`. -/
def parseFailed (message : Text) (description : String) : SdpParseError :=
  ⟨(untilNewLine message).getD message, description⟩

def parseFailedExpectMinFieldNum (line : Text) (expectedMinFields : Nat) : SdpParseError :=
  parseFailed line s!"Expects at least {expectedMinFields} fields."

def parseFailedGetValue (line : Text) (attr : String) : SdpParseError :=
  parseFailed line s!"Failed to get the value of attribute: {attr}"

def parseFailedExpectLine (message : Text) (lineType : Char) (lineValue : String) :
    SdpParseError :=
  parseFailed message s!"Expect line: {lineType}={lineValue}"

/-! ## The first line -/

/-- `GetLine`, from the start of the message. -/
def getLine (message : Text) : Option Text :=
  (untilNewLine message).filter fun line =>
    charAt line 0 ≠ kSdpDelimiterSpace && charAt line 1 = kSdpDelimiterEqual
      && charAt line 2 ≠ kSdpDelimiterSpace

/-- `GetFirstLine`: the message itself, if it has no line. -/
def getFirstLine (message : Text) : Text := (getLine message).getD message

def isLineType (line : Text) (type : Char) : Bool :=
  kLinePrefixLength ≤ line.length && charAt line 0 = type && charAt line 1 = kSdpDelimiterEqual

def hasAttribute (line attr : Text) : Bool :=
  (line.drop kLinePrefixLength).take attr.length = attr

/-- `split`: delimiters that follow each other have an empty field between them. -/
def split (source : Text) (delimiter : Char) : List Text := source.splitOn delimiter

/-- `SplitByDelimiter`. -/
def splitByDelimiter (message : Text) (delimiter : Char) : Option (Text × Text) :=
  if delimiter ∈ message then
    some (message.takeWhile (· ≠ delimiter), (message.dropWhile (· ≠ delimiter)).tail)
  else none

/-- `GetValue`, of `<attribute>:<value>`. -/
def getValue (message : Text) (attr : String) : Except SdpParseError Text :=
  match splitByDelimiter message kSdpDelimiterColon with
  | none => .error (parseFailedGetValue message attr)
  | some (leftpart, value) =>
    if attr.toList.isSuffixOf leftpart then .ok value
    else .error (parseFailedGetValue message attr)

/-! ## Lemmas -/

section

variable {line : Text}

theorem untilNewLine_append (h : kNewLine ∉ line) :
    untilNewLine (line ++ kLineBreak) = some line := by
  have hall : ∀ c ∈ line, decide (c ≠ kNewLine) = true := fun c hc =>
    decide_eq_true fun heq => h (heq ▸ hc)
  have hline : (line ++ kLineBreak).takeWhile (· ≠ kNewLine) = line ++ [kReturn] := by
    rw [List.takeWhile_append_of_pos hall]
    rfl
  have hmem : kNewLine ∈ line ++ kLineBreak := List.mem_append_right _ (by decide)
  rw [untilNewLine, if_pos hmem]
  simp only [hline, List.getLast?_concat, if_true, List.dropLast_concat]

theorem untilNewLine_of_noNewLine (h : kNewLine ∉ line) : untilNewLine line = none := if_neg h

theorem getFirstLine_of_noNewLine (h : kNewLine ∉ line) : getFirstLine line = line := by
  rw [getFirstLine, getLine, untilNewLine_of_noNewLine h]
  rfl

/-- The line is of the form `<type>=<value>`, without blanks at the start of these. -/
def Formed (line : Text) : Prop :=
  charAt line 0 ≠ kSdpDelimiterSpace ∧ charAt line 1 = kSdpDelimiterEqual ∧
    charAt line 2 ≠ kSdpDelimiterSpace

theorem getFirstLine_append (h : kNewLine ∉ line) (hformed : Formed line) :
    getFirstLine (line ++ kLineBreak) = line := by
  obtain ⟨h0, h1, h2⟩ := hformed
  rw [getFirstLine, getLine, untilNewLine_append h, Option.filter_some, if_pos (by simp [h0, h1, h2])]
  rfl

theorem getValue_append {attr : String} (h : kSdpDelimiterColon ∉ attr.toList)
    (value : Text) :
    getValue (attr.toList ++ kSdpDelimiterColon :: value) attr = .ok value := by
  have hall : ∀ c ∈ attr.toList, decide (c ≠ kSdpDelimiterColon) = true := fun c hc =>
    decide_eq_true fun heq => h (heq ▸ hc)
  have hsplit : splitByDelimiter (attr.toList ++ kSdpDelimiterColon :: value)
      kSdpDelimiterColon = some (attr.toList, value) := by
    rw [splitByDelimiter, if_pos (List.mem_append_right _ List.mem_cons_self),
      List.takeWhile_append_of_pos hall, List.dropWhile_append_of_pos hall]
    simp
  rw [getValue, hsplit]
  exact if_pos (List.isSuffixOf_iff_suffix.mpr (List.suffix_refl _))

end

end PerchWebrtc.Sdp
