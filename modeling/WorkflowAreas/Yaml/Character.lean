/-!
# Characters of YAML

The classes of character by which YAML text is read and written. Line breaks are brought to one form
before anything is read: carriage returns, alone or with a line feed, and next-line characters become
line feeds. The two Unicode separators for lines and paragraphs break lines too, but stay as they are.
-/

namespace WorkflowAreas.Yaml

/-- The Unicode separators that break a line and are kept in folded text. -/
def isSeparator (c : Char) : Bool :=
  c == '\u2028' || c == '\u2029'

/-- Characters that end a line, once line breaks have one form. -/
def isBreak (c : Char) : Bool :=
  c == '\n' || isSeparator c

/-- Blanks within a line. -/
def isBlank (c : Char) : Bool :=
  c == ' ' || c == '\t'

/-- Whether a blank, a line break or the end of the text stands here. -/
def isGap : Option Char → Bool
  | some c => isBlank c || isBreak c
  | none => true

/-- Characters of names: of anchors, directives and tag handles. -/
def isNameChar (c : Char) : Bool :=
  c.isAlphanum || c == '_' || c == '-'

/-- Characters that a YAML text may hold. -/
def isAllowed (c : Char) : Bool :=
  let n := c.toNat
  n == 0x09 || n == 0x0a || n == 0x0d || (0x20 ≤ n && n ≤ 0x7e) || n == 0x85 ||
    (0xa0 ≤ n && n ≤ 0xfffd) || 0x10000 ≤ n

/-- Characters that need no escape in written text. -/
def isPrintable (c : Char) : Bool :=
  let n := c.toNat
  n == 0x0a || (0x20 ≤ n && n ≤ 0x7e) || (0xa0 ≤ n && n ≤ 0xfffd && n != 0xfeff) || 0x10000 ≤ n

/-- The text with its line breaks in one form. -/
def normalizeBreaks : List Char → List Char
  | [] => []
  | '\r' :: '\n' :: cs => '\n' :: normalizeBreaks cs
  | c :: cs => (if c == '\r' || c == '\u0085' then '\n' else c) :: normalizeBreaks cs

/-- The value of a hexadecimal digit. -/
def hexDigit? (c : Char) : Option Nat :=
  if c.isDigit then some (c.toNat - '0'.toNat)
  else if 'a' ≤ c && c ≤ 'f' then some (c.toNat - 'a'.toNat + 10)
  else if 'A' ≤ c && c ≤ 'F' then some (c.toNat - 'A'.toNat + 10)
  else none

/-- The number that hexadecimal digits show. -/
def hexValue? (cs : List Char) : Option Nat :=
  cs.foldlM (fun n c ↦ (hexDigit? c).map (16 * n + ·)) 0

end WorkflowAreas.Yaml
