import WorkflowAreas.Yaml.Scalar.Gap
import WorkflowAreas.Yaml.Value.Number

/-!
# Written scalars

A text is written plain where that reads back as the same text, and quoted where it would read as
something else or cannot stand plain. A text of several lines is written as a literal scalar. Characters
that are not printable, and spaces that a style would lose, ask for double quotes.
-/

namespace WorkflowAreas.Yaml.Scalar

/-- Whether some two neighbours have these properties. -/
def hasPair (p q : Char → Bool) (cs : List Char) : Bool :=
  (cs.zip cs.tail).any fun (a, b) ↦ p a && q b

/-- Whether a plain scalar cannot begin like this. -/
def startsWithIndicator : List Char → Bool
  | [] => false
  | c :: cs =>
    "#,[]\x7b\x7d&*!|>'\"%@\x60".toList.contains c || (['?', ':', '-'].contains c && isGap cs.head?)

/-- Whether signs of structure stand in the text behind its first character. -/
def hasIndicator : List Char → Bool
  | [] => false
  | a :: cs =>
    (match cs with
      | [] => false
      | b :: rest => b == ':' && isGap rest.head? || b == '#' && isGap (some a)) || hasIndicator cs

/-- Whether the text begins like a line between documents. -/
def startsWithDocumentSign (cs : List Char) : Bool :=
  cs.take 3 == "---".toList || cs.take 3 == "...".toList

/-- Whether a character of the text has to be escaped. -/
def isSpecial (cs : List Char) : Bool :=
  !cs.all isPrintable || hasPair (· == ' ') isBreak cs

/-- Whether the text can stand plain in a block. -/
def plainAllowed (cs : List Char) : Bool :=
  !(isSpecial cs || cs.any isBreak || cs.head? == some ' ' || cs.getLast? == some ' ' ||
    startsWithDocumentSign cs || startsWithIndicator cs || hasIndicator cs)

/-- Whether the text can stand in single quotes. -/
def singleAllowed (cs : List Char) : Bool :=
  !(isSpecial cs || hasPair isBreak (· == ' ') cs)

/-- Whether the text can be a literal scalar. -/
def literalAllowed (cs : List Char) : Bool :=
  !(isSpecial cs || cs.getLast? == some ' ')

/-- Whether the text reads as something else when it is plain: nothing, a truth value or a number. -/
def isAmbiguous (cs : List Char) : Bool :=
  ["", "~", "null", "Null", "NULL", "true", "True", "TRUE", "false", "False", "FALSE"].contains
    (String.ofList cs) || Number.isNumeric cs

/-- The style in which a text is written. -/
def style (cs : List Char) : Style :=
  if cs.contains '\n' then
    if literalAllowed cs then .literal else .doubleQuoted
  else if !isAmbiguous cs && plainAllowed cs then .plain
  else if singleAllowed cs then .singleQuoted
  else .doubleQuoted

/-- Spaces. -/
def spaces (n : Nat) : List Char :=
  List.replicate n ' '

/-- The upper-case hexadecimal digits of a number, `width` of them. -/
def hexDigits (width n : Nat) : List Char :=
  let digits := (Nat.toDigits 16 n).map Char.toUpper
  List.replicate (width - digits.length) '0' ++ digits

/-- The escapes that have a letter or a sign of their own. -/
def shortEscapes : List (Char × Char) :=
  [('\x00', '0'), ('\x07', 'a'), ('\x08', 'b'), ('\t', 't'), ('\n', 'n'), ('\x0b', 'v'), ('\x0c', 'f'),
    ('\r', 'r'), ('\x1b', 'e'), ('"', '"'), ('\\', '\\'), ('\u0085', 'N'), ('\u00a0', '_'),
    ('\u2028', 'L'), ('\u2029', 'P')]

/-- The escape of a character. -/
def escape (c : Char) : List Char :=
  let n := c.toNat
  '\\' :: match shortEscapes.lookup c with
    | some sign => [sign]
    | none =>
      if n ≤ 0xff then 'x' :: hexDigits 2 n
      else if n ≤ 0xffff then 'u' :: hexDigits 4 n
      else 'U' :: hexDigits 8 n

/-- The text in double quotes. -/
def doubleQuoted (cs : List Char) : List Char :=
  let write (c : Char) := if isPrintable c && !isBreak c && c != '"' && c != '\\' then [c] else escape c
  '"' :: cs.flatMap write ++ ['"']

/-- Writes `cs` with `write`, and indents what follows a line break. The text stands behind a line break
if `atStart`. -/
def indented (write : Char → List Char) (indent : Nat) : Bool → List Char → List Char
  | _, [] => []
  | atStart, c :: cs =>
    if isBreak c then c :: indented write indent true cs
    else (if atStart then spaces indent else []) ++ write c ++ indented write indent false cs

/-- The text in single quotes. Each of its lines but the first is indented. -/
def singleQuoted (indent : Nat) (cs : List Char) : List Char :=
  let write (c : Char) := if c == '\'' then ['\'', '\''] else [c]
  '\'' :: indented write indent false cs ++
    (if cs.getLast?.any isBreak then spaces indent else []) ++ ['\'']

/-- The header of a literal scalar: the depth where the first line does not show it, and what becomes of
the line breaks at the end. -/
def literalHeader (cs : List Char) : List Char :=
  let depth := if cs.head?.any fun c ↦ c == ' ' || isBreak c then ['2'] else []
  let chomping :=
    match cs.reverse with
    | [] => ['-']
    | last :: rest =>
      if !isBreak last then ['-'] else if rest.head?.all isBreak then ['+'] else []
  '|' :: depth ++ chomping

/-- The text as a literal scalar. -/
def literal (indent : Nat) (cs : List Char) : List Char :=
  literalHeader cs ++ '\n' :: indented (fun c ↦ [c]) indent true cs

/-- The text as a scalar whose further lines are indented by `indent`. -/
def write (indent : Nat) (s : String) : List Char :=
  let cs := s.toList
  match style cs with
  | .plain => cs
  | .singleQuoted => singleQuoted indent cs
  | .doubleQuoted => doubleQuoted cs
  | .literal | .folded => literal indent cs

/-- Characters that break a line in a text as it is before its line breaks have one form. -/
def breaksLine (c : Char) : Bool :=
  isBreak c || c == '\r' || c == '\u0085'

/-- Whether the text can be a key that a colon alone tells apart: it is a single line and takes at most
128 bytes. -/
def isSimpleKey (s : String) : Bool :=
  !s.toList.any breaksLine && s.utf8ByteSize ≤ 128

end WorkflowAreas.Yaml.Scalar
