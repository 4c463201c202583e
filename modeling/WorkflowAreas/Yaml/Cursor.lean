import WorkflowAreas.Yaml.Character

/-!
# Places in a YAML text

A cursor is the text that is still to be read, with the line and the column where it begins. A column
counts characters; how many bytes they take is counted beside it.
-/

namespace WorkflowAreas.Yaml

/-- The rest of a text and its place. Lines and columns are counted from zero. -/
structure Cursor where
  rest : List Char
  line : Nat
  column : Nat
  /-- How many bytes of the line come before. -/
  offset : Nat
deriving Inhabited

namespace Cursor

/-- The place where a text begins. -/
def start (text : List Char) : Cursor :=
  ⟨text, 0, 0, 0⟩

/-- The character at some distance, if the text goes on so far. -/
def peekAt (c : Cursor) (distance : Nat) : Option Char :=
  c.rest[distance]?

/-- The next character. -/
def peek (c : Cursor) : Option Char :=
  c.rest.head?

/-- The place after the next character. -/
def next (c : Cursor) : Cursor :=
  match c.rest with
  | [] => c
  | ch :: rest =>
    if isBreak ch then ⟨rest, c.line + 1, 0, 0⟩
    else ⟨rest, c.line, c.column + 1, c.offset + ch.utf8Size⟩

/-- The place some characters ahead. -/
def skip (c : Cursor) : Nat → Cursor
  | 0 => c
  | n + 1 => c.next.skip n

/-- The characters up to the first one without the property, and the place of that one. -/
def takeWhile (p : Char → Bool) (c : Cursor) : List Char × Cursor :=
  let taken := c.rest.takeWhile p
  (taken, c.skip taken.length)

/-- The place of the first character without the property. -/
def skipWhile (p : Char → Bool) (c : Cursor) : Cursor :=
  (c.takeWhile p).2

/-- Whether the next character is this one. -/
def atChar (c : Cursor) (ch : Char) : Bool :=
  c.peek == some ch

/-- Whether the text is at its end. -/
def atEnd (c : Cursor) : Bool :=
  c.rest.isEmpty

/-- Whether a line break is next. -/
def atBreak (c : Cursor) : Bool :=
  c.peek.any isBreak

/-- Whether a blank within a line is next. -/
def atBlank (c : Cursor) : Bool :=
  c.peek.any isBlank

/-- Whether a blank, a line break or the end is next. -/
def atGap (c : Cursor) : Bool :=
  isGap c.peek

/-- Whether the line begins here with a sign of three characters that stands alone. -/
def atSign (c : Cursor) (sign : String) : Bool :=
  c.column == 0 && c.rest.take 3 == sign.toList && isGap (c.peekAt 3)

/-- Whether the line begins here with a sign between documents. -/
def atDocumentSign (c : Cursor) : Bool :=
  c.atSign "---" || c.atSign "..."

/-- The place after a comment, if one is next. -/
def skipComment (c : Cursor) : Cursor :=
  if c.atChar '#' then c.skipWhile (!isBreak ·) else c

end Cursor

end WorkflowAreas.Yaml
