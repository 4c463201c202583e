import WorkflowAreas.Yaml.Scalar.Gap

/-!
# Block scalars

A block scalar is a header and the lines after it that are indented enough. A literal scalar keeps its
line breaks; a folded one joins lines with a space where neither is indented further. The header says
how deep the lines are indented, else the first line that is not empty does, and what becomes of the
line breaks at the end.
-/

namespace WorkflowAreas.Yaml.Block

/-- What becomes of the line breaks at the end. -/
inductive Chomping
  /-- The first is kept. -/
  | clip
  /-- None is kept. -/
  | strip
  /-- All are kept. -/
  | keep
deriving DecidableEq, Inhabited

/-- The header after its sign. -/
structure Header where
  chomping : Chomping
  /-- How much deeper than the block around it the scalar is indented, if the header says so. -/
  increment : Option Nat

/-- The chomping that a sign asks for. -/
def chomping? : Option Char → Option Chomping
  | some '+' => some .keep
  | some '-' => some .strip
  | _ => none

/-- The indentation that a digit asks for. Zero is refused. -/
def increment? (ch : Option Char) : Except Problem (Option Nat) :=
  match ch with
  | some d =>
    if d == '0' then .error .badBlockHeader
    else if d.isDigit then .ok (some (d.toNat - '0'.toNat))
    else .ok none
  | none => .ok none

/-- Reads the header: the two signs in either order, and a comment. -/
def readHeader (c : Cursor) : Except Problem (Header × Cursor) := do
  let (header, c) ←
    match chomping? c.peek with
    | some chomping => do
      let increment ← increment? c.next.peek
      pure (Header.mk chomping increment, c.skip (if increment.isSome then 2 else 1))
    | none => do
      match ← increment? c.peek with
      | some increment =>
        match chomping? c.next.peek with
        | some chomping => pure (Header.mk chomping (some increment), c.skip 2)
        | none => pure (Header.mk .clip (some increment), c.next)
      | none => pure (Header.mk .clip none, c)
  let c := (c.skipWhile isBlank).skipComment
  if c.atEnd then return (header, c)
  if c.atBreak then return (header, c.next)
  throw .badBlockHeader

/-- Empty lines before a line of the scalar. -/
structure EmptyLines where
  breaks : List Char
  /-- The deepest indentation among them and the line after them. -/
  deepest : Nat
  after : Cursor

/-- Reads empty lines. Where the indentation is known, spaces beyond it are not read; no tab may stand
within it. -/
def readEmptyLines (indent : Option Nat) :
    Nat → List Char → Nat → Cursor → Except Problem EmptyLines
  | 0, breaks, deepest, c => .ok ⟨breaks, deepest, c⟩
  | fuel + 1, breaks, deepest, c =>
    let spaces := (c.rest.takeWhile (· == ' ')).length
    let c := c.skip (match indent with
      | some n => min spaces (n - c.column)
      | none => spaces)
    let deepest := max deepest c.column
    if c.atChar '\t' && indent.all (c.column < ·) then .error .tabInIndentation
    else if c.atBreak then readEmptyLines indent fuel (breaks ++ c.rest.take 1) deepest c.next
    else .ok ⟨breaks, deepest, c⟩

/-- What stands between two lines of the scalar. -/
def join (literal : Bool) (lineBreak breaks : List Char) (indented : Bool) : List Char :=
  if !literal && lineBreak == ['\n'] && !indented then
    if breaks.isEmpty then [' '] else breaks
  else lineBreak ++ breaks

/-- Reads lines. `lineBreak` ended the line before, which began with a blank if `wasIndented`, and
`breaks` are the empty lines since. -/
def readLines (literal : Bool) (indent : Nat) :
    Nat → List Char → List Char → Bool → List Char → Cursor →
      Except Problem (List Char × List Char × List Char × Cursor)
  | 0, text, lineBreak, _, breaks, c => .ok (text, lineBreak, breaks, c)
  | fuel + 1, text, lineBreak, wasIndented, breaks, c => do
    if c.column ≠ indent || c.atEnd then return (text, lineBreak, breaks, c)
    let isIndented := c.atBlank
    let joint := join literal lineBreak breaks (wasIndented || isIndented)
    let (line, c) := c.takeWhile (!isBreak ·)
    let lineBreak := c.rest.take 1
    let empty ← readEmptyLines (some indent) (c.rest.length + 1) [] 0 c.next
    readLines literal indent fuel (text ++ joint ++ line) lineBreak isIndented empty.breaks empty.after

/-- Reads a block scalar after its sign. The block around it is indented by `level - 1`; at level zero
there is none. -/
def read (literal : Bool) (level : Nat) (c : Cursor) : Except Problem (List Char × Cursor) := do
  let (header, c) ← readHeader c
  let limit := c.rest.length + 1
  let declared := header.increment.map (level - 1 + ·)
  let empty ← readEmptyLines declared limit [] 0 c
  let indent := declared.getD (max empty.deepest (max level 1))
  let (text, lineBreak, breaks, c) ←
    readLines literal indent limit [] [] false empty.breaks empty.after
  return (match header.chomping with
    | .strip => text
    | .clip => text ++ lineBreak
    | .keep => text ++ lineBreak ++ breaks, c)

end WorkflowAreas.Yaml.Block
