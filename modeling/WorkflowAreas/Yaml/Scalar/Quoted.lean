import WorkflowAreas.Yaml.Scalar.Gap

/-!
# Quoted scalars

Between single quotes only the quote itself is special: two of them stand for one. Between double
quotes a backslash begins an escape, and takes away a line break that follows it.
-/

namespace WorkflowAreas.Yaml.Quoted

/-- The escapes of a single character. -/
def simpleEscape? : Char → Option Char
  | '0' => some '\x00'
  | 'a' => some '\x07'
  | 'b' => some '\x08'
  | 't' => some '\t'
  | '\t' => some '\t'
  | 'n' => some '\n'
  | 'v' => some '\x0b'
  | 'f' => some '\x0c'
  | 'r' => some '\r'
  | 'e' => some '\x1b'
  | ' ' => some ' '
  | '"' => some '"'
  | '/' => some '/'
  | '\\' => some '\\'
  | 'N' => some '\u0085'
  | '_' => some '\u00a0'
  | 'L' => some '\u2028'
  | 'P' => some '\u2029'
  | _ => none

/-- How many hexadecimal digits an escape takes. -/
def escapeWidth? : Char → Option Nat
  | 'x' => some 2
  | 'u' => some 4
  | 'U' => some 8
  | _ => none

/-- The character of an escape after its backslash, and the length of the escape. -/
def escape (cs : List Char) : Except Problem (Char × Nat) :=
  match cs with
  | [] => .error .badEscape
  | code :: digits =>
    match simpleEscape? code, escapeWidth? code with
    | some ch, _ => .ok (ch, 1)
    | none, some width =>
      let digits := digits.take width
      match hexValue? digits with
      | some n => if digits.length = width ∧ n.isValidChar then .ok (Char.ofNat n, width + 1)
        else .error .badEscape
      | none => .error .badEscape
    | none, none => .error .badEscape

/-- A part of a scalar between gaps. -/
structure Part where
  text : List Char
  /-- An escaped line break ended the part. -/
  joined : Bool
  after : Cursor

/-- Reads the rest of a part between single quotes. -/
def singlePart : Nat → List Char → Cursor → Part
  | 0, text, c => ⟨text, false, c⟩
  | fuel + 1, text, c =>
    if c.atGap then ⟨text, false, c⟩
    else if c.atChar '\'' then
      if c.peekAt 1 == some '\'' then singlePart fuel (text ++ ['\'']) (c.skip 2) else ⟨text, false, c⟩
    else singlePart fuel (text ++ c.rest.take 1) c.next

/-- Reads the rest of a part between double quotes. -/
def doublePart : Nat → List Char → Cursor → Except Problem Part
  | 0, text, c => .ok ⟨text, false, c⟩
  | fuel + 1, text, c =>
    if c.atGap || c.atChar '"' then .ok ⟨text, false, c⟩
    else if c.atChar '\\' then
      if (c.peekAt 1).any isBreak then .ok ⟨text, true, c.skip 2⟩
      else do
        let (ch, length) ← escape (c.rest.drop 1)
        doublePart fuel (text ++ [ch]) (c.skip (length + 1))
    else doublePart fuel (text ++ c.rest.take 1) c.next

/-- Reads parts and the gaps between them up to the closing quote. -/
def readParts (double : Bool) : Nat → List Char → Cursor → Except Problem (List Char × Cursor)
  | 0, _, _ => .error .endInQuotes
  | fuel + 1, text, c => do
    if c.atDocumentSign then throw .markerInQuotes
    if c.atEnd then throw .endInQuotes
    let limit := c.rest.length + 1
    let part ← if double then doublePart limit [] c else pure (singlePart limit [] c)
    if part.after.atChar (if double then '"' else '\'') then
      return (text ++ part.text, part.after.next)
    let (gap, c) ← (if part.joined then Gap.folded [] [] else Gap.none).read 0 part.after
    readParts double fuel (text ++ part.text ++ gap.text) c

/-- Reads a quoted scalar from its opening quote on. -/
def read (double : Bool) (c : Cursor) : Except Problem (List Char × Cursor) :=
  readParts double (c.rest.length + 1) [] c.next

end WorkflowAreas.Yaml.Quoted
