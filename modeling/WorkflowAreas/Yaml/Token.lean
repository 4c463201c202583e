import WorkflowAreas.Yaml.Scalar.Gap
import WorkflowAreas.Yaml.Tag

/-!
# Tokens of YAML

The signs and the scalars of a text, in the order in which its structure is read from them. Where a
block begins or ends, which only its indentation tells, there is a token for that.

Anchors, tags and directives say something about a node or about a document. Their tokens are read
here, each from its own text alone.
-/

namespace WorkflowAreas.Yaml

/-- The tokens of YAML. -/
inductive Token
  | version (major minor : Nat)
  /-- Gives a handle of tags the beginning that it stands for. -/
  | handle (name : String) (meaning : Tag)
  | documentStart
  | documentEnd
  | blockSequenceStart
  | blockMappingStart
  | blockEnd
  | flowSequenceStart
  | flowSequenceEnd
  | flowMappingStart
  | flowMappingEnd
  | blockEntry
  | flowEntry
  | key
  | value
  | alias (name : String)
  | anchor (name : String)
  | tag (handle : String) (suffix : Tag)
  | scalar (text : String) (style : Style)
deriving DecidableEq, Inhabited

namespace Property

/-! ### Anchors, tags and directives -/

/-- Reads the name of an anchor or of an alias, after its sign. -/
def readAnchorName (c : Cursor) : Except Problem (String × Cursor) :=
  let (name, c) := c.takeWhile isNameChar
  if name.isEmpty || !(c.atGap || c.peek.any "?:,]\x7d%@\x60".toList.contains) then .error .badAnchor
  else .ok (String.ofList name, c)

/-- Characters of tags besides those of names and the percent sign. -/
def tagSigns : List Char :=
  ";/?:@&=+$.!~*'()".toList

/-- How many bytes a character takes whose first byte is this one. -/
def byteCount? (first : Nat) : Option Nat :=
  if first < 0x80 then some 1
  else if 0xc0 ≤ first && first < 0xe0 then some 2
  else if 0xe0 ≤ first && first < 0xf0 then some 3
  else if 0xf0 ≤ first && first < 0xf8 then some 4
  else none

/-- The byte that a percent sign and two digits show. -/
def escapedByte? (cs : List Char) : Option UInt8 :=
  match cs with
  | '%' :: a :: b :: _ => (hexValue? [a, b]).map (·.toUInt8)
  | _ => none

/-- Whether a byte can follow the first one of a character. -/
def isContinuation (byte : UInt8) : Bool :=
  0x80 ≤ byte.toNat && byte.toNat < 0xc0

/-- The bytes that are escaped here, and the length of their escapes. As many bytes have to follow the
first one as it asks for, whether or not they show a character. -/
def escaped (cs : List Char) : Except Problem (List UInt8 × Nat) := do
  let some first := escapedByte? cs | throw .badTag
  let some count := byteCount? first.toNat | throw .badTag
  let some bytes := (List.range count).mapM fun i ↦ escapedByte? (cs.drop (3 * i)) | throw .badTag
  if !bytes.tail.all isContinuation then throw .badTag
  return (bytes, 3 * count)

/-- Reads the characters of a tag. Signs of flow collections count only if `withFlowSigns`. -/
def readTagText (withFlowSigns : Bool) :
    Nat → List UInt8 → Cursor → Except Problem (List UInt8 × Cursor)
  | 0, text, c => .ok (text, c)
  | fuel + 1, text, c =>
    match c.peek with
    | none => .ok (text, c)
    | some ch =>
      if ch == '%' then do
        let (more, length) ← escaped c.rest
        readTagText withFlowSigns fuel (text ++ more) (c.skip length)
      else if isNameChar ch || tagSigns.contains ch || withFlowSigns && [',', '[', ']'].contains ch then
        readTagText withFlowSigns fuel (text ++ String.utf8EncodeChar ch) c.next
      else .ok (text, c)

/-- Reads the text of a tag that begins with what a handle left over. The text may not be empty unless
there was such a handle. -/
def readSuffix (withFlowSigns : Bool) (head : List Char) (c : Cursor) :
    Except Problem (Tag × Cursor) := do
  let leftOver := Tag.ofString (String.ofList (head.drop 1))
  let (text, c) ← readTagText withFlowSigns (c.rest.length + 1) leftOver c
  if text.isEmpty && head.isEmpty then throw .badTag
  return (Tag.untilZero text, c)

/-- Reads a handle of tags. A directive needs one with both exclamation marks, or the lone one. -/
def readHandle (inDirective : Bool) (c : Cursor) : Except Problem (List Char × Cursor) := do
  if !c.atChar '!' then throw .badTag
  let (name, c) := c.next.takeWhile isNameChar
  if c.atChar '!' then return ('!' :: name ++ ['!'], c.next)
  if inDirective && !name.isEmpty then throw .badTag
  return ('!' :: name, c)

/-- Reads a tag from its exclamation mark on. -/
def readTag (inFlow : Bool) (c : Cursor) : Except Problem (Token × Cursor) := do
  let (token, c) ←
    if c.peekAt 1 == some '<' then do
      let (text, c) ← readSuffix true [] (c.skip 2)
      if !c.atChar '>' then throw .badTag
      pure (Token.tag "" text, c.next)
    else do
      let (handle, c) ← readHandle false c
      if handle.length ≥ 2 && handle.getLast? == some '!' then
        let (suffix, c) ← readSuffix false [] c
        pure (Token.tag (String.ofList handle) suffix, c)
      else
        let (suffix, c) ← readSuffix false handle c
        pure (if suffix.isEmpty then Token.tag "" (Tag.ofString "!") else Token.tag "!" suffix, c)
  if c.atGap || inFlow && c.atChar ',' then return (token, c)
  throw .badTag

/-- Reads a number of at most nine digits. -/
def readNumber (c : Cursor) : Except Problem (Nat × Cursor) :=
  let (digits, c) := c.takeWhile Char.isDigit
  if digits.isEmpty || digits.length > 9 then .error .badDirective
  else .ok (digits.foldl (fun n d ↦ 10 * n + (d.toNat - '0'.toNat)) 0, c)

/-- Reads the version that a directive asks for. -/
def readVersion (c : Cursor) : Except Problem (Token × Cursor) := do
  let (major, c) ← readNumber (c.skipWhile isBlank)
  if !c.atChar '.' then throw .badDirective
  let (minor, c) ← readNumber c.next
  return (.version major minor, c)

/-- Reads the handle that a directive declares, and its meaning. -/
def readHandleMeaning (c : Cursor) : Except Problem (Token × Cursor) := do
  let (handle, c) ← readHandle true (c.skipWhile isBlank)
  if !c.atBlank then throw .badDirective
  let (meaning, c) ← readSuffix true [] (c.skipWhile isBlank)
  if !c.atGap then throw .badDirective
  return (.handle (String.ofList handle) meaning, c)

/-- Reads a directive from its percent sign on, and the rest of its line. -/
def readDirective (c : Cursor) : Except Problem (Token × Cursor) := do
  let (name, c) := c.next.takeWhile isNameChar
  if !c.atGap then throw .badDirective
  let (token, c) ←
    if name == "YAML".toList then readVersion c
    else if name == "TAG".toList then readHandleMeaning c
    else throw .badDirective
  let c := (c.skipWhile isBlank).skipComment
  if c.atEnd || c.atBreak then return (token, c.next)
  throw .badDirective

end Property

end WorkflowAreas.Yaml
