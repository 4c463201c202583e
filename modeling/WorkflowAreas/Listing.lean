import WorkflowAreas.Area

/-!
# Listings of areas

The areas of a file as rows of text, or as an array in JSON with one field to a line. In rows that stand
below each other some texts have a fixed width.
-/

namespace WorkflowAreas

namespace Text

/-- Enough spaces to bring a text to a width. -/
def padding (width : Nat) (s : String) : String :=
  String.ofList (List.replicate (width - s.length) ' ')

/-- The text at the left of a column. -/
def alignLeft (width : Nat) (s : String) : String :=
  s ++ padding width s

/-- The text at the right of a column. -/
def alignRight (width : Nat) (s : String) : String :=
  padding width s ++ s

end Text

namespace Listing

/-- The row of an area. -/
def row (a : Area) : String :=
  Text.alignRight 5 (toString a.line) ++ "  " ++ a.name ++ " FOR " ++
    " ".intercalate a.header.workflows ++
    (if a.header.once then " [once]" else "") ++
    (if a.header.sorted then " [sorted]" else "") ++
    (match a.header.flag with
      | some flag => " [if " ++ flag ++ "]"
      | none => "") ++
    (if a.isTerminated then "" else " (unterminated)")

/-- The digit of a number below sixteen, in lower case. -/
def hexDigit (n : Nat) : Char :=
  if n < 10 then Char.ofNat ('0'.toNat + n) else Char.ofNat ('a'.toNat + (n - 10))

/-- A character within quotes. -/
def quotedChar (c : Char) : List Char :=
  match c with
  | '"' => ['\\', '"']
  | '\\' => ['\\', '\\']
  | '\x08' => ['\\', 'b']
  | '\t' => ['\\', 't']
  | '\n' => ['\\', 'n']
  | '\x0c' => ['\\', 'f']
  | '\r' => ['\\', 'r']
  | c =>
    if c.toNat < 0x20 then ['\\', 'u', '0', '0', hexDigit (c.toNat / 16), hexDigit (c.toNat % 16)]
    else [c]

/-- A text in quotes. -/
def quoted (s : String) : String :=
  String.ofList ('"' :: s.toList.flatMap quotedChar ++ ['"'])

/-- Values on lines of their own within brackets, each indented by two spaces more than the brackets. -/
def block (indent : String) (opening closing : String) (values : List String) : String :=
  if values.isEmpty then opening ++ closing
  else opening ++ "\n" ++ ",\n".intercalate (values.map fun v ↦ indent ++ "  " ++ v) ++ "\n" ++
    indent ++ closing

/-- The fields of an area with their values. -/
def fields (a : Area) : List (String × String) :=
  [("name", quoted a.name), ("line", toString a.line),
    ("workflows", block "    " "[" "]" (a.header.workflows.map quoted)),
    ("once", toString a.header.once), ("sorted", toString a.header.sorted)] ++
  (match a.header.flag with
    | some flag => [("flag", quoted flag)]
    | none => []) ++
  [("body_lines", toString a.body.length), ("terminated", toString a.isTerminated)]

/-- The areas in JSON. -/
def json (areas : List Area) : String :=
  block "" "[" "]" (areas.map fun a ↦
    block "  " "\x7b" "\x7d" ((fields a).map fun (name, value) ↦ quoted name ++ ": " ++ value))

end Listing

end WorkflowAreas
