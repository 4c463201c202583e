/-!
# Text documents

A document is the lines of a text together with its layout, that is, with what the lines alone do not
say: how lines are separated and whether a separator ends the text. A line holds no separator.

`Document.ofText` and `Document.toText` are the two directions. A carriage return belongs to a
separator only right before a line feed; elsewhere it is part of its line.
-/

namespace WorkflowAreas.Text

/-- How the lines of a text are put together. -/
structure Layout where
  /-- Lines are separated by carriage return and line feed, not by a line feed alone. -/
  crlf : Bool
  /-- The last line is followed by a separator. -/
  finalNewline : Bool
deriving DecidableEq, Inhabited

/-- Whether the first line feed stands right after a carriage return. -/
def startsWithCrlf : List Char → Bool
  | [] => false
  | '\n' :: _ => false
  | '\r' :: '\n' :: _ => true
  | _ :: cs => startsWithCrlf cs

/-- The lines of a text. The text after its last separator is a line only if it is not empty. -/
def splitLines : List Char → List (List Char)
  | [] => []
  | '\n' :: cs => [] :: splitLines cs
  | '\r' :: '\n' :: cs => [] :: splitLines cs
  | c :: cs =>
    match splitLines cs with
    | [] => [[c]]
    | line :: lines => (c :: line) :: lines

namespace Layout

/-- The layout of a text. Its first separator decides on the style. -/
def ofText (text : String) : Layout where
  crlf := startsWithCrlf text.toList
  finalNewline := text.toList.getLast? == some '\n'

/-- What stands between two lines. -/
def separator (layout : Layout) : String :=
  if layout.crlf then "\r\n" else "\n"

/-- The text of a list of lines. No lines make the empty text under every layout. -/
def join (layout : Layout) (lines : List String) : String :=
  let text := layout.separator.intercalate lines
  if layout.finalNewline && !lines.isEmpty then text ++ layout.separator else text

end Layout

/-- Lines with the layout that puts them together. -/
structure Document where
  lines : List String
  layout : Layout
deriving DecidableEq, Inhabited

namespace Document

/-- The document that a text shows. -/
def ofText (text : String) : Document where
  lines := (splitLines text.toList).map String.ofList
  layout := Layout.ofText text

/-- The text of a document. -/
def toText (d : Document) : String :=
  d.layout.join d.lines

end Document

end WorkflowAreas.Text
