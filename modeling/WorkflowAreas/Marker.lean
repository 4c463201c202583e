import WorkflowAreas.Header
import WorkflowAreas.Run

/-!
# Marker lines

Three kinds of line structure a file: an opening line (`Header.parse?`), a closing line, which holds
the words `END WORKFLOW AREA` somewhere, and inside an area a line that separates its two branches,
the word `ELSE` with or without comment signs around it.

A line that both opens and closes counts as an opening line wherever the two are told apart.
-/

namespace WorkflowAreas.Marker

/-- Whether the line opens an area. -/
def isBegin (line : String) : Bool :=
  (Header.parse? line).isSome

/-- Whether the line holds the closing words. -/
def isEnd (line : String) : Bool :=
  Run.occurs "END WORKFLOW AREA".toList line.toList

/-- Whether the line opens or closes an area. -/
def isBoundary (line : String) : Bool :=
  isEnd line || isBegin line

/-- Comment openers. None that starts another one stands before it. -/
def openers : List String :=
  ["<!--", "\x7b/*", "//", "/*", "--", "#", ";", "*"]

/-- Comment closers. None that ends another one stands before it. -/
def closers : List String :=
  ["*/\x7d", "-->", "*/"]

/-- The trimmed text without the opener that it begins with, if any. -/
def withoutOpener (cs : List Char) : List Char :=
  match openers.findSome? (·.toList.isPrefixOf? cs) with
  | some rest => Text.trimStart rest
  | none => cs

/-- The trimmed text without the closer that it ends with, if any. -/
def withoutCloser (cs : List Char) : List Char :=
  match closers.findSome? (·.toList.isSuffixOf? cs) with
  | some rest => Text.trimEnd rest
  | none => cs

/-- Whether the line is the word `ELSE`, bare or as a comment. -/
def isElse (line : String) : Bool :=
  withoutCloser (withoutOpener (Text.trim line.toList)) == "ELSE".toList

end WorkflowAreas.Marker
