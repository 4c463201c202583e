import WorkflowAreas.Yaml.Cursor
import WorkflowAreas.Yaml.Problem

/-!
# Gaps in scalars

The parts of a plain or quoted scalar are joined over the white space between them. Within a line it is
kept. Across lines it is folded: a single line break becomes a space, and of several the first is
dropped. A Unicode separator is never dropped.
-/

namespace WorkflowAreas.Yaml

/-- The scalar styles of YAML. -/
inductive Style
  | plain
  | singleQuoted
  | doubleQuoted
  | literal
  | folded
deriving DecidableEq, Inhabited

/-- White space between two parts of a scalar. -/
inductive Gap
  /-- Blanks within a line. -/
  | inline (blanks : List Char)
  /-- A line break, which an escape may have taken away, and those after it. -/
  | folded (first : List Char) (more : List Char)

namespace Gap

/-- The gap between parts that nothing separates. -/
def none : Gap :=
  inline []

/-- Whether the gap goes over a line break. -/
def isFolded : Gap → Bool
  | inline _ => false
  | folded _ _ => true

/-- What the gap leaves in the scalar. -/
def text : Gap → List Char
  | inline blanks => blanks
  | folded first more => if first != ['\n'] then first ++ more else if more.isEmpty then [' '] else more

/-- The gap with one more character. -/
def push (ch : Char) : Gap → Gap
  | inline blanks => if isBreak ch then folded [ch] [] else inline (blanks ++ [ch])
  | folded first more => if isBreak ch then folded first (more ++ [ch]) else folded first more

/-- Reads a gap to its end. On a new line no tab may stand to the left of `column`. -/
def read (column : Nat) (gap : Gap) (c : Cursor) : Except Problem (Gap × Cursor) :=
  match _h : c.rest with
  | [] => .ok (gap, c)
  | ch :: _ =>
    if isBlank ch || isBreak ch then
      if gap.isFolded && c.column < column && ch == '\t' then .error .tabInIndentation
      else read column (gap.push ch) c.next
    else .ok (gap, c)
termination_by c.rest.length
decreasing_by
  simp only [Cursor.next, _h]
  split <;> simp

end Gap

end WorkflowAreas.Yaml
