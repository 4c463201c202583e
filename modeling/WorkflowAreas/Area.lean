import WorkflowAreas.Marker

/-!
# Workflow areas

An area is an opening line, the body that follows it up to the next opening or closing line, and that
closing line. Areas do not nest: where another area opens first, or the file ends, the area has no
closing line. A closing line outside every area means nothing.

The areas of a file are found in one pass over its lines.
-/

namespace WorkflowAreas

/-- A workflow area of a file. -/
structure Area where
  header : Header
  /-- The lines between the markers, `ELSE` lines among them. -/
  body : List String
  /-- The closing line, if the area has one. -/
  endLine : Option String
  /-- The number of the opening line, counted from one. -/
  line : Nat
deriving DecidableEq, Inhabited

namespace Area

/-- Whether the area has a closing line. -/
def isTerminated (a : Area) : Bool :=
  a.endLine.isSome

/-- The name in the opening line. -/
def name (a : Area) : String :=
  a.header.name

/-- What tells the area apart from others: the key of its header. -/
def key (a : Area) : String :=
  a.header.key

end Area

/-- How far a pass over the lines of a file has come: the areas that are done, and the area that is open. -/
structure Scan where
  closed : List Area
  current : Option Area

namespace Scan

/-- The areas so far, where the area that is open stays without a closing line. -/
def areas (s : Scan) : List Area :=
  s.closed ++ s.current.toList

/-- Takes in the line with number `n`. -/
def step (s : Scan) (n : Nat) (l : String) : Scan :=
  match Header.parse? l with
  -- areas do not nest, so one that is open gets no closing line any more
  | some header => ⟨s.areas, some { header, body := [], endLine := none, line := n }⟩
  | none =>
    if Marker.isEnd l then
      ⟨s.closed ++ (s.current.map fun a ↦ { a with endLine := some l }).toList, none⟩
    else ⟨s.closed, s.current.map fun a ↦ { a with body := a.body ++ [l] }⟩

/-- Takes in lines that are numbered from `n` on. -/
def run (s : Scan) (n : Nat) : List String → Scan
  | [] => s
  | l :: ls => (s.step n l).run (n + 1) ls

end Scan

/-- The areas of a file, in order. -/
def Area.extract (lines : List String) : List Area :=
  (Scan.run ⟨[], none⟩ 1 lines).areas

end WorkflowAreas
