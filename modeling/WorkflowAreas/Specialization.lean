import WorkflowAreas.Area
import WorkflowAreas.Branch

/-!
# First rendering of a template

A file that does not exist yet is rendered from its template for one workflow. An area for other
workflows keeps its markers and has an empty line for each line of its body. An area for this workflow
stays as it is, unless it is marked `ONCE` or has a flag: then its branch is chosen at once, and a
`ONCE` area loses its markers too. Such an area without a closing line is left as it stands.
-/

namespace WorkflowAreas.Specialization

/-- Where in a template a line stands. -/
inductive Place
  | outside
  /-- In an area for other workflows. -/
  | excluded
  /-- In an area that is copied as it stands. -/
  | copied
  /-- In an area whose branch is chosen at its closing line. The body so far is kept back. -/
  | held (header : Header) (body : List String)
deriving DecidableEq

/-- Whether the area waits for its closing line before anything of it is written. -/
def holds (header : Header) : Bool :=
  header.once || header.isConditional

/-- The lines of an area that was kept back and never closed. -/
def Place.unfinished : Place → List String
  | held header body => header.beginLine :: body
  | _ => []

variable (workflow : String) (flags : Flags)

/-- The lines written at an opening line, and the place after it. -/
def enter (header : Header) : List String × Place :=
  if !header.appliesTo workflow then ([header.beginLine], .excluded)
  else if holds header then ([], .held header [])
  else ([header.beginLine], .copied)

/-- The lines written at a closing line. -/
def close (place : Place) (line : String) : List String :=
  match place with
  | .held header body =>
    let chosen := Branch.choose body header.flag flags
    if header.once then chosen else header.beginLine :: chosen ++ [line]
  | _ => [line]

/-- The lines written at any other line, and the place after it. -/
def pass (place : Place) (line : String) : List String × Place :=
  match place with
  | .held header body => ([], .held header (body ++ [line]))
  | .excluded => ([""], .excluded)
  | place => ([line], place)

/-- Renders the rest of a template from a place in it. -/
def renderFrom (place : Place) : List String → List String
  | [] => place.unfinished
  | line :: rest =>
    match Header.parse? line with
    | some header =>
      let (written, next) := enter workflow header
      place.unfinished ++ written ++ renderFrom next rest
    | none =>
      if Marker.isEnd line then close flags place line ++ renderFrom .outside rest
      else
        let (written, next) := pass place line
        written ++ renderFrom next rest

/-- Renders a template for a workflow. -/
def render (template : List String) : List String :=
  renderFrom workflow flags .outside template

/-- The areas of a template that are left as they stand because they have no closing line. -/
def unfinishedAreas (template : List String) : List Area :=
  (Area.extract template).filter fun a ↦
    a.header.appliesTo workflow && holds a.header && !a.isTerminated

end WorkflowAreas.Specialization
