import WorkflowAreas.Area
import WorkflowAreas.Branch
import WorkflowAreas.Merge.Strategy

/-!
# Merging a template into a file

The areas of the template that are for a workflow go into the file one after the other, each by the
strategy of its opening line. The region of an area is found by its literal text: the first line equal
to its opening line, and the first line after that equal to its closing line. An area without a region
is skipped, except that a `ONCE` area whose opening line is gone has been merged before.
-/

namespace WorkflowAreas.Merge

/-- What is worth telling about one area of a merge. -/
inductive Note
  /-- The area of the template has no closing line. -/
  | unterminated (area : String) (line : Nat)
  /-- The `ONCE` area has left the file before. -/
  | resolved (area : String)
  /-- The file has no region for the area. -/
  | notFound (area : String) (beginLine : String)
  /-- The area goes into its region. -/
  | merging (area : String) (strategy : Strategy) (region : Region)
deriving DecidableEq

/-- What a merge arrives at. -/
structure Outcome where
  /-- The lines of the file. -/
  lines : List String
  /-- The names of the areas that changed it. -/
  changed : List String
  /-- The names of the areas without a region in it. -/
  skipped : List String
  notes : List Note
deriving DecidableEq, Inhabited

namespace Outcome

/-- A merge that has done nothing yet. -/
def start (lines : List String) : Outcome :=
  ⟨lines, [], [], []⟩

/-- Adds a note. -/
def noted (o : Outcome) (note : Note) : Outcome :=
  { o with notes := o.notes ++ [note] }

/-- Skips an area. -/
def skip (o : Outcome) (area : String) (note : Note) : Outcome :=
  { o.noted note with skipped := o.skipped ++ [area] }

end Outcome

/-- The region between the first line equal to `beginLine` and the first later one equal to `endLine`. -/
def locate? (lines : List String) (beginLine endLine : String) : Option Region := do
  let start ← lines.findIdx? (· == beginLine)
  let offset ← (lines.drop (start + 1)).findIdx? (· == endLine)
  some ⟨start, start + 1 + offset⟩

variable (workflow : String) (transform : String → String) (flags : Flags)

/-- What an area puts into a file: the branch that its flag chooses, line by line transformed. -/
def content (a : Area) : List String :=
  (Branch.choose a.body a.header.flag flags).map transform

/-- Merges one area that is for the workflow. -/
def mergeArea (o : Outcome) (a : Area) : Outcome :=
  match a.endLine with
  | none => o.skip a.name (.unterminated a.name a.line)
  | some endLine =>
    match locate? o.lines a.header.beginLine endLine with
    | none =>
      if a.header.once && !o.lines.contains a.header.beginLine then o.noted (.resolved a.name)
      else o.skip a.name (.notFound a.name a.header.beginLine)
    | some region =>
      let strategy := Strategy.ofHeader a.header
      let (lines, hasChanged) := strategy.apply o.lines region (content transform flags a)
      { o.noted (.merging a.name strategy region) with
        lines := lines
        changed := if hasChanged then o.changed ++ [a.name] else o.changed }

/-- Merges the areas of `template` that are for `workflow` into `target`. -/
def merge (target template : List String) : Outcome :=
  ((Area.extract template).filter (·.header.appliesTo workflow)).foldl
    (mergeArea transform flags) (Outcome.start target)

end WorkflowAreas.Merge
