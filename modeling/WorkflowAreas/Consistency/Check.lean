import WorkflowAreas.Area
import WorkflowAreas.Consistency.Report
import WorkflowAreas.Table

/-!
# Agreement of a template and a generated file

The files agree when every area of both is closed, no file has two areas of one key, the generated file
has the areas of the template and no others, and the opening lines of areas with one key say the same.
A `ONCE` area may be missing from the generated file, since merging removes it.
-/

namespace WorkflowAreas.Consistency

/-- The areas of a file by their keys. -/
structure Index where
  /-- The first area with each key. -/
  areas : Table Area
  /-- The areas whose key occurs before them, in the order of the file. -/
  repeats : List Area

namespace Index

/-- Takes in the next area of the file. -/
def add (index : Index) (a : Area) : Index :=
  match index.areas.get? a.key with
  | some _ => { index with repeats := index.repeats ++ [a] }
  | none => { index with areas := index.areas.insert a.key a }

/-- The index of the areas of a file. -/
def ofAreas (areas : List Area) : Index :=
  areas.foldl add ⟨∅, []⟩

/-- The areas that count and have keys that the other file does not have, in the order of their lines. -/
def only (index other : Index) (counts : Area → Bool) : List Area :=
  ((index.areas.entries.filter fun (key, a) ↦ (other.areas.get? key).isNone && counts a).map
    (·.2)).mergeSort (·.line ≤ ·.line)

end Index

/-- The first thing that two opening lines say differently. -/
def difference? (template target : Header) : Option String :=
  let flag (h : Header) := h.flag.getD "-"
  if template.name ≠ target.name then
    some ("name '" ++ template.name ++ "' vs '" ++ target.name ++ "'")
  else if template.sorted ≠ target.sorted then
    some ("SORTED " ++ toString template.sorted ++ " vs " ++ toString target.sorted)
  else if template.once ≠ target.once then
    some ("ONCE " ++ toString template.once ++ " vs " ++ toString target.once)
  else if template.flag ≠ target.flag then
    some ("IF " ++ flag template ++ " vs " ++ flag target)
  else if template.sortedWorkflows ≠ target.sortedWorkflows then
    some ("workflows '" ++ " ".intercalate template.workflows ++ "' vs '" ++
      " ".intercalate target.workflows ++ "'")
  else none

/-- A violation at an area of a file. -/
def violationAt (defect : Defect) (file : String) (a : Area) : Violation :=
  ⟨defect, a.name, file, a.line, none⟩

/-- The violations of areas with one key whose opening lines differ, in the order of the keys. -/
def mismatches (targetPath : String) (template target : Index) : List Violation :=
  template.areas.entries.filterMap fun (key, a) ↦ do
    let b ← target.areas.get? key
    let detail ← difference? a.header b.header
    some ⟨.mismatch, a.name, targetPath, b.line, some detail⟩

/-- Every way in which the areas of a template and of a generated file fail to agree. -/
def violations (template target : List Area) (templatePath targetPath : String) : List Violation :=
  let unterminated (areas : List Area) := areas.filter (!·.isTerminated)
  let templateIndex := Index.ofAreas template
  let targetIndex := Index.ofAreas target
  (unterminated template).map (violationAt .unterminated templatePath) ++
    (unterminated target).map (violationAt .unterminated targetPath) ++
    templateIndex.repeats.map (violationAt .duplicate templatePath) ++
    targetIndex.repeats.map (violationAt .duplicate targetPath) ++
    (templateIndex.only targetIndex (!·.header.once)).map (violationAt .missing templatePath) ++
    (targetIndex.only templateIndex fun _ ↦ true).map (violationAt .unexpected targetPath) ++
    mismatches targetPath templateIndex targetIndex

/-- Compares the areas of a template and of a generated file. -/
def check (template target : List String) (templatePath targetPath : String) : Report :=
  Report.ofViolations templatePath targetPath
    (violations (Area.extract template) (Area.extract target) templatePath targetPath)

end WorkflowAreas.Consistency
