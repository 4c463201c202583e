import WorkflowAreas.Text.Blank

/-!
# Reports on the structure of two files

A report lists the ways in which the areas of a generated file and of its template fail to agree, each
at the opening line of an area. It passes when there is nothing to list.
-/

namespace WorkflowAreas.Consistency

/-- The ways in which areas fail to agree. -/
inductive Defect
  /-- The area has no closing line. -/
  | unterminated
  /-- An earlier area of the file has the same key. -/
  | duplicate
  /-- Only the template has the area. -/
  | missing
  /-- Only the generated file has the area. -/
  | unexpected
  /-- Both have the area but their opening lines say different things. -/
  | mismatch
deriving DecidableEq

/-- A defect at an area of a file. -/
structure Violation where
  defect : Defect
  area : String
  file : String
  /-- The number of the opening line of the area, counted from one. -/
  line : Nat
  /-- In what way the opening lines differ. -/
  detail : Option String
deriving DecidableEq

namespace Violation

/-- The violation in a sentence. -/
def message (v : Violation) : String :=
  let area := "area '" ++ v.area ++ "' "
  match v.defect with
  | .unterminated => area ++ "has a BEGIN marker without a matching END"
  | .duplicate => area ++ "is declared more than once"
  | .missing => area ++ "is declared by the template but missing from the generated file"
  | .unexpected => area ++ "is in the generated file but not declared by the template"
  | .mismatch =>
    area ++ "differs between template and generated file: " ++ v.detail.getD "header mismatch"

/-- The line of a report that tells of the violation. -/
def reportLine (v : Violation) : String :=
  v.file ++ ":" ++ toString v.line ++ "  " ++ v.message ++ "\n"

end Violation

/-- The verdict on a template and a generated file. -/
structure Report where
  passed : Bool
  /-- The template, as its user calls it. -/
  templatePath : String
  /-- The generated file, as its user calls it. -/
  targetPath : String
  violations : List Violation
deriving DecidableEq

namespace Report

/-- The report that the files agree. -/
def pass (templatePath targetPath : String) : Report :=
  ⟨true, templatePath, targetPath, []⟩

/-- The report that they do not. -/
def fail (templatePath targetPath : String) (violations : List Violation) : Report :=
  ⟨false, templatePath, targetPath, violations⟩

/-- The report that holds these violations. -/
def ofViolations (templatePath targetPath : String) (violations : List Violation) : Report :=
  if violations.isEmpty then pass templatePath targetPath
  else fail templatePath targetPath violations

/-- The report as text, a line for each violation. A report that passed is empty. -/
def text (r : Report) : String :=
  if r.passed then ""
  else "workflow areas of '" ++ r.targetPath ++ "' do not match template '" ++ r.templatePath ++
    "'\n\n" ++ String.join (r.violations.map Violation.reportLine)

/-- The text of the report without the blanks at its end. -/
def summary (r : Report) : String :=
  String.ofList (Text.trimEnd r.text.toList)

end Report

end WorkflowAreas.Consistency
