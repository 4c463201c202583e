import WorkflowAreas.Consistency.Check
import WorkflowAreas.Merge.Outcome
import WorkflowAreas.Specialization
import WorkflowAreas.Storage.Replacement

/-!
# Keeping one file in step with its template

A file that does not exist is rendered from its template. Into one that exists the template is merged,
after the two have been checked against each other if the manifest asks for it. A file is written only
if its lines change. `draft` is what should become of the file and reads only; `sync` carries it out.

Two things that can go wrong are not decided here: whether a pattern can be searched for, which is up to
the library for searching, and whether a disk takes the bytes of a file. An `Environment` has the answers.
-/

namespace WorkflowAreas

open Storage (FileTree)

/-- What becomes of a file. -/
inductive Status
  | created
  | updated
  | unchanged
deriving DecidableEq

/-- The status in a word. -/
def Status.name : Status → String
  | created => "created"
  | updated => "updated"
  | unchanged => "unchanged"

/-- What should become of a file, and what was noted on the way. -/
structure Draft where
  document : Text.Document
  status : Status
  /-- The areas of the template that have no region in the file. -/
  skipped : List String
  /-- The areas that a first rendering left as they stand. -/
  unfinished : List String
  notes : List Merge.Note

/-- How a file compares with its template. -/
inductive Comparison
  | consistent
  | notGenerated
  | inconsistent (report : Consistency.Report)
deriving DecidableEq

/-- What is decided outside of the program. -/
structure Environment where
  /-- Why a pattern cannot be searched for, if it cannot. -/
  refuses : String → Option String
  /-- Why a text cannot be written out to a file that has been made, if it cannot. -/
  trouble : Path → String → Option Storage.Cause

namespace Environment

/-- Every pattern can be searched for, and every file takes its bytes. -/
def calm : Environment :=
  ⟨fun _ ↦ none, fun _ _ ↦ none⟩

/-- Takes a substitution as it is, unless its pattern cannot be searched for. -/
def accept (env : Environment) (s : Substitution) : Except Failure Substitution :=
  match s.pattern.bind env.refuses with
  | some reason => .error (.misuse (.unsearchableTokens reason))
  | none => .ok s

end Environment

namespace Entry

/-- The lines of a template rendered for the first time. Tokens are replaced outside marker lines, so
that later merges find those by the text in the template. -/
def firstLines (e : Entry) (s : Substitution) (template : List String) : List String :=
  (Specialization.render e.workflow e.flags template).map fun line ↦
    if Marker.isBoundary line then line else s.apply line

/-- Reads the template of an entry. -/
def readTemplate (e : Entry) (files : FileTree) (base : Path) : Except Failure Text.Document :=
  let path := base.join e.template
  if files.contains path then files.readDocument path
  else .error (.misuse (.missingTemplate e.template e.target))

/-- Checks the lines of a file against its template. -/
def check (e : Entry) (template target : List String) : Consistency.Report :=
  Consistency.check template target e.template e.target

/-- The draft of a file that does not exist. -/
def draftNew (e : Entry) (s : Substitution) (template : Text.Document) : Draft where
  document := ⟨e.firstLines s template.lines, template.layout⟩
  status := .created
  skipped := []
  unfinished := (Specialization.unfinishedAreas e.workflow template.lines).map Area.name
  notes := []

/-- The draft of a file that exists. -/
def draftMerged (e : Entry) (s : Substitution) (template target : Text.Document) : Draft :=
  let outcome := Merge.merge e.workflow s.apply e.flags target.lines template.lines
  { document := ⟨outcome.lines, target.layout⟩
    status := if outcome.lines = target.lines then .unchanged else .updated
    skipped := outcome.skipped
    unfinished := []
    notes := outcome.notes }

/-- What should become of the file of an entry. -/
def draft (e : Entry) (env : Environment) (m : Manifest) (files : FileTree) (base : Path) :
    Except Failure Draft := do
  let template ← e.readTemplate files base
  let substitution ← env.accept m.substitution
  match ← files.readDocument? (base.join e.target) with
  | none => return e.draftNew substitution template
  | some target =>
    if m.validateBeforeMerge then (e.check template.lines target.lines).toExcept
    return e.draftMerged substitution template target

/-- How the file of an entry compares with its template. -/
def compare (e : Entry) (files : FileTree) (base : Path) : Except Failure Comparison := do
  let template ← e.readTemplate files base
  match ← files.readDocument? (base.join e.target) with
  | none => return .notGenerated
  | some target =>
    let report := e.check template.lines target.lines
    return if report.passed then .consistent else .inconsistent report

end Entry

/-- What came of an entry, and the files after it. -/
structure SyncRun where
  /-- The draft that was carried out, or what went wrong. -/
  result : Except Failure Draft
  /-- The draft as far as it came, whether or not it could be carried out. -/
  draft : Option Draft
  files : FileTree

/-- How files are written. -/
structure WriteMode where
  /-- Nothing is written at all. -/
  dryRun : Bool
  /-- What keeps temporary files apart from those of others. -/
  tag : String

/-- Brings the file of an entry in step with its template. -/
def Entry.sync (e : Entry) (env : Environment) (m : Manifest) (mode : WriteMode) (files : FileTree)
    (base : Path) : SyncRun :=
  match e.draft env m files base with
  | .error failure => ⟨.error failure, none, files⟩
  | .ok draft =>
    if draft.status = .unchanged || mode.dryRun then ⟨.ok draft, some draft, files⟩
    else
      match files.replace env.trouble mode.tag (base.join e.target) draft.document.toText with
      | (.ok (), files) => ⟨.ok draft, some draft, files⟩
      | (.error failure, files) => ⟨.error failure, some draft, files⟩

end WorkflowAreas
