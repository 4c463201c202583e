import WorkflowAreas.Branch
import WorkflowAreas.Substitution

/-!
# Manifests

A manifest lists the generated files, each with its template, its workflow and its flags, and the tokens
that are replaced in template lines. `Manifest.defect?` names the first thing that makes a manifest
unusable.
-/

namespace WorkflowAreas

/-- A generated file and what it is generated from. Paths are relative to the manifest. -/
structure Entry where
  template : String
  target : String
  workflow : String
  flags : Flags
deriving DecidableEq, Inhabited

/-- The files to keep in step with their templates. -/
structure Manifest where
  /-- An existing file has to agree with its template before anything is merged into it. -/
  validateBeforeMerge : Bool
  /-- Tokens in template lines and what replaces them. -/
  replacements : Table String
  entries : List Entry
deriving DecidableEq

namespace Entry

/-- What makes an entry unusable. -/
inductive Defect
  | emptyTemplate
  | emptyTarget
  | emptyWorkflow
  /-- Ids are separated by blanks in marker lines, so none can hold one. -/
  | blankInWorkflow (workflow : String)
  | templateIsTarget (path : String)
deriving DecidableEq

/-- The defect in words that follow the place of the entry. -/
def Defect.message : Defect → String
  | emptyTemplate => "has an empty template path"
  | emptyTarget => "has an empty target path"
  | emptyWorkflow => "has an empty workflow id"
  | blankInWorkflow workflow => "workflow id '" ++ workflow ++ "' must not contain whitespace"
  | templateIsTarget path => "uses '" ++ path ++ "' as both template and target"

/-- The first defect of an entry. -/
def defect? (e : Entry) : Option Defect :=
  if Text.isBlankLine e.template then some .emptyTemplate
  else if Text.isBlankLine e.target then some .emptyTarget
  else if e.workflow.isEmpty then some .emptyWorkflow
  else if e.workflow.toList.any Text.isBlank then some (.blankInWorkflow e.workflow)
  else if e.template = e.target then some (.templateIsTarget e.template)
  else none

end Entry

namespace Manifest

/-- The manifest that says nothing. -/
def default : Manifest :=
  ⟨true, .empty, []⟩

instance : Inhabited Manifest := ⟨default⟩

/-- What makes a manifest unusable. -/
inductive Defect
  /-- The entry at some place, counted from zero, is unusable. -/
  | entry (index : Nat) (defect : Entry.Defect)
  | emptyToken
deriving DecidableEq

/-- The defect in words. -/
def Defect.message : Defect → String
  | entry index defect => "entries[" ++ toString index ++ "] " ++ defect.message
  | emptyToken => "replacement tokens must be non-empty"

/-- The first unusable entry, the first of them standing at `index`. -/
def entryDefect? (index : Nat) : List Entry → Option Defect
  | [] => none
  | e :: rest =>
    match e.defect? with
    | some defect => some (.entry index defect)
    | none => entryDefect? (index + 1) rest

/-- The first defect of a manifest. Its entries are looked at before its tokens. -/
def defect? (m : Manifest) : Option Defect :=
  match entryDefect? 0 m.entries with
  | some defect => some defect
  | none => if m.replacements.entries.any (·.1.isEmpty) then some .emptyToken else none

/-- The replacement of tokens that the manifest asks for. -/
def substitution (m : Manifest) : Substitution :=
  .ofTable m.replacements

end Manifest

end WorkflowAreas
