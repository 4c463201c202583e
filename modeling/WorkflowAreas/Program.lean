import WorkflowAreas.CommandLine
import WorkflowAreas.Journal
import WorkflowAreas.Listing

/-!
# Commands and what they answer

A command reads and writes files and prints. `Program.run` is a command as a function: from the files
before it to what it prints, what the journal tells, whether it fails, and the files after it. What is
decided outside of the program is given to it as an `Environment`.
-/

namespace WorkflowAreas.Program

open Storage (FileTree)

/-- What came of a command. -/
structure Run where
  printed : String
  events : List Journal.Event
  result : Except Failure Unit
  files : FileTree

/-- A command that failed before it did anything. -/
def failed (files : FileTree) (failure : Failure) : Run :=
  ⟨"", [], .error failure, files⟩

/-- Reads the manifest at a path. -/
def readManifest (files : FileTree) (path : String) : Except Failure Manifest :=
  match files.readText ⟨path⟩ with
  | .ok text => Manifest.ofYaml Yaml.library text
  | .error cause => .error (.misuse (.unreadableManifest path cause))

/-- The directory that the paths in a manifest start from. -/
def baseOf (manifest : String) : Path :=
  match (Path.mk manifest).parent? with
  | some parent => if parent.text.isEmpty then ⟨"."⟩ else parent
  | none => ⟨"."⟩

/-! ### Bringing files in step -/

/-- An entry with what came of it. -/
structure Synced where
  entry : Entry
  result : Except Failure Draft

namespace Synced

/-- Whether the file changed, or would have. -/
def isChanged (s : Synced) : Bool :=
  match s.result with
  | .ok draft => draft.status != .unchanged
  | .error _ => false

/-- What went wrong, if something did. -/
def failure? (s : Synced) : Option Failure :=
  match s.result with
  | .ok _ => none
  | .error failure => some failure

/-- What is printed about the entry. -/
def text (s : Synced) : String :=
  match s.result with
  | .ok draft =>
    Text.alignLeft 9 draft.status.name ++ " " ++ s.entry.target ++ "\n" ++
      if draft.skipped.isEmpty then ""
      else "          skipped: " ++ ", ".intercalate draft.skipped ++ "\n"
  | .error failure => "FAILED    " ++ s.entry.target ++ "\n\n" ++ failure.message ++ "\n\n"

end Synced

/-- What came of entries so far. -/
structure Progress where
  synced : List Synced
  events : List Journal.Event
  files : FileTree

/-- Brings one more entry in step. -/
def Progress.add (env : Environment) (m : Manifest) (mode : WriteMode) (base : Path) (p : Progress)
    (e : Entry) : Progress :=
  let run := e.sync env m mode p.files base
  ⟨p.synced ++ [⟨e, run.result⟩], p.events ++ Journal.ofSync e mode.dryRun run, run.files⟩

/-- Brings entries in step, one after the other. That one fails does not stop the others. -/
def syncAll (env : Environment) (m : Manifest) (mode : WriteMode) (base : Path) (files : FileTree)
    (entries : List Entry) : Progress :=
  entries.foldl (Progress.add env m mode base) ⟨[], [], files⟩

/-- The entries that a command is about. -/
def select (m : Manifest) (only : Option String) : Except Failure (List Entry) :=
  match only with
  | none => .ok m.entries
  | some target =>
    let entries := m.entries.filter (·.target == target)
    if entries.isEmpty then .error (.misuse (.unknownTarget target)) else .ok entries

/-- The failure that stands for several: the first that is more than files not agreeing with their
templates, else the number of those files. -/
def combined? (failures : List Failure) : Option Failure :=
  if failures.isEmpty then none
  else some ((failures.find? (!·.isDrift)).getD (.outOfSync (failures.filter (·.isDrift)).length))

/-- What is printed when all entries are done. -/
def syncSummary (dryRun : Bool) (synced : List Synced) : String :=
  let count (p : Synced → Bool) := toString (synced.filter p).length
  let total := toString synced.length
  let failures := synced.filterMap Synced.failure?
  "\n" ++ count Synced.isChanged ++ " of " ++ total ++
    (if dryRun then " file(s) would change (dry run).\n" else " file(s) changed.\n") ++
    if failures.isEmpty then ""
    else toString failures.length ++ " of " ++ total ++ " file(s) failed.\n"

/-- Brings the files of a manifest in step with their templates. -/
def sync (env : Environment) (files : FileTree) (manifest : String) (mode : WriteMode)
    (only : Option String) : Run :=
  match readManifest files manifest with
  | .error failure => failed files failure
  | .ok m =>
    match select m only with
    | .error failure => failed files failure
    | .ok entries =>
      let progress := syncAll env m mode (baseOf manifest) files entries
      { printed := String.join (progress.synced.map Synced.text) ++
          syncSummary mode.dryRun progress.synced
        events := progress.events
        result := match combined? (progress.synced.filterMap Synced.failure?) with
          | some failure => .error failure
          | none => .ok ()
        files := progress.files }

/-! ### Comparing files -/

/-- What is printed about how the file of an entry compares. -/
def comparisonText (e : Entry) : Comparison → String
  | .consistent => "ok        " ++ e.target ++ "\n"
  | .notGenerated => "missing   " ++ e.target ++ " (not generated yet)\n"
  | .inconsistent report => "DRIFTED   " ++ e.target ++ "\n\n" ++ report.text ++ "\n"

/-- Whether a file does not agree with its template. -/
def isInconsistent : Comparison → Bool
  | .inconsistent _ => true
  | _ => false

/-- How the files of a manifest compare, unless something goes wrong. -/
def compareAll (files : FileTree) (manifest : String) :
    Except Failure (List (Entry × Comparison)) := do
  let m ← readManifest files manifest
  m.entries.mapM fun e ↦ do
    return (e, ← e.compare files (baseOf manifest))

/-- Compares the files of a manifest with their templates. -/
def check (files : FileTree) (manifest : String) : Run :=
  match compareAll files manifest with
  | .error failure => failed files failure
  | .ok compared =>
    let rows := String.join (compared.map fun (e, c) ↦ comparisonText e c)
    let drifted := (compared.filter (isInconsistent ·.2)).length
    if drifted = 0 then
      ⟨rows ++ "\nAll " ++ toString compared.length ++ " target(s) consistent.\n", [], .ok (), files⟩
    else ⟨rows, [], .error (.outOfSync drifted), files⟩

/-! ### Listing areas -/

/-- What is printed about the areas of a file. -/
def listingText (file : String) (json : Bool) (areas : List Area) : String :=
  if json then Listing.json areas ++ "\n"
  else if areas.isEmpty then "No workflow areas in " ++ file ++ ".\n"
  else String.join (areas.map fun a ↦ Listing.row a ++ "\n")

/-- Lists the areas of a file. -/
def areas (files : FileTree) (file : String) (json : Bool) : Run :=
  match files.readDocument ⟨file⟩ with
  | .error failure => failed files failure
  | .ok document => ⟨listingText file json (Area.extract document.lines), [], .ok (), files⟩

/-! ### Commands -/

/-- Carries out a command. The tag keeps its temporary files apart from those of others. -/
def run (env : Environment) (tag : String) (files : FileTree) : CommandLine.Command → Run
  | .sync manifest dryRun only => sync env files manifest ⟨dryRun, tag⟩ only
  | .check manifest => check files manifest
  | .areas file json => areas files file json

/-- The paths that a command reads before anything else. -/
def firstPaths : CommandLine.Command → List Path
  | .sync manifest _ _ => [⟨manifest⟩]
  | .check manifest => [⟨manifest⟩]
  | .areas file _ => [⟨file⟩]

/-- The paths that a command can read or write once its manifest is known. -/
def furtherPaths (files : FileTree) : CommandLine.Command → List Path
  | .sync manifest _ _ | .check manifest =>
    match readManifest files manifest with
    | .ok m => m.entries.flatMap fun e ↦
      [(baseOf manifest).join e.template, (baseOf manifest).join e.target]
    | .error _ => []
  | .areas _ _ => []

/-- The status with which the program ends. -/
def Run.exitCode (r : Run) : Nat :=
  match r.result with
  | .ok () => 0
  | .error failure => failure.exitCode

/-- What the program tells besides its output: the journal, and what went wrong. -/
def Run.told (r : Run) (verbosity : Nat) : String :=
  Journal.text verbosity r.events ++ match r.result with
    | .ok () => ""
    | .error failure => "Error: " ++ failure.message ++ "\n"

end WorkflowAreas.Program
