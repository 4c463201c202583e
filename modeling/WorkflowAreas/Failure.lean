import WorkflowAreas.Consistency.Report
import WorkflowAreas.Manifest.Yaml
import WorkflowAreas.Storage.FileTree

/-!
# Failures

Everything that can go wrong for a user, by cause. A failure is of one of four kinds, which tells how its
message begins and with which status the program ends. `Failure.message` has the words.
-/

namespace WorkflowAreas

/-- What a user asked for cannot be done. -/
inductive Misuse
  | unreadableManifest (path : String) (cause : Storage.Cause)
  | malformedManifest (reason : Manifest.Malformed)
  | unusableManifest (defect : Manifest.Defect)
  | unknownTarget (target : String)
  | missingTemplate (template target : String)
  | invalidTargetPath (path : String)
  /-- The tokens make a pattern that cannot be searched for. -/
  | unsearchableTokens (reason : String)

/-- A file operation failed. -/
inductive Fault
  | read (path : String) (cause : Storage.Cause)
  | makeDirectory (path : String) (cause : Storage.Cause)
  | makeTemporary (path : String) (cause : Storage.Cause)
  | writeTemporary (path : String) (cause : Storage.Cause)
  | replace (path : String) (cause : Storage.Cause)

/-- What can go wrong. -/
inductive Failure
  | misuse (misuse : Misuse)
  /-- A template and its generated file do not agree. -/
  | drift (report : Consistency.Report)
  /-- So many generated files do not agree with their templates. -/
  | outOfSync (count : Nat)
  | fault (fault : Fault)

/-- The misuse in words. -/
def Misuse.message : Misuse → String
  | unreadableManifest path cause =>
    "failed to read config file '" ++ path ++ "': " ++ cause.message ++
      "\nFix: create it or pass --config <path>."
  | malformedManifest reason => "failed to parse config YAML: " ++ reason.message
  | unusableManifest defect => "config validation failed: " ++ defect.message
  | unknownTarget target => "no manifest entry has target '" ++ target ++ "'"
  | missingTemplate template target =>
    "template '" ++ template ++ "' for target '" ++ target ++ "' does not exist"
  | invalidTargetPath path => "invalid target path '" ++ path ++ "'"
  | unsearchableTokens reason => "failed to compile replacement tokens: " ++ reason

/-- The fault in words. -/
def Fault.message : Fault → String
  | read path cause => "failed to read '" ++ path ++ "': " ++ cause.message
  | makeDirectory path cause => "failed to create directory '" ++ path ++ "': " ++ cause.message
  | makeTemporary path cause =>
    "failed to create temporary file '" ++ path ++ "': " ++ cause.message
  | writeTemporary path cause =>
    "failed to write temporary file '" ++ path ++ "': " ++ cause.message
  | replace path cause => "failed to replace '" ++ path ++ "': " ++ cause.message

namespace Failure

/-- The kinds of failures. -/
inductive Kind
  | misuse
  | drift
  | outOfSync
  | fault
deriving DecidableEq

/-- What messages of a kind begin with. -/
def Kind.label : Kind → String
  | misuse => ""
  | drift => "Validation failed: "
  | outOfSync => "Validation failed: "
  | fault => "I/O failed: "

/-- The status with which the program ends after a failure of a kind. -/
def Kind.exitCode : Kind → Nat
  | misuse => 1
  | drift => 2
  | outOfSync => 2
  | fault => 3

/-- The kind of a failure. -/
def kind : Failure → Kind
  | misuse _ => .misuse
  | drift _ => .drift
  | outOfSync _ => .outOfSync
  | fault _ => .fault

/-- What the message says behind the label of its kind. -/
def details : Failure → String
  | misuse m => m.message
  | drift report => report.summary
  | outOfSync count => toString count ++ " generated file(s) out of sync with their templates"
  | fault f => f.message

/-- The failure in words. -/
def message (f : Failure) : String :=
  f.kind.label ++ f.details

/-- The status with which the program ends. -/
def exitCode (f : Failure) : Nat :=
  f.kind.exitCode

/-- Whether the failure is that a generated file does not agree with its template. -/
def isDrift : Failure → Bool
  | drift _ => true
  | _ => false

end Failure

/-- Takes a report as a verdict. -/
def Consistency.Report.toExcept (r : Report) : Except Failure Unit :=
  if r.passed then .ok () else .error (.drift r)

/-- Takes a manifest as it is, unless it is unusable. -/
def Manifest.validated (m : Manifest) : Except Failure Manifest :=
  match m.defect? with
  | some defect => .error (.misuse (.unusableManifest defect))
  | none => .ok m

/-- Reads a manifest that can be used. -/
def Manifest.ofYaml (yaml : Yaml.Library) (text : String) : Except Failure Manifest :=
  match Manifest.ofYaml? yaml text with
  | .ok m => m.validated
  | .error reason => .error (.misuse (.malformedManifest reason))

end WorkflowAreas
