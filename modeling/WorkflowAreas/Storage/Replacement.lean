import WorkflowAreas.Failure
import WorkflowAreas.Storage.FileTree
import WorkflowAreas.Text.Document

/-!
# Reading and replacing text files

A generated file is replaced in one step: its new text goes to a temporary file beside it, which then
takes its place. Whatever fails on the way, the file is as it was before, and no temporary file stays.
Directories that are missing on the way to it are made first.

A file that could be made may still not take its bytes, when the disk is full or the device fails. A file
tree does not tell that, so it is a parameter: `trouble` is the cause for which a text cannot be written
out to a path, if there is one.
-/

namespace WorkflowAreas.Storage.FileTree

/-- Reads a text file as a document. -/
def readDocument (t : FileTree) (p : Path) : Except Failure Text.Document :=
  match t.readText p with
  | .ok text => .ok (.ofText text)
  | .error cause => .error (.fault (.read p.text cause))

/-- Reads a text file as a document, if something is there. -/
def readDocument? (t : FileTree) (p : Path) : Except Failure (Option Text.Document) :=
  if t.contains p then (t.readDocument p).map some else .ok none

/-- The path of the temporary file beside a file. The tag keeps it apart from those of others. -/
def temporary? (tag : String) (p : Path) : Option Path :=
  p.fileName?.map fun name ↦
    (p.parent?.getD ⟨"."⟩).join ("." ++ name ++ "." ++ tag ++ ".tmp")

/-- Makes the directories on the way to a path that are missing. -/
def makeParents (t : FileTree) (p : Path) : Except Failure Unit × FileTree :=
  match p.parent? with
  | none => (.ok (), t)
  | some parent =>
    if parent.text.isEmpty || t.contains parent then (.ok (), t)
    else
      match t.makeDirectories parent.withParents with
      | (.ok (), t) => (.ok (), t)
      | (.error cause, t) => (.error (.fault (.makeDirectory parent.text cause)), t)

variable (trouble : Path → String → Option Cause)

/-- Gives a file a new text by way of a temporary file. -/
def exchange (t : FileTree) (temporary p : Path) (text : String) : Except Failure Unit × FileTree :=
  match t.writeFile temporary text.toUTF8 with
  | .error cause => (.error (.fault (.makeTemporary temporary.text cause)), t)
  | .ok written =>
    match trouble temporary text with
    | some cause =>
      (.error (.fault (.writeTemporary temporary.text cause)), written.removeFile temporary)
    | none =>
      match written.moveFile temporary p with
      | .ok moved => (.ok (), moved)
      | .error cause => (.error (.fault (.replace p.text cause)), written.removeFile temporary)

/-- Gives a file a new text in one step, or makes the file. -/
def replace (t : FileTree) (tag : String) (p : Path) (text : String) :
    Except Failure Unit × FileTree :=
  match t.makeParents p with
  | (.ok (), t) =>
    match temporary? tag p with
    | some temporary => t.exchange trouble temporary p text
    | none => (.error (.misuse (.invalidTargetPath p.text)), t)
  | failed => failed

end WorkflowAreas.Storage.FileTree
