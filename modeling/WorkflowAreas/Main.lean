import WorkflowAreas.Program

/-!
# The program

The outer layer. It reads from disk what a command can touch, carries the command out on that, writes
back what has changed, and prints. All decisions are taken in `Program.run`.
-/

namespace WorkflowAreas.Main

open Storage (Content FileTree Location)

/-- The path that leads to a location from the root. -/
def pathOf (l : Location) : String :=
  "/" ++ "/".intercalate l

/-- What is on disk at a location. -/
def contentAt (l : Location) : IO (Option Content) := do
  match ← (IO.FS.readBinFile (pathOf l)).toBaseIO with
  | .ok bytes => return some (.file bytes)
  | .error _ =>
    match ← (IO.FS.realPath (pathOf l)).toBaseIO with
    | .ok _ => return some .directory
    | .error _ => return none

/-- The locations that a path leads through. -/
def route (t : FileTree) (p : Path) : List Location :=
  let start := if p.isAbsolute then [] else t.workingDirectory
  let follow (visited : List Location × Location) (segment : String) :=
    let l := if segment = ".." then visited.2.dropLast
      else if Path.isStep segment then visited.2 ++ [segment]
      else visited.2
    (l :: visited.1, l)
  let ancestors := (List.range (start.length + 1)).map start.take
  (ancestors ++ (p.segments.foldl follow ([], start)).1.reverse).eraseDups

/-- Reads what is on disk along some paths. -/
def load (t : FileTree) (paths : List Path) : IO FileTree := do
  let mut t := t
  for p in paths do
    for l in route t p do
      if (t.get? l).isNone then
        if let some content ← contentAt l then
          t := t.put l content
  return t

/-- Writes a file by way of a temporary file beside it. -/
def writeFile (tag : String) (l : Location) (bytes : ByteArray) : IO Unit := do
  let temporary := pathOf (l.dropLast ++ ["." ++ l.getLastD "" ++ "." ++ tag ++ ".tmp"])
  IO.FS.writeBinFile temporary bytes
  IO.FS.rename temporary (pathOf l)

/-- Brings the disk from one file tree to another that has more in it, directories first. -/
def store (tag : String) (before after : FileTree) : IO Unit := do
  for (l, content) in after.entries.mergeSort fun a b ↦ a.1.length ≤ b.1.length do
    match content, before.get? l with
    | .directory, none => IO.FS.createDirAll (pathOf l)
    | .file bytes, some (.file old) => if bytes != old then writeFile tag l bytes
    | .file bytes, none => writeFile tag l bytes
    | _, _ => pure ()

/-- What to say to a user whose arguments make no invocation. -/
def usageText : CommandLine.Usage → String
  | .version => "0.1.0"
  | .help => synopsis
  | .nothingGiven => synopsis
  | .missingCommand => "error: a command is required\n\n" ++ synopsis
  | .missingArgument => "error: a file is required\n\n" ++ synopsis
  | .unknownArgument => "error: unexpected argument\n\n" ++ synopsis
  | .unknownCommand => "error: unrecognized command\n\n" ++ synopsis
  | .invalidValue => "error: a value is required for an option or a path\n\n" ++ synopsis
  | .repeatedOption => "error: an option cannot be used several times\n\n" ++ synopsis
  | .valueOnSwitch => "error: an option takes no value\n\n" ++ synopsis
where
  synopsis : String :=
    "Commands:\n  sync [--config <path>] [--dry-run] [--only <target>]\n" ++
      "  check [--config <path>]\n  areas <file> [--json]\n\n" ++
      "Options:\n  -v, --verbose\n  -h, --help\n  -V, --version"

/-- Carries out an invocation and gives the status to end with. -/
def carryOut (i : CommandLine.Invocation) : IO UInt32 := do
  let tag := toString (← IO.monoNanosNow)
  let here := (Path.mk (← IO.currentDir).toString).segments.filter Path.isStep
  let files ← load ⟨here, []⟩ (Program.firstPaths i.command)
  let files ← load files (Program.furtherPaths files i.command)
  let run := Program.run .calm tag files i.command
  match ← (store tag files run.files).toBaseIO with
  | .ok () =>
    IO.print run.printed
    IO.eprint (run.told i.verbosity)
    return run.exitCode.toUInt32
  | .error e =>
    IO.eprintln ("Error: I/O failed: " ++ toString e)
    return 3

end WorkflowAreas.Main

/-- Reads the arguments and carries out what they ask for. -/
def main (arguments : List String) : IO UInt32 := do
  match WorkflowAreas.CommandLine.parse arguments with
  | .ok invocation => WorkflowAreas.Main.carryOut invocation
  | .error usage =>
    let text := WorkflowAreas.Main.usageText usage
    if usage.exitCode = 0 then IO.println text else IO.eprintln text
    return usage.exitCode.toUInt32
