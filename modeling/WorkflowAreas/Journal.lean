import WorkflowAreas.Sync

/-!
# The journal of a run

What a run tells besides its results: a line for each event, with its level, its message and the values
that belong to it. How much of it is shown depends on how often the user asked for more.
-/

namespace WorkflowAreas.Journal

/-- How much an event matters. -/
inductive Level
  | debug
  | info
  | warn
deriving DecidableEq

/-- The level in five letters. -/
def Level.label : Level → String
  | debug => "DEBUG"
  | info => " INFO"
  | warn => " WARN"

/-- The events. -/
inductive Event
  /-- A first rendering left an area as it stands. -/
  | unfinished (area : String)
  | merge (note : Merge.Note)
  | synced (target workflow : String) (status : Status) (dryRun : Bool)
  | failed (target : String) (failure : Failure)

/-- A region as the journal shows it. -/
def regionText (r : Merge.Region) : String :=
  "Region \x7b start: " ++ toString r.start ++ ", end: " ++ toString r.stop ++ " \x7d"

/-- A strategy as the journal calls it. -/
def strategyName : Merge.Strategy → String
  | .replace => "OnceCollapse"
  | .unite => "SortedMerge"
  | .append => "AppendIfAbsent"

namespace Event

/-- How much the event matters. -/
def level : Event → Level
  | unfinished _ => .warn
  | merge (.unterminated _ _) => .warn
  | merge (.notFound _ _) => .warn
  | merge (.resolved _) => .debug
  | merge (.merging _ _ _) => .debug
  | synced _ _ _ _ => .info
  | failed _ _ => .warn

/-- The message of the event. -/
def message : Event → String
  | unfinished _ => "template area has no END marker"
  | merge (.unterminated _ _) => "template area has no END marker, skipping"
  | merge (.notFound _ _) => "area not found in generated file, skipping"
  | merge (.resolved _) => "once-area already resolved"
  | merge (.merging _ _ _) => "merging area"
  | synced _ _ _ _ => "synced entry"
  | failed _ _ => "entry failed, continuing"

/-- The values that belong to the event, by name. -/
def fields : Event → List (String × String)
  | unfinished area => [("area", area)]
  | merge (.unterminated area line) => [("area", area), ("line", toString line)]
  | merge (.notFound area beginLine) => [("area", area), ("start", beginLine)]
  | merge (.resolved area) => [("area", area)]
  | merge (.merging area strategy region) =>
    [("area", area), ("strategy", strategyName strategy), ("region", regionText region)]
  | synced target workflow status dryRun =>
    [("file", target), ("workflow", workflow), ("status", "\"" ++ status.name ++ "\""),
      ("dry_run", toString dryRun)]
  | failed target failure => [("file", target), ("error", failure.message)]

/-- The line of the journal for the event. -/
def line (e : Event) : String :=
  e.level.label ++ " " ++ e.message ++
    String.join (e.fields.map fun (name, value) ↦ " " ++ name ++ "=" ++ value) ++ "\n"

end Event

/-- The events of bringing an entry in step. -/
def ofSync (e : Entry) (dryRun : Bool) (run : SyncRun) : List Event :=
  let noted := match run.draft with
    | some draft => draft.unfinished.map .unfinished ++ draft.notes.map .merge
    | none => []
  noted ++ match run.result with
    | .ok draft => [.synced e.target e.workflow draft.status dryRun]
    | .error failure => [.failed e.target failure]

/-- Whether events of a level are shown to a user who asked for more so many times. -/
def isShown (verbosity : Nat) : Level → Bool
  | .warn => true
  | .info => 1 ≤ verbosity
  | .debug => 2 ≤ verbosity

/-- The text of the journal for a user who asked for more so many times. -/
def text (verbosity : Nat) (events : List Event) : String :=
  String.join ((events.filter fun e ↦ isShown verbosity e.level).map Event.line)

end WorkflowAreas.Journal
