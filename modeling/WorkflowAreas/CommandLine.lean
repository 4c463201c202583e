/-!
# The command line

An invocation names a command and its options. Options are read from left to right: a switch stands
alone, a setting takes the word after it, or what is attached to it; short ones can share a dash. Two
dashes end the options. A setting that still waits for its value, or has it but was not looked at yet,
is settled before anything else is taken up, so that of several mistakes the first one counts.
-/

namespace WorkflowAreas.CommandLine

/-- The commands with their options. -/
inductive Command
  /-- Brings files in step with their templates. -/
  | sync (manifest : String) (dryRun : Bool) (only : Option String)
  /-- Compares files with their templates. -/
  | check (manifest : String)
  /-- Lists the areas of a file. -/
  | areas (file : String) (json : Bool)
deriving DecidableEq

/-- A command, and how often the user asked for more to be told. -/
structure Invocation where
  command : Command
  verbosity : Nat
deriving DecidableEq

/-- Why there is no invocation to carry out. -/
inductive Usage
  | help
  | version
  | nothingGiven
  | missingCommand
  | missingArgument
  | unknownArgument
  | unknownCommand
  | invalidValue
  | repeatedOption
  | valueOnSwitch
deriving DecidableEq

/-- The status with which the program ends. To ask for help or for the version is no mistake. -/
def Usage.exitCode : Usage → Nat
  | help => 0
  | version => 0
  | _ => 2

/-- Where the manifest is unless an option says otherwise. -/
def standardManifest : String := "areasync.yaml"

/-- Options that stand alone. -/
inductive Switch
  | verbose
  | help
  | version
  | dryRun
  | json
deriving DecidableEq

/-- What takes a value. -/
inductive Setting
  | manifest
  | only
  | file
deriving DecidableEq

/-- What an option names. -/
inductive Named
  | switch (s : Switch)
  | setting (s : Setting)

/-- What a command takes. -/
structure Scope where
  switches : List Switch
  settings : List Setting
  /-- Whether a word that is no option names a file. -/
  takesFile : Bool

/-- Switches by their long names. -/
def longSwitches : List (String × Switch) :=
  [("verbose", .verbose), ("help", .help), ("version", .version), ("dry-run", .dryRun),
    ("json", .json)]

/-- Switches by their short names. -/
def shortSwitches : List (Char × Switch) :=
  [('v', .verbose), ('h', .help), ('V', .version)]

/-- Settings by their long names. -/
def longSettings : List (String × Setting) :=
  [("config", .manifest), ("only", .only)]

/-- Settings by their short names. -/
def shortSettings : List (Char × Setting) :=
  [('c', .manifest)]

namespace Scope

/-- The switches that every command takes. -/
def common : List Switch :=
  [.verbose, .help, .version]

/-- What stands before a command. -/
def outer : Scope :=
  ⟨common, [], false⟩

/-- What the command `sync` takes. -/
def sync : Scope :=
  ⟨.dryRun :: common, [.manifest, .only], false⟩

/-- What the command `check` takes. -/
def check : Scope :=
  ⟨common, [.manifest], false⟩

/-- What the command `areas` takes. -/
def areas : Scope :=
  ⟨.json :: common, [], true⟩

/-- The option of a name. -/
def option? (scope : Scope) (switch : Option Switch) (setting : Option Setting) : Option Named :=
  match switch.filter scope.switches.contains, setting.filter scope.settings.contains with
  | some s, _ => some (.switch s)
  | none, some s => some (.setting s)
  | none, none => none

/-- The option of a long name. -/
def long? (scope : Scope) (name : String) : Option Named :=
  scope.option? (longSwitches.lookup name) (longSettings.lookup name)

/-- The option of a short name. -/
def short? (scope : Scope) (name : Char) : Option Named :=
  scope.option? (shortSwitches.lookup name) (shortSettings.lookup name)

end Scope

/-- What was given so far. -/
structure Given where
  verbosity : Nat
  switches : List Switch
  settings : List (Setting × String)
  /-- A setting that is not settled, with its value if that has been read. -/
  pending : Option (Setting × Option String)
  /-- The options are at an end. -/
  optionsEnded : Bool

namespace Given

/-- Nothing. -/
def nothing : Given :=
  ⟨0, [], [], none, false⟩

/-- The value of a setting. -/
def get? (g : Given) (s : Setting) : Option String :=
  g.settings.lookup s

/-- Enters a setting. No setting may be given twice, and no path may be empty. -/
def enter (g : Given) (s : Setting) (value : String) : Except Usage Given :=
  if (g.get? s).isSome then .error .repeatedOption
  else if value.isEmpty && s != .only then .error .invalidValue
  else .ok { g with settings := (s, value) :: g.settings, pending := none }

/-- Enters the setting that is not settled yet. -/
def settle (g : Given) : Except Usage Given :=
  match g.pending with
  | none => .ok g
  | some (_, none) => .error .invalidValue
  | some (s, some value) => g.enter s value

/-- The highest count of requests to be told more. -/
def highestVerbosity : Nat := 255

/-- Takes a switch. -/
def turnOn (g : Given) (s : Switch) : Except Usage Given := do
  let g ← g.settle
  match s with
  | .help => throw .help
  | .version => throw .version
  | .verbose => return { g with verbosity := min (g.verbosity + 1) highestVerbosity }
  | s => if g.switches.contains s then throw .repeatedOption
    return { g with switches := s :: g.switches }

/-- Takes a setting, with its value if that is attached. -/
def take (g : Given) (s : Setting) (attached : Option String) : Except Usage Given := do
  let g ← g.settle
  match attached with
  | some value => g.enter s value
  | none => return { g with pending := some (s, none) }

/-- Takes a long option, its value behind an equals sign. -/
def takeLong (g : Given) (scope : Scope) (option : List Char) : Except Usage Given :=
  let name := option.takeWhile (· != '=')
  let attached := match option.dropWhile (· != '=') with
    | [] => none
    | _ :: value => some (String.ofList value)
  match scope.long? (String.ofList name), attached with
  | some (.switch s), none => g.turnOn s
  | some (.switch _), some _ => .error .valueOnSwitch
  | some (.setting s), attached => g.take s attached
  | none, _ => .error .unknownArgument

/-- Takes short options that share a dash. What follows a setting is its value. -/
def takeShort (g : Given) (scope : Scope) : List Char → Except Usage Given
  | [] => .ok g
  | c :: cs =>
    match scope.short? c with
    | some (.switch s) => do (← g.turnOn s).takeShort scope cs
    | some (.setting s) =>
      let value := if cs.head? == some '=' then cs.tail else cs
      g.take s (if cs.isEmpty then none else some (String.ofList value))
    | none => .error .unknownArgument

/-- Takes a word that is no option. -/
def takeWord (g : Given) (scope : Scope) (word : String) : Except Usage Given := do
  let fileGiven := (g.get? .file).isSome || g.pending.any (·.1 == .file)
  if !scope.takesFile || fileGiven then throw .unknownArgument
  return { ← g.settle with pending := some (.file, some word) }

/-- Takes an argument. -/
def takeArgument (g : Given) (scope : Scope) (argument : String) : Except Usage Given :=
  if g.optionsEnded then g.takeWord scope argument
  else
    match argument.toList with
    | ['-', '-'] => .ok { g with optionsEnded := true }
    | '-' :: '-' :: option => g.takeLong scope option
    | '-' :: c :: cs => g.takeShort scope (c :: cs)
    | _ =>
      match g.pending with
      | some (s, none) => .ok { g with pending := some (s, some argument) }
      | _ => g.takeWord scope argument

/-- Takes all arguments. -/
def takeAll (scope : Scope) (arguments : List String) : Except Usage Given := do
  (← arguments.foldlM (fun g a ↦ takeArgument g scope a) nothing).settle

end Given

/-- What a command takes, and the command of what was given. -/
structure CommandForm where
  scope : Scope
  build : Given → Except Usage Command

/-- The commands by their names. -/
def commands : List (String × CommandForm) :=
  [("sync", ⟨.sync, fun g ↦ .ok (.sync ((g.get? .manifest).getD standardManifest)
      (g.switches.contains .dryRun) (g.get? .only))⟩),
    ("check", ⟨.check, fun g ↦ .ok (.check ((g.get? .manifest).getD standardManifest))⟩),
    ("areas", ⟨.areas, fun g ↦ match g.get? .file with
      | some file => .ok (.areas file (g.switches.contains .json))
      | none => .error .missingArgument⟩)]

/-- Whether a word names a command, the one that asks for help among them. -/
def isCommand (word : String) : Bool :=
  word == "help" || (commands.lookup word).isSome

/-- What it means to ask for help on these words. -/
def helpOn : List String → Usage
  | [] => .help
  | [word] => if isCommand word then .help else .unknownCommand
  | _ => .unknownCommand

/-- Reads what stands before the command, and then the command. Requests to be told more count after
the command if there are any there. -/
def parseFrom (g : Given) : List String → Except Usage Invocation
  | [] => .error (if g.verbosity = 0 then .nothingGiven else .missingCommand)
  | word :: rest =>
    if g.optionsEnded then
      .error (if isCommand word then .unknownArgument else .unknownCommand)
    else if word = "help" then .error (helpOn rest)
    else
      match commands.lookup word with
      | some form => do
        let given ← Given.takeAll form.scope rest
        let command ← form.build given
        return ⟨command, if given.verbosity = 0 then g.verbosity else given.verbosity⟩
      | none =>
        if word.toList.head? == some '-' && word != "-" then do
          parseFrom (← g.takeArgument .outer word) rest
        else .error .unknownCommand

/-- The invocation that arguments make. -/
def parse (arguments : List String) : Except Usage Invocation :=
  parseFrom .nothing arguments

end WorkflowAreas.CommandLine
