import WorkflowAreas.Storage.Path

/-!
# File trees

A file tree says what is at which location: a file with its bytes, a directory, or nothing. A location
is the list of names that lead there from the root. Paths are resolved segment by segment from the root
or from the working directory; a name is looked up only in a directory, two dots lead back to where the
directory itself lies, and there are no links. An operation that fails gives a cause.

`get?_put` and `get?_erase` are the laws of the tree: a change at a location is seen there and nowhere
else.
-/

namespace WorkflowAreas.Storage

/-- Why an operation on files fails. -/
inductive Cause
  | notFound
  | deviceFailed
  | busy
  | alreadyExists
  | notADirectory
  | isADirectory
  | tooLarge
  | noSpace
  | nameTooLong
  | quotaExceeded
  | nulInName
  | invalidText
deriving DecidableEq

/-- The cause in words, with the number that the system has for it. -/
def Cause.message : Cause → String
  | notFound => "No such file or directory (os error 2)"
  | deviceFailed => "Input/output error (os error 5)"
  | busy => "Device or resource busy (os error 16)"
  | alreadyExists => "File exists (os error 17)"
  | notADirectory => "Not a directory (os error 20)"
  | isADirectory => "Is a directory (os error 21)"
  | tooLarge => "File too large (os error 27)"
  | noSpace => "No space left on device (os error 28)"
  | nameTooLong => "File name too long (os error 36)"
  | quotaExceeded => "Disk quota exceeded (os error 122)"
  | nulInName => "file name contained an unexpected NUL byte"
  | invalidText => "stream did not contain valid UTF-8"

/-- The names that lead somewhere from the root. -/
abbrev Location := List String

/-- What is at a location. -/
inductive Content
  | file (bytes : ByteArray)
  | directory

/-- The contents of locations, as seen from a working directory. -/
structure FileTree where
  workingDirectory : Location
  /-- The locations with something there. The first entry of a location holds. -/
  entries : List (Location × Content)
deriving Inhabited

namespace FileTree

/-- What is at a location. The root is always a directory. -/
def get? (t : FileTree) (l : Location) : Option Content :=
  if l.isEmpty then some .directory else t.entries.lookup l

/-- The tree without what is at a location. -/
def erase (t : FileTree) (l : Location) : FileTree :=
  { t with entries := t.entries.filter (·.1 != l) }

/-- The tree with something at a location, in place of what was there. -/
def put (t : FileTree) (l : Location) (content : Content) : FileTree :=
  { t with entries := (l, content) :: (t.erase l).entries }

theorem lookup_filter_ne {l m : Location} {entries : List (Location × Content)} :
    (entries.filter (·.1 != l)).lookup m = if m = l then none else entries.lookup m := by
  induction entries with
  | nil => simp
  | cons e rest ih =>
    obtain ⟨k, content⟩ := e
    by_cases hk : k = l <;> by_cases hm : m = k <;> grind

/-- What is put at a location is there, and everything else is where it was. -/
theorem get?_put {t : FileTree} {l m : Location} {content : Content} (h : l ≠ []) :
    (t.put l content).get? m = if m = l then some content else t.get? m := by
  by_cases hm : m = l
  · subst hm
    simp [get?, put, h]
  · have hne : (m == l) = false := beq_eq_false_iff_ne.2 hm
    simp [get?, put, erase, List.lookup_cons, hne, hm, lookup_filter_ne]

/-- What is erased at a location is gone, and everything else is where it was. -/
theorem get?_erase {t : FileTree} {l m : Location} (h : l ≠ []) :
    (t.erase l).get? m = if m = l then none else t.get? m := by
  by_cases hm : m = l
  · subst hm
    simp [get?, erase, h, lookup_filter_ne]
  · simp [get?, erase, hm, lookup_filter_ne]

/-- Whether a directory is at a location. -/
def hasDirectory (t : FileTree) (l : Location) : Bool :=
  match t.get? l with
  | some .directory => true
  | _ => false

/-- The longest name in bytes that a directory can hold. -/
def longestName : Nat := 255

/-- The longest path in bytes that can be resolved. -/
def longestPath : Nat := 4095

/-- Follows a segment from a location. -/
def step (t : FileTree) (l : Location) (segment : String) : Except Cause Location :=
  if !t.hasDirectory l then .error .notADirectory
  else if !Path.isStep segment then .ok l
  else if segment = ".." then .ok l.dropLast
  else if longestName < segment.utf8ByteSize then .error .nameTooLong
  else if (t.get? (l ++ [segment])).isSome then .ok (l ++ [segment])
  else .error .notFound

/-- Follows segments from where a path starts, if the path can be resolved at all. -/
def walk (t : FileTree) (p : Path) (segments : List String) : Except Cause Location :=
  if p.text.toList.contains '\x00' then .error .nulInName
  else if p.text.isEmpty then .error .notFound
  else if longestPath < p.text.utf8ByteSize then .error .nameTooLong
  else segments.foldlM t.step (if p.isAbsolute then [] else t.workingDirectory)

/-- The location of something that is there. -/
def locate (t : FileTree) (p : Path) : Except Cause Location :=
  t.walk p p.segments

/-- Whether something is there. -/
def contains (t : FileTree) (p : Path) : Bool :=
  (t.locate p).isOk

/-- Whether the path leads to a directory. -/
def isDirectory (t : FileTree) (p : Path) : Bool :=
  match t.locate p with
  | .ok l => t.hasDirectory l
  | .error _ => false

/-- The bytes of a file. -/
def readBytes (t : FileTree) (p : Path) : Except Cause ByteArray := do
  match t.get? (← t.locate p) with
  | some (.file bytes) => return bytes
  | some .directory => throw .isADirectory
  | none => throw .notFound

/-- The text of a file. -/
def readText (t : FileTree) (p : Path) : Except Cause String := do
  match String.fromUTF8? (← t.readBytes p) with
  | some text => return text
  | none => throw .invalidText

/-- The place for a name: the directory, and the last segment that is not empty, if there is one. -/
structure Place where
  directory : Location
  name : Option String
  /-- A slash follows the name. -/
  slashFollows : Bool

/-- The place that a path leads to, whether or not something is there. -/
def place (t : FileTree) (p : Path) : Except Cause Place := do
  let backwards := p.segments.reverse
  match backwards.dropWhile (·.isEmpty) with
  | [] => return ⟨← t.walk p [], none, true⟩
  | name :: before =>
    let l ← t.walk p before.reverse
    if !t.hasDirectory l then throw .notADirectory
    return ⟨l, some name, backwards.head? == some ""⟩

/-- The location of a name at a place, unless it is one that no directory can hold. -/
def Place.location? (place : Place) (otherwise : Cause) : Except Cause Location :=
  match place.name with
  | some name =>
    if name = "." || name = ".." then .error otherwise
    else if longestName < name.utf8ByteSize then .error .nameTooLong
    else .ok (place.directory ++ [name])
  | none => .error otherwise

/-- Makes a directory where nothing is. -/
def makeDirectory (t : FileTree) (p : Path) : Except Cause FileTree := do
  let l ← (← t.place p).location? .alreadyExists
  if (t.get? l).isSome then throw .alreadyExists
  return t.put l .directory

/-- Makes the first directory of a list, and the ones after it, which enclose it, where they are
missing. Those that were made stay even if another one cannot be made. -/
def makeDirectories (t : FileTree) : List Path → Except Cause Unit × FileTree
  | [] => (.ok (), t)
  | p :: parents =>
    if p.text.isEmpty then (.ok (), t)
    else
      let settle (t : FileTree) (cause : Cause) : Except Cause Unit × FileTree :=
        (if t.isDirectory p then .ok () else .error cause, t)
      match t.makeDirectory p with
      | .ok made => (.ok (), made)
      | .error .notFound =>
        match t.makeDirectories parents with
        | (.ok (), t) =>
          match t.makeDirectory p with
          | .ok made => (.ok (), made)
          | .error cause => settle t cause
        | failed => failed
      | .error cause => settle t cause

/-- Writes a file, in place of one that is there. -/
def writeFile (t : FileTree) (p : Path) (bytes : ByteArray) : Except Cause FileTree := do
  let place ← t.place p
  let l ← place.location? .isADirectory
  if place.slashFollows || t.hasDirectory l then throw .isADirectory
  return t.put l (.file bytes)

/-- Removes a file, if there is one. -/
def removeFile (t : FileTree) (p : Path) : FileTree :=
  match t.locate p with
  | .ok l => if t.hasDirectory l then t else t.erase l
  | .error _ => t

/-- Moves a file to a path, in one step and in place of a file that is there. -/
def moveFile (t : FileTree) (source target : Path) : Except Cause FileTree := do
  let bytes ← t.readBytes source
  let l ← t.locate source
  let place ← t.place target
  let m ← place.location? .busy
  if place.slashFollows then throw .notADirectory
  if t.hasDirectory m then throw .isADirectory
  return (t.erase l).put m (.file bytes)

end FileTree

end WorkflowAreas.Storage
