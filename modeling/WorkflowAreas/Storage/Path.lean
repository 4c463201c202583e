/-!
# Paths

A path is kept as it was written, since messages show it so. Its segments are what slashes separate;
empty segments and single dots mean nothing, but for a dot at the very beginning, which stays.
-/

namespace WorkflowAreas

/-- A path as written. -/
structure Path where
  text : String
deriving DecidableEq, Inhabited

namespace Path

/-- What slashes separate. -/
def segments (p : Path) : List String :=
  (p.text.toList.splitOn '/').map String.ofList

/-- Whether the path starts at the root. -/
def isAbsolute (p : Path) : Bool :=
  p.text.toList.head? == some '/'

/-- The path of `p` as seen from the directory `base`. -/
def join (base : Path) (p : String) : Path :=
  if (Path.mk p).isAbsolute || base.text.isEmpty then ⟨p⟩
  else if base.text.toList.getLast? == some '/' then ⟨base.text ++ p⟩
  else ⟨base.text ++ "/" ++ p⟩

/-- Whether a segment leads elsewhere. -/
def isStep (segment : String) : Bool :=
  segment != "" && segment != "."

/-- The segments up to the last one that leads elsewhere. -/
def trimEnd (segments : List String) : List String :=
  (segments.reverse.dropWhile (!isStep ·)).reverse

/-- What a path begins with: the root, a dot, or neither. -/
def head (p : Path) : String :=
  if p.isAbsolute then "/" else if p.segments.head? == some "." then "." else ""

/-- The segments after the head. -/
def body (p : Path) : List String :=
  if p.head.isEmpty then p.segments else p.segments.tail

/-- The path of a head and the segments after it. -/
def ofBody (head : String) (body : List String) : Path :=
  let rest := "/".intercalate body
  if head == "." && !body.isEmpty then ⟨"./" ++ rest⟩ else ⟨head ++ rest⟩

/-- The last segment, if it is a name. -/
def fileName? (p : Path) : Option String :=
  (trimEnd p.body).getLast?.filter (· != "..")

/-- The path without its last segment. The root and the empty path have no parent. -/
def parent? (p : Path) : Option Path :=
  match trimEnd p.body with
  | [] => if p.head == "." then some ⟨""⟩ else none
  | body => some (ofBody p.head (trimEnd body.dropLast))

/-- The path and its parents, the nearest first, `fuel` of them at most. -/
def parentsFrom : Nat → Path → List Path
  | 0, p => [p]
  | fuel + 1, p =>
    p :: match p.parent? with
      | some parent => parentsFrom fuel parent
      | none => []

/-- The path and its parents, the nearest first. -/
def withParents (p : Path) : List Path :=
  parentsFrom p.text.length p

end Path

end WorkflowAreas
