import WorkflowAreas.Text.Blank

/-!
# Headers of workflow areas

An area is opened by a line of the form

    lead BEGIN [ONCE] [SORTED] WORKFLOW AREA name FOR id … id [IF flag]

The words of the marker are separated by one space each, the ids by one or more; blanks may follow.
The lead is free text, as a rule the opener of a comment. Where a line can be read in several ways,
the shortest lead holds.

The key of a header is its line in normal form. Two areas are taken for the same one when their keys
are equal, so the order of the workflow ids does not matter, nor do runs of spaces.
-/

namespace WorkflowAreas

/-- What the opening line of an area says. -/
structure Header where
  /-- The text before the marker, as written. -/
  lead : String
  name : String
  /-- The workflows that the area is for, in the order written. -/
  workflows : List String
  /-- The area leaves no markers behind once its content is in place. -/
  once : Bool
  /-- The lines of the area form a sorted set. -/
  sorted : Bool
  /-- The flag that chooses between the branches of the area. -/
  flag : Option String
  /-- The line itself. -/
  beginLine : String
deriving DecidableEq, Inhabited

/-- An opening line from its `BEGIN` on, in parts. -/
structure Clause where
  once : Bool
  sorted : Bool
  name : List Char
  /-- The words after `FOR`. -/
  words : List (List Char)
deriving DecidableEq

namespace Clause

/-- The text after `word`, if it begins so. -/
def after? (word : String) (cs : List Char) : Option (List Char) :=
  word.toList.isPrefixOf? cs

/-- Whether the text begins with `word`, and the text without it. -/
def option (word : String) (cs : List Char) : Bool × List Char :=
  match after? word cs with
  | some rest => (true, rest)
  | none => (false, cs)

/-- The words of a list that spaces separate. It begins with a word, blanks may follow the last one,
and no blank but the space stands between words. -/
def words? (cs : List Char) : Option (List (List Char)) :=
  let body := Text.trimEnd cs
  if body.head?.any (!Text.isBlank ·) && body.all fun c ↦ !Text.isBlank c || c == ' ' then
    some ((body.splitOn ' ').filter (!·.isEmpty))
  else none

/-- Reads a clause that begins right here and takes up the rest of the line. -/
def parse? (cs : List Char) : Option Clause := do
  let rest ← after? "BEGIN " cs
  let (once, rest) := option "ONCE " rest
  let (sorted, rest) := option "SORTED " rest
  let rest ← after? "WORKFLOW AREA " rest
  let name := rest.takeWhile (!Text.isBlank ·)
  let rest ← after? " FOR " (rest.dropWhile (!Text.isBlank ·))
  let words ← words? rest
  if name.isEmpty then none else some { once, sorted, name, words }

/-- The first clause of a line, with the text that leads to it. The lead stays on one line. -/
def find? : List Char → Option (List Char × Clause)
  | [] => none
  | c :: cs =>
    match parse? (c :: cs) with
    | some clause => some ([], clause)
    | none => if c = '\n' then none else (find? cs).map fun (lead, clause) ↦ (c :: lead, clause)

/-- The words after `FOR` as workflow ids and flag. The last word is a flag if `IF` stands before it
and an id before that; in shorter lists `IF` is an id like any other. -/
def idsAndFlag (words : List (List Char)) : List (List Char) × Option (List Char) :=
  match words.reverse with
  | flag :: ['I', 'F'] :: id :: ids => ((id :: ids).reverse, some flag)
  | _ => (words, none)

end Clause

namespace Header

/-- The header that a line opens an area with, if it does. -/
def parse? (line : String) : Option Header :=
  (Clause.find? line.toList).map fun (lead, clause) ↦
    let (ids, flag) := Clause.idsAndFlag clause.words
    { lead := String.ofList lead
      name := String.ofList clause.name
      workflows := ids.map String.ofList
      once := clause.once
      sorted := clause.sorted
      flag := flag.map String.ofList
      beginLine := line }

/-- Whether the area has content for a workflow. -/
def appliesTo (h : Header) (workflow : String) : Bool :=
  h.workflows.contains workflow

/-- Whether a flag chooses the content of the area. -/
def isConditional (h : Header) : Bool :=
  h.flag.isSome

/-- The workflow ids in ascending order. -/
def sortedWorkflows (h : Header) : List String :=
  h.workflows.mergeSort (· ≤ ·)

/-- The opening line in normal form, the ids in ascending order. -/
def key (h : Header) : String :=
  h.lead ++ "BEGIN " ++ (if h.once then "ONCE " else "") ++ (if h.sorted then "SORTED " else "") ++
    "WORKFLOW AREA " ++ h.name ++ " FOR " ++ " ".intercalate h.sortedWorkflows ++
    (match h.flag with
      | some flag => " IF " ++ flag
      | none => "")

end Header

end WorkflowAreas
