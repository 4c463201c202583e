import WorkflowAreas.Header
import WorkflowAreas.Run

/-!
# Merge strategies

A strategy says how new content goes into the region of an area in a file. The opening line of the area
chooses it: `ONCE` replaces the area, `SORTED` keeps a sorted set of lines, and otherwise the content is
appended unless it is there already.

`pairwise_union` and `mem_union` determine the sorted set: it ascends strictly, and a line is in it
exactly if it is in the content or is a line of the interior that is not blank.
-/

namespace WorkflowAreas.Merge

/-- The place of an area in a list of lines: the positions of its opening and its closing line, counted
from zero. -/
structure Region where
  start : Nat
  stop : Nat
deriving DecidableEq, Repr, Inhabited

namespace Region

/-- The lines before the opening line. -/
def before (r : Region) (lines : List String) : List String :=
  lines.take r.start

/-- The lines between the opening and the closing line. -/
def interior (r : Region) (lines : List String) : List String :=
  (lines.take r.stop).drop (r.start + 1)

/-- The lines after the closing line. -/
def after (r : Region) (lines : List String) : List String :=
  lines.drop (r.stop + 1)

/-- The lines with a new interior. -/
def withInterior (r : Region) (lines interior : List String) : List String :=
  lines.take (r.start + 1) ++ interior ++ lines.drop r.stop

end Region

/-- How content goes into a region. -/
inductive Strategy
  /-- The content takes the place of the area, markers included. -/
  | replace
  /-- The interior becomes the sorted set of its lines and the content, blank lines left out. -/
  | unite
  /-- The content goes before the closing line unless it is in the interior as a run. -/
  | append
deriving DecidableEq, Repr

/-- Puts a line into an ascending list unless it is there. -/
def insertLine (line : String) : List String → List String
  | [] => [line]
  | l :: ls =>
    if line < l then line :: l :: ls
    else if l < line then l :: insertLine line ls
    else l :: ls

/-- The lines in ascending order, each once. -/
def ascending (lines : List String) : List String :=
  lines.foldr insertLine []

/-- The lines of an interior that count, together with new content, as a sorted set. -/
def union (interior content : List String) : List String :=
  ascending (interior.filter (!Text.isBlankLine ·) ++ content)

theorem mem_insertLine {line other : String} {ls : List String} :
    other ∈ insertLine line ls ↔ other = line ∨ other ∈ ls := by
  induction ls with
  | nil => simp [insertLine]
  | cons l ls ih =>
    unfold insertLine
    split
    · simp
    · split
      · rw [List.mem_cons, ih, List.mem_cons]
        exact or_left_comm
      · rename_i nlt nlt'
        have same : line = l := String.le_antisymm (String.not_lt.1 nlt') (String.not_lt.1 nlt)
        simp [same]

theorem pairwise_insertLine {line : String} {ls : List String} (h : ls.Pairwise (· < ·)) :
    (insertLine line ls).Pairwise (· < ·) := by
  induction ls with
  | nil => simp [insertLine]
  | cons l ls ih =>
    rw [List.pairwise_cons] at h
    unfold insertLine
    split
    · rename_i lt
      refine List.pairwise_cons.2 ⟨fun m hm ↦ ?_, List.pairwise_cons.2 h⟩
      rcases List.mem_cons.1 hm with rfl | hm
      · exact lt
      · exact String.lt_trans lt (h.1 m hm)
    · split
      · rename_i lt
        refine List.pairwise_cons.2 ⟨fun m hm ↦ ?_, ih h.2⟩
        rcases mem_insertLine.1 hm with rfl | hm
        · exact lt
        · exact h.1 m hm
      · exact List.pairwise_cons.2 h

theorem mem_ascending {line : String} {lines : List String} :
    line ∈ ascending lines ↔ line ∈ lines := by
  induction lines with
  | nil => rfl
  | cons l ls ih => rw [ascending, List.foldr_cons, mem_insertLine, ← ascending, ih, List.mem_cons]

theorem pairwise_ascending (lines : List String) : (ascending lines).Pairwise (· < ·) := by
  induction lines with
  | nil => exact List.Pairwise.nil
  | cons l ls ih => exact pairwise_insertLine ih

/-- The lines of a sorted set of lines. -/
theorem mem_union {line : String} {interior content : List String} :
    line ∈ union interior content ↔
      line ∈ content ∨ line ∈ interior ∧ Text.isBlankLine line = false := by
  simp [union, mem_ascending, or_comm]

/-- A sorted set of lines ascends strictly, so no line is in it twice. -/
theorem pairwise_union (interior content : List String) :
    (union interior content).Pairwise (· < ·) :=
  pairwise_ascending _

namespace Strategy

/-- The strategy that an opening line chooses. `ONCE` goes before `SORTED`. -/
def ofHeader (h : Header) : Strategy :=
  if h.once then .replace else if h.sorted then .unite else .append

/-- The lines with the content merged into the region, and whether that counts as a change. -/
def apply (s : Strategy) (lines : List String) (r : Region) (content : List String) :
    List String × Bool :=
  match s with
  | .replace => (r.before lines ++ content ++ r.after lines, true)
  | .unite =>
    let united := union (r.interior lines) content
    if r.interior lines = united then (lines, false) else (r.withInterior lines united, true)
  | .append =>
    if Run.occurs content (r.interior lines) then (lines, false)
    else (r.withInterior lines (r.interior lines ++ content), true)

end Strategy

end WorkflowAreas.Merge
