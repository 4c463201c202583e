import WorkflowAreas.Marker
import WorkflowAreas.Table

/-!
# Branches of an area

The first `ELSE` line of a body cuts it into two branches and belongs to neither. An area with a flag
shows one of them: the first if the flag is on, the second otherwise.

`split_append` and `split_eq_self` give the two cases of the cut, and `choose_sublist` says that a
branch has lines of the body only.
-/

namespace WorkflowAreas

/-- The settings of flags. -/
abbrev Flags := Table Bool

namespace Flags

/-- Whether a flag is on. A flag without a setting is off. -/
def isOn (flags : Flags) (flag : String) : Bool :=
  (flags.get? flag).getD false

end Flags

namespace Branch

/-- The branches of a body. Without an `ELSE` line the first is the whole and the second is empty. -/
def split (body : List String) : List String × List String :=
  (body.takeWhile (!Marker.isElse ·), (body.dropWhile (!Marker.isElse ·)).tail)

/-- The branch that a flag chooses. Without a flag it is the first. -/
def choose (body : List String) (flag : Option String) (flags : Flags) : List String :=
  if flag.all flags.isOn then (split body).1 else (split body).2

/-- The first `ELSE` line is where a body is cut. -/
theorem split_append {first second : List String} {line : String}
    (before : ∀ l ∈ first, Marker.isElse l = false) (here : Marker.isElse line = true) :
    split (first ++ line :: second) = (first, second) := by
  induction first with
  | nil => simp [split, here]
  | cons l ls ih =>
    have hl : Marker.isElse l = false := before l List.mem_cons_self
    have hs := ih fun m hm ↦ before m (List.mem_cons_of_mem l hm)
    simp only [split, Prod.mk.injEq] at hs
    simp [split, hl, hs]

/-- A body without an `ELSE` line is a first branch. -/
theorem split_eq_self {body : List String} (h : ∀ l ∈ body, Marker.isElse l = false) :
    split body = (body, []) := by
  induction body with
  | nil => rfl
  | cons l ls ih =>
    have hl : Marker.isElse l = false := h l List.mem_cons_self
    have hs := ih fun m hm ↦ h m (List.mem_cons_of_mem l hm)
    simp only [split, Prod.mk.injEq] at hs
    simp [split, hl, hs]

/-- A branch has lines of the body only. -/
theorem choose_sublist (body : List String) (flag : Option String) (flags : Flags) :
    (choose body flag flags).Sublist body := by
  rw [choose]
  split
  · exact (List.takeWhile_prefix _).sublist
  · exact (List.tail_sublist _).trans (List.dropWhile_suffix _).sublist

end Branch

end WorkflowAreas
