import Mathlib.Data.List.Basic
import WorkflowAreas.Area

/-!
# One pass, or a look ahead

`Area.extract` goes through a file once and keeps the area that is open. What it finds can be said without
that state: an area is `Area.opened` by its header and **the lines that follow it**, up to the first
marker. `Area.extractFrom` looks ahead in this way at every opening line, and `Area.extract_eq` says that
it finds the same areas.
-/

namespace WorkflowAreas

namespace Area

/-- The area that a header opens, given the lines after it. -/
def opened (header : Header) (line : Nat) (following : List String) : Area where
  header := header
  body := following.takeWhile (!Marker.isBoundary ·)
  endLine := (following.find? Marker.isBoundary).filter (!Marker.isBegin ·)
  line := line

/-- The areas of lines that are numbered from `line` on. -/
def extractFrom (line : Nat) : List String → List Area
  | [] => []
  | l :: ls =>
    match Header.parse? l with
    | some header => opened header line ls :: extractFrom (line + 1) ls
    | none => extractFrom (line + 1) ls

/-- What becomes of an area that is open, given the lines that are still to come. -/
def continued (a : Area) (following : List String) : Area :=
  { a with
    body := a.body ++ following.takeWhile (!Marker.isBoundary ·)
    endLine := (following.find? Marker.isBoundary).filter (!Marker.isBegin ·) }

variable {a : Area} {l : String}

theorem continued_nil (h : a.endLine = none) : a.continued [] = a := by
  rw [continued, List.takeWhile_nil, List.append_nil, List.find?_nil, Option.filter_none, ← h]

/-- An opening line leaves the area that is open without a closing line. -/
theorem continued_cons_of_isBegin (h : a.endLine = none) (hl : Marker.isBegin l = true)
    (ls : List String) : a.continued (l :: ls) = a := by
  have hb : Marker.isBoundary l = true := by rw [Marker.isBoundary, hl, Bool.or_true]
  rw [continued, List.takeWhile_cons_of_neg (by simpa using hb), List.find?_cons_of_pos hb,
    List.append_nil, Option.filter_some, hl, Bool.not_true, if_neg Bool.false_ne_true, ← h]

/-- A closing line closes the area that is open. -/
theorem continued_cons_of_isEnd (hl : Marker.isEnd l = true) (hbegin : Marker.isBegin l = false)
    (ls : List String) : a.continued (l :: ls) = { a with endLine := some l } := by
  have hb : Marker.isBoundary l = true := by rw [Marker.isBoundary, hl, Bool.true_or]
  rw [continued, List.takeWhile_cons_of_neg (by simpa using hb), List.find?_cons_of_pos hb,
    List.append_nil, Option.filter_some, hbegin, Bool.not_false, if_pos rfl]

/-- Any other line belongs to the body. -/
theorem continued_cons (hl : Marker.isBoundary l = false) (ls : List String) :
    a.continued (l :: ls) = { a with body := a.body ++ [l] }.continued ls := by
  rw [continued, continued, List.takeWhile_cons_of_pos (by simpa using hl),
    List.find?_cons_of_neg (by simpa using hl), List.append_assoc, List.singleton_append]

end Area

namespace Scan

variable {s : Scan} {n : Nat} {ls : List String}

/-- The area that is open has no closing line. -/
def IsOpen (s : Scan) : Prop :=
  ∀ a, s.current = some a → a.endLine = none

theorem IsOpen.step (h : s.IsOpen) (n : Nat) (l : String) : (s.step n l).IsOpen := by
  intro a ha
  rw [Scan.step] at ha
  split at ha
  · cases ha
    rfl
  · split at ha
    · cases ha
    · obtain ⟨b, hb, rfl⟩ := Option.map_eq_some_iff.1 ha
      exact h b hb

/-- **A pass ends with what a look ahead finds**: the areas that are done, the area that is open with its
part of the lines to come, and the areas that these lines open. -/
theorem areas_run (h : s.IsOpen) :
    (s.run n ls).areas =
      s.closed ++ (s.current.map (·.continued ls)).toList ++ Area.extractFrom n ls := by
  induction ls generalizing s n with
  | nil =>
    have hcurrent : s.current.map (·.continued []) = s.current :=
      (Option.map_congr fun a ha ↦ Area.continued_nil (h a ha)).trans Option.map_id_apply
    rw [run, hcurrent, Area.extractFrom, List.append_nil, areas]
  | cons l ls ih =>
    rw [run, ih (h.step n l), step, Area.extractFrom]
    cases hp : Header.parse? l with
    | some header =>
      have hbegin : Marker.isBegin l = true := by rw [Marker.isBegin, hp, Option.isSome_some]
      have hcurrent : s.current.map (·.continued (l :: ls)) = s.current :=
        (Option.map_congr fun a ha ↦ Area.continued_cons_of_isBegin (h a ha) hbegin ls).trans
          Option.map_id_apply
      rw [hcurrent, ← areas]
      exact List.append_assoc _ [Area.opened header n ls] _
    | none =>
      have hbegin : Marker.isBegin l = false := by rw [Marker.isBegin, hp, Option.isSome_none]
      cases hend : Marker.isEnd l with
      | true =>
        simp [Area.continued_cons_of_isEnd hend hbegin]
      | false =>
        have hb : Marker.isBoundary l = false := by rw [Marker.isBoundary, hend, hbegin, Bool.or_self]
        simp only [Area.continued_cons hb, Bool.false_eq_true, if_false, Option.map_map]
        rfl

end Scan

/-- **The areas of a file, with a look ahead at every opening line.** -/
theorem Area.extract_eq (ls : List String) : extract ls = extractFrom 1 ls := by
  have hopen : (⟨[], none⟩ : Scan).IsOpen := fun a ha ↦ nomatch ha
  exact Scan.areas_run hopen

end WorkflowAreas
