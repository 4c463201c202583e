import WorkflowAreas.Proofs.Merge.Region

/-!
# Regions before and after

A strategy is given a region as two positions in a list of lines. One that keeps the markers puts a new
interior between them, so the closing line and all that follows it move. `Region.shift` is the region
afterwards, found from the number of lines alone.

* `Region.Within.exists_between`: a region within a list of lines is one that the lines around it give;
* `Region.Within.keeps_apply`, `Region.Within.interior_apply`: what stays, and what the interior becomes;
* `Region.Within.snd_apply_iff`: a change is reported exactly if there is one;
* `Region.Within.fst_inTurn`: contents that are merged in turn fill the interior in turn.
-/

namespace WorkflowAreas.Merge

namespace Region

/-- A region lies within a list of lines: its opening line and after it its closing line are there. -/
structure Within (r : Region) (lines : List String) : Prop where
  start_lt_stop : r.start < r.stop
  stop_lt_length : r.stop < lines.length

instance (r : Region) (lines : List String) : Decidable (r.Within lines) :=
  decidable_of_iff (r.start < r.stop ∧ r.stop < lines.length) ⟨fun h ↦ ⟨h.1, h.2⟩, fun h ↦ ⟨h.1, h.2⟩⟩

/-- The region after lines were put in between: its opening line is where it was, its closing line as far
from the end of the file as it was. -/
def shift (r : Region) (lines lines' : List String) : Region :=
  ⟨r.start, lines'.length - (lines.length - r.stop)⟩

/-- Nothing but the interior of a region is different in other lines. -/
structure Keeps (r : Region) (lines lines' : List String) : Prop where
  within : (r.shift lines lines').Within lines'
  take_eq : lines'.take (r.start + 1) = lines.take (r.start + 1)
  drop_eq : lines'.drop (r.shift lines lines').stop = lines.drop r.stop

end Region

/-- The lines with two contents merged into a region in turn, the second where the first left it, and
whether the second counts as a change. -/
def Strategy.inTurn (s : Strategy) (lines : List String) (r : Region) (first second : List String) :
    List String × Bool :=
  s.apply (s.apply lines r first).1 (r.shift lines (s.apply lines r first).1) second

namespace Region

section Split

variable {front interior filled back : List String} {b e : String}

theorem within_between :
    (between front interior).Within (front ++ b :: (interior ++ e :: back)) where
  start_lt_stop := by
    rw [start_between, stop_between]
    omega
  stop_lt_length := by
    rw [stop_between, List.length_append, List.length_cons, List.length_append, List.length_cons]
    omega

theorem shift_between :
    (between front interior).shift (front ++ b :: (interior ++ e :: back))
      (front ++ b :: (filled ++ e :: back)) = between front filled := by
  simp only [shift, between, List.length_append, List.length_cons, Region.mk.injEq, true_and]
  omega

theorem drop_stop_between :
    (front ++ b :: (interior ++ e :: back)).drop (between front interior).stop = e :: back := by
  rw [stop_between, List.drop_length_add_append, List.drop_succ_cons, List.drop_left]

theorem keeps_between :
    (between front interior).Keeps (front ++ b :: (interior ++ e :: back))
      (front ++ b :: (filled ++ e :: back)) where
  within := by
    rw [shift_between]
    exact within_between
  take_eq := by
    rw [start_between, List.take_length_add_append, List.take_length_add_append,
      List.take_succ_cons, List.take_succ_cons, List.take_zero, List.take_zero]
  drop_eq := by rw [shift_between, drop_stop_between, drop_stop_between]

end Split

namespace Within

variable {r : Region} {lines : List String}

/-- **A region is given by the lines around it.** -/
theorem exists_between (hr : r.Within lines) :
    ∃ front b interior e back,
      lines = front ++ b :: (interior ++ e :: back) ∧ r = between front interior := by
  obtain ⟨hstart, hstop⟩ := hr
  have hrest : lines.drop (r.start + 1) = r.interior lines ++ lines.drop r.stop := by
    rw [Region.interior, ← List.drop_append_of_le_length, List.take_append_drop]
    rw [List.length_take]
    omega
  refine ⟨lines.take r.start, lines[r.start], r.interior lines, lines[r.stop], r.after lines, ?_, ?_⟩
  · rw [Region.after, ← List.drop_eq_getElem_cons, ← hrest, ← List.drop_eq_getElem_cons,
      List.take_append_drop]
  · have hlength : (r.interior lines).length = r.stop - (r.start + 1) := by
      rw [Region.interior, List.length_drop, List.length_take, Nat.min_eq_left hstop.le]
    rw [between, List.length_take, hlength, Nat.min_eq_left (by omega),
      Nat.add_sub_cancel' (by omega)]

/-- The lines above the closing line are those down to the opening line and the interior. -/
theorem take_stop (hr : r.Within lines) :
    lines.take r.stop = lines.take (r.start + 1) ++ r.interior lines := by
  have hle : r.start + 1 ≤ r.stop := hr.start_lt_stop
  have hcut := List.take_append_drop (r.start + 1) (lines.take r.stop)
  rw [List.take_take, Nat.min_eq_left hle] at hcut
  exact hcut.symm

variable {s : Strategy}

/-- All around the interior stays. -/
theorem keeps_apply (hr : r.Within lines) (hs : s ≠ .replace) (content : List String) :
    r.Keeps lines (s.apply lines r content).1 := by
  obtain ⟨front, b, interior, e, back, rfl, rfl⟩ := hr.exists_between
  rw [fst_apply_of_ne_replace hs]
  exact keeps_between

/-- The interior is filled. -/
theorem interior_apply (hr : r.Within lines) (hs : s ≠ .replace) (content : List String) :
    (r.shift lines (s.apply lines r content).1).interior (s.apply lines r content).1 =
      s.fill (r.interior lines) content := by
  obtain ⟨front, b, interior, e, back, rfl, rfl⟩ := hr.exists_between
  rw [fst_apply_of_ne_replace hs, shift_between, interior_between, interior_between]

theorem fst_apply (hr : r.Within lines) (hs : s ≠ .replace) (content : List String) :
    (s.apply lines r content).1 = r.withInterior lines (s.fill (r.interior lines) content) := by
  obtain ⟨front, b, interior, e, back, rfl, rfl⟩ := hr.exists_between
  rw [fst_apply_of_ne_replace hs, interior_between, withInterior_between]

/-- **A change is reported exactly if there is one.** -/
theorem snd_apply_iff (hr : r.Within lines) (hs : s ≠ .replace) (content : List String) :
    (s.apply lines r content).2 = true ↔ (s.apply lines r content).1 ≠ lines := by
  obtain ⟨front, b, interior, e, back, rfl, rfl⟩ := hr.exists_between
  rw [fst_apply_of_ne_replace hs, snd_apply_of_ne_replace hs, Ne, Ne, List.append_cancel_left_eq,
    List.cons.injEq, List.append_cancel_right_eq, eq_self_iff_true, true_and]

/-- **Filling in turn**: the second content fills what the first made of the interior. -/
theorem fst_inTurn (hr : r.Within lines) (hs : s ≠ .replace) (first second : List String) :
    (s.inTurn lines r first second).1 =
      r.withInterior lines (s.fill (s.fill (r.interior lines) first) second) := by
  obtain ⟨front, b, interior, e, back, rfl, rfl⟩ := hr.exists_between
  rw [Strategy.inTurn, fst_apply_of_ne_replace hs, shift_between, fst_apply_of_ne_replace hs,
    interior_between, withInterior_between]

end Within

end Region

end WorkflowAreas.Merge
