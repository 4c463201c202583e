/-!
# Contiguous runs

A list occurs in another as a run when its elements stand there side by side and in order. Marker
texts are looked for in lines this way, and template lines in the interior of an area.

`occurs_iff` says that the search finds exactly the decompositions `front ++ run ++ back`.
-/

namespace WorkflowAreas.Run

variable {α : Type} [DecidableEq α]

/-- Whether `run` occurs in the list as a contiguous run. The empty run always does. -/
def occurs (run : List α) : List α → Bool
  | [] => run.isPrefixOf []
  | x :: xs => run.isPrefixOf (x :: xs) || occurs run xs

/-- A run occurs exactly where the list can be cut around it. -/
theorem occurs_iff {run xs : List α} :
    occurs run xs = true ↔ ∃ front back, xs = front ++ run ++ back := by
  induction xs with
  | nil =>
    simp only [occurs, List.isPrefixOf_iff_prefix, List.prefix_nil]
    constructor
    · rintro rfl
      exact ⟨[], [], rfl⟩
    · rintro ⟨front, back, h⟩
      simp_all
  | cons x xs ih =>
    simp only [occurs, Bool.or_eq_true, List.isPrefixOf_iff_prefix, ih]
    constructor
    · rintro (⟨back, h⟩ | ⟨front, back, h⟩)
      · exact ⟨[], back, by simp [h]⟩
      · exact ⟨x :: front, back, by simp [h]⟩
    · rintro ⟨front, back, h⟩
      cases front with
      | nil => exact Or.inl ⟨back, by simpa using h.symm⟩
      | cons y ys =>
        simp only [List.cons_append, List.cons.injEq] at h
        exact Or.inr ⟨ys, back, h.2⟩

end WorkflowAreas.Run
