import WorkflowAreas.Proofs.Segment

/-!
# The numbers of areas

An area carries the number of its opening line, counted from one.

* `Segment.line_of_cut_eq_append`: in a cut the number tells how many lines stand before the area, so a cut
  has its areas where the file has them;
* `Area.getElem?_line`: the line of that number opens the area;
* `Area.pairwise_line_extract`: the areas of a file come in the order of their lines.
-/

namespace WorkflowAreas

theorem Area.length_lines (a : Area) : a.lines.length = a.extent + 1 := by
  rw [lines, extent, List.length_cons, List.length_append]

namespace Segment

theorem line_of_cutFrom_eq_append {n skip : Nat} {ls : List String} {front back : List Segment}
    {a : Area} (h : cutFrom n skip ls = front ++ area a :: back) :
    a.line = n + skip + (flatten front).length := by
  induction ls generalizing n skip front with
  | nil => simp [cutFrom] at h
  | cons l ls ih =>
    cases skip with
    | succ skip =>
      rw [cutFrom] at h
      rw [ih h]
      omega
    | zero =>
      rw [cutFrom] at h
      cases hp : Header.parse? l with
      | none =>
        simp only [hp] at h
        cases front with
        | nil => cases h
        | cons s front =>
          obtain ⟨rfl, hrest⟩ := List.cons.inj h
          rw [ih hrest, flatten_cons, List.length_append, lines, List.length_singleton]
          omega
      | some g =>
        simp only [hp] at h
        cases front with
        | nil =>
          obtain ⟨harea, -⟩ := List.cons.inj h
          cases harea
          rfl
        | cons s front =>
          obtain ⟨rfl, hrest⟩ := List.cons.inj h
          rw [ih hrest, flatten_cons, List.length_append, lines, Area.length_lines]
          omega

/-- **The number of an area tells how many lines stand before it.** -/
theorem line_of_cut_eq_append {ls : List String} {front back : List Segment} {a : Area}
    (h : cut ls = front ++ area a :: back) : a.line = (flatten front).length + 1 := by
  rw [line_of_cutFrom_eq_append h, Nat.add_zero, Nat.add_comm]

end Segment

namespace Area

/-- **The line with the number of an area opens it.** -/
theorem getElem?_line {ls : List String} {a : Area} (ha : a ∈ extract ls) :
    1 ≤ a.line ∧ ls[a.line - 1]? = some a.header.beginLine := by
  rw [← Segment.areas_cut, Segment.mem_areas] at ha
  obtain ⟨front, back, hcut⟩ := List.append_of_mem ha
  have hline := Segment.line_of_cut_eq_append hcut
  have hls := Segment.flatten_cut ls
  rw [hcut, Segment.flatten_append, Segment.flatten_cons, Segment.lines, lines] at hls
  rw [hline]
  exact ⟨Nat.le_add_left 1 _, by rw [← hls, Nat.add_sub_cancel]; simp⟩

theorem le_line_of_mem_extractFrom {n : Nat} {ls : List String} :
    ∀ a ∈ extractFrom n ls, n ≤ a.line := by
  induction ls generalizing n with
  | nil => simp [extractFrom]
  | cons l ls ih =>
    have hrest : ∀ a ∈ extractFrom (n + 1) ls, n ≤ a.line := fun a ha ↦
      Nat.le_of_succ_le (ih a ha)
    rw [extractFrom]
    cases Header.parse? l with
    | none => exact hrest
    | some h =>
      intro a ha
      rcases List.mem_cons.1 ha with rfl | ha
      · exact Nat.le_refl n
      · exact hrest a ha

theorem pairwise_line_extractFrom (n : Nat) (ls : List String) :
    (extractFrom n ls).Pairwise (·.line < ·.line) := by
  induction ls generalizing n with
  | nil => exact List.Pairwise.nil
  | cons l ls ih =>
    rw [extractFrom]
    cases Header.parse? l with
    | none => exact ih (n + 1)
    | some h => exact List.pairwise_cons.2 ⟨le_line_of_mem_extractFrom, ih (n + 1)⟩

/-- **Areas come in the order of their lines.** -/
theorem pairwise_line_extract (ls : List String) : (extract ls).Pairwise (·.line < ·.line) :=
  extract_eq ls ▸ pairwise_line_extractFrom 1 ls

end Area

end WorkflowAreas
