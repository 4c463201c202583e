import WorkflowAreas.Proofs.Merge.Splice

/-!
# Content that is appended

An area with no mark of its own gets its content at the end, unless the lines of the content stand
somewhere in it already, side by side and in order.

* `Run.occurs_eq_any_windows`: looking for a run is looking through the stretches of its length;
* `isInfix_fill_append`: what is a run of an interior stays one, whatever is appended;
* `apply_append`: what the strategy does to a list of lines, in full.
-/

namespace WorkflowAreas

namespace Run

variable {α : Type} {run xs : List α}

/-- The stretches of a list that have `n` elements, from the first one to the last. -/
def windows (n : Nat) (xs : List α) : List (List α) :=
  (List.range (xs.length + 1 - n)).map fun i ↦ (xs.drop i).take n

/-- The stretches of a list are its runs. -/
theorem mem_windows : run ∈ windows run.length xs ↔ run <:+: xs := by
  rw [windows, List.mem_map]
  constructor
  · rintro ⟨i, -, hrun⟩
    rw [← hrun]
    exact (List.take_prefix _ _).isInfix.trans (List.drop_suffix _ _).isInfix
  · rintro ⟨front, back, rfl⟩
    refine ⟨front.length, ?_, ?_⟩
    · rw [List.mem_range, List.length_append, List.length_append]
      omega
    · rw [List.append_assoc, List.drop_left, List.take_left]

variable [DecidableEq α]

theorem occurs_iff_isInfix : occurs run xs = true ↔ run <:+: xs := by
  rw [occurs_iff, List.IsInfix]
  exact exists₂_congr fun front back ↦ eq_comm

/-- **Looking for a run** is comparing it with every stretch of its length. -/
theorem occurs_eq_any_windows :
    occurs run xs = (run.isEmpty || (windows run.length xs).any (· == run)) := by
  rw [Bool.eq_iff_iff, occurs_iff_isInfix, Bool.or_eq_true, List.isEmpty_iff, List.any_beq',
    List.contains_iff_mem, mem_windows]
  refine (or_iff_right_of_imp ?_).symm
  rintro rfl
  exact List.nil_infix

end Run

namespace Merge

variable {interior content run : List String}

/-! ### Interiors -/

theorem isInfix_fill_append_self : content <:+: Strategy.append.fill interior content := by
  rw [← Run.occurs_iff_isInfix, ← Strategy.fill_append_eq_self_iff]
  exact Strategy.fill_fill .append interior content

/-- **Runs stay.** -/
theorem isInfix_fill_append (hrun : run <:+: interior) (content : List String) :
    run <:+: Strategy.append.fill interior content := by
  rw [Strategy.fill]
  split
  · exact hrun
  · exact hrun.trans (List.prefix_append interior content).isInfix

/-! ### Regions -/

theorem apply_append_of_occurs {lines : List String} {r : Region}
    (hocc : Run.occurs content (r.interior lines) = true) :
    Strategy.append.apply lines r content = (lines, false) :=
  if_pos hocc

/-- Content that is not there goes before the closing line. -/
theorem apply_append_of_not_occurs {lines : List String} {r : Region} (hr : r.Within lines)
    (hocc : Run.occurs content (r.interior lines) = false) :
    Strategy.append.apply lines r content =
      (lines.take r.stop ++ content ++ lines.drop r.stop, true) := by
  rw [hr.take_stop, List.append_assoc (lines.take (r.start + 1))]
  exact if_neg (Bool.eq_false_iff.1 hocc)

/-- **Content is appended at most once.** If it is a run of the area nothing happens, and otherwise it is
put in before the closing line. Either way it is a run of the area then, so that merging it again does
nothing, and what was a run of the area still is one. -/
theorem apply_append {lines : List String} {r : Region} (hr : r.Within lines) (content : List String) :
    let merged := Strategy.append.apply lines r content
    let interior := (r.shift lines merged.1).interior merged.1
    Run.occurs content (r.interior lines) = (content.isEmpty ||
        (Run.windows content.length (r.interior lines)).any (· == content)) ∧
      (Run.occurs content (r.interior lines) = true ↔
        ∃ x y, r.interior lines = x ++ content ++ y) ∧
      (Run.occurs content (r.interior lines) = true → merged = (lines, false)) ∧
      (Run.occurs content (r.interior lines) = false →
        merged = (lines.take r.stop ++ content ++ lines.drop r.stop, true)) ∧
      r.Keeps lines merged.1 ∧ content <:+: interior ∧
      Strategy.append.inTurn lines r content content = (merged.1, false) ∧
      ∀ run, run <:+: r.interior lines → run <:+: interior := by
  intro merged interior
  have hs : Strategy.append ≠ .replace := nofun
  have hinterior : interior = Strategy.append.fill (r.interior lines) content :=
    hr.interior_apply hs content
  have hcontent : content <:+: interior := hinterior ▸ isInfix_fill_append_self
  exact ⟨Run.occurs_eq_any_windows, Run.occurs_iff, apply_append_of_occurs,
    apply_append_of_not_occurs hr, hr.keeps_apply hs content, hcontent,
    apply_append_of_occurs (Run.occurs_iff_isInfix.2 hcontent),
    fun run hrun ↦ hinterior ▸ isInfix_fill_append hrun content⟩

/-- Content that is there in another order only. -/
theorem apply_append_sample :
    let lines := ["head", "# BEGIN WORKFLOW AREA a FOR w", "y", "x", "y", "x", "# END WORKFLOW AREA",
      "tail"]
    let r : Region := ⟨1, 6⟩
    let merged := Strategy.append.apply lines r ["x", "x"]
    r.Within lines ∧ Run.occurs ["x", "x"] (r.interior lines) = false ∧
      Run.occurs ["x", "y", "x"] (r.interior lines) = true ∧
      Strategy.append.apply lines r ["x", "y", "x"] = (lines, false) ∧
      merged = (["head", "# BEGIN WORKFLOW AREA a FOR w", "y", "x", "y", "x", "x", "x",
        "# END WORKFLOW AREA", "tail"], true) ∧
      Strategy.append.inTurn lines r ["x", "x"] ["x", "x"] = (merged.1, false) ∧
      ["x", "y", "x"] <:+: (r.shift lines merged.1).interior merged.1 := by
  intro lines r merged
  have hr : r.Within lines := by decide
  have habsent : Run.occurs ["x", "x"] (r.interior lines) = false := by decide
  have hthere : Run.occurs ["x", "y", "x"] (r.interior lines) = true := by decide
  obtain ⟨-, -, -, hput, -, -, hagain, hruns⟩ := apply_append hr ["x", "x"]
  exact ⟨hr, habsent, hthere, (apply_append hr ["x", "y", "x"]).2.2.1 hthere, hput habsent, hagain,
    hruns _ (Run.occurs_iff_isInfix.1 hthere)⟩

end Merge

end WorkflowAreas
