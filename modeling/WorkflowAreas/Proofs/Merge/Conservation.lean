import WorkflowAreas.Proofs.Merge.Provenance

/-!
# What a merge keeps

A merge neither loses nor invents lines, whatever the template and the file are like. Nothing is asked of
them here: areas may be left open, come twice or stand in each other, so a region may reach over other
areas or begin in lines that an earlier step brought in.

* `mem_lines_mergeArea_of_not_isBlankLine`: a step that replaces no area keeps every line that is not
  blank, since blank lines are all that a sorted set clears away;
* `sublist_lines_mergeArea`: a step that appends keeps the lines with their order and number.

`merge_conserves` has both for a whole merge.
-/

namespace WorkflowAreas.Merge

variable {transform : String → String} {flags : Flags} {o : Outcome} {a : Area} {l : String}

/-! ### Filling an interior -/

/-- An interior that is filled keeps its lines that are not blank. -/
theorem Strategy.mem_fill {s : Strategy} (hs : s ≠ .replace) {interior : List String}
    (content : List String) (hl : l ∈ interior) (hblank : Text.isBlankLine l = false) :
    l ∈ s.fill interior content := by
  cases s with
  | replace => exact absurd rfl hs
  | unite => exact mem_union.2 (Or.inr ⟨hl, hblank⟩)
  | append =>
    rw [fill]
    split
    · exact hl
    · exact List.mem_append_left content hl

/-- Appending keeps the interior as it is and in front. -/
theorem Strategy.prefix_fill_append (interior content : List String) :
    interior <+: append.fill interior content := by
  rw [fill]
  split
  · exact List.prefix_rfl
  · exact List.prefix_append interior content

/-! ### A step -/

/-- An area without a closing line does nothing. -/
theorem lines_mergeArea_of_not_isTerminated (h : a.isTerminated = false) :
    (mergeArea transform flags o a).lines = o.lines := by
  obtain ⟨-, hsame⟩ | ⟨e, -, -, -, he, -⟩ := lines_mergeArea_cases transform flags o a
  · exact hsame
  · rw [Area.isTerminated, he] at h
    cases h

/-- **A step keeps what is not blank**, unless its area is replaced. -/
theorem mem_lines_mergeArea_of_not_isBlankLine (ho : a.isTerminated = true → a.header.once = false)
    (hl : l ∈ o.lines) (hblank : Text.isBlankLine l = false) :
    l ∈ (mergeArea transform flags o a).lines := by
  obtain ⟨-, hsame⟩ | ⟨e, front, interior, back, he, hlines, -, hafter⟩ :=
    lines_mergeArea_cases transform flags o a
  · rwa [hsame]
  · have hs := ofHeader_ne_replace (ho (by rw [Area.isTerminated, he, Option.isSome_some]))
    rw [hlines, fst_apply_of_ne_replace hs] at hafter
    rw [hafter]
    rw [hlines] at hl
    have hfill := fun h : l ∈ interior ↦
      Strategy.mem_fill hs (content transform flags a) h hblank
    simp only [List.mem_append, List.mem_cons] at hl ⊢
    tauto

/-- **A step that appends keeps the lines in order**, each as often as it was there. -/
theorem sublist_lines_mergeArea
    (h : a.isTerminated = true → a.header.once = false ∧ a.header.sorted = false) :
    o.lines.Sublist (mergeArea transform flags o a).lines := by
  obtain ⟨-, hsame⟩ | ⟨e, front, interior, back, he, hlines, -, hafter⟩ :=
    lines_mergeArea_cases transform flags o a
  · rw [hsame]
  · obtain ⟨ho, hsorted⟩ := h (by rw [Area.isTerminated, he, Option.isSome_some])
    have happend : Strategy.ofHeader a.header = .append := by
      rw [Strategy.ofHeader, ho, hsorted]
      rfl
    have hne : Strategy.append ≠ .replace := by decide
    rw [happend, hlines, fst_apply_of_ne_replace hne] at hafter
    rw [hafter, hlines]
    have hfill := (Strategy.prefix_fill_append interior (content transform flags a)).sublist
    exact ((hfill.append_right (e :: back)).cons_cons a.header.beginLine).append_left front

/-! ### A whole merge -/

/-- **A merge neither loses nor invents lines.** What it brings in is transformed from the chosen branch of
an area that is closed and for the workflow. If none of these areas is marked `ONCE`, every line that is not
blank stays, and if none is marked `SORTED` either, all lines stay and keep their order. -/
theorem merge_conserves (workflow : String) (transform : String → String) (flags : Flags)
    (target template : List String) :
    let closed := (Area.applicable workflow template).filter Area.isTerminated
    let after := (merge workflow transform flags target template).lines
    (∀ l ∈ after, l ∈ target ∨
      ∃ a ∈ closed, ∃ b ∈ Branch.choose a.body a.header.flag flags, l = transform b) ∧
    ((∀ a ∈ closed, a.header.once = false) →
      (∀ l ∈ target, Text.isBlankLine l = false → l ∈ after) ∧
      ((∀ a ∈ closed, a.header.sorted = false) → target.Sublist after)) := by
  intro closed after
  have hclosed {a : Area} (ha : a ∈ Area.applicable workflow template) (ht : a.isTerminated = true) :
      a ∈ closed := List.mem_filter.2 ⟨ha, ht⟩
  refine ⟨?_, fun honce ↦ ⟨fun l hl hblank ↦ ?_, fun hsorted ↦ ?_⟩⟩
  · refine List.foldlRecOn (motive := fun o : Outcome ↦ ∀ l ∈ o.lines, l ∈ target ∨
      ∃ a ∈ closed, ∃ b ∈ Branch.choose a.body a.header.flag flags, l = transform b) _ _
      (fun _ ↦ Or.inl) fun o ih a ha l hl ↦ ?_
    cases ht : a.isTerminated with
    | false => exact ih l (lines_mergeArea_of_not_isTerminated ht ▸ hl)
    | true =>
      rcases mem_lines_mergeArea hl with hl | hl
      · exact ih l hl
      · obtain ⟨b, hb, rfl⟩ := List.mem_map.1 hl
        exact Or.inr ⟨a, hclosed ha ht, b, hb, rfl⟩
  · exact List.foldlRecOn (motive := fun o : Outcome ↦ l ∈ o.lines) _ _ hl fun o ih a ha ↦
      mem_lines_mergeArea_of_not_isBlankLine (fun ht ↦ honce a (hclosed ha ht)) ih hblank
  · exact List.foldlRecOn (motive := fun o : Outcome ↦ target.Sublist o.lines) _ _
      (List.Sublist.refl target) fun o ih a ha ↦ ih.trans <| sublist_lines_mergeArea fun ht ↦
        ⟨honce a (hclosed ha ht), hsorted a (hclosed ha ht)⟩

/-- In the template an area is left open and another comes twice. In the file the region of that one reaches
over an area of another workflow, of which only the opening line is left. -/
theorem merge_conserves_sample :
    let template := ["# BEGIN ONCE WORKFLOW AREA a FOR w", "x", "# BEGIN WORKFLOW AREA b FOR w", "y", "y",
      "# END WORKFLOW AREA", "# BEGIN WORKFLOW AREA b FOR w", "z", "# END WORKFLOW AREA"]
    let target := ["# BEGIN ONCE WORKFLOW AREA a FOR w", "", "# BEGIN WORKFLOW AREA b FOR w", "y",
      "# BEGIN WORKFLOW AREA c FOR v", "", "# END WORKFLOW AREA", "end"]
    let closed := (Area.applicable "w" template).filter Area.isTerminated
    (∀ a ∈ closed, a.header.once = false) ∧ (∀ a ∈ closed, a.header.sorted = false) ∧
      (merge "w" id ∅ target template).lines ≠ target ∧
      target.Sublist (merge "w" id ∅ target template).lines := by
  intro template target closed
  have honce : ∀ a ∈ closed, a.header.once = false := by decide +kernel
  have hsorted : ∀ a ∈ closed, a.header.sorted = false := by decide +kernel
  exact ⟨honce, hsorted, by decide +kernel,
    ((merge_conserves "w" id ∅ target template).2 honce).2 hsorted⟩

end WorkflowAreas.Merge
