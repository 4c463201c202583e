import WorkflowAreas.Proofs.Merge.Whole

/-!
# What a merge means, area by area

The engine edits one list of lines again and again. This module says what comes of it without the
engine: a merge keeps every line of the file outside of areas, and every area that the template has
nothing for; each other area it rewrites in place.

`Rewritten` says for one area what that is. It does not mention how content is put in: a `SORTED` area
is described by what is in it and in which order, and a plain one by the cuts of its body.
-/

namespace WorkflowAreas.Merge

open Segment

/-- What becomes of the area `b` of a file when content is merged into it under a header. -/
inductive Rewritten (header : Header) (content : List String) (b : Area) : List String → Prop
  /-- A `ONCE` area gives way to the content, its markers included. -/
  | once (ho : header.once = true) : Rewritten header content b content
  /-- The interior of a `SORTED` area ascends strictly, and has the content and its own lines that are
  not blank. -/
  | sorted {interior : List String} (ho : header.once = false) (hs : header.sorted = true)
      (hasc : interior.Pairwise (· < ·))
      (hmem : ∀ l, l ∈ interior ↔ l ∈ content ∨ l ∈ b.body ∧ Text.isBlankLine l = false) :
      Rewritten header content b (b.header.beginLine :: (interior ++ b.endLine.toList))
  /-- Content that is in a plain area side by side and in order is not put in again. -/
  | present {front back : List String} (ho : header.once = false) (hs : header.sorted = false)
      (hrun : b.body = front ++ content ++ back) : Rewritten header content b b.lines
  /-- Other content goes to the end of a plain area. -/
  | appended (ho : header.once = false) (hs : header.sorted = false)
      (hrun : ∀ front back, b.body ≠ front ++ content ++ back) :
      Rewritten header content b
        (b.header.beginLine :: (b.body ++ content ++ b.endLine.toList))

/-- What a merge for a workflow makes of a segment of a file. -/
inductive MergedSegment (workflow : String) (transform : String → String) (flags : Flags)
    (template : List String) : Segment → List String → Prop
  | text (l : String) : MergedSegment workflow transform flags template (.text l) [l]
  /-- The template has no area for the workflow with this opening line. -/
  | kept {b : Area} (h : ∀ a ∈ Area.extract template, a.header.appliesTo workflow = true →
      a.header.beginLine ≠ b.header.beginLine) :
      MergedSegment workflow transform flags template (.area b) b.lines
  | rewritten {a b : Area} {ls : List String} (ha : a ∈ Area.extract template)
      (happ : a.header.appliesTo workflow = true)
      (heq : a.header.beginLine = b.header.beginLine)
      (h : Rewritten a.header ((Branch.choose a.body a.header.flag flags).map transform) b ls) :
      MergedSegment workflow transform flags template (.area b) ls

/-- A filled interior is what its strategy says. -/
theorem rewritten_absorb {a b : Area} (heq : b.header.beginLine = a.header.beginLine)
    (content : List String) :
    Rewritten a.header content b (flatten (absorb a content (.area b))) := by
  cases ho : a.header.once with
  | true =>
    rw [absorb_of_once heq ho, flatten_map_text]
    exact .once ho
  | false =>
    rw [absorb_of_not_once heq ho, flatten_cons, flatten_nil, List.append_nil, lines, Area.lines,
      Strategy.ofHeader, ho, if_neg Bool.false_ne_true]
    cases hs : a.header.sorted with
    | true => exact .sorted ho hs (pairwise_union b.body content) fun l ↦ mem_union
    | false =>
      rw [if_neg Bool.false_ne_true]
      by_cases hocc : Run.occurs content b.body = true
      · obtain ⟨front, back, hrun⟩ := Run.occurs_iff.1 hocc
        rw [Strategy.fill_append_of_occurs hocc]
        exact .present ho hs hrun
      · rw [Strategy.fill_append_of_not_occurs hocc]
        exact .appended ho hs fun front back hrun ↦ hocc (Run.occurs_iff.2 ⟨front, back, hrun⟩)

theorem mergedSegment_settle {workflow : String} {template : List String}
    (hn : ((Area.applicable workflow template).map (·.header.beginLine)).Nodup)
    (transform : String → String) (flags : Flags) (s : Segment) :
    MergedSegment workflow transform flags template s
      (flatten (settle transform flags (Area.applicable workflow template) s)) := by
  cases s with
  | text l => exact .text l
  | area b =>
    by_cases h : ∃ a ∈ Area.applicable workflow template,
        a.header.beginLine = b.header.beginLine
    · obtain ⟨a, ha, heq⟩ := h
      obtain ⟨hat, happ⟩ := Area.mem_applicable.1 ha
      rw [settle_of_mem hn ha heq]
      exact .rewritten hat happ heq (rewritten_absorb heq.symm _)
    · simp only [not_exists, not_and] at h
      rw [settle_of_ne h, flatten_cons, flatten_nil, List.append_nil]
      exact .kept fun a hat happ ↦ h a (Area.mem_applicable.2 ⟨hat, happ⟩)

variable {workflow p q : String} {transform : String → String} {flags : Flags}
  {target template : List String}

/-- **The meaning of a merge.** The file is cut into its areas and the lines between them; the merged
file is what becomes of each, in the same order. Only areas for which the template has an area for the
workflow are rewritten. -/
theorem merge_areaWise (hpass : (Consistency.check template target p q).passed = true)
    (hsafe : MarkerSafe transform) (hends : ClosingLinesAgree workflow template target) :
    flatten (cut target) = target ∧ areas (cut target) = Area.extract target ∧
      ∃ pieces, List.Forall₂ (MergedSegment workflow transform flags template) (cut target) pieces ∧
        (merge workflow transform flags target template).lines = pieces.flatten := by
  have hn := nodup_applicable_of_passed hpass workflow
  refine ⟨flatten_cut target, areas_cut target,
    (cut target).map fun s ↦
      flatten (settle transform flags (Area.applicable workflow template) s), ?_, ?_⟩
  · rw [List.forall₂_map_right_iff]
    exact List.forall₂_same.2 fun s _ ↦ mergedSegment_settle hn transform flags s
  · have hlines := lines_merge hsafe flags (tidy_cut_of_passed hpass)
      (fits_of_passed hpass hends)
    rw [flatten_cut, absorbAll_eq_flatMap_settle hn, flatten_flatMap, List.flatMap_def] at hlines
    exact hlines

theorem merge_areaWise_sample :
    (Consistency.check Sample.template Sample.target "template" "target").passed = true ∧
      MarkerSafe id ∧ ClosingLinesAgree "w" Sample.template Sample.target ∧
      flatten (cut Sample.target) = Sample.target ∧
      areas (cut Sample.target) = Area.extract Sample.target ∧
      ∃ pieces, List.Forall₂ (MergedSegment "w" id ∅ Sample.template) (cut Sample.target) pieces ∧
        (merge "w" id ∅ Sample.target Sample.template).lines = pieces.flatten :=
  ⟨Sample.passed, fun _ h ↦ h, Sample.closingLinesAgree,
    merge_areaWise Sample.passed (fun _ h ↦ h) Sample.closingLinesAgree⟩

end WorkflowAreas.Merge
