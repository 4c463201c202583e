import WorkflowAreas.Proofs.Merge.Acceptance

/-!
# Where the lines of a merged file come from

A merged file has lines of the file before and contents of areas of the template, and nothing else
(`mem_lines_merge`). Those contents come from bodies, so what a transform does to other lines is of no
consequence (`merge_congr`). A transform that makes no marker of a template line is therefore as good as
one that makes no marker at all (`confined`).
-/

namespace WorkflowAreas

open Segment

/-- The body of an area consists of lines of the file that are no markers. -/
theorem Area.mem_of_mem_body {ls : List String} {a : Area} (ha : a ∈ extract ls) {l : String}
    (hl : l ∈ a.body) : l ∈ ls ∧ Marker.isBoundary l = false := by
  refine ⟨?_, (sound_of_mem_extract ha).body l hl⟩
  rw [← areas_cut, mem_areas] at ha
  rw [← flatten_cut ls]
  exact List.mem_flatMap.2
    ⟨area a, ha, List.mem_cons_of_mem _ (List.mem_append_left a.endLine.toList hl)⟩

/-- A transform that makes no marker of a line of a template. -/
def MarkerSafeOn (template : List String) (transform : String → String) : Prop :=
  ∀ l ∈ template, Marker.isBoundary l = false → Marker.isBoundary (transform l) = false

/-- The transform on the lines of a template alone. -/
def confined (template : List String) (transform : String → String) (l : String) : String :=
  if l ∈ template then transform l else l

theorem MarkerSafeOn.markerSafe_confined {template : List String} {transform : String → String}
    (h : MarkerSafeOn template transform) : MarkerSafe (confined template transform) := by
  intro l hl
  rw [confined]
  split
  · exact h l ‹_› hl
  · exact hl

namespace Merge

variable {transform transform' : String → String} {flags : Flags} {o : Outcome} {a : Area}
  {workflow : String} {template target : List String} {l : String}

theorem mem_lines_mergeArea (hl : l ∈ (mergeArea transform flags o a).lines) :
    l ∈ o.lines ∨ l ∈ content transform flags a := by
  obtain ⟨-, hsame⟩ | ⟨e, front, interior, back, -, hlines, -, hafter⟩ :=
    lines_mergeArea_cases transform flags o a
  · exact Or.inl (hsame ▸ hl)
  · rw [hafter, hlines] at hl
    rw [hlines]
    by_cases hs : Strategy.ofHeader a.header = .replace
    · rw [hs, fst_apply_replace] at hl
      simp only [List.mem_append, List.mem_cons] at hl ⊢
      tauto
    · rw [fst_apply_of_ne_replace hs] at hl
      have hfill := @Strategy.mem_of_mem_fill (Strategy.ofHeader a.header) interior
        (content transform flags a) l
      simp only [List.mem_append, List.mem_cons] at hl ⊢
      tauto

theorem mem_lines_foldl_mergeArea {as : List Area}
    (hl : l ∈ (as.foldl (mergeArea transform flags) o).lines) :
    l ∈ o.lines ∨ ∃ a ∈ as, l ∈ content transform flags a := by
  induction as generalizing o with
  | nil => exact Or.inl hl
  | cons a as ih =>
    rcases ih hl with hl | ⟨c, hc, hl⟩
    · exact (mem_lines_mergeArea hl).imp_right fun h ↦ ⟨a, List.mem_cons_self, h⟩
    · exact Or.inr ⟨c, List.mem_cons_of_mem a hc, hl⟩

/-- **A merge brings nothing in but contents.** -/
theorem mem_lines_merge (hl : l ∈ (merge workflow transform flags target template).lines) :
    l ∈ target ∨ ∃ a ∈ Area.applicable workflow template, l ∈ content transform flags a :=
  mem_lines_foldl_mergeArea (o := Outcome.start target) hl

/-- Of transform and flags only what they make of the body counts. -/
theorem mergeArea_congr {flags' : Flags} (h : content transform flags a = content transform' flags' a) :
    mergeArea transform flags o a = mergeArea transform' flags' o a := by
  rw [mergeArea, mergeArea, h]

/-- **Of a transform only the lines of the template count.** -/
theorem merge_congr (h : ∀ l ∈ template, transform l = transform' l) :
    merge workflow transform flags target template =
      merge workflow transform' flags target template := by
  refine List.foldl_ext _ _ _ fun o a ha ↦ mergeArea_congr ?_
  refine List.map_congr_left fun l hl ↦ h l ?_
  exact (Area.mem_of_mem_body (Area.mem_applicable.1 ha).1
    ((Branch.choose_sublist a.body a.header.flag flags).subset hl)).1

theorem merge_confined :
    merge workflow (confined template transform) flags target template =
      merge workflow transform flags target template :=
  merge_congr fun _ hl ↦ if_pos hl

end Merge

end WorkflowAreas
