import WorkflowAreas.Proofs.Merge.Whole

/-!
# Merging twice

A merge leaves a file in which its areas have nothing left to do: a `ONCE` area has lost its markers, a
`SORTED` area holds the set that it would become, and a plain one holds its content as a run. A second
merge therefore changes nothing and reports no change, whatever the transform is. It skips what the first
one skipped, since a merge takes away the place of `ONCE` areas only, and those are never skipped.
-/

namespace WorkflowAreas.Merge

open Segment

variable {workflow p q : String} {transform : String → String} {flags : Flags}
  {target template : List String}

/-- **Idempotence of a whole merge.** -/
theorem merge_merge (hpass : (Consistency.check template target p q).passed = true)
    (hsafe : MarkerSafe transform) (hends : ClosingLinesAgree workflow template target) :
    let once := merge workflow transform flags target template
    let twice := merge workflow transform flags once.lines template
    twice.lines = once.lines ∧ twice.changed = [] ∧ twice.skipped = once.skipped := by
  intro once twice
  have hD := tidy_cut_of_passed hpass
  have hfit := fits_of_passed hpass hends
  have hn := nodup_applicable_of_passed hpass workflow
  have hsound : ∀ a ∈ Area.applicable workflow template, a.Sound :=
    fun _ ha ↦ Area.sound_of_mem_applicable ha
  have honce := lines_merge hsafe flags hD hfit
  have hskip := skipped_merge hsafe flags hD hfit
  rw [flatten_cut] at honce hskip
  -- the file after the first merge, in segments again
  have hD' := hD.absorbAll hsafe flags hsound
  have hfit' : ∀ a ∈ Area.applicable workflow template,
      Fits (absorbAll transform flags (Area.applicable workflow template) (cut target)) a :=
    fun a ha ↦ (hfit a ha).absorbAll
  have hsettled := merge_of_settled hD' hfit' fun a ha ↦ flatMap_absorb_absorbAll hn ha (cut target)
  have hskip' := skipped_merge hsafe flags hD' hfit'
  rw [← honce] at hsettled hskip'
  rw [filter_unplaced_absorbAll hsound, ← hskip] at hskip'
  exact ⟨hsettled.1, hsettled.2, hskip'⟩

theorem merge_merge_sample :
    (Consistency.check Sample.template Sample.target "template" "target").passed = true ∧
      MarkerSafe id ∧ ClosingLinesAgree "w" Sample.template Sample.target ∧
      let once := merge "w" id ∅ Sample.target Sample.template
      let twice := merge "w" id ∅ once.lines Sample.template
      twice.lines = once.lines ∧ twice.changed = [] ∧ twice.skipped = once.skipped :=
  ⟨Sample.passed, fun _ h ↦ h, Sample.closingLinesAgree,
    merge_merge Sample.passed (fun _ h ↦ h) Sample.closingLinesAgree⟩

end WorkflowAreas.Merge
