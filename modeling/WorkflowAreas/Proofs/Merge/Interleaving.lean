import WorkflowAreas.Proofs.Merge.Settled

/-!
# Merges in any order

A file is merged again and again, each time for some workflow with some flags. What one of the merges
brought is never lost and never brought a second time: however many others came in between, merging for
the same workflow with the same flags again leaves the file alone (`merge_mergeAll`).

`Merged` is the invariant of such a run. It says of the file at each moment that its areas are in good
order, that the template fits them, and that every merge so far is settled. The last part lasts because
contents only accumulate: a run of lines in a plain area is not broken up by what is appended, a `SORTED`
area keeps its lines, and a `ONCE` area does not come back.
-/

namespace WorkflowAreas.Merge

open Segment

/-- For what a file is merged. -/
structure Update where
  workflow : String
  flags : Flags
deriving DecidableEq

variable (transform : String → String) (template : List String)

/-- The lines after an update. -/
def Update.apply (u : Update) (file : List String) : List String :=
  (merge u.workflow transform u.flags file template).lines

/-- The lines after all updates of a list, one after the other. -/
def mergeAll (file : List String) (run : List Update) : List String :=
  run.foldl (fun file u ↦ u.apply transform template file) file

/-- What holds of the segments of a file to which these updates have been applied. -/
structure Merged (done : List Update) (D : List Segment) : Prop where
  tidy : Tidy D
  fits : ∀ a ∈ Area.extract template, Fits D a
  settled : ∀ u ∈ done, Settled transform u.flags (Area.applicable u.workflow template) D

variable {transform template} {done : List Update} {D : List Segment} {u : Update}

theorem mem_extract_of_mem_applicable {workflow : String} {a : Area}
    (ha : a ∈ Area.applicable workflow template) : a ∈ Area.extract template :=
  (Area.mem_applicable.1 ha).1

/-- **What an update does**: it settles itself, and all that was settled before stays so. -/
theorem Merged.step (h : Merged transform template done D) (hsafe : MarkerSafe transform)
    (hn : ((Area.extract template).map (·.header.beginLine)).Nodup)
    (hcount : SortedLinesCount transform (Area.extract template)) (u : Update) :
    ∃ E, u.apply transform template (flatten D) = flatten E ∧
      Merged transform template (done ++ [u]) E := by
  have hsound : ∀ workflow, ∀ a ∈ Area.applicable workflow template, a.Sound :=
    fun _ _ ha ↦ Area.sound_of_mem_applicable ha
  have hcount' : ∀ workflow, SortedLinesCount transform (Area.applicable workflow template) :=
    fun _ a ha ↦ hcount a (mem_extract_of_mem_applicable ha)
  refine ⟨absorbAll transform u.flags (Area.applicable u.workflow template) D,
    lines_merge hsafe u.flags h.tidy fun a ha ↦ h.fits a (mem_extract_of_mem_applicable ha),
    h.tidy.absorbAll hsafe u.flags (hsound u.workflow), fun a ha ↦ (h.fits a ha).absorbAll,
    fun v hv ↦ ?_⟩
  rcases List.mem_append.1 hv with hv | hv
  · exact (h.settled v hv).absorbAll (hsound v.workflow) (hsound u.workflow) (hcount' v.workflow)
      (hcount' u.workflow)
  · rw [List.mem_singleton.1 hv]
    exact settled_absorbAll (hn.sublist (List.filter_sublist.map _)) D

/-- **The invariant of a run of updates.** -/
theorem Merged.run (h : Merged transform template done D) (hsafe : MarkerSafe transform)
    (hn : ((Area.extract template).map (·.header.beginLine)).Nodup)
    (hcount : SortedLinesCount transform (Area.extract template)) (run : List Update) :
    ∃ E, mergeAll transform template (flatten D) run = flatten E ∧
      Merged transform template (done ++ run) E := by
  induction run generalizing done D with
  | nil => exact ⟨D, rfl, by rwa [List.append_nil]⟩
  | cons u run ih =>
    obtain ⟨E, hE, hmerged⟩ := h.step hsafe hn hcount u
    obtain ⟨F, hF, hmerged'⟩ := ih hmerged
    refine ⟨F, ?_, by rwa [List.append_assoc, List.singleton_append] at hmerged'⟩
    rw [mergeAll, List.foldl_cons, hE]
    exact hF

/-- An update that has been applied has no effect. -/
theorem Merged.merge_of_mem (h : Merged transform template done D) (hu : u ∈ done) :
    (merge u.workflow transform u.flags (flatten D) template).lines = flatten D ∧
      (merge u.workflow transform u.flags (flatten D) template).changed = [] :=
  h.tidy.merge_of_settled (fun a ha ↦ h.fits a (mem_extract_of_mem_applicable ha)) (h.settled u hu)

variable {target : List String} {p q : String}

/-- **No update is lost and none is repeated.** After any run of updates each of them, applied again,
leaves the file as it is and reports no change. So of the times at which an update is applied within a
run only the first one can change the file. -/
theorem merge_mergeAll (hpass : (Consistency.check template target p q).passed = true)
    (hsafe : MarkerSafe transform)
    (hends : ∀ a ∈ Area.extract template, ∀ b ∈ Area.extract target,
      a.header.beginLine = b.header.beginLine → a.endLine = b.endLine)
    (hcount : SortedLinesCount transform (Area.extract template)) (run : List Update) :
    (∀ u ∈ run,
      let final := mergeAll transform template target run
      let again := merge u.workflow transform u.flags final template
      again.lines = final ∧ again.changed = []) ∧
    ∀ front u back, run = front ++ u :: back → u ∈ front →
      mergeAll transform template target (front ++ [u]) = mergeAll transform template target front := by
  have hn : ((Area.extract template).map (·.header.beginLine)).Nodup := by
    have hd := (tidy_cut_template_of_passed hpass).distinct
    rwa [areas_cut] at hd
  have hstart : Merged transform template [] (cut target) := by
    refine ⟨tidy_cut_of_passed hpass, fun a ha ↦ ⟨Area.sound_of_mem_extract ha,
      (Consistency.passed_check_iff.1 hpass).closed_template a ha, fun b hb heq ↦ ?_⟩,
      fun u hu ↦ absurd hu (List.not_mem_nil)⟩
    rw [areas_cut] at hb
    exact (hends a ha b hb heq.symm).symm
  -- the second part is the first one for the part of the run before the repetition
  have hagain : ∀ run : List Update, ∀ u ∈ run,
      (merge u.workflow transform u.flags (mergeAll transform template target run) template).lines =
          mergeAll transform template target run ∧
        (merge u.workflow transform u.flags (mergeAll transform template target run)
          template).changed = [] := by
    intro run u hu
    obtain ⟨D, hD, hmerged⟩ := hstart.run hsafe hn hcount run
    rw [flatten_cut] at hD
    rw [hD]
    exact hmerged.merge_of_mem hu
  refine ⟨hagain run, fun front u back _ hu ↦ ?_⟩
  rw [mergeAll, List.foldl_append]
  exact (hagain front u hu).1

/-- Two workflows take turns, and one of them changes its mind about a flag. -/
theorem merge_mergeAll_sample :
    let template := ["# BEGIN ONCE WORKFLOW AREA setup FOR v", "x", "# END WORKFLOW AREA",
      "# BEGIN SORTED WORKFLOW AREA imports FOR v", "m", "k", "# END WORKFLOW AREA",
      "# BEGIN WORKFLOW AREA body FOR w IF f", "p", "# ELSE", "q", "# END WORKFLOW AREA"]
    let target := ["# BEGIN ONCE WORKFLOW AREA setup FOR v", "# END WORKFLOW AREA",
      "# BEGIN SORTED WORKFLOW AREA imports FOR v", "z", "# END WORKFLOW AREA",
      "# BEGIN WORKFLOW AREA body FOR w IF f", "own", "# END WORKFLOW AREA"]
    let run := [⟨"w", ∅⟩, ⟨"v", ∅⟩, ⟨"w", Table.ofList [("f", true)]⟩, ⟨"w", ∅⟩]
    (Consistency.check template target "template" "target").passed = true ∧ MarkerSafe id ∧
      (∀ a ∈ Area.extract template, ∀ b ∈ Area.extract target,
        a.header.beginLine = b.header.beginLine → a.endLine = b.endLine) ∧
      SortedLinesCount id (Area.extract template) ∧
      (∀ u ∈ run,
        let final := mergeAll id template target run
        let again := merge u.workflow id u.flags final template
        again.lines = final ∧ again.changed = []) ∧
      ∀ front u back, run = front ++ u :: back → u ∈ front →
        mergeAll id template target (front ++ [u]) = mergeAll id template target front := by
  intro template target run
  have hpass : (Consistency.check template target "template" "target").passed = true :=
    Consistency.passed_check_iff.2 (by decide +kernel)
  have hends : ∀ a ∈ Area.extract template, ∀ b ∈ Area.extract target,
      a.header.beginLine = b.header.beginLine → a.endLine = b.endLine := by decide +kernel
  have hcount : SortedLinesCount id (Area.extract template) := by
    rw [SortedLinesCount]
    decide +kernel
  exact ⟨hpass, fun _ h ↦ h, hends, hcount, merge_mergeAll hpass (fun _ h ↦ h) hends hcount run⟩

end WorkflowAreas.Merge
