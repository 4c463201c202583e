import WorkflowAreas.Proofs.Merge.Whole

/-!
# What the check matches and what a merge finds

The check takes two areas for the same one if their keys are equal; a merge looks for opening and closing
lines as they are written. A key forgets in which order workflow ids were written, how many spaces stand
between them and which blanks follow, so the two can differ.

`skipped_merge_of_passed` says **exactly how far they agree** in a file that passes the check: an area of
the template is found, and found with the body that the file gives it, if and only if the file spells its
opening line as the template does. Those that are spelled otherwise are skipped, but for `ONCE` areas,
which are taken for merged. `merge_skips_respelt` shows that this happens.
-/

namespace WorkflowAreas

open Segment

/-! ### Areas at their place -/

namespace Segment

variable {transform : String → String} {flags : Flags} {as : List Area} {a b : Area} {e : String}
  {D : List Segment}

/-- A run of rewritings leaves the areas alone that have other opening lines. -/
theorem mem_areas_absorbAll_of_ne (hn : (as.map (·.header.beginLine)).Nodup) (hb : b ∈ areas D)
    (h : ∀ a ∈ as, a.header.beginLine ≠ b.header.beginLine) :
    b ∈ areas (absorbAll transform flags as D) := by
  rw [absorbAll_eq_flatMap_settle hn, mem_areas, List.mem_flatMap]
  refine ⟨area b, mem_areas.1 hb, ?_⟩
  rw [settle_of_ne h]
  exact List.mem_singleton_self (area b)

/-- It makes no areas. -/
theorem exists_frame_of_mem_areas_absorbAll (hb : b ∈ areas (absorbAll transform flags as D)) :
    ∃ c ∈ areas D, c.frame = b.frame := by
  induction as generalizing D with
  | nil => exact ⟨b, hb, rfl⟩
  | cons a as ih =>
    rw [absorbAll_cons] at hb
    obtain ⟨c, hc, hframe⟩ := ih hb
    obtain ⟨d, hd, hframe'⟩ := exists_frame_of_mem_flatMap_absorb hc
    exact ⟨d, hd, hframe'.trans hframe⟩

/-- **Each area of a file in good order is found by its markers**, with its own body. -/
theorem Tidy.exists_locate? (hD : Tidy D) (hb : b ∈ areas D) (he : b.endLine = some e) :
    ∃ r ∈ Merge.locate? (flatten D) b.header.beginLine e, r.interior (flatten D) = b.body := by
  obtain ⟨front, back, rfl, hfront, -⟩ := hD.exists_split hb
  have hsound : ∀ s ∈ front, s.Sound := fun s hs ↦ hD.sound s (List.mem_append_left _ hs)
  have hbs : b.Sound := hD.sound _ (mem_areas.1 hb)
  refine ⟨_, Merge.locate?_flatten back hsound hbs he hfront, ?_⟩
  rw [Merge.flatten_append_area_cons he, Merge.interior_between]

end Segment

namespace Merge

/-- The file has the area, but spells its opening line in another way. A `ONCE` area does not count. -/
def Respelt (target : List String) (a : Area) : Prop :=
  a.header.once = false ∧
    ∃ b ∈ Area.extract target, b.key = a.key ∧ b.header.beginLine ≠ a.header.beginLine

instance (target : List String) (a : Area) : Decidable (Respelt target a) :=
  inferInstanceAs (Decidable (_ ∧ _))

variable {workflow p q : String} {transform : String → String} {flags : Flags}
  {target template : List String} {a b : Area}

/-- In a file that passes the check no other area has the opening line of an area that it has. -/
theorem beginLine_ne_of_key_eq (hpass : (Consistency.check template target p q).passed = true)
    (ha : a ∈ Area.extract template) (hb : b ∈ Area.extract target) (hkey : b.key = a.key)
    (hne : b.header.beginLine ≠ a.header.beginLine) :
    ∀ c ∈ Area.extract target, c.header.beginLine ≠ a.header.beginLine := by
  intro c hc hca
  have hheader : c.header = a.header := Header.eq_of_beginLine_eq
    (Area.sound_of_mem_extract hc).parse?_beginLine
    (Area.sound_of_mem_extract ha).parse?_beginLine hca
  have hcb : c = b := List.inj_on_of_nodup_map (Consistency.passed_check_iff.1 hpass).nodup_target
    hc hb (by rw [hkey, Area.key, Area.key, hheader])
  exact hne (by rw [← hcb, hca])

/-- **The areas without a place** are those that the file spells otherwise. -/
theorem unplaced_cut_iff (hpass : (Consistency.check template target p q).passed = true)
    (ha : a ∈ Area.extract template) : Unplaced (cut target) a ↔ Respelt target a := by
  rw [Unplaced, areas_cut]
  refine and_congr_right fun ho ↦ ⟨fun hno ↦ ?_, fun ⟨b, hb, hkey, hne⟩ ↦ ?_⟩
  · -- an area that is not marked `ONCE` cannot be missing, so the file has its key
    by_contra hnone
    refine Bool.noConfusion (ho.symm.trans
      ((Consistency.passed_check_iff.1 hpass).once_of_missing a ha fun b hb hkey ↦ ?_))
    exact hnone ⟨b, hb, hkey, hno b hb⟩
  · exact beginLine_ne_of_key_eq hpass ha hb hkey hne

/-! ### When the turn of an area comes -/

section Turn

variable {done rest : List Area}

theorem mem_applicable_of_done (hsplit : Area.applicable workflow template = done ++ a :: rest) :
    a ∈ Area.applicable workflow template ∧
      ∀ c ∈ done, c ∈ Area.applicable workflow template := by
  rw [hsplit]
  exact ⟨List.mem_append_right done List.mem_cons_self, fun c hc ↦ List.mem_append_left _ hc⟩

/-- The file in segments, when the areas before have been merged. -/
theorem lines_turn (hpass : (Consistency.check template target p q).passed = true)
    (hsafe : MarkerSafe transform) (flags : Flags)
    (hends : ClosingLinesAgree workflow template target)
    (hdone : ∀ c ∈ done, c ∈ Area.applicable workflow template) :
    (done.foldl (mergeArea transform flags) (Outcome.start target)).lines =
        flatten (absorbAll transform flags done (cut target)) ∧
      Tidy (absorbAll transform flags done (cut target)) := by
  have hD := tidy_cut_of_passed hpass
  have hfit : ∀ c ∈ done, Fits (cut target) c := fun c hc ↦ fits_of_passed hpass hends c (hdone c hc)
  exact ⟨lines_foldl_mergeArea (o := Outcome.start target) hsafe hD hfit (flatten_cut target).symm,
    hD.absorbAll hsafe flags fun c hc ↦ (hfit c hc).sound⟩

/-- An area that the file spells as the template does is found, and no area before has touched it. -/
theorem exists_locate?_turn (hpass : (Consistency.check template target p q).passed = true)
    (hsafe : MarkerSafe transform) (flags : Flags)
    (hends : ClosingLinesAgree workflow template target)
    (hsplit : Area.applicable workflow template = done ++ a :: rest)
    (hb : b ∈ Area.extract target) (heq : b.header.beginLine = a.header.beginLine) :
    let file := (done.foldl (mergeArea transform flags) (Outcome.start target)).lines
    ∃ e ∈ a.endLine, ∃ r ∈ locate? file a.header.beginLine e, r.interior file = b.body := by
  intro file
  obtain ⟨ha, hdone⟩ := mem_applicable_of_done hsplit
  obtain ⟨hlines, hE⟩ := lines_turn hpass hsafe flags hends hdone
  have hfit := fits_of_passed hpass hends a ha
  obtain ⟨e, he⟩ := Area.isTerminated_iff.1 hfit.closed
  rw [← areas_cut] at hb
  have hbe : b.endLine = some e := (hfit.endLine b hb heq).trans he
  -- opening lines are distinct, so no area before it in the run has this one
  have hn := nodup_applicable_of_passed hpass workflow
  rw [hsplit, List.map_append] at hn
  have hfar : ∀ c ∈ done, c.header.beginLine ≠ b.header.beginLine := fun c hc hcb ↦
    (List.nodup_append.1 hn).2.2 _ (List.mem_map_of_mem hc) _
      (List.mem_map_of_mem List.mem_cons_self) (hcb.trans heq)
  have hbE : b ∈ areas (absorbAll transform flags done (cut target)) :=
    mem_areas_absorbAll_of_ne hn.of_append_left hb hfar
  rw [← heq]
  exact ⟨e, he, by rw [show file = _ from hlines]; exact hE.exists_locate? hbE hbe⟩

/-- One that it spells otherwise is not. -/
theorem locate?_turn_eq_none (hpass : (Consistency.check template target p q).passed = true)
    (hsafe : MarkerSafe transform) (flags : Flags)
    (hends : ClosingLinesAgree workflow template target)
    (hsplit : Area.applicable workflow template = done ++ a :: rest)
    (hb : b ∈ Area.extract target) (hkey : b.key = a.key)
    (hne : b.header.beginLine ≠ a.header.beginLine) (e : String) :
    locate? (done.foldl (mergeArea transform flags) (Outcome.start target)).lines
      a.header.beginLine e = none := by
  obtain ⟨ha, hdone⟩ := mem_applicable_of_done hsplit
  obtain ⟨hlines, hE⟩ := lines_turn hpass hsafe flags hends hdone
  have hat := (Area.mem_applicable.1 ha).1
  have hno := beginLine_ne_of_key_eq hpass hat hb hkey hne
  rw [hlines]
  refine locate?_eq_none (beginLine_not_mem_flatten hE.sound (Area.sound_of_mem_extract hat) ?_)
  intro c hc
  obtain ⟨d, hd, hframe⟩ := exists_frame_of_mem_areas_absorbAll hc
  rw [← Area.header_eq_of_frame_eq hframe]
  rw [areas_cut] at hd
  exact hno d hd

end Turn

/-- **How far the check and a merge agree.** The first two parts tell what is skipped, the last one what
is found when the turn of an area comes. -/
theorem skipped_merge_of_passed (hpass : (Consistency.check template target p q).passed = true)
    (hsafe : MarkerSafe transform) (hends : ClosingLinesAgree workflow template target) :
    let skipped := (merge workflow transform flags target template).skipped
    skipped = ((Area.applicable workflow template).filter fun a ↦ Respelt target a).map Area.name ∧
      (skipped = [] ↔ ∀ a ∈ Area.applicable workflow template, a.header.once = false →
        ∀ b ∈ Area.extract target, b.key = a.key → b.header.beginLine = a.header.beginLine) ∧
      ∀ done a rest, Area.applicable workflow template = done ++ a :: rest →
        ∀ b ∈ Area.extract target, b.key = a.key →
          let file := (done.foldl (mergeArea transform flags) (Outcome.start target)).lines
          (b.header.beginLine = a.header.beginLine →
            ∃ e ∈ a.endLine, ∃ r ∈ locate? file a.header.beginLine e, r.interior file = b.body) ∧
          (b.header.beginLine ≠ a.header.beginLine →
            ∀ e, locate? file a.header.beginLine e = none) := by
  intro skipped
  have hskip := skipped_merge hsafe flags (tidy_cut_of_passed hpass) (fits_of_passed hpass hends)
  have hsame : (Area.applicable workflow template).filter (fun a ↦ Unplaced (cut target) a) =
      (Area.applicable workflow template).filter fun a ↦ Respelt target a :=
    List.filter_congr fun a ha ↦
      decide_eq_decide.2 (unplaced_cut_iff hpass (Area.mem_applicable.1 ha).1)
  rw [flatten_cut, hsame] at hskip
  refine ⟨hskip, ?_, fun done a rest hsplit b hb hkey ↦
    ⟨exists_locate?_turn hpass hsafe flags hends hsplit hb,
      locate?_turn_eq_none hpass hsafe flags hends hsplit hb hkey⟩⟩
  rw [show skipped = _ from hskip, List.map_eq_nil_iff, List.filter_eq_nil_iff]
  refine forall₂_congr fun a _ ↦ ?_
  rw [decide_eq_true_iff, Respelt]
  simp only [ne_eq, not_and, not_exists, not_not]

/-- The areas of a template, two of which a file spells in another way. -/
theorem skipped_merge_of_passed_sample :
    let template := ["# BEGIN ONCE WORKFLOW AREA setup FOR w", "x", "# END WORKFLOW AREA",
      "# BEGIN SORTED WORKFLOW AREA imports FOR w", "m", "# END WORKFLOW AREA",
      "# BEGIN WORKFLOW AREA body FOR w", "p", "# END WORKFLOW AREA"]
    let target := ["# BEGIN ONCE WORKFLOW AREA setup FOR  w", "# END WORKFLOW AREA",
      "# BEGIN SORTED WORKFLOW AREA imports FOR w ", "# END WORKFLOW AREA",
      "# BEGIN WORKFLOW AREA body FOR w", "own", "# END WORKFLOW AREA"]
    let skipped := (merge "w" id ∅ target template).skipped
    (Consistency.check template target "template" "target").passed = true ∧ MarkerSafe id ∧
      ClosingLinesAgree "w" template target ∧
      skipped = ((Area.applicable "w" template).filter fun a ↦ Respelt target a).map Area.name ∧
      (skipped = [] ↔ ∀ a ∈ Area.applicable "w" template, a.header.once = false →
        ∀ b ∈ Area.extract target, b.key = a.key → b.header.beginLine = a.header.beginLine) ∧
      ∀ done a rest, Area.applicable "w" template = done ++ a :: rest →
        ∀ b ∈ Area.extract target, b.key = a.key →
          let file := (done.foldl (mergeArea id ∅) (Outcome.start target)).lines
          (b.header.beginLine = a.header.beginLine →
            ∃ e ∈ a.endLine, ∃ r ∈ locate? file a.header.beginLine e, r.interior file = b.body) ∧
          (b.header.beginLine ≠ a.header.beginLine →
            ∀ e, locate? file a.header.beginLine e = none) := by
  intro template target skipped
  have hpass : (Consistency.check template target "template" "target").passed = true :=
    Consistency.passed_check_iff.2 (by decide +kernel)
  have hends : ClosingLinesAgree "w" template target := by
    rw [ClosingLinesAgree]
    decide +kernel
  exact ⟨hpass, fun _ h ↦ h, hends, skipped_merge_of_passed hpass (fun _ h ↦ h) hends⟩

/-- **A merge can skip what the check has matched**: an area after whose last workflow id the file has a
blank, and one that the file closes with another line. -/
theorem merge_skips_respelt :
    let file := ["// BEGIN WORKFLOW AREA a FOR w ", "// END WORKFLOW AREA"]
    let respelt := ["// BEGIN WORKFLOW AREA a FOR w", "x", "// END WORKFLOW AREA"]
    let reclosed := ["// BEGIN WORKFLOW AREA a FOR w ", "x", "# END WORKFLOW AREA"]
    MarkerSafe id ∧
      (Consistency.check respelt file "template" "target").passed = true ∧
      (merge "w" id ∅ file respelt).skipped = ["a"] ∧
      (Consistency.check reclosed file "template" "target").passed = true ∧
      (merge "w" id ∅ file reclosed).skipped = ["a"] := by
  intro file respelt reclosed
  exact ⟨fun _ h ↦ h, Consistency.passed_check_iff.2 (by decide +kernel), by decide +kernel,
    Consistency.passed_check_iff.2 (by decide +kernel), by decide +kernel⟩

end Merge

end WorkflowAreas
