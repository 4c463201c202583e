import WorkflowAreas.Proofs.Merge.Settled

/-!
# The order of the areas of a template

A merge looks each area of the template up in a file that the areas before have changed, and a `ONCE` area
moves all lines that follow it. The order in which a template has its areas is of no consequence for all that.

* `Segment.flatMap_absorb_comm`: rewritings by areas with different opening lines commute, whatever their
  strategies are: what the one leaves is text, or an area that does not concern the other;
* `Segment.absorbAll_perm`: so a run of rewritings may take its areas in any order;
* `Merge.changed_foldl_mergeArea`: which areas of a run change the file can be told before it starts, as it
  can for those that are skipped.

`Merge.merge_perm` says it of whole merges. Templates that have their areas in another order number them in
another way, so areas are compared without their numbers. What a merge tells of areas, it tells in the order
of its template.
-/

namespace WorkflowAreas

namespace Segment

open Merge (content)

variable {transform : String → String} {flags : Flags} {as bs : List Area} {a b d : Area}
  {new new' : List String} {D : List Segment}

/-! ### Two rewritings -/

/-- What is left of a segment that concerns an area does not concern others. -/
theorem flatMap_absorb_absorb (heq : d.header.beginLine = a.header.beginLine)
    (hne : a.header.beginLine ≠ b.header.beginLine) :
    (absorb a new (area d)).flatMap (absorb b new') = absorb a new (area d) := by
  refine flatMap_absorb_eq_self fun c hc hcb ↦ hne ?_
  rw [← heq, ← beginLine_of_area_mem_absorb (mem_areas.1 hc), hcb]

/-- **Rewritings commute.** -/
theorem flatMap_absorb_comm (hne : a.header.beginLine ≠ b.header.beginLine) (D : List Segment) :
    (D.flatMap (absorb a new)).flatMap (absorb b new') =
      (D.flatMap (absorb b new')).flatMap (absorb a new) := by
  rw [List.flatMap_assoc, List.flatMap_assoc]
  refine congrArg D.flatMap (funext fun s ↦ ?_)
  cases s with
  | text l => rfl
  | area d =>
    -- a segment concerns one of the areas, the other one, or none
    by_cases hda : d.header.beginLine = a.header.beginLine
    · have hdb : d.header.beginLine ≠ b.header.beginLine := fun heq ↦ hne (hda.symm.trans heq)
      rw [flatMap_absorb_absorb hda hne, absorb_of_ne hdb, List.flatMap_singleton]
    · rw [absorb_of_ne hda, List.flatMap_singleton]
      by_cases hdb : d.header.beginLine = b.header.beginLine
      · rw [flatMap_absorb_absorb hdb hne.symm]
      · rw [absorb_of_ne hdb, List.flatMap_singleton, absorb_of_ne hda]

/-- **A run of rewritings may take its areas in any order.** -/
theorem absorbAll_perm (hperm : as.Perm bs) (hn : (as.map (·.header.beginLine)).Nodup)
    (D : List Segment) : absorbAll transform flags as D = absorbAll transform flags bs D := by
  refine hperm.foldl_eq' (fun a ha b hb E ↦ ?_) D
  by_cases hab : a = b
  · rw [hab]
  · exact flatMap_absorb_comm (fun heq ↦ hab (List.inj_on_of_nodup_map hn ha hb heq)) E

/-! ### Areas that change the file -/

/-- A rewriting neither makes nor takes away areas with other opening lines. -/
theorem mem_areas_flatMap_absorb_iff (hne : a.header.beginLine ≠ d.header.beginLine) :
    d ∈ areas (D.flatMap (absorb a new)) ↔ d ∈ areas D := by
  rw [mem_areas, mem_areas, List.mem_flatMap]
  constructor
  · rintro ⟨s, hs, hd⟩
    cases s with
    | text l => cases List.mem_singleton.1 hd
    | area c =>
      have hdc := beginLine_of_area_mem_absorb hd
      rw [absorb_of_ne fun hca ↦ hne (by rw [hdc, hca]), List.mem_singleton] at hd
      exact hd ▸ hs
  · intro hd
    refine ⟨area d, hd, ?_⟩
    rw [absorb_of_ne hne.symm]
    exact List.mem_singleton_self (area d)

/-- **Whether an area alters segments** does not depend on what others have done to them. -/
theorem alters_flatMap_absorb (hne : a.header.beginLine ≠ b.header.beginLine) :
    Merge.Alters transform flags (D.flatMap (absorb a new)) b ↔ Merge.Alters transform flags D b := by
  refine exists_congr fun d ↦ ?_
  rw [and_congr_left_iff]
  rintro ⟨heq, -⟩
  exact mem_areas_flatMap_absorb_iff (heq ▸ hne)

end Segment

namespace Merge

open Segment

variable {transform : String → String} {flags : Flags} {as : List Area} {D : List Segment}
  {o : Outcome}

/-- **What a run changes** can be told before it starts. -/
theorem changed_foldl_mergeArea (ht : MarkerSafe transform) (hD : Tidy D)
    (hfit : ∀ a ∈ as, Fits D a) (hn : (as.map (·.header.beginLine)).Nodup)
    (ho : o.lines = flatten D) :
    (as.foldl (mergeArea transform flags) o).changed =
      o.changed ++ (as.filter fun a ↦ Alters transform flags D a).map Area.name := by
  induction as generalizing D o with
  | nil => exact (List.append_nil _).symm
  | cons a as ih =>
    have ha : Fits D a := hfit a List.mem_cons_self
    rw [List.map_cons, List.nodup_cons] at hn
    rw [List.foldl_cons, ih (hD.flatMap_absorb (not_isBoundary_of_mem_content ht flags ha.sound))
      (fun c hc ↦ (hfit c (List.mem_cons_of_mem a hc)).flatMap_absorb) hn.2
      (lines_mergeArea hD ha ho), changed_mergeArea hD ha ho, List.append_assoc]
    -- the area has another opening line than those that follow
    have hsame : as.filter (fun c ↦ decide (Alters transform flags
        (D.flatMap (absorb a (content transform flags a))) c)) =
          as.filter fun c ↦ Alters transform flags D c :=
      List.filter_congr fun c hc ↦ decide_eq_decide.2 (alters_flatMap_absorb fun heq ↦
        hn.1 (heq ▸ List.mem_map_of_mem (f := (·.header.beginLine)) hc))
    rw [hsame, List.filter_cons]
    by_cases hu : Alters transform flags D a
    · rw [if_pos hu, if_pos (decide_eq_true hu), List.map_cons, List.singleton_append]
    · rw [if_neg hu, if_neg (by simpa using hu), List.nil_append]

variable {workflow : String} {template template' target : List String} {bs : List Area}

theorem changed_merge (ht : MarkerSafe transform) (flags : Flags) (hD : Tidy D)
    (hfit : ∀ a ∈ Area.applicable workflow template, Fits D a)
    (hn : ((Area.applicable workflow template).map (·.header.beginLine)).Nodup) :
    (merge workflow transform flags (flatten D) template).changed =
      ((Area.applicable workflow template).filter fun a ↦ Alters transform flags D a).map Area.name :=
  changed_foldl_mergeArea (o := Outcome.start (flatten D)) ht hD hfit hn rfl

/-! ### Areas without their numbers -/

/-- The number of an area is no matter to a rewriting. -/
theorem absorbAll_map_unnumbered (as : List Area) (D : List Segment) :
    absorbAll transform flags (as.map Area.unnumbered) D = absorbAll transform flags as D :=
  List.foldl_map

/-- Names of areas that are chosen by other things than their numbers. -/
theorem map_name_filter_perm {p : Area → Prop} [DecidablePred p]
    (hp : ∀ a, p a.unnumbered ↔ p a) (hperm : (as.map Area.unnumbered).Perm (bs.map Area.unnumbered)) :
    ((as.filter p).map Area.name).Perm ((bs.filter p).map Area.name) := by
  have hnames : ∀ cs : List Area,
      (cs.filter p).map Area.name = ((cs.map Area.unnumbered).filter p).map Area.name := fun cs ↦ by
    rw [List.filter_map, List.map_map]
    exact congrArg (List.map Area.name) (List.filter_congr fun a _ ↦ (decide_eq_decide.2 (hp a)).symm)
  rw [hnames as, hnames bs]
  exact (hperm.filter _).map _

/-- The areas that two templates have for a workflow are the same if all their areas are. -/
theorem applicable_perm (hperm : ((Area.extract template).map Area.unnumbered).Perm
      ((Area.extract template').map Area.unnumbered)) (workflow : String) :
    ((Area.applicable workflow template).map Area.unnumbered).Perm
      ((Area.applicable workflow template').map Area.unnumbered) := by
  have hfilter : ∀ ls : List String, (Area.applicable workflow ls).map Area.unnumbered =
      ((Area.extract ls).map Area.unnumbered).filter (·.header.appliesTo workflow) := fun ls ↦ by
    rw [List.filter_map]
    rfl
  rw [hfilter, hfilter]
  exact hperm.filter _

/-- So are the closing lines that have to agree with those of a file. -/
theorem closingLinesAgree_of_perm (hperm : ((Area.extract template).map Area.unnumbered).Perm
      ((Area.extract template').map Area.unnumbered))
    (hends : ClosingLinesAgree workflow template target) :
    ClosingLinesAgree workflow template' target := by
  intro a ha happ b hb heq
  obtain ⟨c, hc, hca⟩ := List.mem_map.1 (hperm.mem_iff.2 (List.mem_map_of_mem ha))
  have hheader : c.header = a.header := (Area.header_body_eq_of_unnumbered_eq hca).1
  have hend : c.unnumbered.endLine = a.unnumbered.endLine := congrArg Area.endLine hca
  exact hend.symm.trans (hends c hc (hheader ▸ happ) b hb (hheader ▸ heq))

/-- **The order of the areas of a template does not matter**: a file is merged with two templates that have
the same areas to the same lines, and the same areas are changed and skipped. -/
theorem merge_perm {p q p' q' : String}
    (hperm : ((Area.extract template).map Area.unnumbered).Perm
      ((Area.extract template').map Area.unnumbered))
    (hpass : (Consistency.check template target p q).passed = true)
    (hpass' : (Consistency.check template' target p' q').passed = true)
    (hsafe : MarkerSafe transform) (hends : ClosingLinesAgree workflow template target) :
    let outcome := merge workflow transform flags target template
    let outcome' := merge workflow transform flags target template'
    outcome.lines = outcome'.lines ∧ outcome.changed.Perm outcome'.changed ∧
      outcome.skipped.Perm outcome'.skipped := by
  intro outcome outcome'
  have happ := applicable_perm hperm workflow
  have hD := tidy_cut_of_passed hpass
  have hfit := fits_of_passed hpass hends
  have hfit' := fits_of_passed hpass' (closingLinesAgree_of_perm hperm hends)
  have hn := nodup_applicable_of_passed hpass workflow
  have hn' := nodup_applicable_of_passed hpass' workflow
  have hlines := lines_merge hsafe flags hD hfit
  have hlines' := lines_merge hsafe flags hD hfit'
  have hchanged := changed_merge hsafe flags hD hfit hn
  have hchanged' := changed_merge hsafe flags hD hfit' hn'
  have hskipped := skipped_merge hsafe flags hD hfit
  have hskipped' := skipped_merge hsafe flags hD hfit'
  rw [flatten_cut] at hlines hlines' hchanged hchanged' hskipped hskipped'
  refine ⟨?_, ?_, ?_⟩
  · rw [hlines, hlines', ← absorbAll_map_unnumbered,
      ← absorbAll_map_unnumbered (Area.applicable workflow template')]
    refine congrArg flatten (absorbAll_perm happ ?_ (cut target))
    rwa [List.map_map]
  · rw [hchanged, hchanged']
    exact map_name_filter_perm (fun _ ↦ Iff.rfl) happ
  · rw [hskipped, hskipped']
    exact map_name_filter_perm (fun _ ↦ Iff.rfl) happ

/-- An area of each kind. The second template has them from the last one to the first, with a line between
two of them. -/
theorem merge_perm_sample :
    let setup := ["BEGIN ONCE WORKFLOW AREA a FOR w", "x", "y", "END WORKFLOW AREA"]
    let imports := ["BEGIN SORTED WORKFLOW AREA b FOR w", "m", "", "END WORKFLOW AREA"]
    let body := ["BEGIN WORKFLOW AREA c FOR w IF f", "p", "ELSE", "q", "END WORKFLOW AREA"]
    let template := setup ++ imports ++ body
    let template' := body ++ ["between"] ++ imports ++ setup
    let target := ["BEGIN WORKFLOW AREA c FOR w IF f", "own", "END WORKFLOW AREA",
      "BEGIN ONCE WORKFLOW AREA a FOR w", "END WORKFLOW AREA", "z",
      "BEGIN SORTED WORKFLOW AREA b FOR w", "z", "", "a", "END WORKFLOW AREA"]
    let outcome := merge "w" id ∅ target template
    let outcome' := merge "w" id ∅ target template'
    ((Area.extract template).map Area.unnumbered).Perm ((Area.extract template').map Area.unnumbered) ∧
      (Consistency.check template target "template" "target").passed = true ∧
      (Consistency.check template' target "template" "target").passed = true ∧
      MarkerSafe id ∧ ClosingLinesAgree "w" template target ∧ outcome.changed ≠ outcome'.changed ∧
      outcome.lines = outcome'.lines ∧ outcome.changed.Perm outcome'.changed ∧
      outcome.skipped.Perm outcome'.skipped := by
  intro setup imports body template template' target outcome outcome'
  have hperm : ((Area.extract template).map Area.unnumbered).Perm
      ((Area.extract template').map Area.unnumbered) := by decide +kernel
  have hpass : (Consistency.check template target "template" "target").passed = true :=
    Consistency.passed_check_iff.2 (by decide +kernel)
  have hpass' : (Consistency.check template' target "template" "target").passed = true :=
    Consistency.passed_check_iff.2 (by decide +kernel)
  have hends : ClosingLinesAgree "w" template target := by
    rw [ClosingLinesAgree]
    decide +kernel
  exact ⟨hperm, hpass, hpass', fun _ h ↦ h, hends, by decide +kernel,
    merge_perm hperm hpass hpass' (fun _ h ↦ h) hends⟩

end Merge

end WorkflowAreas
