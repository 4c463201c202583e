import WorkflowAreas.Proofs.Agreement
import WorkflowAreas.Proofs.Merge.Rewriting

/-!
# Whole merges

A merge visits the areas of its template one after the other. On segments their rewritings do not get
in each other's way, so the outcome can be told segment by segment (`Segment.settle`): an area of the
file takes up the content of the one area of the template that has its opening line.

* `absorbAll_eq_flatMap_settle`: the rewritings of a run come to that;
* `lines_foldl_mergeArea`, `skipped_foldl_mergeArea`: what a run leaves and what it skips;
* `flatMap_absorb_absorbAll`: no area of the run has anything left to do afterwards.

`ClosingLinesAgree` is the hypothesis under which all of this holds of a file that passes the check.
-/

namespace WorkflowAreas

open Merge (Strategy Outcome)

/-- The areas of a template that are for a workflow. -/
def Area.applicable (workflow : String) (template : List String) : List Area :=
  (extract template).filter (·.header.appliesTo workflow)

theorem Area.mem_applicable {workflow : String} {template : List String} {a : Area} :
    a ∈ applicable workflow template ↔
      a ∈ extract template ∧ a.header.appliesTo workflow = true :=
  List.mem_filter

theorem Area.sound_of_mem_applicable {workflow : String} {template : List String} {a : Area}
    (h : a ∈ applicable workflow template) : a.Sound :=
  sound_of_mem_extract (mem_applicable.1 h).1

/-- Where an area of the template for the workflow and an area of the file have the same opening line,
they have the same closing line. -/
def ClosingLinesAgree (workflow : String) (template target : List String) : Prop :=
  ∀ a ∈ Area.extract template, a.header.appliesTo workflow = true → ∀ b ∈ Area.extract target,
    a.header.beginLine = b.header.beginLine → a.endLine = b.endLine

namespace Segment

section Passed

variable {template target : List String} {p q : String}

/-- A file that passes the check is in good order. -/
theorem tidy_cut_of_passed (h : (Consistency.check template target p q).passed = true) :
    Tidy (cut target) :=
  have hagree := Consistency.passed_check_iff.1 h
  tidy_cut hagree.closed_target hagree.nodup_headers

/-- So is the template that it is checked against. -/
theorem tidy_cut_template_of_passed (h : (Consistency.check template target p q).passed = true) :
    Tidy (cut template) := by
  have hagree := Consistency.passed_check_iff.1 h
  refine tidy_cut hagree.closed_template (List.Nodup.of_map Header.key ?_)
  rw [List.map_map]
  exact hagree.nodup_template

theorem fits_of_passed (h : (Consistency.check template target p q).passed = true)
    {workflow : String} (hends : ClosingLinesAgree workflow template target) :
    ∀ a ∈ Area.applicable workflow template, Fits (cut target) a := by
  intro a ha
  obtain ⟨ha, happ⟩ := Area.mem_applicable.1 ha
  refine ⟨Area.sound_of_mem_extract ha, (Consistency.passed_check_iff.1 h).closed_template a ha,
    fun b hb heq ↦ ?_⟩
  rw [areas_cut] at hb
  exact (hends a ha happ b hb heq.symm).symm

theorem nodup_applicable_of_passed (h : (Consistency.check template target p q).passed = true)
    (workflow : String) :
    ((Area.applicable workflow template).map (·.header.beginLine)).Nodup := by
  have hd := (tidy_cut_template_of_passed h).distinct
  rw [areas_cut] at hd
  exact hd.sublist (List.filter_sublist.map _)

end Passed

/-! ### Runs of rewritings -/

variable (transform : String → String) (flags : Flags)

/-- The segments after the rewritings by all areas of a list, one after the other. -/
def absorbAll (as : List Area) (D : List Segment) : List Segment :=
  as.foldl (fun D a ↦ D.flatMap (absorb a (Merge.content transform flags a))) D

/-- What becomes of a segment in a run: an area is rewritten by the area of the list that has its
opening line. -/
def settle (as : List Area) : Segment → List Segment
  | text l => [text l]
  | area b =>
    match as.find? (·.header.beginLine == b.header.beginLine) with
    | none => [area b]
    | some a => absorb a (Merge.content transform flags a) (area b)

variable {transform flags} {as : List Area} {a b : Area} {D : List Segment}

theorem absorbAll_cons (a : Area) (as : List Area) (D : List Segment) :
    absorbAll transform flags (a :: as) D =
      absorbAll transform flags as (D.flatMap (absorb a (Merge.content transform flags a))) :=
  List.foldl_cons ..

theorem settle_of_ne (h : ∀ a ∈ as, a.header.beginLine ≠ b.header.beginLine) :
    settle transform flags as (area b) = [area b] := by
  have hnone : as.find? (·.header.beginLine == b.header.beginLine) = none :=
    List.find?_eq_none.2 fun a ha ↦ by simpa using h a ha
  rw [settle, hnone]

/-- Where opening lines are distinct, an area is rewritten by the one that has its own. -/
theorem settle_of_mem (hn : (as.map (·.header.beginLine)).Nodup) (ha : a ∈ as)
    (heq : a.header.beginLine = b.header.beginLine) :
    settle transform flags as (area b) = absorb a (Merge.content transform flags a) (area b) := by
  rw [settle]
  cases hf : as.find? (·.header.beginLine == b.header.beginLine) with
  | none => simpa [heq] using List.find?_eq_none.1 hf a ha
  | some c =>
    have hc : c.header.beginLine = b.header.beginLine := by simpa using List.find?_some hf
    obtain rfl : c = a :=
      List.inj_on_of_nodup_map hn (List.mem_of_find?_eq_some hf) ha (hc.trans heq.symm)
    rfl

theorem flatMap_settle_map_text (ls : List String) :
    (ls.map text).flatMap (settle transform flags as) = ls.map text := by
  induction ls with
  | nil => rfl
  | cons l ls ih =>
    rw [List.map_cons, List.flatMap_cons, ih]
    rfl

/-- Rewriting a segment by one area and then by the others is rewriting it by all. -/
theorem flatMap_settle_absorb (hn : ((a :: as).map (·.header.beginLine)).Nodup) (s : Segment) :
    (absorb a (Merge.content transform flags a) s).flatMap (settle transform flags as) =
      settle transform flags (a :: as) s := by
  rw [List.map_cons, List.nodup_cons] at hn
  have hfar : ∀ c ∈ as, c.header.beginLine ≠ a.header.beginLine := fun c hc heq ↦
    hn.1 (heq ▸ List.mem_map_of_mem (f := (·.header.beginLine)) hc)
  cases s with
  | text l => rfl
  | area b =>
    by_cases heq : b.header.beginLine = a.header.beginLine
    · -- what this area leaves is no concern of the others
      have hhead : settle transform flags (a :: as) (area b) =
          absorb a (Merge.content transform flags a) (area b) := by
        rw [settle, List.find?_cons_of_pos (by simp [heq])]
      rw [hhead]
      cases ho : a.header.once with
      | true => rw [absorb_of_once heq ho, flatMap_settle_map_text]
      | false =>
        rw [absorb_of_not_once heq ho, List.flatMap_cons, List.flatMap_nil, List.append_nil,
          settle_of_ne fun c hc ↦ heq ▸ hfar c hc]
    · rw [absorb_of_ne heq, List.flatMap_cons, List.flatMap_nil, List.append_nil, settle, settle,
        List.find?_cons_of_neg (by simpa using Ne.symm heq)]

/-- **The rewritings of a run, segment by segment.** -/
theorem absorbAll_eq_flatMap_settle (hn : (as.map (·.header.beginLine)).Nodup)
    (D : List Segment) :
    absorbAll transform flags as D = D.flatMap (settle transform flags as) := by
  -- the areas of the run are the induction; each goes over segments that those before have rewritten
  induction as generalizing D with
  | nil =>
    have hid : ∀ s : Segment, settle transform flags [] s = [s] := fun s ↦ by cases s <;> rfl
    rw [funext hid, List.flatMap_singleton']
    rfl
  | cons a as ih =>
    have hn' : (as.map (·.header.beginLine)).Nodup := hn.of_cons
    rw [absorbAll_cons, ih hn', List.flatMap_assoc]
    exact congrArg D.flatMap (funext (flatMap_settle_absorb hn))

/-! ### Nothing is left to do -/

/-- An area takes up the same content only once. -/
theorem absorb_of_mem_absorb {content : List String} {s t : Segment}
    (ht : t ∈ absorb a content s) : absorb a content t = [t] := by
  cases s with
  | text l =>
    rw [absorb, List.mem_singleton] at ht
    rw [ht]
    rfl
  | area b =>
    by_cases heq : b.header.beginLine = a.header.beginLine
    · cases ho : a.header.once with
      | true =>
        rw [absorb_of_once heq ho] at ht
        obtain ⟨l, -, rfl⟩ := List.mem_map.1 ht
        rfl
      | false =>
        rw [absorb_of_not_once heq ho, List.mem_singleton] at ht
        rw [ht, absorb, if_pos heq, ho, if_neg Bool.false_ne_true, Strategy.fill_fill]
    · rw [absorb_of_ne heq, List.mem_singleton] at ht
      rw [ht, absorb_of_ne heq]

/-- A rewritten area keeps its opening line. -/
theorem beginLine_of_area_mem_absorb {content : List String} {c : Area}
    (h : area c ∈ absorb a content (area b)) : c.header.beginLine = b.header.beginLine := by
  have hmem : c ∈ areas ([area b].flatMap (absorb a content)) := by
    rw [mem_areas, List.flatMap_cons, List.flatMap_nil, List.append_nil]
    exact h
  obtain ⟨d, hd, hframe⟩ := exists_frame_of_mem_flatMap_absorb hmem
  rw [areas_area_cons, areas_nil, List.mem_singleton] at hd
  rw [← Area.header_eq_of_frame_eq hframe, hd]

theorem absorb_of_mem_settle (hn : (as.map (·.header.beginLine)).Nodup) (ha : a ∈ as)
    {s t : Segment} (ht : t ∈ settle transform flags as s) :
    absorb a (Merge.content transform flags a) t = [t] := by
  cases s with
  | text l =>
    rw [settle, List.mem_singleton] at ht
    rw [ht]
    rfl
  | area b =>
    by_cases h : ∃ c ∈ as, c.header.beginLine = b.header.beginLine
    · obtain ⟨c, hc, heq⟩ := h
      rw [settle_of_mem hn hc heq] at ht
      -- this area has rewritten the segment, or another one has and left its opening line alone
      by_cases hca : c = a
      · rw [hca] at ht
        exact absorb_of_mem_absorb ht
      · cases t with
        | text l => rfl
        | area d =>
          refine absorb_of_ne fun hda ↦ hca (List.inj_on_of_nodup_map hn hc ha ?_)
          rw [heq, ← hda, beginLine_of_area_mem_absorb ht]
    · simp only [not_exists, not_and] at h
      rw [settle_of_ne h, List.mem_singleton] at ht
      rw [ht, absorb_of_ne fun heq ↦ h a ha heq.symm]

/-- **After a run none of its areas has anything left to do.** -/
theorem flatMap_absorb_absorbAll (hn : (as.map (·.header.beginLine)).Nodup) (ha : a ∈ as)
    (D : List Segment) :
    (absorbAll transform flags as D).flatMap (absorb a (Merge.content transform flags a)) =
      absorbAll transform flags as D := by
  rw [absorbAll_eq_flatMap_settle hn, List.flatMap_assoc]
  refine congrArg D.flatMap (funext fun s ↦ ?_)
  have hid : ∀ t ∈ settle transform flags as s,
      absorb a (Merge.content transform flags a) t = [t] :=
    fun t ht ↦ absorb_of_mem_settle hn ha ht
  rw [List.flatMap_congr hid, List.flatMap_singleton']

/-! ### Runs keep what steps keep -/

theorem Tidy.absorbAll (hD : Tidy D) (ht : MarkerSafe transform) (flags : Flags)
    (hs : ∀ a ∈ as, a.Sound) : Tidy (absorbAll transform flags as D) := by
  induction as generalizing D with
  | nil => exact hD
  | cons a as ih =>
    rw [absorbAll_cons]
    exact ih (hD.flatMap_absorb (Merge.not_isBoundary_of_mem_content ht flags (hs a List.mem_cons_self)))
      fun c hc ↦ hs c (List.mem_cons_of_mem a hc)

theorem Fits.absorbAll (h : Fits D b) : Fits (absorbAll transform flags as D) b := by
  induction as generalizing D with
  | nil => exact h
  | cons a as ih =>
    rw [absorbAll_cons]
    exact ih h.flatMap_absorb

/-- A rewriting takes away the place of no area but a `ONCE` area. -/
theorem unplaced_flatMap_absorb {content : List String} (ha : a.Sound) (hb : b.Sound) :
    Merge.Unplaced (D.flatMap (absorb a content)) b ↔ Merge.Unplaced D b := by
  refine and_congr_right fun hon ↦ ⟨fun h c hc heq ↦ ?_, fun h c hc heq ↦ ?_⟩
  · -- the area with this opening line would still be there
    have hkept : c.frame ∈ (areas (D.flatMap (absorb a content))).map Area.frame :=
      mem_frames_flatMap_absorb ha hb hon heq (List.mem_map_of_mem hc)
    obtain ⟨d, hd, hframe⟩ := List.mem_map.1 hkept
    exact h d hd (by rw [Area.header_eq_of_frame_eq hframe, heq])
  · obtain ⟨d, hd, hframe⟩ := exists_frame_of_mem_flatMap_absorb hc
    exact h d hd (by rw [Area.header_eq_of_frame_eq hframe, heq])

theorem unplaced_absorbAll (hs : ∀ a ∈ as, a.Sound) (hb : b.Sound) :
    Merge.Unplaced (absorbAll transform flags as D) b ↔ Merge.Unplaced D b := by
  induction as generalizing D with
  | nil => rfl
  | cons a as ih =>
    rw [absorbAll_cons, ih fun c hc ↦ hs c (List.mem_cons_of_mem a hc),
      unplaced_flatMap_absorb (hs a List.mem_cons_self) hb]

/-- A run does not change which of its areas have no place. -/
theorem filter_unplaced_absorbAll (hs : ∀ a ∈ as, a.Sound) (D : List Segment) :
    as.filter (fun a ↦ decide (Merge.Unplaced (absorbAll transform flags as D) a)) =
      as.filter fun a ↦ decide (Merge.Unplaced D a) :=
  List.filter_congr fun a ha ↦ decide_eq_decide.2 (unplaced_absorbAll hs (hs a ha))

end Segment

/-! ### Runs of a merge -/

namespace Merge

open Segment

variable {transform : String → String} {flags : Flags} {as : List Area} {D : List Segment}
  {o : Outcome}

/-- **The lines after a run** are the segments after its rewritings. -/
theorem lines_foldl_mergeArea (ht : MarkerSafe transform) (hD : Tidy D)
    (hfit : ∀ a ∈ as, Fits D a) (ho : o.lines = flatten D) :
    (as.foldl (mergeArea transform flags) o).lines = flatten (absorbAll transform flags as D) := by
  induction as generalizing D o with
  | nil => exact ho
  | cons a as ih =>
    have ha : Fits D a := hfit a List.mem_cons_self
    rw [List.foldl_cons, absorbAll_cons]
    exact ih (hD.flatMap_absorb (not_isBoundary_of_mem_content ht flags ha.sound))
      (fun c hc ↦ (hfit c (List.mem_cons_of_mem a hc)).flatMap_absorb) (lines_mergeArea hD ha ho)

/-- **What a run skips** can be told before it starts. -/
theorem skipped_foldl_mergeArea (ht : MarkerSafe transform) (hD : Tidy D)
    (hfit : ∀ a ∈ as, Fits D a) (ho : o.lines = flatten D) :
    (as.foldl (mergeArea transform flags) o).skipped =
      o.skipped ++ (as.filter fun a ↦ Unplaced D a).map Area.name := by
  induction as generalizing D o with
  | nil => exact (List.append_nil _).symm
  | cons a as ih =>
    have ha : Fits D a := hfit a List.mem_cons_self
    have hrest : ∀ c ∈ as, Fits D c := fun c hc ↦ hfit c (List.mem_cons_of_mem a hc)
    rw [List.foldl_cons, ih (hD.flatMap_absorb (not_isBoundary_of_mem_content ht flags ha.sound))
      (fun c hc ↦ (hrest c hc).flatMap_absorb) (lines_mergeArea hD ha ho),
      skipped_mergeArea hD ha ho, List.append_assoc]
    have hsame : as.filter (fun c ↦ decide (Unplaced
        (D.flatMap (absorb a (content transform flags a))) c)) = as.filter fun c ↦ Unplaced D c :=
      List.filter_congr fun c hc ↦
        decide_eq_decide.2 (unplaced_flatMap_absorb ha.sound (hrest c hc).sound)
    rw [hsame, List.filter_cons]
    by_cases hu : Unplaced D a
    · rw [if_pos hu, if_pos (decide_eq_true hu), List.map_cons, List.singleton_append]
    · rw [if_neg hu, if_neg (by simpa using hu), List.nil_append]

/-- A run whose areas have nothing to do leaves the lines and reports no change. -/
theorem foldl_mergeArea_of_settled (hD : Tidy D) (hfit : ∀ a ∈ as, Fits D a)
    (hsame : ∀ a ∈ as, D.flatMap (absorb a (content transform flags a)) = D)
    (ho : o.lines = flatten D) :
    (as.foldl (mergeArea transform flags) o).lines = flatten D ∧
      (as.foldl (mergeArea transform flags) o).changed = o.changed := by
  induction as generalizing o with
  | nil => exact ⟨ho, rfl⟩
  | cons a as ih =>
    have ha : Fits D a := hfit a List.mem_cons_self
    have hkeep := hsame a List.mem_cons_self
    have hlines : (mergeArea transform flags o a).lines = flatten D := by
      rw [lines_mergeArea hD ha ho, hkeep]
    obtain ⟨h₁, h₂⟩ := ih (fun c hc ↦ hfit c (List.mem_cons_of_mem a hc))
      (fun c hc ↦ hsame c (List.mem_cons_of_mem a hc)) hlines
    rw [changed_mergeArea hD ha ho, if_neg (not_alters_of_flatMap_absorb_eq_self hD hkeep),
      List.append_nil] at h₂
    exact ⟨h₁, h₂⟩

variable {workflow : String} {template : List String}

theorem lines_merge (ht : MarkerSafe transform) (flags : Flags) (hD : Tidy D)
    (hfit : ∀ a ∈ Area.applicable workflow template, Fits D a) :
    (merge workflow transform flags (flatten D) template).lines =
      flatten (absorbAll transform flags (Area.applicable workflow template) D) :=
  lines_foldl_mergeArea (o := Outcome.start (flatten D)) ht hD hfit rfl

theorem skipped_merge (ht : MarkerSafe transform) (flags : Flags) (hD : Tidy D)
    (hfit : ∀ a ∈ Area.applicable workflow template, Fits D a) :
    (merge workflow transform flags (flatten D) template).skipped =
      ((Area.applicable workflow template).filter fun a ↦ Unplaced D a).map Area.name :=
  skipped_foldl_mergeArea (o := Outcome.start (flatten D)) ht hD hfit rfl

theorem merge_of_settled (hD : Tidy D)
    (hfit : ∀ a ∈ Area.applicable workflow template, Fits D a)
    (hsame : ∀ a ∈ Area.applicable workflow template,
      D.flatMap (absorb a (content transform flags a)) = D) :
    (merge workflow transform flags (flatten D) template).lines = flatten D ∧
      (merge workflow transform flags (flatten D) template).changed = [] :=
  foldl_mergeArea_of_settled (o := Outcome.start (flatten D)) hD hfit hsame rfl

end Merge

/-! ### A file to look at -/

namespace Sample

/-- A template with an area of each kind. -/
def template : List String :=
  ["# BEGIN ONCE WORKFLOW AREA setup FOR w", "x", "# END WORKFLOW AREA",
    "# BEGIN SORTED WORKFLOW AREA imports FOR w", "m", "", "# END WORKFLOW AREA",
    "# BEGIN WORKFLOW AREA body FOR w IF f", "p", "# ELSE", "q", "# END WORKFLOW AREA"]

/-- A file that was generated from it and has been worked on. -/
def target : List String :=
  ["top", "# BEGIN ONCE WORKFLOW AREA setup FOR w", "", "# END WORKFLOW AREA",
    "# BEGIN SORTED WORKFLOW AREA imports FOR w", "z", "", "m", "# END WORKFLOW AREA", "between",
    "# BEGIN WORKFLOW AREA body FOR w IF f", "own", "# END WORKFLOW AREA"]

theorem passed : (Consistency.check template target "template" "target").passed = true :=
  Consistency.passed_check_iff.2 (by decide +kernel)

theorem closingLinesAgree : ClosingLinesAgree "w" template target := by
  rw [ClosingLinesAgree]
  decide +kernel

end Sample

end WorkflowAreas
