import WorkflowAreas.Proofs.Merge.Whole

/-!
# Whether a merged file passes the check

The check compares headers and does not compare closing lines; a merge looks for the closing line of the
template. Where a file closes an area with another line, the region that is found reaches into areas
further down, and a `ONCE` or a `SORTED` area then takes markers with it that are not its own.

* `passed_check_merge_iff` says **exactly when** a merged file passes: no `ONCE` area of the run took an
  area with it that is not marked `ONCE`, and every area that is left is closed;
* `descends_merge` gives a condition on the two files alone: as long as `ONCE` and `SORTED` areas have
  the closing lines of the template (`MarkedLinesAgree`), the merged file descends from the file before.

The headers of a file carry the first result (`headers_foldl_mergeArea`), and its frames the second.
-/

namespace WorkflowAreas.Merge

open Segment

variable {transform : String → String} {flags : Flags} {o : Outcome} {a : Area}

/-! ### What a step does to the lines -/

/-- **A step changes nothing or acts on the region that it finds**, whatever else is in the file. -/
theorem lines_mergeArea_cases (transform : String → String) (flags : Flags) (o : Outcome) (a : Area) :
    (∀ e ∈ a.endLine, locate? o.lines a.header.beginLine e = none) ∧
        (mergeArea transform flags o a).lines = o.lines ∨
      ∃ e front interior back, a.endLine = some e ∧
        o.lines = front ++ a.header.beginLine :: (interior ++ e :: back) ∧
        locate? o.lines a.header.beginLine e = some (Region.between front interior) ∧
        (mergeArea transform flags o a).lines =
          ((Strategy.ofHeader a.header).apply o.lines (Region.between front interior)
            (content transform flags a)).1 := by
  cases he : a.endLine with
  | none =>
    refine Or.inl ⟨fun e h ↦ ?_, ?_⟩
    · cases h
    · rw [mergeArea, he]
      rfl
  | some e =>
    cases hl : locate? o.lines a.header.beginLine e with
    | none =>
      refine Or.inl ⟨fun e' h ↦ ?_, ?_⟩
      · obtain rfl : e = e' := Option.some.inj h
        exact hl
      · rw [mergeArea_of_locate?_eq_none he hl]
        split <;> rfl
    | some r =>
      obtain ⟨front, interior, back, hlines, -, -, rfl⟩ := locate?_eq_some_iff.1 hl
      exact Or.inr ⟨e, front, interior, back, rfl, hlines, hl,
        (mergeArea_of_locate?_eq_some transform flags he hl).1⟩

/-! ### Headers -/

/-- Sorting an interior rearranges its headers and loses none. -/
theorem headers_union {interior content : List String} (hn : (headers interior).Nodup)
    (hc : ∀ l ∈ content, Marker.isBoundary l = false) :
    (headers (union interior content)).Perm (headers interior) := by
  have hasc : (union interior content).Nodup := by
    refine List.Pairwise.imp ?_ (pairwise_union interior content)
    rintro l m hlt rfl
    exact String.lt_irrefl l hlt
  refine (List.perm_ext_iff_of_nodup (nodup_headers hasc) hn).2 fun h ↦ ?_
  simp only [mem_headers, mem_union]
  -- the content opens no area, and no line that opens one is dropped as blank
  constructor
  · rintro ⟨l, hl | ⟨hl, -⟩, hp⟩
    · rw [Marker.parse?_eq_none_of_not_isBoundary (hc l hl)] at hp
      cases hp
    · exact ⟨l, hl, hp⟩
  · rintro ⟨l, hl, hp⟩
    exact ⟨l, Or.inr ⟨hl, Header.isBlankLine_eq_false_of_parse? hp⟩, hp⟩

theorem headers_fill {s : Strategy} (hs : s ≠ .replace) {interior content : List String}
    (hn : (headers interior).Nodup) (hc : ∀ l ∈ content, Marker.isBoundary l = false) :
    (headers (s.fill interior content)).Perm (headers interior) := by
  cases s with
  | replace => exact absurd rfl hs
  | unite => exact headers_union hn hc
  | append =>
    rw [Strategy.fill]
    split
    · exact List.Perm.refl _
    · rw [headers_append, headers_eq_nil hc, List.append_nil]

/-- The headers of a file with a region, read around it. -/
theorem headers_region (ha : a.Sound) {e : String} (he : a.endLine = some e)
    (front interior back : List String) :
    headers (front ++ a.header.beginLine :: (interior ++ e :: back)) =
      headers front ++ a.header :: (headers interior ++ headers back) := by
  have hclose : Header.parse? e = none := Marker.isBegin_eq_false_iff.1 (ha.endLine e he).2
  rw [headers_append, headers_cons_of_eq_some ha.parse?_beginLine, headers_append,
    headers_cons_of_eq_none hclose]

/-- The next step of a run leaves every area that is not marked `ONCE`: if its own area is replaced,
then no other area opens in the region that is found for it. -/
def Spares (o : Outcome) (a : Area) : Prop :=
  a.header.once = true → ∀ e ∈ a.endLine, ∀ r ∈ locate? o.lines a.header.beginLine e,
    ∀ h ∈ headers (r.interior o.lines), h.once = true

theorem spares_of_not_once (ho : a.header.once = false) : Spares o a := fun h ↦ by
  rw [ho] at h
  cases h

theorem spares_of_locate?_eq_none
    (h : ∀ e ∈ a.endLine, locate? o.lines a.header.beginLine e = none) : Spares o a := by
  intro _ e he r hr
  rw [h e he] at hr
  cases hr

theorem spares_iff_of_locate?_eq_some {e : String} {r : Region} (ho : a.header.once = true)
    (he : a.endLine = some e) (hr : locate? o.lines a.header.beginLine e = some r) :
    Spares o a ↔ ∀ h ∈ headers (r.interior o.lines), h.once = true := by
  simp only [Spares, ho, he, hr, Option.mem_def, Option.some.injEq, forall_eq', forall_const]

/-- **The headers that a step takes away** are all marked `ONCE` exactly if it spares the others. -/
theorem headers_mergeArea (ht : MarkerSafe transform) (flags : Flags) (ha : a.Sound)
    (hn : (headers o.lines).Nodup) :
    ∃ gone, (headers o.lines).Perm (gone ++ headers (mergeArea transform flags o a).lines) ∧
      ((∀ h ∈ gone, h.once = true) ↔ Spares o a) := by
  have hc := not_isBoundary_of_mem_content ht flags ha
  obtain ⟨hno, hsame⟩ | ⟨e, front, interior, back, he, hlines, hlocate, hafter⟩ :=
    lines_mergeArea_cases transform flags o a
  · exact ⟨[], by rw [hsame, List.nil_append],
      iff_of_true (List.forall_mem_nil _) (spares_of_locate?_eq_none hno)⟩
  · have hbefore : headers o.lines =
        headers front ++ a.header :: (headers interior ++ headers back) := by
      rw [hlines, headers_region ha he]
    cases ho : a.header.once with
    | true =>
      -- the whole region is gone, with its own header and those between its markers
      rw [ofHeader_eq_replace ho, hlines, fst_apply_replace] at hafter
      refine ⟨a.header :: headers interior, ?_, ?_⟩
      · rw [hbefore, hafter, headers_append, headers_append, headers_eq_nil hc, List.append_nil]
        exact List.perm_middle.trans ((List.perm_append_comm_assoc _ _ _).cons a.header)
      · rw [spares_iff_of_locate?_eq_some ho he hlocate, hlines, interior_between,
          List.forall_mem_cons]
        exact and_iff_right ho
    | false =>
      -- the interior may be rearranged, and nothing is gone
      rw [hlines, fst_apply_of_ne_replace (ofHeader_ne_replace ho)] at hafter
      refine ⟨[], ?_, iff_of_true (List.forall_mem_nil _) (spares_of_not_once ho)⟩
      rw [hbefore] at hn
      have hin : (headers interior).Nodup := hn.of_append_right.of_cons.of_append_left
      rw [hbefore, hafter, List.nil_append, headers_region ha he]
      have hfill := headers_fill (ofHeader_ne_replace ho) hin hc
      exact ((hfill.symm.append_right _).cons a.header).append_left _

/-- **The headers that a run takes away** are all marked `ONCE` exactly if each of its steps spares the
others. -/
theorem headers_foldl_mergeArea (ht : MarkerSafe transform) (flags : Flags) {as : List Area}
    (hs : ∀ a ∈ as, a.Sound) (hn : (headers o.lines).Nodup) :
    ∃ gone, (headers o.lines).Perm
        (gone ++ headers (as.foldl (mergeArea transform flags) o).lines) ∧
      ((∀ h ∈ gone, h.once = true) ↔ ∀ done a rest, as = done ++ a :: rest →
        Spares (done.foldl (mergeArea transform flags) o) a) := by
  induction as generalizing o with
  | nil =>
    refine ⟨[], List.Perm.refl _, iff_of_true (List.forall_mem_nil _) ?_⟩
    intro done a rest h
    exact absurd h.symm (List.append_ne_nil_of_right_ne_nil _ (List.cons_ne_nil _ _))
  | cons a as ih =>
    obtain ⟨gone, hperm, hiff⟩ := headers_mergeArea ht flags (hs a List.mem_cons_self) hn
    have hn' := (hperm.nodup_iff.1 hn).of_append_right
    obtain ⟨gone', hperm', hiff'⟩ := ih (fun c hc ↦ hs c (List.mem_cons_of_mem a hc)) hn'
    refine ⟨gone ++ gone', ?_, ?_⟩
    · rw [List.foldl_cons, List.append_assoc]
      exact hperm.trans (hperm'.append_left gone)
    · -- a stage of the run is its start, or a stage of what comes after the first step
      rw [List.forall_mem_append, hiff, hiff']
      constructor
      · rintro ⟨hfirst, hrest⟩ done c rest h
        cases done with
        | nil =>
          obtain ⟨rfl, rfl⟩ := List.cons.inj h
          exact hfirst
        | cons d done =>
          obtain ⟨rfl, rfl⟩ := List.cons.inj h
          exact hrest done c rest rfl
      · exact fun h ↦ ⟨h [] a as rfl, fun done c rest heq ↦ h (a :: done) c rest (by rw [heq]; rfl)⟩

/-! ### Frames -/

/-- Where an area of the template for the workflow that is marked `ONCE` or `SORTED` and an area of the
file have the same opening line, they have the same closing line. -/
def MarkedLinesAgree (workflow : String) (template target : List String) : Prop :=
  ∀ a ∈ Area.applicable workflow template, (a.header.once || a.header.sorted) = true →
    ∀ b ∈ Area.extract target, a.header.beginLine = b.header.beginLine → a.endLine = b.endLine

/-- Content that is appended stands in no marker's way, wherever it goes. -/
theorem descends_of_append (ht : MarkerSafe transform) (flags : Flags) (ha : a.Sound)
    (hm : (a.header.once || a.header.sorted) = false) :
    Descends o.lines (mergeArea transform flags o a).lines := by
  have hc := not_isBoundary_of_mem_content ht flags ha
  obtain ⟨ho, hs⟩ := Bool.or_eq_false_iff.1 hm
  have happend : Strategy.ofHeader a.header = .append := by
    rw [Strategy.ofHeader, ho, hs, if_neg Bool.false_ne_true, if_neg Bool.false_ne_true]
  obtain ⟨-, hsame⟩ | ⟨e, front, interior, back, -, hlines, -, hafter⟩ :=
    lines_mergeArea_cases transform flags o a
  · rw [hsame]
    exact Descends.refl o.lines
  · rw [hlines, fst_apply_of_ne_replace (ofHeader_ne_replace ho), happend, Strategy.fill] at hafter
    rw [hafter, hlines]
    refine Descends.of_frames_eq (frames_eq_of_filter_eq ?_)
    split
    · rfl
    · have hnone : (content transform flags a).filter Marker.isBoundary = [] :=
        List.filter_eq_nil_iff.2 fun l hl ↦ by simp [hc l hl]
      simp only [List.filter_append, List.filter_cons, hnone, List.append_nil]

variable {workflow p q : String} {template target : List String}

/-- **A step keeps the markers of a file** if its area is not marked or is closed by the same line. -/
theorem descends_mergeArea (ht : MarkerSafe transform) (flags : Flags)
    (hpass : (Consistency.check template o.lines p q).passed = true)
    (ha : a ∈ Area.applicable workflow template)
    (hends : MarkedLinesAgree workflow template o.lines) :
    Descends o.lines (mergeArea transform flags o a).lines := by
  have hsound := Area.sound_of_mem_applicable ha
  cases hm : a.header.once || a.header.sorted with
  | false => exact descends_of_append ht flags hsound hm
  | true =>
    have hD := tidy_cut_of_passed hpass
    have hfit : Fits (cut o.lines) a := by
      refine ⟨hsound, (Consistency.passed_check_iff.1 hpass).closed_template a
        (Area.mem_applicable.1 ha).1, ?_⟩
      rw [areas_cut]
      exact fun b hb heq ↦ (hends a ha hm b hb heq.symm).symm
    have hdesc := hD.descends_flatMap_absorb hsound
      (not_isBoundary_of_mem_content ht flags hsound)
    rwa [flatten_cut, ← lines_mergeArea hD hfit (flatten_cut o.lines).symm] at hdesc

theorem MarkedLinesAgree.of_closingLinesAgree (h : ClosingLinesAgree workflow template target) :
    MarkedLinesAgree workflow template target := fun a ha _ ↦
  h a (Area.mem_applicable.1 ha).1 (Area.mem_applicable.1 ha).2

theorem MarkedLinesAgree.of_descends (h : MarkedLinesAgree workflow template target)
    {file : List String} (hd : Descends target file) :
    MarkedLinesAgree workflow template file := by
  intro a ha hm b hb heq
  obtain ⟨c, hc, hframe⟩ := hd.exists_frame hb
  rw [← Area.endLine_eq_of_frame_eq hframe]
  exact h a ha hm c hc (by rw [heq, Area.header_eq_of_frame_eq hframe])

theorem descends_foldl_mergeArea (ht : MarkerSafe transform) (flags : Flags) {as : List Area}
    (has : ∀ a ∈ as, a ∈ Area.applicable workflow template)
    (hpass : (Consistency.check template o.lines p q).passed = true)
    (hends : MarkedLinesAgree workflow template o.lines) :
    Descends o.lines (as.foldl (mergeArea transform flags) o).lines := by
  -- each step starts from a file that passes the check, since it descends from one that does
  induction as generalizing o with
  | nil => exact Descends.refl o.lines
  | cons a as ih =>
    have hstep := descends_mergeArea ht flags hpass (has a List.mem_cons_self) hends
    exact hstep.trans (ih (fun c hc ↦ has c (List.mem_cons_of_mem a hc))
      (Consistency.passed_check_of_descends hpass hstep p q) (hends.of_descends hstep))

/-- **A merged file descends from the file before** if marked areas are closed by the same lines. -/
theorem descends_merge (ht : MarkerSafe transform) (flags : Flags)
    (hpass : (Consistency.check template target p q).passed = true)
    (hends : MarkedLinesAgree workflow template target) :
    Descends target (merge workflow transform flags target template).lines :=
  descends_foldl_mergeArea (o := Outcome.start target) ht flags (fun _ ha ↦ ha) hpass hends

/-! ### The check -/

/-- **When a merged file passes the check.** It has no headers but old ones, each once, so it fails for
one of two reasons: a step took away an area that is not marked `ONCE`, or an area is left open. Neither
happens where marked areas are closed by the lines of the template. -/
theorem passed_check_merge_iff (hpass : (Consistency.check template target p q).passed = true)
    (hsafe : MarkerSafe transform) (flags : Flags) (p' q' : String) :
    let merged := merge workflow transform flags target template
    ((Consistency.check template merged.lines p' q').passed = true ↔
        (∀ done a rest, Area.applicable workflow template = done ++ a :: rest →
          Spares (done.foldl (mergeArea transform flags) (Outcome.start target)) a) ∧
        ∀ b ∈ Area.extract merged.lines, b.isTerminated = true) ∧
      (MarkedLinesAgree workflow template target →
        (Consistency.check template merged.lines p' q').passed = true) := by
  intro merged
  refine ⟨?_, fun hends ↦ Consistency.passed_check_of_descends hpass
    (descends_merge hsafe flags hpass hends) p' q'⟩
  have hagree := Consistency.passed_check_iff.1 hpass
  have hnodup : (headers (Outcome.start target).lines).Nodup := by
    have hn := hagree.nodup_headers
    rwa [map_header_extract] at hn
  obtain ⟨gone, hperm, hspares⟩ := headers_foldl_mergeArea hsafe flags
    (fun _ ha ↦ Area.sound_of_mem_applicable ha) hnodup
  rw [← hspares, Consistency.passed_check_iff, and_comm]
  refine hagree.iff_of_perm ?_
  rw [map_header_extract, map_header_extract]
  exact hperm

theorem passed_check_merge_iff_sample :
    (Consistency.check Sample.template Sample.target "template" "target").passed = true ∧
      MarkerSafe id ∧
      let merged := merge "w" id ∅ Sample.target Sample.template
      ((Consistency.check Sample.template merged.lines "template" "target").passed = true ↔
          (∀ done a rest, Area.applicable "w" Sample.template = done ++ a :: rest →
            Spares (done.foldl (mergeArea id ∅) (Outcome.start Sample.target)) a) ∧
          ∀ b ∈ Area.extract merged.lines, b.isTerminated = true) ∧
        (MarkedLinesAgree "w" Sample.template Sample.target →
          (Consistency.check Sample.template merged.lines "template" "target").passed = true) :=
  ⟨Sample.passed, fun _ h ↦ h, passed_check_merge_iff Sample.passed (fun _ h ↦ h) ∅ _ _⟩

/-- **A merge can spoil a file.** The `ONCE` area of this file is closed in another way than that of the
template, so the region that is found for it ends behind the second area and takes it along. -/
theorem merge_loses_area :
    let template := ["// BEGIN ONCE WORKFLOW AREA a FOR w", "x", "// END WORKFLOW AREA",
      "// BEGIN WORKFLOW AREA b FOR w", "y", "// END WORKFLOW AREA"]
    let target := ["// BEGIN ONCE WORKFLOW AREA a FOR w", "# END WORKFLOW AREA",
      "// BEGIN WORKFLOW AREA b FOR w", "// END WORKFLOW AREA"]
    (Consistency.check template target "template" "target").passed = true ∧ MarkerSafe id ∧
      (merge "w" id ∅ target template).lines = ["x"] ∧
      (Consistency.check template (merge "w" id ∅ target template).lines "template"
        "target").passed = false := by
  intro template target
  have hlines : (merge "w" id ∅ target template).lines = ["x"] := by decide +kernel
  refine ⟨Consistency.passed_check_iff.2 (by decide +kernel), fun _ h ↦ h, hlines, ?_⟩
  rw [hlines, Bool.eq_false_iff]
  exact fun h ↦ absurd (Consistency.passed_check_iff.1 h) (by decide +kernel)

end WorkflowAreas.Merge
