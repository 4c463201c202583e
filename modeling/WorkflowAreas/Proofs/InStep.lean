import WorkflowAreas.Proofs.Freshness
import WorkflowAreas.Proofs.Merge.Provenance
import WorkflowAreas.Proofs.Sync
import WorkflowAreas.Proofs.Text.Lines

/-!
# Files in step with their templates

Running twice should do no more than running once. Between the two runs the lines of a file are written
as a text, and the second run reads them again, so it works on the same lines only if the layout of the
file keeps them (`Text.Layout.Keeps`). Under that condition

* `Entry.inStep_of_updated`: a file that was updated is in step with its template, whatever it was;
* `Entry.inStep_created_iff`: a file that was created is in step with it **exactly if** the `SORTED` areas
  of the template are `Presorted`.

Neither holds without its condition, and `Entry.sync_repeats_content` and `Entry.sync_sorts_fresh_file`
show what happens then.
-/

namespace WorkflowAreas

open Segment
open Storage (FileTree)

/-! ### Segments that are written and read again -/

namespace Segment

variable {D : List Segment} {back : List String}

/-- An empty last line of a file in good order is text. -/
theorem Tidy.exists_of_flatten_eq_append (hD : Tidy D) (h : flatten D = back ++ [""]) :
    ∃ E, D = E ++ [text ""] ∧ flatten E = back := by
  rcases List.eq_nil_or_concat' D with rfl | ⟨E, s, rfl⟩
  · exact absurd (congrArg List.length h) (by simp)
  · rw [flatten_append, flatten_cons, flatten_nil, List.append_nil] at h
    cases s with
    | text l =>
      obtain ⟨hback, hl⟩ := List.append_inj' h rfl
      exact ⟨E, by rw [List.singleton_inj.1 hl], hback⟩
    | area a =>
      -- an area ends in its closing line, and that is not empty
      have ha : a ∈ areas (E ++ [area a]) := mem_areas.2 (by simp)
      obtain ⟨e, he⟩ := Area.isTerminated_iff.1 (hD.closed a ha)
      have hlines : flatten E ++ a.lines = (flatten E ++ a.header.beginLine :: a.body) ++ [e] := by
        rw [Area.lines, he, Option.toList_some, List.append_assoc, List.cons_append]
      have hend := ((hD.sound _ (mem_areas.1 ha)).endLine e he).1
      rw [lines, hlines] at h
      rw [List.singleton_inj.1 (List.append_inj' h rfl).2] at hend
      exact absurd hend (by decide)

/-- **Segments of what is read again**: the areas are the same, for only an empty line at the end can be
lost. -/
theorem Tidy.exists_reread (hD : Tidy D) (layout : Text.Layout) :
    ∃ E, flatten E = layout.reread (flatten D) ∧ Tidy E ∧ areas E = areas D := by
  rcases layout.reread_eq_or (flatten D) with h | h
  · exact ⟨D, h.symm, hD, rfl⟩
  · obtain ⟨E, hE, hback⟩ := hD.exists_of_flatten_eq_append h
    have hareas : areas E = areas D := by
      rw [hE, areas_append, areas_text_cons, areas_nil, List.append_nil]
    refine ⟨E, hback, hD.of_frames_sublist (fun s hs ↦ hD.sound s ?_) ?_, hareas⟩
    · rw [hE]
      exact List.mem_append_left _ hs
    · rw [hareas]

variable {workflow : String} {transform : String → String} {template : List String}

/-- **A merge leaves alone what was read again** exactly if the areas were settled before. -/
theorem Tidy.lines_merge_reread_iff (hD : Tidy D) (hsafe : MarkerSafe transform) (flags : Flags)
    (hfit : ∀ a ∈ Area.applicable workflow template, Fits D a)
    (hn : ((Area.applicable workflow template).map (·.header.beginLine)).Nodup)
    (layout : Text.Layout) :
    (Merge.merge workflow transform flags (layout.reread (flatten D)) template).lines =
        layout.reread (flatten D) ↔
      Settled transform flags (Area.applicable workflow template) D := by
  obtain ⟨E, hflatten, hE, hareas⟩ := hD.exists_reread layout
  have hfit' : ∀ a ∈ Area.applicable workflow template, Fits E a := fun a ha ↦
    have h := hfit a ha
    ⟨h.sound, h.closed, by rw [hareas]; exact h.endLine⟩
  rw [← hflatten, hE.lines_merge_eq_self_iff hsafe flags hfit' hn, settled_iff, settled_iff, hareas]

end Segment

/-- An empty line that is lost is no marker. -/
theorem frames_reread (layout : Text.Layout) (lines : List String) :
    frames (layout.reread lines) = frames lines := by
  rcases layout.reread_eq_or lines with h | h
  · rw [h]
  · have hempty : Marker.isBoundary "" = false := by decide
    have hinsert := frames_insert hempty (layout.reread lines) []
    rw [← h, List.append_nil] at hinsert
    exact hinsert.symm

/-- **A fresh file that is written and read again** passes the check, and the next merge leaves it alone
exactly if its template was ready for that. -/
theorem lines_merge_reread_firstRendering_iff {p q : String}
    {transform : String → String} {template : List String}
    (hself : (Consistency.check template template p q).passed = true)
    (hsafe : MarkerSafe transform) (workflow : String) (flags : Flags) (layout : Text.Layout)
    (p' q' : String) :
    let again := layout.reread (firstRendering workflow transform flags template)
    (Consistency.check template again p' q').passed = true ∧
      ((Merge.merge workflow transform flags again template).lines = again ↔
        Presorted workflow transform flags template) := by
  intro again
  have hD : Tidy (fresh workflow transform flags template) := tidy_fresh hself hsafe
  constructor
  · have hdesc := Descends.rendered (Consistency.passed_check_iff.1 hself).closed_template workflow
      hsafe flags
    exact Consistency.passed_check_of_descends hself
      (hdesc.trans (.of_frames_eq (frames_reread layout _))) p' q'
  · have hiff := hD.lines_merge_reread_iff hsafe flags (fun a ha ↦ fits_fresh hself ha)
      (nodup_applicable_of_passed hself workflow) layout
    rwa [flatten_fresh, settled_fresh_iff hself] at hiff

/-- **A merged file that is written and read again** passes the check and is left alone by the next
merge. -/
theorem lines_merge_reread_merge {workflow p q : String} {transform : String → String}
    {template target : List String} (hpass : (Consistency.check template target p q).passed = true)
    (hsafe : MarkerSafeOn template transform) (flags : Flags)
    (hends : ClosingLinesAgree workflow template target) (layout : Text.Layout) :
    let again := layout.reread (Merge.merge workflow transform flags target template).lines
    (Consistency.check template again p q).passed = true ∧
      (Merge.merge workflow transform flags again template).lines = again := by
  intro again
  -- lines that the template does not have may as well stay as they are
  have hsafe' := hsafe.markerSafe_confined
  have hD := tidy_cut_of_passed hpass
  have hfit := fits_of_passed hpass hends
  have hn := nodup_applicable_of_passed hpass workflow
  have hsound : ∀ a ∈ Area.applicable workflow template, a.Sound :=
    fun _ ha ↦ Area.sound_of_mem_applicable ha
  have hmerged := Merge.lines_merge hsafe' flags hD hfit
  rw [flatten_cut, Merge.merge_confined] at hmerged
  constructor
  · have hdesc := Merge.descends_merge hsafe' flags hpass (.of_closingLinesAgree hends)
    rw [Merge.merge_confined] at hdesc
    exact Consistency.passed_check_of_descends hpass
      (hdesc.trans (.of_frames_eq (frames_reread layout _))) p q
  · have hiff := (hD.absorbAll hsafe' flags hsound).lines_merge_reread_iff hsafe' flags
      (fun a ha ↦ (hfit a ha).absorbAll) hn layout
    rw [← hmerged, Merge.merge_confined] at hiff
    exact hiff.2 (settled_absorbAll hn _)

namespace Substitution

theorem apply_empty (s : Substitution) : s.apply "" = "" := by
  rw [apply]
  split <;> rfl

/-- Without tokens nothing is replaced. -/
theorem apply_of_isEmpty {s : Substitution} (h : s.isEmpty = true) (line : String) :
    s.apply line = line := by
  rw [apply, pattern, if_pos h, Option.bind_none]

end Substitution

/-! ### Two runs -/

namespace Entry

variable {e : Entry} {env : Environment} {m : Manifest} {mode : WriteMode}
  {files later : FileTree} {base : Path} {template target : Text.Document} {d : Draft} {p q : String}

/-- **A file that has just been created is in step** exactly if the `SORTED` areas of its template ascend
and have no blank lines of their own. The first part says so of lines and the second one of files. The
third one gives a condition on the template under which its layout keeps the lines of the file. -/
theorem inStep_created_iff
    (hself : (Consistency.check template.lines template.lines p q).passed = true)
    (hsafe : MarkerSafe m.substitution.apply) :
    let first := e.firstLines m.substitution template.lines
    let ready := Presorted e.workflow m.substitution.apply e.flags template.lines
    ((Merge.merge e.workflow m.substitution.apply e.flags first template.lines).lines = first ↔
        ready) ∧
      (template.layout.Keeps first → ∀ {env mode files later base d},
        e.Untouched env m mode files later base template d →
        files.readDocument? (base.join e.target) = .ok none → (e.InStep env m later base ↔ ready)) ∧
      ((∀ l ∈ template.lines, template.layout.Admits
        (if Marker.isBoundary l then l else m.substitution.apply l)) → template.layout.Keeps first) := by
  intro first ready
  refine ⟨(lines_merge_firstRendering_eq_self_iff hself hsafe).1, ?_, fun hlines ↦ ?_⟩
  · intro hkeeps env mode files later base d h htarget
    have hd : e.draftNew m.substitution template = d := Except.ok.inj
      ((draft_of_none h.accept h.template_before htarget).symm.trans (draft_of_sync h.result))
    have hlater := h.readDocument? (hd ▸ draftNew_status_ne _)
    rw [← hd] at hlater
    have hread := Text.lines_ofText_join hkeeps
    obtain ⟨hpass, hiff⟩ := lines_merge_reread_firstRendering_iff hself hsafe e.workflow e.flags
      template.layout e.template e.target
    rw [← e.firstLines_eq_firstRendering, ← hread] at hpass hiff
    rw [inStep_iff h.accept h.template_after hlater hpass]
    exact hiff
  · refine Text.Layout.keeps_of_admits fun l hl ↦ ?_
    obtain ⟨k, hk | rfl, rfl⟩ := mem_firstRendering hl
    · exact hlines k hk
    · rw [if_neg (by decide), Substitution.apply_empty]
      exact ⟨by decide, fun _ ↦ by decide⟩

/-- A file that is created with a `SORTED` area in order. -/
theorem inStep_created_iff_sample :
    let base : Path := ⟨"."⟩
    let e : Entry := ⟨"template", "target", "w", ∅⟩
    let m : Manifest := ⟨true, ∅, [e]⟩
    let text := "# BEGIN SORTED WORKFLOW AREA imports FOR w\na\nb\n# END WORKFLOW AREA\n"
    let template : Text.Document :=
      ⟨["# BEGIN SORTED WORKFLOW AREA imports FOR w", "a", "b", "# END WORKFLOW AREA"],
        ⟨false, true⟩⟩
    let files : FileTree := ⟨[], [(["template"], .file text.toUTF8)]⟩
    let run := e.sync .calm m ⟨false, "tag"⟩ files base
    (Consistency.check template.lines template.lines "template" "template").passed = true ∧
      MarkerSafe m.substitution.apply ∧
      template.layout.Keeps (e.firstLines m.substitution template.lines) ∧
      (∃ d, e.Untouched .calm m ⟨false, "tag"⟩ files run.files base template d) ∧
      files.readDocument? (base.join e.target) = .ok none ∧
      Presorted "w" m.substitution.apply ∅ template.lines ∧ e.InStep .calm m run.files base := by
  intro base e m text template files run
  have hself : (Consistency.check template.lines template.lines "template" "template").passed =
      true := Consistency.passed_check_iff.2 (by decide +kernel)
  have hsafe : MarkerSafe m.substitution.apply := fun l hl ↦ by
    rw [Substitution.apply_of_isEmpty rfl]
    exact hl
  have hkeeps : template.layout.Keeps (e.firstLines m.substitution template.lines) := by
    decide +kernel
  have htemplate : e.readTemplate files base = .ok template :=
    eq_ok_of_toOption (by decide +kernel)
  have htarget : files.readDocument? (base.join e.target) = .ok none :=
    eq_ok_of_toOption (by decide +kernel)
  have hready : Presorted "w" m.substitution.apply ∅ template.lines := by decide +kernel
  have htext : (e.draftNew m.substitution template).document.toText = text := by decide +kernel
  have hdraft : e.draft .calm m files base = .ok (e.draftNew m.substitution template) :=
    draft_of_none (Environment.accept_calm _) htemplate htarget
  have hrun : run = ⟨.ok (e.draftNew m.substitution template),
      some (e.draftNew m.substitution template),
      (files.replace Environment.calm.trouble "tag" (base.join e.target) text).2⟩ :=
    sync_of_replace hdraft rfl htext (by decide +kernel)
  have hresult : run.result = .ok (e.draftNew m.substitution template) := by rw [hrun]
  have hlater : e.readTemplate run.files base = .ok template := by
    rw [hrun]
    exact eq_ok_of_toOption (by decide +kernel)
  have huntouched : e.Untouched .calm m ⟨false, "tag"⟩ files run.files base template
      (e.draftNew m.substitution template) := ⟨hresult, rfl, htemplate, hlater, rfl⟩
  have hiff := (inStep_created_iff hself hsafe).2.1 hkeeps huntouched htarget
  exact ⟨hself, hsafe, hkeeps, ⟨_, huntouched⟩, htarget, hready, hiff.2 hready⟩

/-- **A file that has just been created can be out of step**: the lines of a `SORTED` area are copied as
they stand, and the next run sorts them. -/
theorem sync_sorts_fresh_file :
    let base : Path := ⟨"."⟩
    let e : Entry := ⟨"template", "target", "w", ∅⟩
    let m : Manifest := ⟨true, ∅, [e]⟩
    let text := "// BEGIN SORTED WORKFLOW AREA a FOR w\nb\na\n// END WORKFLOW AREA\n"
    let template : Text.Document :=
      ⟨["// BEGIN SORTED WORKFLOW AREA a FOR w", "b", "a", "// END WORKFLOW AREA"], ⟨false, true⟩⟩
    let sorted := "// BEGIN SORTED WORKFLOW AREA a FOR w\na\nb\n// END WORKFLOW AREA\n"
    let files : FileTree := ⟨[], [(["template"], .file text.toUTF8)]⟩
    let first := e.sync .calm m ⟨false, "tag"⟩ files base
    let second := e.sync .calm m ⟨false, "tag"⟩ first.files base
    (Consistency.check template.lines template.lines "template" "template").passed = true ∧
      MarkerSafe m.substitution.apply ∧
      (∃ d, e.Untouched .calm m ⟨false, "tag"⟩ files first.files base template d ∧
        d.status = .created ∧ d.document.toText = text) ∧
      ∃ d, second.result = .ok d ∧ d.status = .updated ∧ d.document.toText = sorted := by
  intro base e m text template sorted files first second
  have hself : (Consistency.check template.lines template.lines "template" "template").passed =
      true := Consistency.passed_check_iff.2 (by decide +kernel)
  have hsafe : MarkerSafe m.substitution.apply := fun l hl ↦ by
    rw [Substitution.apply_of_isEmpty rfl]
    exact hl
  have htemplate : e.readTemplate files base = .ok template :=
    eq_ok_of_toOption (by decide +kernel)
  have htarget : files.readDocument? (base.join e.target) = .ok none :=
    eq_ok_of_toOption (by decide +kernel)
  have htext : (e.draftNew m.substitution template).document.toText = text := by decide +kernel
  have hdraft : e.draft .calm m files base = .ok (e.draftNew m.substitution template) :=
    draft_of_none (Environment.accept_calm _) htemplate htarget
  have hfirst : first = ⟨.ok (e.draftNew m.substitution template),
      some (e.draftNew m.substitution template),
      (files.replace Environment.calm.trouble "tag" (base.join e.target) text).2⟩ :=
    sync_of_replace hdraft rfl htext (by decide +kernel)
  have hresult : first.result = .ok (e.draftNew m.substitution template) := by rw [hfirst]
  have hlater : e.readTemplate first.files base = .ok template := by
    rw [hfirst]
    exact eq_ok_of_toOption (by decide +kernel)
  -- the file that was created reads as its template
  have hread : first.files.readDocument? (base.join e.target) = .ok (some template) := by
    have hdocument : Text.Document.ofText text = template := by decide +kernel
    rw [readDocument?_sync hresult (draftNew_status_ne _) rfl, htext, hdocument]
  have hdraft' : e.draft .calm m first.files base =
      .ok (e.draftMerged m.substitution template template) :=
    draft_of_some (Environment.accept_calm _) hlater hread
      (Consistency.passed_check_iff.2 (by decide +kernel))
  have hstatus : (e.draftMerged m.substitution template template).status = .updated := by
    decide +kernel
  have hsorted : (e.draftMerged m.substitution template template).document.toText = sorted := by
    decide +kernel
  have hsecond : second = ⟨.ok (e.draftMerged m.substitution template template),
      some (e.draftMerged m.substitution template template),
      (first.files.replace Environment.calm.trouble "tag" (base.join e.target) sorted).2⟩ :=
    sync_of_replace hdraft' (by rw [hstatus]; rfl) hsorted (by rw [hfirst]; decide +kernel)
  exact ⟨hself, hsafe, ⟨_, ⟨hresult, rfl, htemplate, hlater, rfl⟩, rfl, htext⟩, _,
    congrArg SyncRun.result hsecond, hstatus, hsorted⟩

/-- **A file that was updated is in step**, if its layout keeps the lines that were written. It does so if
it admits the lines that were there and those that were brought in. -/
theorem inStep_of_updated (h : e.Untouched env m mode files later base template d)
    (hstatus : d.status = .updated)
    (htarget : files.readDocument? (base.join e.target) = .ok (some target))
    (hpass : (e.check template.lines target.lines).passed = true)
    (hends : ClosingLinesAgree e.workflow template.lines target.lines)
    (hsafe : MarkerSafeOn template.lines m.substitution.apply) :
    (target.layout.Keeps d.document.lines → e.InStep env m later base) ∧
      ((∀ l ∈ target.lines, target.layout.Admits l) →
        (∀ a ∈ Area.applicable e.workflow template.lines,
          ∀ l ∈ Merge.content m.substitution.apply e.flags a, target.layout.Admits l) →
        target.layout.Keeps d.document.lines) := by
  have hd : e.draftMerged m.substitution template target = d := Except.ok.inj
    ((draft_of_some h.accept h.template_before htarget hpass).symm.trans (draft_of_sync h.result))
  have hwritten : d.document.lines =
      (Merge.merge e.workflow m.substitution.apply e.flags target.lines template.lines).lines := by
    rw [← hd, draftMerged]
  refine ⟨fun hkeeps ↦ ?_, fun htargetLines hcontents ↦ ?_⟩
  · have hlater := h.readDocument? (by simp [hstatus])
    have hlayout : d.document.layout = target.layout := by rw [← hd, draftMerged]
    have hread : (Text.Document.ofText d.document.toText).lines =
        target.layout.reread d.document.lines := by
      rw [Text.Document.toText, hlayout]
      exact Text.lines_ofText_join hkeeps
    obtain ⟨hpass', hsame⟩ := lines_merge_reread_merge hpass hsafe e.flags hends target.layout
    rw [← hwritten, ← hread] at hpass' hsame
    exact (inStep_iff h.accept h.template_after hlater hpass').2 hsame
  · refine Text.Layout.keeps_of_admits fun l hl ↦ ?_
    rw [hwritten] at hl
    rcases Merge.mem_lines_merge hl with hl | ⟨a, ha, hl⟩
    · exact htargetLines l hl
    · exact hcontents a ha l hl

/-- An area gets a line with a token in it, after a line of its own. -/
theorem inStep_of_updated_sample :
    let base : Path := ⟨"."⟩
    let e : Entry := ⟨"template", "target", "w", ∅⟩
    let m : Manifest := ⟨true, Table.ofList [("NAME", "x")], [e]⟩
    let template : Text.Document :=
      ⟨["# BEGIN WORKFLOW AREA a FOR w", "NAME", "# END WORKFLOW AREA"], ⟨false, true⟩⟩
    let target : Text.Document :=
      ⟨["mine", "# BEGIN WORKFLOW AREA a FOR w", "own", "# END WORKFLOW AREA"], ⟨false, true⟩⟩
    let files : FileTree := ⟨[], [(["template"], .file template.toText.toUTF8),
      (["target"], .file target.toText.toUTF8)]⟩
    let run := e.sync .calm m ⟨false, "tag"⟩ files base
    (∃ d, e.Untouched .calm m ⟨false, "tag"⟩ files run.files base template d ∧ d.status = .updated ∧
        target.layout.Keeps d.document.lines) ∧
      files.readDocument? (base.join e.target) = .ok (some target) ∧
      (e.check template.lines target.lines).passed = true ∧
      ClosingLinesAgree "w" template.lines target.lines ∧
      MarkerSafeOn template.lines m.substitution.apply ∧ e.InStep .calm m run.files base := by
  intro base e m template target files run
  have htemplate : e.readTemplate files base = .ok template :=
    eq_ok_of_toOption (by decide +kernel)
  have htarget : files.readDocument? (base.join e.target) = .ok (some target) :=
    eq_ok_of_toOption (by decide +kernel)
  have hpass : (e.check template.lines target.lines).passed = true :=
    Consistency.passed_check_iff.2 (by decide +kernel)
  have hends : ClosingLinesAgree "w" template.lines target.lines := by
    rw [ClosingLinesAgree]
    decide +kernel
  have hsafe : MarkerSafeOn template.lines m.substitution.apply := by
    rw [MarkerSafeOn]
    decide +kernel
  have hstatus : (e.draftMerged m.substitution template target).status = .updated := by
    decide +kernel
  have hkeeps : target.layout.Keeps (e.draftMerged m.substitution template target).document.lines := by
    decide +kernel
  have htext : (e.draftMerged m.substitution template target).document.toText =
      "mine\n# BEGIN WORKFLOW AREA a FOR w\nown\nx\n# END WORKFLOW AREA\n" := by decide +kernel
  have hrun : run = ⟨.ok (e.draftMerged m.substitution template target),
      some (e.draftMerged m.substitution template target),
      (files.replace Environment.calm.trouble "tag" (base.join e.target)
        "mine\n# BEGIN WORKFLOW AREA a FOR w\nown\nx\n# END WORKFLOW AREA\n").2⟩ :=
    sync_of_replace (draft_of_some (Environment.accept_calm _) htemplate htarget hpass)
      (by rw [hstatus]; rfl) htext (by decide +kernel)
  have hresult : run.result = .ok (e.draftMerged m.substitution template target) := by rw [hrun]
  have hlater : e.readTemplate run.files base = .ok template := by
    rw [hrun]
    exact eq_ok_of_toOption (by decide +kernel)
  have huntouched : e.Untouched .calm m ⟨false, "tag"⟩ files run.files base template
      (e.draftMerged m.substitution template target) := ⟨hresult, rfl, htemplate, hlater, rfl⟩
  have hstep := inStep_of_updated huntouched hstatus htarget hpass hends hsafe
  exact ⟨⟨_, huntouched, hstatus, hkeeps⟩, htarget, hpass, hends, hsafe, hstep.1 hkeeps⟩

/-- **An update is repeated if a replacement brings a line feed in.** The line that was merged is read as
two lines, so it is not found there the next time. -/
theorem sync_repeats_content :
    let base : Path := ⟨"."⟩
    let e : Entry := ⟨"template", "target", "w", ∅⟩
    let m : Manifest := ⟨true, Table.ofList [("X", "a\nb")], [e]⟩
    let template : Text.Document :=
      ⟨["// BEGIN WORKFLOW AREA a FOR w", "X", "// END WORKFLOW AREA"], ⟨false, true⟩⟩
    let target : Text.Document :=
      ⟨["// BEGIN WORKFLOW AREA a FOR w", "// END WORKFLOW AREA"], ⟨false, true⟩⟩
    let once := "// BEGIN WORKFLOW AREA a FOR w\na\nb\n// END WORKFLOW AREA\n"
    let twice := "// BEGIN WORKFLOW AREA a FOR w\na\nb\na\nb\n// END WORKFLOW AREA\n"
    let files : FileTree := ⟨[], [(["template"], .file template.toText.toUTF8),
      (["target"], .file target.toText.toUTF8)]⟩
    let first := e.sync .calm m ⟨false, "tag"⟩ files base
    let second := e.sync .calm m ⟨false, "tag"⟩ first.files base
    m.defect? = none ∧ files.readDocument? (base.join e.target) = .ok (some target) ∧
      (e.check template.lines target.lines).passed = true ∧
      ClosingLinesAgree "w" template.lines target.lines ∧
      MarkerSafeOn template.lines m.substitution.apply ∧
      (∃ d, e.Untouched .calm m ⟨false, "tag"⟩ files first.files base template d ∧
        d.status = .updated ∧ d.document.toText = once) ∧
      ∃ d, second.result = .ok d ∧ d.status = .updated ∧ d.document.toText = twice := by
  intro base e m template target once twice files first second
  have htemplate : e.readTemplate files base = .ok template :=
    eq_ok_of_toOption (by decide +kernel)
  have htarget : files.readDocument? (base.join e.target) = .ok (some target) :=
    eq_ok_of_toOption (by decide +kernel)
  have hpass : (e.check template.lines target.lines).passed = true :=
    Consistency.passed_check_iff.2 (by decide +kernel)
  have hends : ClosingLinesAgree "w" template.lines target.lines := by
    rw [ClosingLinesAgree]
    decide +kernel
  have hsafe : MarkerSafeOn template.lines m.substitution.apply := by
    rw [MarkerSafeOn]
    decide +kernel
  have hstatus : (e.draftMerged m.substitution template target).status = .updated := by
    decide +kernel
  have honce : (e.draftMerged m.substitution template target).document.toText = once := by
    decide +kernel
  have hfirst : first = ⟨.ok (e.draftMerged m.substitution template target),
      some (e.draftMerged m.substitution template target),
      (files.replace Environment.calm.trouble "tag" (base.join e.target) once).2⟩ :=
    sync_of_replace (draft_of_some (Environment.accept_calm _) htemplate htarget hpass)
      (by rw [hstatus]; rfl) honce (by decide +kernel)
  have hresult : first.result = .ok (e.draftMerged m.substitution template target) := by rw [hfirst]
  have hlater : e.readTemplate first.files base = .ok template := by
    rw [hfirst]
    exact eq_ok_of_toOption (by decide +kernel)
  let target' : Text.Document :=
    ⟨["// BEGIN WORKFLOW AREA a FOR w", "a", "b", "// END WORKFLOW AREA"], ⟨false, true⟩⟩
  have hread : first.files.readDocument? (base.join e.target) = .ok (some target') := by
    have hdocument : Text.Document.ofText once = target' := by decide +kernel
    rw [readDocument?_sync hresult (by simp [hstatus]) rfl, honce, hdocument]
  have hpass' : (e.check template.lines target'.lines).passed = true :=
    Consistency.passed_check_iff.2 (by decide +kernel)
  have hstatus' : (e.draftMerged m.substitution template target').status = .updated := by
    decide +kernel
  have htwice : (e.draftMerged m.substitution template target').document.toText = twice := by
    decide +kernel
  have hsecond : second = ⟨.ok (e.draftMerged m.substitution template target'),
      some (e.draftMerged m.substitution template target'),
      (first.files.replace Environment.calm.trouble "tag" (base.join e.target) twice).2⟩ :=
    sync_of_replace (draft_of_some (Environment.accept_calm _) hlater hread hpass')
      (by rw [hstatus']; rfl) htwice (by rw [hfirst]; decide +kernel)
  exact ⟨by decide +kernel, htarget, hpass, hends, hsafe,
    ⟨_, ⟨hresult, rfl, htemplate, hlater, rfl⟩, hstatus, honce⟩, _,
    congrArg SyncRun.result hsecond, hstatus', htwice⟩

end Entry

end WorkflowAreas
