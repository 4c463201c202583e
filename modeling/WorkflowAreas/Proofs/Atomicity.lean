import WorkflowAreas.Proofs.Agreement
import WorkflowAreas.Proofs.Storage.Effect
import WorkflowAreas.Proofs.Sync

/-!
# A run is all or nothing

A run reads the template and the file, and replaces the file at the end if there is something to write.
`Entry.sync_allOrNothing`: the file has its new text if the run came to that, and is as it was otherwise;
of the rest nothing changes, but for directories made on the way to the file.

* `Entry.Writes` says which text that is, from the files before the run;
* `Entry.get?_sync` says, location by location, what a run may change, wherever it ends.

Where a file is meant to be is told by its path in the files after the run, when the directories on the
way are there: a path that goes through a missing directory and back leads nowhere before.
-/

namespace WorkflowAreas

open Storage (FileTree Location)
open Storage.FileTree (MadeOnTheWay temporary?)

namespace Entry

variable {e : Entry} {env : Environment} {m : Manifest} {mode : WriteMode} {files : FileTree} {base : Path}
  {d : Draft}

/-- The text that belongs in the file of an entry: the rendered template in its own layout if the file is not
there, else the merged lines in the layout that the file has. -/
inductive Writes (e : Entry) (m : Manifest) (files : FileTree) (base : Path) : Status → String → Prop
  | created {template : Text.Document} : e.readTemplate files base = .ok template →
      files.readDocument? (base.join e.target) = .ok none →
      Writes e m files base .created (template.layout.join (e.firstLines m.substitution template.lines))
  | updated {template target : Text.Document} : e.readTemplate files base = .ok template →
      files.readDocument? (base.join e.target) = .ok (some target) →
      Writes e m files base .updated (target.layout.join
        (Merge.merge e.workflow m.substitution.apply e.flags target.lines template.lines).lines)

/-- A draft has the text that belongs in the file. -/
theorem writes_of_draft (h : e.draft env m files base = .ok d) (hstatus : d.status ≠ .unchanged) :
    e.Writes m files base d.status d.document.toText := by
  obtain ⟨template, target?, htemplate, -, htarget, hd⟩ := exists_of_draft h
  cases target? with
  | none =>
    obtain rfl := hd
    exact .created htemplate htarget
  | some target =>
    dsimp only at hd
    have hupdated : d.status = .updated := by
      rw [hd, draftMerged] at hstatus ⊢
      split at hstatus
      · exact absurd rfl hstatus
      · rename_i hne
        exact if_neg hne
    rw [hupdated, hd]
    exact .updated htemplate htarget

/-- A run that may not write, or has nothing to write, leaves all files alone. -/
theorem files_sync_of_idle (h : mode.dryRun = true ∨
    ∃ d, (e.sync env m mode files base).result = .ok d ∧ d.status = .unchanged) :
    (e.sync env m mode files base).files = files := by
  have hran := e.ran_sync env m mode files base
  generalize (e.sync env m mode files base).result = result,
    (e.sync env m mode files base).files = after at hran h ⊢
  cases hran with
  | failed => rfl
  | idle => rfl
  | unwritten _ _ hmode _ => exact absurd h (by simp [hmode])
  | written _ hstatus hmode _ => exact absurd h (by simp [hmode, hstatus])

/-- **What a run may change**, however it goes. -/
theorem get?_sync (e : Entry) (env : Environment) (m : Manifest) (mode : WriteMode)
    (files : FileTree) (base : Path) (l : Location) :
    let p := base.join e.target
    let run := e.sync env m mode files base
    run.files.get? l = files.get? l ∨ MadeOnTheWay p.parents files run.files l ∨
      (∃ q ∈ temporary? mode.tag p, run.files.Leads q l ∧ run.files.get? l = none) ∨
      (∃ d, run.result = .ok d ∧ run.files.Leads p l) := by
  dsimp only
  have hran := e.ran_sync env m mode files base
  generalize (e.sync env m mode files base).result = result,
    (e.sync env m mode files base).files = after at hran ⊢
  cases hran with
  | failed => exact Or.inl rfl
  | idle => exact Or.inl rfl
  | unwritten _ _ _ hreplace =>
    exact (FileTree.get?_replace hreplace l).imp_right (Or.imp_right (Or.imp_right nofun))
  | @written d _ _ _ _ hreplace =>
    exact (FileTree.get?_replace hreplace l).imp_right (Or.imp_right (Or.imp_right
      fun hdone ↦ ⟨d, rfl, hdone.2.1⟩))

/-- **A run is all or nothing.** One that reports a new text has given it to the file. One that may not
write, or reports that the file is unchanged, leaves all files alone. One that fails leaves the file alone,
or where nothing was makes a directory that encloses the file on its own path. Nothing else changes but for
such directories, except that nothing is left at the place of the temporary file. -/
theorem sync_allOrNothing (e : Entry) (env : Environment) (m : Manifest) (mode : WriteMode)
    (files : FileTree) (base : Path) (htag : '/' ∉ mode.tag.toList) :
    let p := base.join e.target
    let run := e.sync env m mode files base
    (∀ d, run.result = .ok d → d.status ≠ .unchanged → mode.dryRun = false →
      ∃ l text, run.files.Leads p l ∧ e.Writes m files base d.status text ∧
        run.files.get? l = some (.file text.toUTF8)) ∧
    (mode.dryRun = true ∨ (∃ d, run.result = .ok d ∧ d.status = .unchanged) → run.files = files) ∧
    (∀ f l, run.result = .error f → run.files.Leads p l →
      run.files.get? l = files.get? l ∨ MadeOnTheWay p.parents files run.files l) ∧
    (∀ l, ¬run.files.Leads p l →
      (∀ q ∈ temporary? mode.tag p, run.files.Leads q l → files.get? l = none) →
        run.files.get? l = files.get? l ∨ MadeOnTheWay p.parents files run.files l) := by
  intro p run
  refine ⟨fun d hd hstatus hmode ↦ ?_, files_sync_of_idle, fun f l hf hl ↦ ?_, fun l hl hfree ↦ ?_⟩
  · obtain ⟨l, hl, hfile⟩ := leads_of_sync hd hstatus hmode
    exact ⟨l, d.document.toText, hl, writes_of_draft (draft_of_sync hd) hstatus, hfile⟩
  · rcases e.get?_sync env m mode files base l with hsame | hmade | ⟨q, hq, hleads, -⟩ | ⟨d, hd, -⟩
    · exact Or.inl hsame
    · exact Or.inr hmade
    · exact absurd rfl (hl.ne_of_temporary htag hq hleads)
    · cases hf.symm.trans hd
  · rcases e.get?_sync env m mode files base l with
      hsame | hmade | ⟨q, hq, hleads, hgone⟩ | ⟨-, -, hleads⟩
    · exact Or.inl hsame
    · exact Or.inr hmade
    · exact Or.inl (hgone.trans (hfree q hq hleads).symm)
    · exact absurd hleads hl

-- on a full disk the temporary file is made and removed again
example :
    let full : Environment := ⟨fun _ ↦ none, fun _ _ ↦ some .noSpace⟩
    let files : FileTree := ⟨[], [(["template"], .file "x\n".toUTF8)]⟩
    let run := (⟨"template", "target", "w", ∅⟩ : Entry).sync full ⟨true, ∅, []⟩ ⟨false, "1"⟩ files ⟨"."⟩
    run.result.isOk = false ∧ run.files.contains ⟨"target"⟩ = false ∧
      run.files.contains ⟨".target.1.tmp"⟩ = false := by
  decide +kernel

/-- An area of a file gets a line, and only the file changes. -/
theorem sync_allOrNothing_sample :
    let base : Path := ⟨"."⟩
    let e : Entry := ⟨"template", "target", "w", ∅⟩
    let m : Manifest := ⟨true, ∅, [e]⟩
    let template : Text.Document :=
      ⟨["# BEGIN WORKFLOW AREA a FOR w", "line", "# END WORKFLOW AREA"], ⟨false, true⟩⟩
    let target : Text.Document :=
      ⟨["mine", "# BEGIN WORKFLOW AREA a FOR w", "# END WORKFLOW AREA"], ⟨true, false⟩⟩
    let files : FileTree := ⟨[], [(["template"], .file template.toText.toUTF8),
      (["target"], .file target.toText.toUTF8)]⟩
    let run := e.sync .calm m ⟨false, "1"⟩ files base
    '/' ∉ "1".toList ∧
      (∃ d l text, run.result = .ok d ∧ d.status = .updated ∧ run.files.Leads (base.join e.target) l ∧
        e.Writes m files base .updated text ∧ run.files.get? l = some (.file text.toUTF8)) ∧
      ∀ l, ¬run.files.Leads (base.join e.target) l → run.files.get? l = files.get? l ∨
        MadeOnTheWay (base.join e.target).parents files run.files l := by
  intro base e m template target files run
  have htag : '/' ∉ "1".toList := by decide
  have htemplate : e.readTemplate files base = .ok template :=
    eq_ok_of_toOption (by decide +kernel)
  have htarget : files.readDocument? (base.join e.target) = .ok (some target) :=
    eq_ok_of_toOption (by decide +kernel)
  have hpass : (e.check template.lines target.lines).passed = true :=
    Consistency.passed_check_iff.2 (by decide +kernel)
  have hstatus : (e.draftMerged m.substitution template target).status = .updated := by
    decide +kernel
  have htext : (e.draftMerged m.substitution template target).document.toText =
      "mine\r\n# BEGIN WORKFLOW AREA a FOR w\r\nline\r\n# END WORKFLOW AREA" := by decide +kernel
  have hrun : run = ⟨.ok (e.draftMerged m.substitution template target),
      some (e.draftMerged m.substitution template target),
      (files.replace Environment.calm.trouble "1" (base.join e.target)
        "mine\r\n# BEGIN WORKFLOW AREA a FOR w\r\nline\r\n# END WORKFLOW AREA").2⟩ :=
    sync_of_replace (draft_of_some (Environment.accept_calm _) htemplate htarget hpass)
      (by rw [hstatus]; rfl) htext (by decide +kernel)
  have hresult : run.result = .ok (e.draftMerged m.substitution template target) := by rw [hrun]
  obtain ⟨hwritten, -, -, hothers⟩ := e.sync_allOrNothing .calm m ⟨false, "1"⟩ files base htag
  obtain ⟨l, text, hl, hwrites, hfile⟩ := hwritten _ hresult (by simp [hstatus]) rfl
  rw [hstatus] at hwrites
  refine ⟨htag, ⟨_, l, text, hresult, hstatus, hl, hwrites, hfile⟩,
    fun k hk ↦ hothers k hk fun q hq hkq ↦ ?_⟩
  -- nothing was at the place of the temporary file
  have hq' : temporary? "1" (base.join e.target) = some ⟨"./.target.1.tmp"⟩ := by decide +kernel
  obtain rfl := Option.some.inj (hq'.symm.trans hq)
  have hleads : run.files.Leads ⟨"./.target.1.tmp"⟩ [".target.1.tmp"] := by
    rw [hrun]
    exact ⟨["."], ".target.1.tmp", [], by decide +kernel, eq_ok_of_toOption (by decide +kernel),
      by decide +kernel, ⟨by decide, by decide, by decide⟩, rfl⟩
  rw [hkq.unique hleads]
  rfl

/-- **A run that fails can make a directory where the file was meant to be**, if its path leads through there
and back. -/
theorem sync_makes_directory_at_target :
    let base : Path := ⟨"."⟩
    let e : Entry := ⟨"template", "a/../a", "w", ∅⟩
    let m : Manifest := ⟨true, ∅, [e]⟩
    let files : FileTree := ⟨[], [(["template"], .file "x\n".toUTF8)]⟩
    let run := e.sync .calm m ⟨false, "1"⟩ files base
    (∃ f, run.result = .error f) ∧ files.contains (base.join e.target) = false ∧
      run.files.isDirectory (base.join e.target) = true := by
  intro base e m files run
  have hfails : run.result.isOk = false := by decide +kernel
  refine ⟨?_, by decide +kernel, by decide +kernel⟩
  cases hresult : run.result with
  | error f => exact ⟨f, rfl⟩
  | ok d =>
    rw [hresult] at hfails
    cases hfails

end Entry

end WorkflowAreas
