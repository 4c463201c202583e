import WorkflowAreas.Proofs.Storage.Replacement
import WorkflowAreas.Sync

/-!
# What a run does

`Entry.draft` says what should become of a file and `Entry.sync` carries it out. Here each way that can
go is one lemma: `Entry.draft_of_none` and `Entry.draft_of_some` for the two kinds of draft,
`Entry.sync_of_error` and `Entry.sync_of_idle` for a run that leaves the files alone and
`Entry.sync_of_writes` for one that writes. From the other side, `Entry.exists_of_draft` tells what a draft
has read, and `Entry.ran_sync` all the ways that a run can go (`Entry.Ran`).

* `Entry.readDocument?_sync`: after a run that wrote, the file has the text of the draft;
* `Entry.inStep_iff`: a run finds nothing to do exactly if a merge leaves the lines of the file alone.
-/

namespace WorkflowAreas

open Storage (FileTree)

theorem eq_ok_of_toOption {ε α : Type} {x : Except ε α} {a : α} (h : x.toOption = some a) :
    x = .ok a := by
  cases x with
  | error e => cases h
  | ok b => rw [Option.some.inj h]

namespace Environment

/-- What is accepted is taken as it is. -/
theorem eq_of_accept {env : Environment} {s s' : Substitution} (h : env.accept s = .ok s') : s' = s := by
  rw [accept] at h
  split at h
  · cases h
  · exact (Except.ok.inj h).symm

theorem accept_calm (s : Substitution) : calm.accept s = .ok s := by
  rw [accept, calm]
  cases s.pattern <;> rfl

end Environment

namespace Entry

variable {e : Entry} {env : Environment} {m : Manifest} {mode : WriteMode} {files : FileTree} {base : Path}
  {template target : Text.Document} {d : Draft}

/-- A draft of a file that does not exist is never without anything to write. -/
theorem draftNew_status_ne (s : Substitution) : (e.draftNew s template).status ≠ .unchanged := by
  simp [draftNew]

/-- There is no draft without a template. -/
theorem draft_of_contains_eq_false (h : files.contains (base.join e.template) = false) :
    e.draft env m files base = .error (.misuse (.missingTemplate e.template e.target)) := by
  rw [draft, readTemplate, h]
  rfl

theorem draft_of_none (haccept : env.accept m.substitution = .ok m.substitution)
    (htemplate : e.readTemplate files base = .ok template)
    (htarget : files.readDocument? (base.join e.target) = .ok none) :
    e.draft env m files base = .ok (e.draftNew m.substitution template) := by
  simp only [draft, htemplate, haccept, htarget, ok_bind]
  rfl

theorem draft_of_some (haccept : env.accept m.substitution = .ok m.substitution)
    (htemplate : e.readTemplate files base = .ok template)
    (htarget : files.readDocument? (base.join e.target) = .ok (some target))
    (hpass : (e.check template.lines target.lines).passed = true) :
    e.draft env m files base = .ok (e.draftMerged m.substitution template target) := by
  have hcheck : (e.check template.lines target.lines).toExcept = .ok () := if_pos hpass
  simp only [draft, htemplate, haccept, htarget, hcheck, ok_bind]
  cases m.validateBeforeMerge <;> rfl

/-- **What a draft has read**: the template, the tokens, and the file if it is there. -/
theorem exists_of_draft (h : e.draft env m files base = .ok d) :
    ∃ template target?, e.readTemplate files base = .ok template ∧
      env.accept m.substitution = .ok m.substitution ∧
      files.readDocument? (base.join e.target) = .ok target? ∧
      match target? with
      | none => d = e.draftNew m.substitution template
      | some target => d = e.draftMerged m.substitution template target := by
  rw [draft] at h
  obtain ⟨template, htemplate, h⟩ := bind_eq_ok_iff.1 h
  obtain ⟨s, haccept, h⟩ := bind_eq_ok_iff.1 h
  obtain ⟨target?, htarget, h⟩ := bind_eq_ok_iff.1 h
  obtain rfl := Environment.eq_of_accept haccept
  refine ⟨template, target?, htemplate, haccept, htarget, ?_⟩
  cases target? with
  | none => exact (Except.ok.inj h).symm
  | some target =>
    dsimp only at h ⊢
    split at h
    · obtain ⟨-, -, h⟩ := bind_eq_ok_iff.1 h
      exact (Except.ok.inj h).symm
    · exact (Except.ok.inj h).symm

/-- A run without a draft leaves all files alone. -/
theorem sync_of_error {f : Failure} (h : e.draft env m files base = .error f) :
    e.sync env m mode files base = ⟨.error f, none, files⟩ := by
  unfold sync
  simp only [h]

/-- A run that has nothing to write, or may not write, leaves all files alone. -/
theorem sync_of_idle (h : e.draft env m files base = .ok d)
    (hidle : (d.status = .unchanged || mode.dryRun) = true) :
    e.sync env m mode files base = ⟨.ok d, some d, files⟩ := by
  unfold sync
  simp only [h, hidle, if_true]

/-- A run that has something to write and may write goes as the replacement goes. -/
theorem sync_of_writes (h : e.draft env m files base = .ok d)
    (hwrites : (d.status = .unchanged || mode.dryRun) = false) :
    e.sync env m mode files base =
      ⟨(files.replace env.trouble mode.tag (base.join e.target) d.document.toText).1.map fun _ ↦ d, some d,
        (files.replace env.trouble mode.tag (base.join e.target) d.document.toText).2⟩ := by
  unfold sync
  simp only [h, hwrites, Bool.false_eq_true, if_false]
  generalize files.replace env.trouble mode.tag (base.join e.target) d.document.toText = replaced
  obtain ⟨r, after⟩ := replaced
  cases r with
  | ok _ => rfl
  | error f => rfl

/-- A run that has something to write and may write replaces the file. -/
theorem sync_of_replace (h : e.draft env m files base = .ok d)
    (hwrites : (d.status = .unchanged || mode.dryRun) = false) {text : String}
    (htext : d.document.toText = text)
    (hreplace : (files.replace env.trouble mode.tag (base.join e.target) text).1.toOption = some ()) :
    e.sync env m mode files base =
      ⟨.ok d, some d, (files.replace env.trouble mode.tag (base.join e.target) text).2⟩ := by
  rw [sync_of_writes h hwrites, htext, eq_ok_of_toOption hreplace]
  rfl

/-- The ways that a run can go: the draft fails, nothing is to be written, the replacement fails, or the file
is written. -/
inductive Ran (e : Entry) (env : Environment) (m : Manifest) (mode : WriteMode) (files : FileTree)
    (base : Path) : Except Failure Draft → FileTree → Prop
  | failed {f : Failure} : e.draft env m files base = .error f → Ran e env m mode files base (.error f) files
  | idle {d : Draft} : e.draft env m files base = .ok d → d.status = .unchanged ∨ mode.dryRun = true →
      Ran e env m mode files base (.ok d) files
  | unwritten {d : Draft} {f : Failure} {after : FileTree} : e.draft env m files base = .ok d →
      d.status ≠ .unchanged → mode.dryRun = false →
      files.replace env.trouble mode.tag (base.join e.target) d.document.toText = (.error f, after) →
      Ran e env m mode files base (.error f) after
  | written {d : Draft} {after : FileTree} : e.draft env m files base = .ok d →
      d.status ≠ .unchanged → mode.dryRun = false →
      files.replace env.trouble mode.tag (base.join e.target) d.document.toText = (.ok (), after) →
      Ran e env m mode files base (.ok d) after

/-- **What a run does.** -/
theorem ran_sync (e : Entry) (env : Environment) (m : Manifest) (mode : WriteMode) (files : FileTree)
    (base : Path) :
    Ran e env m mode files base (e.sync env m mode files base).result
      (e.sync env m mode files base).files := by
  cases hdraft : e.draft env m files base with
  | error f =>
    unfold sync
    simp only [hdraft]
    exact .failed hdraft
  | ok d =>
    cases hidle : decide (d.status = .unchanged) || mode.dryRun with
    | true =>
      rw [sync_of_idle hdraft hidle]
      exact .idle hdraft (by simpa using hidle)
    | false =>
      have hwrites : d.status ≠ .unchanged ∧ mode.dryRun = false := by simpa using hidle
      unfold sync
      cases hreplace : files.replace env.trouble mode.tag (base.join e.target) d.document.toText with
      | mk r after =>
        simp only [hdraft, hidle, hreplace, Bool.false_eq_true, if_false]
        cases r with
        | error f => exact .unwritten hdraft hwrites.1 hwrites.2 hreplace
        | ok _ => exact .written hdraft hwrites.1 hwrites.2 hreplace

/-- A run that comes to an end has carried out its draft. -/
theorem draft_of_sync (h : (e.sync env m mode files base).result = .ok d) :
    e.draft env m files base = .ok d := by
  have hran := e.ran_sync env m mode files base
  rw [h] at hran
  generalize (e.sync env m mode files base).files = after at hran
  cases hran with
  | idle hdraft _ => exact hdraft
  | written hdraft _ _ _ => exact hdraft

/-- A run that reports a new text has given it to the file. -/
theorem leads_of_sync (h : (e.sync env m mode files base).result = .ok d) (hstatus : d.status ≠ .unchanged)
    (hmode : mode.dryRun = false) :
    ∃ l, (e.sync env m mode files base).files.Leads (base.join e.target) l ∧
      (e.sync env m mode files base).files.get? l = some (.file d.document.toText.toUTF8) := by
  have hran := e.ran_sync env m mode files base
  rw [h] at hran
  generalize (e.sync env m mode files base).files = after at hran ⊢
  cases hran with
  | idle _ hidle => exact absurd hidle (by simp [hstatus, hmode])
  | written _ _ _ hreplace => exact FileTree.leads_of_replace hreplace

/-- **A file that was written is read back as the text of its draft.** -/
theorem readDocument?_sync (h : (e.sync env m mode files base).result = .ok d)
    (hstatus : d.status ≠ .unchanged) (hmode : mode.dryRun = false) :
    (e.sync env m mode files base).files.readDocument? (base.join e.target) =
      .ok (some (.ofText d.document.toText)) := by
  obtain ⟨l, hl, hfile⟩ := leads_of_sync h hstatus hmode
  exact hl.readDocument? hfile

/-! ### A run after a run -/

/-- A run wrote its draft, and later the template and the file are still as they were then. What happened
to other files does not matter. -/
structure Untouched (e : Entry) (env : Environment) (m : Manifest) (mode : WriteMode)
    (files later : FileTree) (base : Path) (template : Text.Document) (d : Draft) : Prop where
  result : (e.sync env m mode files base).result = .ok d
  writes : mode.dryRun = false
  template_before : e.readTemplate files base = .ok template
  template_after : e.readTemplate later base = .ok template
  target_after : later.readDocument? (base.join e.target) =
    (e.sync env m mode files base).files.readDocument? (base.join e.target)

/-- The tokens were accepted. -/
theorem Untouched.accept {later : FileTree} (h : e.Untouched env m mode files later base template d) :
    env.accept m.substitution = .ok m.substitution := by
  obtain ⟨-, -, -, haccept, -⟩ := exists_of_draft (draft_of_sync h.result)
  exact haccept

/-- What is found later is what was drafted. -/
theorem Untouched.readDocument? {later : FileTree}
    (h : e.Untouched env m mode files later base template d) (hstatus : d.status ≠ .unchanged) :
    later.readDocument? (base.join e.target) = .ok (some (.ofText d.document.toText)) := by
  rw [h.target_after, readDocument?_sync h.result hstatus h.writes]

/-- A run finds nothing to do for the entry, in whatever mode, and leaves all files alone. -/
def InStep (e : Entry) (env : Environment) (m : Manifest) (files : FileTree) (base : Path) : Prop :=
  ∀ mode, ∃ d, e.sync env m mode files base = ⟨.ok d, some d, files⟩ ∧ d.status = .unchanged

/-- **When a file that passes the check is in step**: if a merge leaves its lines alone. -/
theorem inStep_iff (haccept : env.accept m.substitution = .ok m.substitution)
    (htemplate : e.readTemplate files base = .ok template)
    (htarget : files.readDocument? (base.join e.target) = .ok (some target))
    (hpass : (e.check template.lines target.lines).passed = true) :
    e.InStep env m files base ↔
      (Merge.merge e.workflow m.substitution.apply e.flags target.lines template.lines).lines =
        target.lines := by
  have hdraft : e.draft env m files base = .ok (e.draftMerged m.substitution template target) :=
    draft_of_some haccept htemplate htarget hpass
  constructor
  · intro h
    obtain ⟨d, hd, hstatus⟩ := h ⟨true, ""⟩
    have hresult : (e.sync env m ⟨true, ""⟩ files base).result = .ok d := by rw [hd]
    obtain rfl := Except.ok.inj (hdraft.symm.trans (draft_of_sync hresult))
    by_contra hne
    rw [draftMerged, if_neg hne] at hstatus
    cases hstatus
  · intro h mode
    have hstatus : (e.draftMerged m.substitution template target).status = .unchanged := if_pos h
    exact ⟨_, sync_of_idle hdraft (by rw [hstatus]; rfl), hstatus⟩

end Entry

end WorkflowAreas
