import Mathlib.Data.List.Forall2
import WorkflowAreas.Program
import WorkflowAreas.Proofs.Sync

/-!
# The verdict of a check and of a dry run

A check stops at the first failure and counts the files that have drifted; a dry run goes through all
entries and combines what failed in the end. On a manifest that asks for validation both come to one
verdict (`Program.verdict`): the first failure that is more than drift, else the number of drifted files.

* `Entry.sameVerdict_draft`: for one entry, a comparison and a draft correspond case by case
  (`SameVerdict`);
* `Program.syncAll_of_dryRun`: in a dry run every entry finds the files as they were at the beginning;
* `Program.check_result` and `Program.sync_result_of_dryRun`: either way of going through the entries
  comes to the verdict;
* `Program.check_and_dryRun_agree`: **check and dry run give the same verdict**.
-/

namespace WorkflowAreas

open Storage (FileTree)

/-! ### Failures of reading -/

namespace Storage.FileTree

variable {t : FileTree} {p : Path} {f : Failure}

theorem readDocument_eq_error (h : t.readDocument p = .error f) :
    ∃ cause, f = .fault (.read p.text cause) := by
  rw [readDocument] at h
  split at h
  · cases h
  · exact ⟨_, (Except.error.inj h).symm⟩

theorem readDocument?_eq_error (h : t.readDocument? p = .error f) :
    ∃ cause, f = .fault (.read p.text cause) := by
  rw [readDocument?] at h
  split at h
  · cases hread : t.readDocument p with
    | error g =>
      rw [hread] at h
      exact readDocument_eq_error (hread.trans (congrArg Except.error (Except.error.inj h)))
    | ok document =>
      rw [hread] at h
      cases h
  · cases h

end Storage.FileTree

/-! ### One entry -/

/-- A comparison and a draft tell the same about a file. -/
inductive SameVerdict : Except Failure Comparison → Except Failure Draft → Prop
  | failed {f : Failure} (h : f.isDrift = false) : SameVerdict (.error f) (.error f)
  | drifted (report : Consistency.Report) :
      SameVerdict (.ok (.inconsistent report)) (.error (.drift report))
  | missing {d : Draft} (h : d.status = .created) : SameVerdict (.ok .notGenerated) (.ok d)
  | present {d : Draft} (h : d.status = .updated ∨ d.status = .unchanged) :
      SameVerdict (.ok .consistent) (.ok d)

namespace SameVerdict

variable {c : Except Failure Comparison} {r : Except Failure Draft}

theorem eq_inconsistent_iff (h : SameVerdict c r) (report : Consistency.Report) :
    c = .ok (.inconsistent report) ↔ r = .error (.drift report) := by
  cases h with
  | failed hf =>
    refine iff_of_false nofun fun h ↦ ?_
    rw [Except.error.inj h] at hf
    cases hf
  | drifted => simp
  | missing hd => exact iff_of_false nofun nofun
  | present hd => exact iff_of_false nofun nofun

theorem eq_notGenerated_iff (h : SameVerdict c r) :
    c = .ok .notGenerated ↔ ∃ d, r = .ok d ∧ d.status = .created := by
  cases h with
  | failed hf => exact iff_of_false nofun nofun
  | drifted => exact iff_of_false nofun nofun
  | missing hd => exact iff_of_true rfl ⟨_, rfl, hd⟩
  | present hd =>
    refine iff_of_false nofun fun ⟨d, heq, hstatus⟩ ↦ ?_
    obtain rfl := Except.ok.inj heq
    rcases hd with hd | hd <;> cases hstatus.symm.trans hd

theorem eq_consistent_iff (h : SameVerdict c r) :
    c = .ok .consistent ↔ ∃ d, r = .ok d ∧ (d.status = .updated ∨ d.status = .unchanged) := by
  cases h with
  | failed hf => exact iff_of_false nofun nofun
  | drifted => exact iff_of_false nofun nofun
  | missing hd =>
    refine iff_of_false nofun fun ⟨d, heq, hstatus⟩ ↦ ?_
    obtain rfl := Except.ok.inj heq
    rcases hstatus with hstatus | hstatus <;> cases hstatus.symm.trans hd
  | present hd => exact iff_of_true rfl ⟨_, rfl, hd⟩

end SameVerdict

namespace Entry

variable {e : Entry} {env : Environment} {m : Manifest} {mode : WriteMode} {files : FileTree} {base : Path}
  {f : Failure}

/-- The failure is that the template of the entry is missing, or that a file cannot be read. -/
def ReadingFails (e : Entry) (f : Failure) : Prop :=
  f = .misuse (.missingTemplate e.template e.target) ∨ ∃ path cause, f = .fault (.read path cause)

theorem ReadingFails.isDrift (h : e.ReadingFails f) : f.isDrift = false := by
  rcases h with rfl | ⟨path, cause, rfl⟩
  · rfl
  · rfl

theorem readingFails_of_readTemplate (h : e.readTemplate files base = .error f) :
    e.ReadingFails f := by
  rw [readTemplate] at h
  split at h
  · obtain ⟨cause, rfl⟩ := FileTree.readDocument_eq_error h
    exact Or.inr ⟨_, cause, rfl⟩
  · exact Or.inl (Except.error.inj h).symm

theorem readingFails_of_readDocument? {p : Path} (h : files.readDocument? p = .error f) :
    e.ReadingFails f := by
  obtain ⟨cause, rfl⟩ := FileTree.readDocument?_eq_error h
  exact Or.inr ⟨_, cause, rfl⟩

/-- Nothing but reading can fail in a comparison. -/
theorem readingFails_of_compare (h : e.compare files base = .error f) : e.ReadingFails f := by
  rw [compare] at h
  cases htemplate : e.readTemplate files base with
  | error g =>
    rw [htemplate] at h
    exact Except.error.inj h ▸ readingFails_of_readTemplate htemplate
  | ok template =>
    rw [htemplate, ok_bind] at h
    cases htarget : files.readDocument? (base.join e.target) with
    | error g =>
      rw [htarget] at h
      exact Except.error.inj h ▸ readingFails_of_readDocument? htarget
    | ok target? =>
      rw [htarget, ok_bind] at h
      cases target? <;> cases h

/-- **A comparison and a draft correspond**, if the manifest asks for validation and its tokens are accepted:
they read the same files, and the draft goes on after the check alone. -/
theorem sameVerdict_draft (hv : m.validateBeforeMerge = true)
    (haccept : env.accept m.substitution = .ok m.substitution) :
    SameVerdict (e.compare files base) (e.draft env m files base) := by
  rw [compare, draft]
  cases htemplate : e.readTemplate files base with
  | error f => exact .failed (readingFails_of_readTemplate htemplate).isDrift
  | ok template =>
    simp only [haccept, ok_bind]
    cases htarget : files.readDocument? (base.join e.target) with
    | error f => exact .failed (readingFails_of_readDocument? (e := e) htarget).isDrift
    | ok target? =>
      cases target? with
      | none => exact .missing rfl
      | some target =>
        simp only [ok_bind, hv, if_true, Consistency.Report.toExcept]
        cases (e.check template.lines target.lines).passed with
        | true =>
          refine .present ?_
          rw [draftMerged]
          split
          · exact Or.inr rfl
          · exact Or.inl rfl
        | false => exact .drifted _

/-- A dry run comes to its draft and leaves all files alone. -/
theorem sync_of_dryRun (hmode : mode.dryRun = true) :
    (e.sync env m mode files base).result = e.draft env m files base ∧
      (e.sync env m mode files base).files = files := by
  have hran := e.ran_sync env m mode files base
  generalize (e.sync env m mode files base).result = result,
    (e.sync env m mode files base).files = after at hran ⊢
  cases hran with
  | failed hdraft => exact ⟨hdraft.symm, rfl⟩
  | idle hdraft _ => exact ⟨hdraft.symm, rfl⟩
  | unwritten _ _ hwrites _ => exact absurd hmode (by simp [hwrites])
  | written _ _ hwrites _ => exact absurd hmode (by simp [hwrites])

end Entry

/-! ### All entries -/

namespace Program

/-- The first failure among comparisons. -/
def firstFailure? (cs : List (Except Failure Comparison)) : Option Failure :=
  cs.findSome? fun
    | .error f => some f
    | .ok _ => none

/-- The number of files that do not agree with their templates. -/
def driftCount (cs : List (Except Failure Comparison)) : Nat :=
  cs.countP fun
    | .error _ => false
    | .ok c => isInconsistent c

/-- The verdict on files, in the order of the manifest: the first failure if there is one, else the number of
files that have drifted, if any has. -/
def verdict (cs : List (Except Failure Comparison)) : Except Failure Unit :=
  match firstFailure? cs with
  | some f => .error f
  | none => if driftCount cs = 0 then .ok () else .error (.outOfSync (driftCount cs))

variable {env : Environment} {m : Manifest} {mode : WriteMode} {files : FileTree} {base : Path}
  {manifest : String}

/-- Comparing entries one by one stops at the first failure. -/
theorem mapM_compare_of_firstFailure? {compare : Entry → Except Failure Comparison} {es : List Entry}
    {f : Failure} (h : firstFailure? (es.map compare) = some f) :
    (es.mapM fun e ↦ do return (e, ← compare e)) = .error f := by
  induction es with
  | nil => cases h
  | cons e es ih =>
    rw [List.mapM_cons]
    rw [List.map_cons, firstFailure?, List.findSome?_cons] at h
    cases hc : compare e with
    | error g =>
      rw [hc] at h
      exact congrArg Except.error (Option.some.inj h)
    | ok c =>
      rw [hc] at h
      simp only [ok_bind, pure_bind, ih h]
      rfl

/-- Without a failure every entry is compared. -/
theorem mapM_compare_of_firstFailure?_eq_none {compare : Entry → Except Failure Comparison}
    {es : List Entry} (h : firstFailure? (es.map compare) = none) :
    ∃ rows, (es.mapM fun e ↦ do return (e, ← compare e)) = .ok rows ∧
      rows.map (fun row ↦ .ok row.2) = es.map compare := by
  induction es with
  | nil => exact ⟨[], rfl, rfl⟩
  | cons e es ih =>
    rw [List.map_cons, firstFailure?, List.findSome?_cons] at h
    cases hc : compare e with
    | error g =>
      rw [hc] at h
      cases h
    | ok c =>
      rw [hc] at h
      obtain ⟨rows, hrows, hmap⟩ := ih h
      refine ⟨(e, c) :: rows, ?_, by rw [List.map_cons, List.map_cons, hmap, hc]⟩
      rw [List.mapM_cons]
      simp only [hc, ok_bind, pure_bind, hrows]
      rfl

/-- **A check gives the verdict.** -/
theorem check_result (hm : readManifest files manifest = .ok m) :
    (check files manifest).result =
      verdict (m.entries.map (·.compare files (baseOf manifest))) := by
  rw [check, compareAll, hm, ok_bind, verdict]
  cases hfirst : firstFailure? (m.entries.map (·.compare files (baseOf manifest))) with
  | some f =>
    rw [mapM_compare_of_firstFailure? hfirst]
    rfl
  | none =>
    obtain ⟨rows, hrows, hmap⟩ := mapM_compare_of_firstFailure?_eq_none hfirst
    have hcount : driftCount (m.entries.map (·.compare files (baseOf manifest))) =
        (rows.filter (isInconsistent ·.2)).length := by
      rw [← hmap, driftCount, List.countP_map, List.countP_eq_length_filter]
      rfl
    rw [hrows, hcount]
    simp only
    split
    · rfl
    · rfl

/-- **In a dry run every entry finds the files as they were at the beginning.** -/
theorem syncAll_of_dryRun (hmode : mode.dryRun = true) (es : List Entry) :
    (syncAll env m mode base files es).files = files ∧
      (syncAll env m mode base files es).synced = es.map fun e ↦ ⟨e, e.draft env m files base⟩ := by
  -- the entries done so far are in front, and the files are the same again
  suffices h : ∀ p : Progress, (es.foldl (Progress.add env m mode base) p).files = p.files ∧
      (es.foldl (Progress.add env m mode base) p).synced =
        p.synced ++ es.map fun e ↦ ⟨e, e.draft env m p.files base⟩ from h ⟨[], [], files⟩
  induction es with
  | nil => exact fun p ↦ ⟨rfl, (List.append_nil _).symm⟩
  | cons e es ih =>
    intro p
    have hsync : (e.sync env m mode p.files base).result = e.draft env m p.files base ∧
        (e.sync env m mode p.files base).files = p.files := e.sync_of_dryRun hmode
    obtain ⟨hrest, hsynced⟩ := ih (Progress.add env m mode base p e)
    rw [List.foldl_cons, hrest, hsynced, Progress.add]
    simp only [hsync, List.map_cons, List.append_assoc, List.singleton_append, and_self]

/-- Of drafts that correspond to comparisons, the first failure that is more than drift is the first
failure of a comparison, and the drifted files are as many. -/
theorem failures_of_forall₂ {cs : List (Except Failure Comparison)} {ss : List Synced}
    (h : List.Forall₂ (fun c s ↦ SameVerdict c s.result) cs ss) :
    (ss.filterMap Synced.failure?).find? (!·.isDrift) = firstFailure? cs ∧
      ((ss.filterMap Synced.failure?).filter (·.isDrift)).length = driftCount cs := by
  induction h with
  | nil => exact ⟨rfl, rfl⟩
  | @cons c s cs ss hcs _ ih =>
    obtain ⟨e, r⟩ := s
    obtain ⟨hfirst, hcount⟩ := ih
    unfold firstFailure? at hfirst ⊢
    unfold driftCount at hcount ⊢
    rw [List.filterMap_cons, List.findSome?_cons, List.countP_cons]
    dsimp only at hcs
    cases hcs with
    | failed hf =>
      simp only [Synced.failure?]
      rw [List.find?_cons_of_pos (by rw [hf]; rfl), List.filter_cons_of_neg (by simp [hf]), hcount]
      exact ⟨rfl, rfl⟩
    | drifted report =>
      simp only [Synced.failure?]
      rw [List.find?_cons_of_neg (by simp [Failure.isDrift]), List.filter_cons_of_pos rfl,
        List.length_cons, hcount]
      exact ⟨hfirst, rfl⟩
    | missing hd => exact ⟨hfirst, hcount⟩
    | present hd => exact ⟨hfirst, hcount⟩

/-- What failed is combined to the first failure that is more than drift, else to the number of drifted
files. -/
theorem combined?_eq (fs : List Failure) :
    combined? fs =
      match fs.find? (!·.isDrift) with
      | some f => some f
      | none => if (fs.filter (·.isDrift)).length = 0 then none
        else some (.outOfSync (fs.filter (·.isDrift)).length) := by
  rw [combined?]
  cases hfind : fs.find? (!·.isDrift) with
  | some f =>
    have hne : fs ≠ [] := fun h ↦ by
      rw [h] at hfind
      cases hfind
    rw [if_neg (by simpa using hne), Option.getD_some]
  | none =>
    -- no failure is more than drift, so all of them count
    have hall : fs.filter (·.isDrift) = fs :=
      List.filter_eq_self.2 fun f hf ↦ by simpa using List.find?_eq_none.1 hfind f hf
    rw [hall, Option.getD_none]
    simp only [List.isEmpty_iff, List.length_eq_zero_iff]

/-- **A dry run gives the verdict.** -/
theorem sync_result_of_dryRun (hm : readManifest files manifest = .ok m)
    (hv : m.validateBeforeMerge = true) (haccept : env.accept m.substitution = .ok m.substitution)
    (hmode : mode.dryRun = true) :
    (sync env files manifest mode none).result =
      verdict (m.entries.map (·.compare files (baseOf manifest))) := by
  have hforall : List.Forall₂ (fun c (s : Synced) ↦ SameVerdict c s.result)
      (m.entries.map (·.compare files (baseOf manifest)))
      (m.entries.map fun e ↦ ⟨e, e.draft env m files (baseOf manifest)⟩) := by
    rw [List.forall₂_map_left_iff, List.forall₂_map_right_iff]
    exact List.forall₂_same.2 fun e _ ↦ e.sameVerdict_draft hv haccept
  obtain ⟨hfirst, hcount⟩ := failures_of_forall₂ hforall
  rw [← (syncAll_of_dryRun hmode m.entries).2] at hfirst hcount
  rw [sync, hm, verdict]
  simp only [select, combined?_eq, hfirst, hcount]
  cases firstFailure? (m.entries.map (·.compare files (baseOf manifest))) with
  | some f => rfl
  | none =>
    by_cases hzero : driftCount (m.entries.map (·.compare files (baseOf manifest))) = 0
    · simp only [hzero, if_true]
    · simp only [hzero, if_false]

/-- **Check and dry run give the same verdict** on a manifest whose tokens can be searched for: the first
failure to read in the order of the manifest, else the number of drifted files. Entry by entry they tell
the same. -/
theorem check_and_dryRun_agree (tag : String) (hm : readManifest files manifest = .ok m)
    (hv : m.validateBeforeMerge = true) (haccept : env.accept m.substitution = .ok m.substitution) :
    (check files manifest).result =
        verdict (m.entries.map (·.compare files (baseOf manifest))) ∧
      (sync env files manifest ⟨true, tag⟩ none).result =
        verdict (m.entries.map (·.compare files (baseOf manifest))) ∧
      (syncAll env m ⟨true, tag⟩ (baseOf manifest) files m.entries).synced =
        m.entries.map (fun e ↦ ⟨e, (e.sync env m ⟨true, tag⟩ files (baseOf manifest)).result⟩) ∧
      ∀ (e : Entry) (base : Path),
        (∀ f, e.compare files base = .error f → e.ReadingFails f) ∧
        (∀ report, e.compare files base = .ok (.inconsistent report) ↔
          (e.sync env m ⟨true, tag⟩ files base).result = .error (.drift report)) ∧
        (e.compare files base = .ok .notGenerated ↔
          ∃ d, (e.sync env m ⟨true, tag⟩ files base).result = .ok d ∧ d.status = .created) ∧
        (e.compare files base = .ok .consistent ↔
          ∃ d, (e.sync env m ⟨true, tag⟩ files base).result = .ok d ∧
            (d.status = .updated ∨ d.status = .unchanged)) := by
  refine ⟨check_result hm, sync_result_of_dryRun hm hv haccept rfl, ?_, fun e base ↦ ?_⟩
  · rw [(syncAll_of_dryRun rfl m.entries).2]
    exact List.map_congr_left fun e _ ↦ by rw [(e.sync_of_dryRun rfl).1]
  · have hsame : SameVerdict (e.compare files base) (e.sync env m ⟨true, tag⟩ files base).result := by
      rw [(e.sync_of_dryRun rfl).1]
      exact e.sameVerdict_draft hv haccept
    exact ⟨fun f ↦ Entry.readingFails_of_compare, hsame.eq_inconsistent_iff,
      hsame.eq_notGenerated_iff, hsame.eq_consistent_iff⟩

/-- One file is there and consistent, one is not there yet, and one has drifted: its area is gone. -/
theorem check_and_dryRun_agree_sample :
    let text := "entries:\n" ++
      "- template: tpl\n  target: a\n  workflow: w\n" ++
      "- template: tpl\n  target: b\n  workflow: w\n" ++
      "- template: tpl\n  target: c\n  workflow: w\n"
    let m : Manifest := ⟨true, ∅, [⟨"tpl", "a", "w", ∅⟩, ⟨"tpl", "b", "w", ∅⟩, ⟨"tpl", "c", "w", ∅⟩]⟩
    let template := "# BEGIN WORKFLOW AREA x FOR w\nline\n# END WORKFLOW AREA\n"
    let files : FileTree := ⟨[], [(["manifest"], .file text.toUTF8), (["tpl"], .file template.toUTF8),
      (["a"], .file template.toUTF8), (["c"], .file "line\n".toUTF8)]⟩
    readManifest files "manifest" = .ok m ∧ m.validateBeforeMerge = true ∧
      Environment.calm.accept m.substitution = .ok m.substitution ∧
      (check files "manifest").result = .error (.outOfSync 1) ∧
      (sync .calm files "manifest" ⟨true, "tag"⟩ none).result = .error (.outOfSync 1) := by
  intro text m template files
  have hm : readManifest files "manifest" = .ok m := eq_ok_of_toOption (by decide +kernel)
  have hnone : firstFailure? (m.entries.map (·.compare files (baseOf "manifest"))) = none :=
    Option.isNone_iff_eq_none.1 (by decide +kernel)
  have hcount : driftCount (m.entries.map (·.compare files (baseOf "manifest"))) = 1 := by
    decide +kernel
  have haccept : Environment.calm.accept m.substitution = .ok m.substitution :=
    Environment.accept_calm m.substitution
  obtain ⟨hcheck, hsync, -⟩ := check_and_dryRun_agree "tag" hm rfl haccept
  rw [verdict, hnone, hcount] at hcheck hsync
  exact ⟨hm, rfl, haccept, hcheck, hsync⟩

end Program

end WorkflowAreas
