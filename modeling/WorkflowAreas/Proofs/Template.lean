import WorkflowAreas.Proofs.Footprint

/-!
# What becomes of a template

A run reads its template and is not meant to write it. `Entry.readBytes_template_sync` says when it does all
the same: the path of the file leads to the template, or the path of its temporary file does. The check of a
manifest compares the two paths as they are written. That keeps a template if they are written without detours,
and it does not if they are not (`Entry.sync_overwrites_template`).

`get?_replace_ne_iff` is the same for a replacement and any file.
-/

namespace WorkflowAreas

open Storage (FileTree Location Cause)
open Storage.FileTree (KeepsDirectories temporary?)

namespace Storage.FileTree

variable {t u : FileTree} {p temporary : Path} {l m : Location} {bytes : ByteArray} {tag text : String}
  {f : Failure} {trouble : Path → String → Option Cause}

/-! ### Files and their locations -/

/-- A path by which a file is found leads to the file. -/
theorem leads_of_locate (hwf : t.WellFormed) (h : t.locate p = .ok l) (hl : t.hasDirectory l = false) :
    t.Leads p l := by
  obtain ⟨hrefusal, hwalk⟩ := walk_eq_ok_iff.1 h
  have hne : p.segments ≠ [] := by simp [Path.segments]
  obtain ⟨before, name, hsegments⟩ := (List.eq_nil_or_concat' p.segments).resolve_left hne
  rw [hsegments, List.foldlM_append] at hwalk
  obtain ⟨k, hk, hstep⟩ := bind_eq_ok_iff.1 hwalk
  simp only [List.foldlM_cons, List.foldlM_nil, bind_pure] at hstep
  have hdirectory {m : Location} (hdir : t.hasDirectory m = true) (hm : l = m) : t.Leads p l := by
    rw [hm, hdir] at hl
    cases hl
  obtain ⟨hdir, ⟨-, hm⟩ | ⟨-, hm⟩ | ⟨hname, -, hm⟩⟩ := step_eq_ok_iff.1 hstep
  · exact hdirectory hdir hm
  · -- what encloses a directory is one
    rcases List.eq_nil_or_concat' k with rfl | ⟨init, s, rfl⟩
    · exact hdirectory hdir hm
    · rw [List.dropLast_concat] at hm
      exact hdirectory (hwf init s (by rw [hasDirectory_iff.1 hdir]; rfl)) hm
  · exact ⟨before, name, k, hsegments, walk_eq_ok_iff.2 ⟨hrefusal, hk⟩, hdir, hname, hm⟩

/-- The bytes at the location that a path leads to are those that are read. -/
theorem Leads.readBytes_eq_ok_iff (h : t.Leads p l) :
    t.readBytes p = .ok bytes ↔ t.get? l = some (.file bytes) := by
  constructor
  · intro hread
    obtain ⟨k, hlocate, -⟩ := bind_eq_ok_iff.1 hread
    have hfile := get?_of_readBytes hlocate hread
    obtain ⟨before, name, directory, hsegments, hwalk, -, hname, rfl⟩ := h
    have hsteps := (walk_eq_ok_iff.1 hlocate).2
    rw [hsegments, List.foldlM_append, (walk_eq_ok_iff.1 hwalk).2, ok_bind] at hsteps
    simp only [List.foldlM_cons, List.foldlM_nil, bind_pure] at hsteps
    obtain ⟨-, ⟨hnot, -⟩ | ⟨hup, -⟩ | ⟨-, -, rfl⟩⟩ := step_eq_ok_iff.1 hsteps
    · rw [hname.1] at hnot
      cases hnot
    · exact absurd hup hname.2.1
    · exact hfile
  · intro hfile
    rw [readBytes, h.locate (by rw [hfile, Option.isSome_some]), ok_bind]
    simp only [hfile]
    rfl

/-- A path below a directory leads to its place there and nowhere else. -/
theorem Below.eq_of_leads {D : Location} {way : List String} {name : String} (h : t.Below D p way name)
    (hl : t.Leads p l) : l = D ++ (way ++ [name]) := by
  obtain ⟨before, hends, henter⟩ := h.exists_endsIn
  obtain ⟨before', name', directory, hsegments, hwalk, hdir, -, rfl⟩ := hl
  obtain ⟨rfl, hnames⟩ := List.append_inj' (hends.segments.symm.trans hsegments) rfl
  have hdirectory : t.enter (t.start p) before = .ok directory := by
    rw [enter, start, (walk_eq_ok_iff.1 hwalk).2, ok_bind, if_pos hdir]
    rfl
  rw [eq_append_of_enter (fun s hs ↦ h.plain s (List.mem_append_left _ hs))
    (henter.symm.trans hdirectory), ← hnames, List.append_assoc]

/-! ### What a replacement overwrites -/

theorem exists_of_makeParents (h : (t.makeParents p).1 = .error f) :
    ∃ path c, f = .fault (.makeDirectory path c) := by
  rw [makeParents] at h
  split at h
  · cases h
  · split at h
    · cases h
    · split at h
      · cases h
      · exact ⟨_, _, (Except.error.inj h).symm⟩

/-- When an exchange changes a file. -/
theorem get?_exchange_ne_iff (hl : t.get? l = some (.file bytes))
    (hapart : ∀ {v : FileTree} {k m : Location}, v.Leads temporary k → v.Leads p m → k ≠ m) :
    (t.exchange trouble temporary p text).2.get? l ≠ some (.file bytes) ↔
      ((t.exchange trouble temporary p text).1 = .ok () ∧ (t.exchange trouble temporary p text).2.Leads p l ∧
          bytes ≠ text.toUTF8) ∨
        (t.exchange trouble temporary p text).2.Leads temporary l ∧
          ((t.exchange trouble temporary p text).1 = .ok () ∨
            ∃ f, (t.exchange trouble temporary p text).1 = .error f ∧ f.removesTemporary = true) := by
  have hkeeps := (t.exchanged_exchange trouble temporary p text).keepsDirectories
  rcases t.exchange_cases trouble temporary p text with
    ⟨c, h⟩ | ⟨k, hk, hdir, ⟨f, hremoves, h⟩ | ⟨m, hm, hmdir, h⟩⟩
  · rw [h]
    refine iff_of_false (fun hne ↦ hne hl) ?_
    rintro (⟨h, -⟩ | ⟨-, h | ⟨f, h, hremoves⟩⟩)
    · cases h
    · cases h
    · cases h
      cases hremoves
  · rw [h] at hkeeps ⊢
    have hk' := hk.of_keepsDirectories hkeeps
    dsimp only
    rw [get?_erase_put (ne_nil_of_hasDirectory_eq_false hdir)]
    by_cases hlk : l = k
    · rw [if_pos hlk]
      exact iff_of_true nofun (Or.inr ⟨hlk ▸ hk', Or.inr ⟨f, rfl, hremoves⟩⟩)
    · rw [if_neg hlk]
      refine iff_of_false (fun hne ↦ hne hl) ?_
      rintro (⟨h, -⟩ | ⟨hleads, -⟩)
      · cases h
      · exact hlk (hleads.unique hk')
  · rw [h] at hkeeps ⊢
    have hk' := hk.of_keepsDirectories hkeeps
    have hm' := hm.of_keepsDirectories (.put_erase (hasDirectory_put_file hdir) hmdir (.file text.toUTF8))
    dsimp only
    rw [get?_put (ne_nil_of_hasDirectory_eq_false hmdir),
      get?_erase_put (ne_nil_of_hasDirectory_eq_false hdir)]
    by_cases hlm : l = m
    · rw [if_pos hlm]
      constructor
      · exact fun hnew ↦ Or.inl ⟨rfl, hlm ▸ hm', fun heq ↦ hnew (by rw [heq])⟩
      · rintro (⟨-, -, hnew⟩ | ⟨hleads, -⟩)
        · exact fun heq ↦ hnew (Content.file.inj (Option.some.inj heq)).symm
        · exact absurd hlm (hapart hleads hm')
    · rw [if_neg hlm]
      by_cases hlk : l = k
      · rw [if_pos hlk]
        exact iff_of_true nofun (Or.inr ⟨hlk ▸ hk', Or.inl rfl⟩)
      · rw [if_neg hlk]
        refine iff_of_false (fun hne ↦ hne hl) ?_
        rintro (⟨-, hleads, -⟩ | ⟨hleads, -⟩)
        · exact hlm (hleads.unique hm')
        · exact hlk (hleads.unique hk')

/-- **When a replacement changes a file**: it is the file that is replaced, with other bytes, or it was
taken for the temporary file. -/
theorem get?_replace_ne_iff (trouble : Path → String → Option Cause) (p : Path) (text : String)
    (hl : t.get? l = some (.file bytes)) (htag : '/' ∉ tag.toList) :
    (t.replace trouble tag p text).2.get? l ≠ some (.file bytes) ↔
      ((t.replace trouble tag p text).1 = .ok () ∧ (t.replace trouble tag p text).2.Leads p l ∧
          bytes ≠ text.toUTF8) ∨
        (∃ q ∈ temporary? tag p, (t.replace trouble tag p text).2.Leads q l) ∧
          ((t.replace trouble tag p text).1 = .ok () ∨
            ∃ f, (t.replace trouble tag p text).1 = .error f ∧ f.removesTemporary = true) := by
  have hparents := t.addsDirectories_makeParents p
  have hfailed (f : Failure) := exists_of_makeParents (t := t) (p := p) (f := f)
  rw [replace]
  generalize t.makeParents p = made at hparents hfailed ⊢
  obtain ⟨r, u⟩ := made
  have hul : u.get? l = some (.file bytes) := by
    rcases hparents.get? l with hsame | hmade
    · exact hsame.trans hl
    · cases hl.symm.trans hmade.before
  -- a failure before the temporary file was made leaves the file alone
  have hearly {f : Failure} (hf : f.removesTemporary = false) :
      u.get? l ≠ some (.file bytes) ↔
        ((.error f : Except Failure Unit) = .ok () ∧ u.Leads p l ∧ bytes ≠ text.toUTF8) ∨
          (∃ q ∈ temporary? tag p, u.Leads q l) ∧ ((.error f : Except Failure Unit) = .ok () ∨
            ∃ g, (.error f : Except Failure Unit) = .error g ∧ g.removesTemporary = true) := by
    refine iff_of_false (fun hne ↦ hne hul) ?_
    rintro (⟨h, -⟩ | ⟨-, h | ⟨g, h, hremoves⟩⟩)
    · cases h
    · cases h
    · rw [← Except.error.inj h, hf] at hremoves
      cases hremoves
  cases r with
  | error f =>
    obtain ⟨path, c, rfl⟩ := hfailed f rfl
    exact hearly rfl
  | ok _ =>
    cases htemporary : temporary? tag p with
    | none =>
      have hearly := hearly (f := .misuse (.invalidTargetPath p.text)) rfl
      rwa [htemporary] at hearly
    | some q =>
      have hq (v : FileTree) : (∃ q' ∈ some q, v.Leads q' l) ↔ v.Leads q l := by simp
      dsimp only
      rw [hq]
      exact get?_exchange_ne_iff hul fun hk hm ↦ hm.ne_of_temporary htag htemporary hk

theorem keepsDirectories_replace (trouble : Path → String → Option Cause) (t : FileTree) (tag : String)
    (p : Path) (text : String) :
    KeepsDirectories t (t.replace trouble tag p text).2 := by
  have hparents := (t.addsDirectories_makeParents p).keepsDirectories
  rcases t.replace_cases trouble tag p text with ⟨f, hf⟩ | ⟨q, -, hexchanged⟩
  · rw [hf]
    exact hparents
  · exact hparents.trans hexchanged.keepsDirectories

end Storage.FileTree

/-! ### Templates -/

section Result

variable {α : Type} {r : Except Failure Unit} {a : α} {f : Failure}

theorem map_const_eq_ok_iff : (r.map fun _ ↦ a) = .ok a ↔ r = .ok () := by
  cases r with
  | ok _ => exact iff_of_true rfl rfl
  | error g => exact iff_of_false (fun h ↦ by cases h) fun h ↦ by cases h

theorem map_const_eq_error_iff : (r.map fun _ ↦ a) = .error f ↔ r = .error f := by
  cases r with
  | ok _ => exact iff_of_false (fun h ↦ by cases h) fun h ↦ by cases h
  | error g => exact ⟨fun h ↦ congrArg _ (Except.error.inj h), fun h ↦ congrArg _ (Except.error.inj h)⟩

end Result

theorem Manifest.defect?_eq_none_of_mem {index : Nat} {es : List Entry} {e : Entry}
    (h : Manifest.entryDefect? index es = none) (he : e ∈ es) : e.defect? = none := by
  induction es generalizing index with
  | nil => exact absurd he List.not_mem_nil
  | cons a es ih =>
    rw [Manifest.entryDefect?] at h
    split at h
    · cases h
    · rcases List.mem_cons.1 he with rfl | he
      · assumption
      · exact ih h he

namespace Entry

variable {e : Entry} {env : Environment} {m : Manifest} {mode : WriteMode} {files : FileTree} {base : Path}
  {d : Draft}

/-- Whoever drafts has found the template. -/
theorem exists_file_of_draft (h : e.draft env m files base = .ok d) :
    ∃ l bytes, files.locate (base.join e.template) = .ok l ∧
      files.get? l = some (.file bytes) ∧ files.readBytes (base.join e.template) = .ok bytes := by
  obtain ⟨template, -, htemplate, -⟩ := exists_of_draft h
  rw [readTemplate] at htemplate
  split at htemplate
  · rw [FileTree.readDocument] at htemplate
    split at htemplate
    · rename_i text htext
      obtain ⟨bytes, hbytes, -⟩ := bind_eq_ok_iff.1 htext
      obtain ⟨l, hl, -⟩ := bind_eq_ok_iff.1 hbytes
      exact ⟨l, bytes, hl, FileTree.get?_of_readBytes hl hbytes, hbytes⟩
    · cases htemplate
  · cases htemplate

/-- **When a run changes its template**: a new text was written, and the path of the file leads to the template,
or the path of its temporary file does. -/
theorem readBytes_sync_ne_iff (e : Entry) (env : Environment) (m : Manifest) (mode : WriteMode)
    (base : Path) (hwf : files.WellFormed) (htag : '/' ∉ mode.tag.toList) :
    let run := e.sync env m mode files base
    run.files.readBytes (base.join e.template) ≠ files.readBytes (base.join e.template) ↔
      mode.dryRun = false ∧ ∃ d l, e.draft env m files base = .ok d ∧ d.status ≠ .unchanged ∧
        files.locate (base.join e.template) = .ok l ∧
        (run.result = .ok d ∧ run.files.Leads (base.join e.target) l ∧
            files.readBytes (base.join e.template) ≠ .ok d.document.toText.toUTF8 ∨
          (∃ q ∈ temporary? mode.tag (base.join e.target), run.files.Leads q l) ∧
            (run.result = .ok d ∨ ∃ f, run.result = .error f ∧ f.removesTemporary = true)) := by
  intro run
  cases hd : e.draft env m files base with
  | error f =>
    have hrun : run = ⟨.error f, none, files⟩ := sync_of_error hd
    rw [hrun]
    refine iff_of_false (fun hne ↦ hne rfl) ?_
    rintro ⟨-, d, l, h, -⟩
    cases h
  | ok d =>
    cases hidle : decide (d.status = .unchanged) || mode.dryRun with
    | true =>
      have hrun : run = ⟨.ok d, some d, files⟩ := sync_of_idle hd hidle
      rw [hrun]
      refine iff_of_false (fun hne ↦ hne rfl) ?_
      rintro ⟨hmode, d', l, h, hstatus, -⟩
      obtain rfl := Except.ok.inj h
      simp [hmode, hstatus] at hidle
    | false =>
      obtain ⟨hstatus, hmode⟩ : d.status ≠ .unchanged ∧ mode.dryRun = false := by simpa using hidle
      obtain ⟨l, bytes, hl, hfile, hbytes⟩ := exists_file_of_draft hd
      have hrun : run = _ := sync_of_writes hd hidle
      have hleads : files.Leads (base.join e.template) l :=
        FileTree.leads_of_locate hwf hl (by rw [FileTree.hasDirectory, hfile])
      have hleads' := hleads.of_keepsDirectories
        (files.keepsDirectories_replace env.trouble mode.tag (base.join e.target) d.document.toText)
      have hchanged :=
        FileTree.get?_replace_ne_iff env.trouble (base.join e.target) d.document.toText hfile htag
      rw [hrun, hbytes]
      generalize files.replace env.trouble mode.tag (base.join e.target) d.document.toText = replaced
        at hleads' hchanged ⊢
      obtain ⟨r, after⟩ := replaced
      dsimp only at hleads' hchanged ⊢
      rw [Ne, hleads'.readBytes_eq_ok_iff, ← Ne, hchanged]
      constructor
      · intro h
        refine ⟨hmode, d, l, rfl, hstatus, hl, ?_⟩
        simpa only [map_const_eq_ok_iff, map_const_eq_error_iff, ne_eq, Except.ok.injEq] using h
      · rintro ⟨-, d', l', hd', -, hl', h⟩
        obtain rfl := Except.ok.inj hd'
        obtain rfl := Except.ok.inj (hl.symm.trans hl')
        simpa only [map_const_eq_ok_iff, map_const_eq_error_iff, ne_eq, Except.ok.injEq] using h

/-- In a manifest that can be used, template and file are written differently. -/
theorem template_ne_target (hm : m.defect? = none) (he : e ∈ m.entries) : e.template ≠ e.target := by
  have hdefect : e.defect? = none := by
    rw [Manifest.defect?] at hm
    split at hm
    · cases hm
    · exact Manifest.defect?_eq_none_of_mem ‹_› he
  intro heq
  rw [defect?, if_pos heq] at hdefect
  split_ifs at hdefect

/-- **What a run keeps of its template**: it changes only if a new text was written and the path of the file
or of its temporary file leads to the template. In a manifest that can be used it never does, if both paths
are written without detours and the template is not called like a temporary file. -/
theorem readBytes_template_sync (e : Entry) (env : Environment) (m : Manifest) (mode : WriteMode)
    (base : Path) (hwf : files.WellFormed) (htag : '/' ∉ mode.tag.toList) :
    let run := e.sync env m mode files base
    (run.files.readBytes (base.join e.template) ≠ files.readBytes (base.join e.template) ↔
      mode.dryRun = false ∧ ∃ d l, e.draft env m files base = .ok d ∧ d.status ≠ .unchanged ∧
        files.locate (base.join e.template) = .ok l ∧
        (run.result = .ok d ∧ run.files.Leads (base.join e.target) l ∧
            files.readBytes (base.join e.template) ≠ .ok d.document.toText.toUTF8 ∨
          (∃ q ∈ temporary? mode.tag (base.join e.target), run.files.Leads q l) ∧
            (run.result = .ok d ∨ ∃ f, run.result = .error f ∧ f.removesTemporary = true))) ∧
    (m.defect? = none → e ∈ m.entries → e.IsPlain →
      (∀ q ∈ temporary? mode.tag ⟨e.target⟩, q.steps ≠ (Path.mk e.template).steps) →
      run.files.readBytes (base.join e.template) = files.readBytes (base.join e.template)) := by
  intro run
  have hchanged := readBytes_sync_ne_iff e env m mode base hwf htag
  refine ⟨hchanged, fun hm he hplain htemporary ↦ ?_⟩
  by_contra hne
  obtain ⟨-, d, l, -, -, hl, hcase⟩ := hchanged.1 hne
  cases hbase : files.enter (files.start base) base.steps with
  | error c =>
    have hnone := FileTree.contains_join_eq_false hbase hplain.template
    rw [FileTree.contains, hl] at hnone
    cases hnone
  | ok D =>
    have ht : Anchored files base D := ⟨hwf, hbase⟩
    obtain ⟨hwf', hkeeps⟩ := sync_wellFormed ht hplain env m mode
    have htarget := FileTree.below_join (ht.of_keepsDirectories hwf' hkeeps).enter hplain.target
      e.segments_target
    obtain ⟨way, name, hsegments⟩ := e.exists_segments_template
    obtain ⟨-, rfl, -⟩ :=
      (hwf.locate_eq_ok_iff (FileTree.below_join hbase hplain.template hsegments)).1 hl
    rcases hcase with ⟨-, hleads, -⟩ | ⟨⟨q, hq, hleads⟩, -⟩
    · have heq := List.append_cancel_left (htarget.eq_of_leads hleads)
      rw [← hsegments, ← e.segments_target] at heq
      exact template_ne_target hm he (Path.mk.inj (Path.segments_injective heq))
    · obtain ⟨q', hq', hbelow⟩ := htarget.exists_temporary? htag
      obtain rfl := Option.some.inj (hq'.symm.trans hq)
      obtain ⟨q'', hq'', hsteps⟩ := hplain.exists_temporary? htag
      refine htemporary q'' hq'' ?_
      rw [hsteps, hplain.template.steps_eq, hsegments,
        List.append_cancel_left (hbelow.eq_of_leads hleads)]
      rfl

/-- A template is kept while the file beside it is made. -/
theorem readBytes_template_sync_sample :
    let e : Entry := ⟨"tpl", "gen", "w", ∅⟩
    let m : Manifest := ⟨true, ∅, [e]⟩
    let files : FileTree := ⟨[], [(["tpl"], .file "x\n".toUTF8)]⟩
    let base : Path := ⟨"."⟩
    let run := e.sync .calm m ⟨false, "1"⟩ files base
    files.WellFormed ∧ '/' ∉ "1".toList ∧ m.defect? = none ∧ e ∈ m.entries ∧ e.IsPlain ∧
      (∀ q ∈ temporary? "1" ⟨e.target⟩, q.steps ≠ (Path.mk e.template).steps) ∧
      run.files.readBytes (base.join e.target) = .ok "x\n".toUTF8 ∧
      run.files.readBytes (base.join e.template) = files.readBytes (base.join e.template) := by
  intro e m files base run
  have hwf : files.WellFormed := FileTree.wellFormed_of_entries (by decide +kernel)
  have htag : '/' ∉ "1".toList := by decide +kernel
  have hplain : e.IsPlain := ⟨by decide +kernel, by decide +kernel⟩
  have htemporary (q : Path) (hq : q ∈ temporary? "1" ⟨e.target⟩) :
      q.steps ≠ (Path.mk e.template).steps := by
    have hq' : temporary? "1" ⟨e.target⟩ = some ⟨".gen.1.tmp"⟩ := by decide +kernel
    obtain rfl := Option.some.inj (hq'.symm.trans hq)
    decide +kernel
  have hm : m.defect? = none := Option.isNone_iff_eq_none.1 (by decide +kernel)
  exact ⟨hwf, htag, hm, by decide, hplain, htemporary,
    eq_ok_of_toOption (by decide +kernel),
    (readBytes_template_sync e .calm m ⟨false, "1"⟩ base hwf htag).2 hm (by decide) hplain htemporary⟩

/-- **A template is overwritten** by a file that is called by another path, although the manifest passes its
check: its own area is sorted. -/
theorem sync_overwrites_template :
    let e : Entry := ⟨"./tpl", "tpl", "w", ∅⟩
    let m : Manifest := ⟨true, ∅, [e]⟩
    let before := "// BEGIN SORTED WORKFLOW AREA a FOR w\nb\na\n// END WORKFLOW AREA\n"
    let after := "// BEGIN SORTED WORKFLOW AREA a FOR w\na\nb\n// END WORKFLOW AREA\n"
    let files : FileTree := ⟨[], [(["tpl"], .file before.toUTF8)]⟩
    let run := e.sync .calm m ⟨false, "1"⟩ files ⟨"."⟩
    m.defect? = none ∧ e ∈ m.entries ∧
      files.readBytes ((Path.mk ".").join e.template) = .ok before.toUTF8 ∧
      run.files.readBytes ((Path.mk ".").join e.template) = .ok after.toUTF8 ∧ before ≠ after :=
  ⟨Option.isNone_iff_eq_none.1 (by decide +kernel), by decide, eq_ok_of_toOption (by decide +kernel),
    eq_ok_of_toOption (by decide +kernel), by decide⟩

end Entry

end WorkflowAreas
