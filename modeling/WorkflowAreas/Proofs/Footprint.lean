import WorkflowAreas.Proofs.Storage.Transfer
import WorkflowAreas.Proofs.Sync

/-!
# What an entry depends on

An entry reads its template and its file and writes its file, by way of directories and a temporary file.
`Entry.sync_transfer`: in two trees that agree there (`Entry.Meets`) it comes to the same and does the same.
Taken for one tree, this bounds what an entry can change at all (`Entry.sync_changes`).

Paths are those of a manifest, which go down from the base (`Entry.IsPlain`), and the base leads to a directory
(`Entry.Anchored`).
-/

namespace WorkflowAreas

open WorkflowAreas.Path (temporaryName)
open Storage (FileTree Location)
open Storage.FileTree (KeepsDirectories Fares Follows temporary?)

/-! ### Reading in two trees -/

namespace Storage.FileTree

variable {t u : FileTree} {base p : Path} {way : List String} {name s : String} {D l : Location}

/-- What comes of reading a file below a directory depends on what is at its location alone. -/
theorem WellFormed.reading_congr (ht : t.WellFormed) (hu : u.WellFormed) (h : t.Below D p way name)
    (h' : u.Below D p way name)
    (hsame : u.get? (D ++ (way ++ [name])) = t.get? (D ++ (way ++ [name]))) :
    u.contains p = t.contains p ∧ (t.contains p = true → u.readDocument p = t.readDocument p) := by
  have hcontains : u.contains p = t.contains p := by
    rw [Bool.eq_iff_iff, hu.contains_iff h', ht.contains_iff h, hsame]
  refine ⟨hcontains, fun hthere ↦ ?_⟩
  obtain ⟨hrefusal, hnames, hsome⟩ := (ht.contains_iff h).1 hthere
  have hlocate := (ht.locate_eq_ok_iff h).2 ⟨hrefusal, rfl, hnames, hsome⟩
  have hlocate' := (hu.locate_eq_ok_iff h').2 ⟨hrefusal, rfl, hnames, hsame.symm ▸ hsome⟩
  have hbytes : u.readBytes p = t.readBytes p := by
    rw [readBytes, readBytes, hlocate, hlocate', ok_bind, ok_bind, hsame]
  rw [readDocument, readDocument, readText, readText, hbytes]

theorem WellFormed.readDocument?_congr (ht : t.WellFormed) (hu : u.WellFormed)
    (h : t.Below D p way name) (h' : u.Below D p way name)
    (hsame : u.get? (D ++ (way ++ [name])) = t.get? (D ++ (way ++ [name]))) :
    u.readDocument? p = t.readDocument? p := by
  obtain ⟨hcontains, hread⟩ := ht.reading_congr hu h h' hsame
  rw [readDocument?, readDocument?, hcontains]
  split
  · rw [hread ‹_›]
  · rfl

/-- A path that goes down from a base leads below the directory of the base. -/
theorem below_join (hbase : t.enter (t.start base) base.steps = .ok D) (hplain : (Path.mk s).IsPlain)
    (hsegments : (Path.mk s).segments = way ++ [name]) : t.Below D (base.join s) way name := by
  have habsolute := hplain.isAbsolute
  rw [Path.IsPlain, hsegments] at hplain
  have hway : way.filter Path.isStep = way :=
    List.filter_eq_self.2 fun x hx ↦ (hplain x (List.mem_append_left _ hx)).1
  refine ⟨hplain, base.lead ++ way, base.steps,
    ⟨?_, (hplain name List.mem_concat_self).1⟩, ?_, ?_⟩
  · rw [Path.segments_join base habsolute, hsegments, List.append_assoc]
  · rw [List.filter_append, Path.filter_isStep_lead, hway]
  · rw [start, Path.isAbsolute_join base habsolute]
    exact hbase

/-- Nothing is found from a base that is no directory. -/
theorem contains_join_eq_false {c : Cause} (hbase : t.enter (t.start base) base.steps = .error c)
    (hplain : (Path.mk s).IsPlain) : t.contains (base.join s) = false := by
  rw [contains]
  cases hlocate : t.locate (base.join s) with
  | error c => rfl
  | ok l =>
    have hwalk := (walk_eq_ok_iff.1 hlocate).2
    rw [Path.segments_join base hplain.isAbsolute, Path.isAbsolute_join base hplain.isAbsolute,
      List.foldlM_append] at hwalk
    obtain ⟨k, hk, hrest⟩ := bind_eq_ok_iff.1 hwalk
    -- what comes after the base is looked up in a directory
    have hdir : t.hasDirectory k = true := by
      cases hsegments : (Path.mk s).segments with
      | nil => exact absurd hsegments (by simp [Path.segments])
      | cons first segments =>
        rw [hsegments, List.foldlM_cons] at hrest
        obtain ⟨_, hfirst, -⟩ := bind_eq_ok_iff.1 hrest
        exact (step_eq_ok_iff.1 hfirst).1
    have henter : t.enter (t.start base) base.lead = .ok k := by
      rw [enter, start, hk, ok_bind, if_pos hdir]
      rfl
    rw [← enter_filter_isStep, Path.filter_isStep_lead, hbase] at henter
    cases henter

end Storage.FileTree

theorem Path.IsPlain.steps_eq {p : Path} (h : p.IsPlain) : p.steps = p.segments :=
  List.filter_eq_self.2 fun s hs ↦ (h s hs).1

/-! ### An entry in two trees -/

namespace Entry

variable {e a b : Entry} {env : Environment} {m : Manifest} {mode : WriteMode} {files t u : FileTree}
  {base : Path} {D l : Location} {tag : String} {xs : List String}

/-- The directories on the way to the file of an entry. -/
def way (e : Entry) : List String :=
  (Path.mk e.target).segments.dropLast

/-- The name of the file of an entry. -/
def name (e : Entry) : String :=
  (Path.mk e.target).segments.getLastD ""

/-- The name of the temporary file of an entry. -/
def temporaryName (e : Entry) (tag : String) : String :=
  Path.temporaryName tag e.name

theorem segments_target (e : Entry) : (Path.mk e.target).segments = e.way ++ [e.name] := by
  have hne : (Path.mk e.target).segments ≠ [] := by simp [Path.segments]
  rw [way, name, List.getLastD_eq_getLast?, List.getLast?_eq_some_getLast hne, Option.getD_some,
    List.dropLast_append_getLast hne]

theorem exists_segments_template (e : Entry) :
    ∃ way name, (Path.mk e.template).segments = way ++ [name] := by
  have hne : (Path.mk e.template).segments ≠ [] := by simp [Path.segments]
  exact ⟨_, _, (List.dropLast_append_getLast hne).symm⟩

/-- The entry names its files by paths that go down. -/
structure IsPlain (e : Entry) : Prop where
  template : (Path.mk e.template).IsPlain
  target : (Path.mk e.target).IsPlain

theorem IsPlain.exists_temporary? (he : e.IsPlain) (htag : '/' ∉ tag.toList) :
    ∃ q, temporary? tag ⟨e.target⟩ = some q ∧ q.steps = e.way ++ [e.temporaryName tag] := by
  have hplain := he.target
  rw [Path.IsPlain, e.segments_target] at hplain
  obtain ⟨hname, hup⟩ := hplain e.name List.mem_concat_self
  obtain ⟨q, before, hq, hends, hbefore, -⟩ :=
    Path.EndsIn.exists_temporary? ⟨e.segments_target, hname⟩ hup htag
  refine ⟨q, hq, ?_⟩
  rw [Path.steps, hends.segments, List.filter_append, hbefore, List.filter_cons_of_pos hends.isStep,
    List.filter_eq_self.2 fun x hx ↦ (hplain x (List.mem_append_left _ hx)).1]
  rfl

/-- A tree in which everything lies in a directory, seen from a base that leads to one. -/
structure Anchored (t : FileTree) (base : Path) (D : Location) : Prop where
  wellFormed : t.WellFormed
  enter : t.enter (t.start base) base.steps = .ok D

theorem Anchored.of_keepsDirectories (h : Anchored t base D) (hu : u.WellFormed)
    (hk : KeepsDirectories t u) : Anchored u base D := by
  refine ⟨hu, ?_⟩
  rw [FileTree.start, hk.workingDirectory]
  exact hk.enter h.enter

/-- In a later tree the entry finds its files as in the first one. -/
structure Meets (e : Entry) (tag : String) (D : Location) (t u : FileTree) : Prop where
  wellFormed : u.WellFormed
  follows : Follows t u D e.way (e.temporaryName tag) e.name
  template : u.get? (D ++ (Path.mk e.template).segments) = t.get? (D ++ (Path.mk e.template).segments)

theorem draft_congr (ht : Anchored t base D) (he : e.IsPlain) (h : e.Meets tag D t u) :
    e.draft env m u base = e.draft env m t base := by
  have hu := ht.of_keepsDirectories h.wellFormed h.follows.keepsDirectories
  obtain ⟨way, name, hsegments⟩ := e.exists_segments_template
  have htemplate := h.template
  rw [hsegments] at htemplate
  obtain ⟨hcontains, hread⟩ := ht.wellFormed.reading_congr hu.wellFormed
    (FileTree.below_join ht.enter he.template hsegments)
    (FileTree.below_join hu.enter he.template hsegments) htemplate
  have htarget : u.readDocument? (base.join e.target) = t.readDocument? (base.join e.target) :=
    ht.wellFormed.readDocument?_congr hu.wellFormed
      (FileTree.below_join ht.enter he.target e.segments_target)
      (FileTree.below_join hu.enter he.target e.segments_target) (h.follows.atTheEnd _ (Or.inr rfl))
  have hreadTemplate : e.readTemplate u base = e.readTemplate t base := by
    rw [readTemplate, readTemplate, hcontains]
    split
    · exact hread ‹_›
    · rfl
  rw [draft, draft, hreadTemplate, htarget]

/-- **An entry does the same in a tree in which it finds its files as before.** -/
theorem sync_transfer (env : Environment) (m : Manifest) (htag : '/' ∉ mode.tag.toList)
    (ht : Anchored t base D) (he : e.IsPlain) (h : e.Meets mode.tag D t u) :
    (e.sync env m mode u base).result = (e.sync env m mode t base).result ∧
      ∀ l, Fares D e.way (e.temporaryName mode.tag) e.name t (e.sync env m mode t base).files u
        (e.sync env m mode u base).files l := by
  have hdraft : e.draft env m u base = e.draft env m t base := draft_congr ht he h
  have hsame (l : Location) : Fares D e.way (e.temporaryName mode.tag) e.name t t u u l := .same rfl rfl
  cases hd : e.draft env m t base with
  | error f =>
    rw [sync_of_error hd, sync_of_error (hdraft.trans hd)]
    exact ⟨rfl, hsame⟩
  | ok d =>
    cases hidle : decide (d.status = .unchanged) || mode.dryRun with
    | true =>
      rw [sync_of_idle hd hidle, sync_of_idle (hdraft.trans hd) hidle]
      exact ⟨rfl, hsame⟩
    | false =>
      obtain ⟨hresult, hfares⟩ := ht.wellFormed.replace_transfer h.wellFormed
        (FileTree.below_join ht.enter he.target e.segments_target) htag h.follows d.document.toText
      rw [sync_of_writes hd hidle, sync_of_writes (hdraft.trans hd) hidle]
      dsimp only
      rw [hresult]
      exact ⟨rfl, hfares⟩

/-- After an entry whatever is there lies in a directory, and no directory is gone. -/
theorem sync_wellFormed (ht : Anchored t base D) (he : e.IsPlain) (env : Environment) (m : Manifest)
    (mode : WriteMode) :
    (e.sync env m mode t base).files.WellFormed ∧ KeepsDirectories t (e.sync env m mode t base).files := by
  have hsame : t.WellFormed ∧ KeepsDirectories t t := ⟨ht.wellFormed, rfl, fun _ h ↦ h⟩
  cases hd : e.draft env m t base with
  | error f =>
    rw [sync_of_error hd]
    exact hsame
  | ok d =>
    cases hidle : decide (d.status = .unchanged) || mode.dryRun with
    | true =>
      rw [sync_of_idle hd hidle]
      exact hsame
    | false =>
      rw [sync_of_writes hd hidle]
      dsimp only
      exact ht.wellFormed.replace (FileTree.below_join ht.enter he.target e.segments_target) env.trouble
        mode.tag d.document.toText

theorem Meets.refl (ht : Anchored t base D) (e : Entry) (tag : String) : e.Meets tag D t t :=
  ⟨ht.wellFormed, .refl t D _ _ _, rfl⟩

/-- Where an entry changes something: at the place of its file or its temporary file, or a directory is made
on the way. -/
theorem sync_changes (htag : '/' ∉ mode.tag.toList) (ht : Anchored t base D) (he : e.IsPlain)
    (env : Environment) (m : Manifest) (hne : (e.sync env m mode t base).files.get? l ≠ t.get? l) :
    (l = D ++ (e.way ++ [e.temporaryName mode.tag]) ∨ l = D ++ (e.way ++ [e.name])) ∨
      (∃ xs, xs <+: e.way ∧ l = D ++ xs) ∧ t.get? l = none ∧
        (e.sync env m mode t base).files.get? l = some .directory := by
  obtain ⟨-, hfares⟩ := sync_transfer env m htag ht he (.refl ht e mode.tag)
  cases hfares l with
  | same h _ => exact absurd h hne
  | file h _ => exact Or.inl h
  | directory h hfile hdir _ =>
    obtain ⟨xs, -, hxs⟩ := h
    refine Or.inr ⟨⟨xs, hxs⟩, FileTree.get?_eq_none hfile (Bool.eq_false_iff.2 fun hold ↦ hne ?_), hdir⟩
    rw [hdir, FileTree.hasDirectory_iff.1 hold]

end Entry

end WorkflowAreas
