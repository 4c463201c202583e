import Mathlib.Data.List.Pairwise
import WorkflowAreas.Proofs.Atomicity
import WorkflowAreas.Proofs.Footprint
import WorkflowAreas.Proofs.Verdict

/-!
# Independent entries

Entries are independent if their files are apart from each other and from all templates, and no path leads to or
below a temporary file (`Independent`). Such entries do not affect each other:
`Program.syncAll_independent` says so of the order of a run, of selections, of dry runs and of failures.

All of it comes from `Program.syncAll_alone`: an entry tells in a run what it tells alone, and what the
entries do together is what each of them does alone (`Program.Joint`). The step is `Program.Joint.append`.
Entries may share directories on their ways. Whichever comes first makes them, and the others find them made;
that is the only difference between a run and the entries alone.
-/

namespace WorkflowAreas

open Storage (FileTree Location)
open Storage.FileTree (KeepsDirectories Fares temporary?)

/-! ### Independent entries -/

/-- Neither of two paths leads to the other or above it. -/
def Path.Apart (p q : Path) : Prop :=
  ¬p.steps <+: q.steps ∧ ¬q.steps <+: p.steps

instance (p q : Path) : Decidable (p.Apart q) :=
  inferInstanceAs (Decidable (_ ∧ _))

/-- The files of the entries are apart from each other and from all templates, and none of the paths leads to
or below the temporary file of a file. -/
structure Independent (tag : String) (es : List Entry) : Prop where
  plain : ∀ e ∈ es, e.IsPlain
  targets : es.Pairwise fun a b ↦ Path.Apart ⟨a.target⟩ ⟨b.target⟩
  templates : ∀ a ∈ es, ∀ b ∈ es, Path.Apart ⟨a.target⟩ ⟨b.template⟩
  temporaries : ∀ a ∈ es, ∀ q ∈ temporary? tag ⟨a.target⟩, ∀ b ∈ es,
    ¬q.steps <+: (Path.mk b.template).steps ∧ ¬q.steps <+: (Path.mk b.target).steps

theorem independent_iff {tag : String} {es : List Entry} :
    Independent tag es ↔
      (∀ e ∈ es, (Path.mk e.template).IsPlain ∧ (Path.mk e.target).IsPlain) ∧
        (es.Pairwise fun a b ↦ Path.Apart ⟨a.target⟩ ⟨b.target⟩) ∧
        (∀ a ∈ es, ∀ b ∈ es, Path.Apart ⟨a.target⟩ ⟨b.template⟩) ∧
        ∀ a ∈ es, ∀ q ∈ (temporary? tag ⟨a.target⟩).toList, ∀ b ∈ es,
          ¬q.steps <+: (Path.mk b.template).steps ∧ ¬q.steps <+: (Path.mk b.target).steps := by
  simp only [Option.mem_toList]
  constructor
  · exact fun h ↦ ⟨fun e he ↦ ⟨(h.plain e he).template, (h.plain e he).target⟩, h.targets, h.templates,
      h.temporaries⟩
  · rintro ⟨hplain, htargets, htemplates, htemporaries⟩
    exact ⟨fun e he ↦ ⟨(hplain e he).1, (hplain e he).2⟩, htargets, htemplates, htemporaries⟩

instance (tag : String) (es : List Entry) : Decidable (Independent tag es) :=
  decidable_of_iff' _ independent_iff

namespace Independent

variable {tag : String} {es es' : List Entry} {a b : Entry}

theorem sublist (h : Independent tag es) (hs : es'.Sublist es) : Independent tag es' :=
  ⟨fun e he ↦ h.plain e (hs.subset he), h.targets.sublist hs,
    fun a ha b hb ↦ h.templates a (hs.subset ha) b (hs.subset hb),
    fun a ha q hq b hb ↦ h.temporaries a (hs.subset ha) q hq b (hs.subset hb)⟩

theorem perm (h : Independent tag es) (hp : es'.Perm es) : Independent tag es' :=
  ⟨fun e he ↦ h.plain e (hp.subset he), h.targets.perm hp.symm fun hab ↦ ⟨hab.2, hab.1⟩,
    fun a ha b hb ↦ h.templates a (hp.subset ha) b (hp.subset hb),
    fun a ha q hq b hb ↦ h.temporaries a (hp.subset ha) q hq b (hp.subset hb)⟩

end Independent

namespace Entry

variable {a e : Entry} {env : Environment} {m : Manifest} {mode : WriteMode} {t u : FileTree} {base : Path}
  {D l : Location} {tag : String} {es : List Entry} {xs : List String}

/-- What the one entry may write does not concern the other. -/
structure Clear (tag : String) (a e : Entry) : Prop where
  target : ¬(a.way ++ [a.name]) <+: (e.way ++ [e.name]) ∧ ¬(e.way ++ [e.name]) <+: (a.way ++ [a.name])
  template : ¬(a.way ++ [a.name]) <+: (Path.mk e.template).segments ∧
    ¬(Path.mk e.template).segments <+: (a.way ++ [a.name])
  temporary : ¬(a.way ++ [a.temporaryName tag]) <+: (e.way ++ [e.name]) ∧
    ¬(a.way ++ [a.temporaryName tag]) <+: (Path.mk e.template).segments ∧
    ¬(e.way ++ [e.temporaryName tag]) <+: (a.way ++ [a.name])

/-- What is neither on the way of an entry nor at or below one of its files is as it was. -/
theorem get?_sync_of_not_prefix (htag : '/' ∉ mode.tag.toList) (ht : Anchored t base D)
    (ha : a.IsPlain) (env : Environment) (m : Manifest)
    (h : ¬(a.way ++ [a.temporaryName mode.tag]) <+: xs)
    (h' : ¬(a.way ++ [a.name]) <+: xs) (h'' : ¬xs <+: (a.way ++ [a.name])) :
    (a.sync env m mode t base).files.get? (D ++ xs) = t.get? (D ++ xs) := by
  by_contra hne
  rcases sync_changes htag ht ha env m hne with (heq | heq) | ⟨⟨ys, hys, heq⟩, -⟩
  · exact h (List.append_cancel_left heq ▸ List.prefix_rfl)
  · exact h' (List.append_cancel_left heq ▸ List.prefix_rfl)
  · exact h'' (List.append_cancel_left heq ▸ hys.trans (List.prefix_append a.way [a.name]))

namespace Clear

/-- An entry leaves the template of the other alone. -/
theorem get?_template (h : a.Clear mode.tag e) (htag : '/' ∉ mode.tag.toList)
    (ht : Anchored t base D) (ha : a.IsPlain) (env : Environment) (m : Manifest) :
    (a.sync env m mode t base).files.get? (D ++ (Path.mk e.template).segments) =
      t.get? (D ++ (Path.mk e.template).segments) :=
  get?_sync_of_not_prefix htag ht ha env m h.temporary.2.1 h.template.1 h.template.2

theorem get?_target (h : a.Clear mode.tag e) (htag : '/' ∉ mode.tag.toList)
    (ht : Anchored t base D) (ha : a.IsPlain) (env : Environment) (m : Manifest) :
    (a.sync env m mode t base).files.get? (D ++ (e.way ++ [e.name])) = t.get? (D ++ (e.way ++ [e.name])) :=
  get?_sync_of_not_prefix htag ht ha env m h.temporary.1 h.target.1 h.target.2

theorem get?_temporary (h : a.Clear mode.tag e) (htag : '/' ∉ mode.tag.toList)
    (ht : Anchored t base D) (ha : a.IsPlain) (env : Environment) (m : Manifest) :
    (a.sync env m mode t base).files.get? (D ++ (e.way ++ [e.temporaryName mode.tag])) =
      t.get? (D ++ (e.way ++ [e.temporaryName mode.tag])) := by
  -- a prefix of the temporary file's way is one of the file's way, unless it is all of it
  have hbegins {ys : List String} (hys : ys <+: e.way ++ [e.temporaryName mode.tag])
      (hne : ¬ys <+: e.way ++ [e.name]) : ys = e.way ++ [e.temporaryName mode.tag] := by
    rcases FileTree.prefix_or_of_prefix_append hys with hys | ⟨zs, hzs, rfl, hbegins⟩
    · exact absurd (hys.trans (List.prefix_append e.way [e.name])) hne
    · rw [FileTree.eq_singleton_of_isPrefix hzs hbegins]
  refine get?_sync_of_not_prefix htag ht ha env m (fun hys ↦ ?_) (fun hys ↦ ?_) h.temporary.2.2
  · obtain ⟨hway, hnames⟩ := List.append_inj' (hbegins hys h.temporary.1) rfl
    have hname := Path.temporaryName_injective mode.tag (List.cons.inj hnames).1
    exact h.target.1 (by rw [hway, hname])
  · exact h.temporary.2.2 (hbegins hys h.target.1 ▸ List.prefix_rfl)

/-- On the way of the other an entry makes directories at most. -/
theorem get?_onTheWay (h : a.Clear mode.tag e) (htag : '/' ∉ mode.tag.toList)
    (ht : Anchored t base D) (ha : a.IsPlain) (env : Environment) (m : Manifest) (hxs : xs <+: e.way)
    (hne : (a.sync env m mode t base).files.get? (D ++ xs) ≠ t.get? (D ++ xs)) :
    t.get? (D ++ xs) = none ∧ (a.sync env m mode t base).files.get? (D ++ xs) = some .directory := by
  have hxs' := hxs.trans (List.prefix_append e.way [e.name])
  rcases sync_changes htag ht ha env m hne with (heq | heq) | ⟨-, hmade⟩
  · exact absurd (List.append_cancel_left heq ▸ hxs') h.temporary.1
  · exact absurd (List.append_cancel_left heq ▸ hxs') h.target.1
  · exact hmade

end Clear

end Entry

namespace Independent

variable {tag : String} {es : List Entry} {a e : Entry}

theorem clear (h : Independent tag es) (htag : '/' ∉ tag.toList) (ha : a ∈ es) (he : e ∈ es)
    (hne : a ≠ e) : a.Clear tag e := by
  have hplain := h.plain a ha
  have hplain' := h.plain e he
  have hsymm : Std.Symm fun a b : Entry ↦ Path.Apart ⟨a.target⟩ ⟨b.target⟩ := ⟨fun _ _ h ↦ ⟨h.2, h.1⟩⟩
  have htargets := h.targets.forall ha he hne
  obtain ⟨q, hq, hsteps⟩ := hplain.exists_temporary? htag
  obtain ⟨q', hq', hsteps'⟩ := hplain'.exists_temporary? htag
  have htemplate := h.templates a ha e he
  have htemporary := h.temporaries a ha q hq e he
  have htemporary' := (h.temporaries e he q' hq' a ha).2
  rw [Path.Apart, hplain.target.steps_eq, hplain'.target.steps_eq, a.segments_target,
    e.segments_target] at htargets
  rw [Path.Apart, hplain.target.steps_eq, hplain'.template.steps_eq, a.segments_target] at htemplate
  rw [hsteps, hplain'.template.steps_eq, hplain'.target.steps_eq, e.segments_target] at htemporary
  rw [hsteps', hplain.target.steps_eq, a.segments_target] at htemporary'
  exact ⟨htargets, htemplate, htemporary.2, htemporary.1, htemporary'⟩

/-- No entry is there twice. -/
theorem nodup (h : Independent tag es) : es.Nodup :=
  h.targets.imp fun {a b} hab (heq : a = b) ↦ hab.1 (heq ▸ List.prefix_rfl)

theorem clear_last (h : Independent tag (es ++ [e])) (htag : '/' ∉ tag.toList) (ha : a ∈ es) :
    a.Clear tag e :=
  h.clear htag (List.mem_append_left _ ha) List.mem_concat_self
    ((List.nodup_append.1 h.nodup).2.2 a ha e (List.mem_singleton_self e))

end Independent

/-! ### Runs of independent entries -/

namespace Program

variable {a e : Entry} {env : Environment} {m : Manifest} {mode : WriteMode} {files t u : FileTree}
  {base : Path} {D l : Location} {tag : String} {es es' : List Entry} {alone : Entry → FileTree}

/-- What entries do in one tree, if each does what it does alone: what one of them changes is as that one leaves
it, and all else is as it was. -/
def Joint (alone : Entry → FileTree) (files : FileTree) (es : List Entry) (t : FileTree) : Prop :=
  ∀ l, (t.get? l = files.get? l ∧ ∀ e ∈ es, (alone e).get? l = files.get? l) ∨
    ∃ e ∈ es, (alone e).get? l ≠ files.get? l ∧ t.get? l = (alone e).get? l

namespace Joint

theorem nil (alone : Entry → FileTree) (files : FileTree) : Joint alone files [] files :=
  fun _ ↦ Or.inl ⟨rfl, fun _ h ↦ absurd h List.not_mem_nil⟩

/-- What no entry changes is as it was. -/
theorem get?_eq (h : Joint alone files es t) (hl : ∀ e ∈ es, (alone e).get? l = files.get? l) :
    t.get? l = files.get? l := by
  rcases h l with ⟨hsame, -⟩ | ⟨e, he, hne, -⟩
  · exact hsame
  · exact absurd (hl e he) hne

end Joint

/-- After others an entry finds its files as at the beginning. -/
theorem meets_of_joint (htag : '/' ∉ mode.tag.toList) (ht : Entry.Anchored files base D)
    (hplain : ∀ a ∈ es, a.IsPlain) (hclear : ∀ a ∈ es, a.Clear mode.tag e) (hu : u.WellFormed)
    (hkeeps : KeepsDirectories files u)
    (hjoint : Joint (fun a ↦ (a.sync env m mode files base).files) files es u) :
    e.Meets mode.tag D files u where
  wellFormed := hu
  template := hjoint.get?_eq fun a ha ↦ (hclear a ha).get?_template htag ht (hplain a ha) env m
  follows := by
    refine ⟨hkeeps, fun xs hxs ↦ ?_, fun n hn ↦ ?_⟩
    · rcases hjoint (D ++ xs) with ⟨hsame, -⟩ | ⟨a, ha, hne, heq⟩
      · exact Or.inl hsame
      · obtain ⟨hnone, hdir⟩ := (hclear a ha).get?_onTheWay htag ht (hplain a ha) env m hxs hne
        exact Or.inr ⟨hnone, heq.trans hdir⟩
    · refine hjoint.get?_eq fun a ha ↦ ?_
      rcases hn with rfl | rfl
      · exact (hclear a ha).get?_temporary htag ht (hplain a ha) env m
      · exact (hclear a ha).get?_target htag ht (hplain a ha) env m

/-- One more entry does what it does alone. -/
theorem Joint.append (htag : '/' ∉ mode.tag.toList) (ht : Entry.Anchored files base D)
    (hplain : ∀ a ∈ es, a.IsPlain) (hclear : ∀ a ∈ es, a.Clear mode.tag e)
    (hjoint : Joint (fun a ↦ (a.sync env m mode files base).files) files es t)
    (hfares : ∀ l, Fares D e.way (e.temporaryName mode.tag) e.name files (e.sync env m mode files base).files
      t u l) :
    Joint (fun a ↦ (a.sync env m mode files base).files) files (es ++ [e]) u := by
  intro l
  -- where the entries before changed nothing, it is up to the last one
  have hlast (hall : ∀ a ∈ es, (a.sync env m mode files base).files.get? l = files.get? l)
      (hu : u.get? l = (e.sync env m mode files base).files.get? l) :
      (u.get? l = files.get? l ∧
          ∀ a ∈ es ++ [e], (a.sync env m mode files base).files.get? l = files.get? l) ∨
        ∃ a ∈ es ++ [e], (a.sync env m mode files base).files.get? l ≠ files.get? l ∧
          u.get? l = (a.sync env m mode files base).files.get? l := by
    by_cases hsame : (e.sync env m mode files base).files.get? l = files.get? l
    · exact Or.inl ⟨hu.trans hsame, List.forall_mem_append.2 ⟨hall, List.forall_mem_singleton.2 hsame⟩⟩
    · exact Or.inr ⟨e, List.mem_concat_self, hsame, hu⟩
  cases hfares l with
  | same hsame hu =>
    rcases hjoint l with ⟨hl, hall⟩ | ⟨a, ha, hne, heq⟩
    · exact hlast hall (hu.trans (hl.trans hsame.symm))
    · exact Or.inr ⟨a, List.mem_append_left _ ha, hne, hu.trans heq⟩
  | file hl hu =>
    refine hlast (fun a ha ↦ ?_) hu
    rcases hl with rfl | rfl
    · exact (hclear a ha).get?_temporary htag ht (hplain a ha) env m
    · exact (hclear a ha).get?_target htag ht (hplain a ha) env m
  | directory hl hfile hdir hu =>
    rcases hjoint l with ⟨-, hall⟩ | ⟨a, ha, hne, -⟩
    · exact hlast hall (hu.trans hdir.symm)
    · obtain ⟨xs, -, hxs, rfl⟩ := hl
      have hmade := ((hclear a ha).get?_onTheWay htag ht (hplain a ha) env m hxs hne).2
      exact Or.inr ⟨a, List.mem_append_left _ ha, hne, hu.trans hmade.symm⟩

theorem syncAll_append (env : Environment) (m : Manifest) (mode : WriteMode) (base : Path)
    (files : FileTree) (es : List Entry) (e : Entry) :
    syncAll env m mode base files (es ++ [e]) =
      (syncAll env m mode base files es).add env m mode base e := by
  rw [syncAll, List.foldl_append]
  rfl

/-- After entries that ran, whatever is there lies in a directory and no directory is gone; each of them told
what it tells alone; and together they did what each does alone. -/
structure RanAlone (env : Environment) (m : Manifest) (mode : WriteMode) (files : FileTree) (base : Path)
    (es : List Entry) (p : Progress) : Prop where
  wellFormed : p.files.WellFormed
  keepsDirectories : KeepsDirectories files p.files
  synced : p.synced = es.map fun e ↦ ⟨e, (e.sync env m mode files base).result⟩
  joint : Joint (fun e ↦ (e.sync env m mode files base).files) files es p.files

/-- **Independent entries that run one after the other do what each of them does alone.** -/
theorem ranAlone_syncAll (htag : '/' ∉ mode.tag.toList) (ht : Entry.Anchored files base D)
    (h : Independent mode.tag es) (env : Environment) (m : Manifest) :
    RanAlone env m mode files base es (syncAll env m mode base files es) := by
  induction es using List.reverseRecOn with
  | nil => exact ⟨ht.wellFormed, ⟨rfl, fun _ h ↦ h⟩, rfl, .nil _ files⟩
  | append_singleton es e ih =>
    obtain ⟨hwf, hkeeps, hsynced, hjoint⟩ := ih (h.sublist (List.sublist_append_left es [e]))
    have hplain (a : Entry) (ha : a ∈ es) : a.IsPlain := h.plain a (List.mem_append_left _ ha)
    have hclear (a : Entry) (ha : a ∈ es) : a.Clear mode.tag e := h.clear_last htag ha
    have he : e.IsPlain := h.plain e List.mem_concat_self
    have hmeets : e.Meets mode.tag D files (syncAll env m mode base files es).files :=
      meets_of_joint htag ht hplain hclear hwf hkeeps hjoint
    obtain ⟨hresult, hfares⟩ := Entry.sync_transfer env m htag ht he hmeets
    obtain ⟨hwf', hkeeps'⟩ := Entry.sync_wellFormed (ht.of_keepsDirectories hwf hkeeps) he env m mode
    rw [syncAll_append, Progress.add]
    refine ⟨hwf', hkeeps.trans hkeeps', ?_, hjoint.append htag ht hplain hclear hfares⟩
    rw [hsynced, hresult, List.map_append]
    rfl

/-- Entries that leave all files alone all find the files of the beginning. -/
theorem syncAll_of_files_eq (h : ∀ e ∈ es, (e.sync env m mode files base).files = files) :
    (syncAll env m mode base files es).files = files ∧
      (syncAll env m mode base files es).synced =
        es.map fun e ↦ ⟨e, (e.sync env m mode files base).result⟩ := by
  induction es using List.reverseRecOn with
  | nil => exact ⟨rfl, rfl⟩
  | append_singleton es e ih =>
    obtain ⟨hfiles, hsynced⟩ := ih fun a ha ↦ h a (List.mem_append_left _ ha)
    rw [syncAll_append, Progress.add, hfiles, hsynced, List.map_append]
    exact ⟨h e List.mem_concat_self, rfl⟩

/-- Seen from a base that is no directory, an entry misses its template. -/
theorem files_sync_of_enter_eq_error {c : Storage.Cause}
    (hbase : files.enter (files.start base) base.steps = .error c) (he : e.IsPlain) :
    (e.sync env m mode files base).files = files := by
  have hmissing := FileTree.contains_join_eq_false hbase he.template
  rw [Entry.sync_of_error (Entry.draft_of_contains_eq_false hmissing)]

/-- Two entries that change the same do the same there: both make a directory. -/
theorem get?_sync_eq_of_ne (htag : '/' ∉ mode.tag.toList) (hwf : files.WellFormed)
    (h : Independent mode.tag es) (ha : a ∈ es) (he : e ∈ es)
    (hane : (a.sync env m mode files base).files.get? l ≠ files.get? l)
    (hene : (e.sync env m mode files base).files.get? l ≠ files.get? l) :
    (a.sync env m mode files base).files.get? l = (e.sync env m mode files base).files.get? l := by
  cases hbase : files.enter (files.start base) base.steps with
  | error c => exact absurd (by rw [files_sync_of_enter_eq_error hbase (h.plain a ha)]) hane
  | ok D =>
    have ht : Entry.Anchored files base D := ⟨hwf, hbase⟩
    by_cases heq : a = e
    · rw [heq]
    · have hdir {a e : Entry} (ha : a ∈ es) (he : e ∈ es) (heq : a ≠ e)
          (hane : (a.sync env m mode files base).files.get? l ≠ files.get? l)
          (hene : (e.sync env m mode files base).files.get? l ≠ files.get? l) :
          (a.sync env m mode files base).files.get? l = some .directory := by
        have hclear := h.clear htag he ha heq.symm
        rcases Entry.sync_changes htag ht (h.plain a ha) env m hane with (rfl | rfl) | ⟨-, -, hdir⟩
        · exact absurd (hclear.get?_temporary htag ht (h.plain e he) env m) hene
        · exact absurd (hclear.get?_target htag ht (h.plain e he) env m) hene
        · exact hdir
      rw [hdir ha he heq hane hene, hdir he ha (Ne.symm heq) hene hane]

/-- **Independent entries do what each of them does alone**, wherever their paths are seen from. -/
theorem syncAll_alone (htag : '/' ∉ mode.tag.toList) (hwf : files.WellFormed)
    (h : Independent mode.tag es) (env : Environment) (m : Manifest) (base : Path) :
    (syncAll env m mode base files es).synced =
        es.map (fun e ↦ ⟨e, (e.sync env m mode files base).result⟩) ∧
      Joint (fun e ↦ (e.sync env m mode files base).files) files es
        (syncAll env m mode base files es).files := by
  cases hbase : files.enter (files.start base) base.steps with
  | ok D =>
    have hran := ranAlone_syncAll htag ⟨hwf, hbase⟩ h env m
    exact ⟨hran.synced, hran.joint⟩
  | error c =>
    have halone (e : Entry) (he : e ∈ es) : (e.sync env m mode files base).files = files :=
      files_sync_of_enter_eq_error hbase (h.plain e he)
    obtain ⟨hfiles, hsynced⟩ := syncAll_of_files_eq halone
    exact ⟨hsynced, fun l ↦ Or.inl ⟨by rw [hfiles], fun e he ↦ by dsimp only; rw [halone e he]⟩⟩

/-- What entries do together depends on what they do alone, not on their order. -/
theorem Joint.get?_eq_get? (h : Joint alone files es t) (h' : Joint alone files es' u)
    (hmem : ∀ e ∈ es, (alone e).get? l ≠ files.get? l → e ∈ es')
    (hmem' : ∀ e ∈ es', (alone e).get? l ≠ files.get? l → e ∈ es)
    (hsame : ∀ a ∈ es, ∀ e ∈ es, (alone a).get? l ≠ files.get? l → (alone e).get? l ≠ files.get? l →
      (alone a).get? l = (alone e).get? l) : t.get? l = u.get? l := by
  rcases h l with ⟨hl, hall⟩ | ⟨a, ha, hane, hl⟩
  · refine hl.trans (h'.get?_eq fun e he ↦ ?_).symm
    by_contra hne
    exact hne (hall e (hmem' e he hne))
  · rcases h' l with ⟨-, hall⟩ | ⟨e, he, hene, hl'⟩
    · exact absurd (hall a (hmem a ha hane)) hane
    · rw [hl, hl', hsame a ha e (hmem' e he hene) hane hene]

end Program

/-! ### Failures of writing -/

/-- Whether the failure is that a file cannot be written. -/
def Failure.isWriting : Failure → Bool
  | .fault (.makeDirectory _ _) | .fault (.makeTemporary _ _) => true
  | .fault (.writeTemporary _ _) | .fault (.replace _ _) => true
  | .misuse (.invalidTargetPath _) => true
  | _ => false

namespace Storage.FileTree

variable {t : FileTree} {p temporary : Path} {tag text : String} {f : Failure}
  {trouble : Path → String → Option Cause}

theorem isWriting_of_makeParents (h : (t.makeParents p).1 = .error f) : f.isWriting = true := by
  rw [makeParents] at h
  split at h
  · cases h
  · split at h
    · cases h
    · split at h
      · cases h
      · rw [← Except.error.inj h]
        rfl

theorem isWriting_of_exchange (h : (t.exchange trouble temporary p text).1 = .error f) :
    f.isWriting = true := by
  rw [exchange] at h
  split at h
  · rw [← Except.error.inj h]
    rfl
  · split at h
    · rw [← Except.error.inj h]
      rfl
    · split at h
      · cases h
      · rw [← Except.error.inj h]
        rfl

theorem isWriting_of_replace (h : (t.replace trouble tag p text).1 = .error f) : f.isWriting = true := by
  rw [replace] at h
  cases hmade : t.makeParents p with
  | mk r made =>
    rw [hmade] at h
    cases r with
    | error g =>
      obtain rfl := Except.error.inj h
      exact isWriting_of_makeParents (congrArg Prod.fst hmade)
    | ok _ =>
      dsimp only at h
      split at h
      · exact isWriting_of_exchange h
      · rw [← Except.error.inj h]
        rfl

end Storage.FileTree

/-- An entry whose file can be written, if it comes to that, tells what was drafted. -/
theorem Entry.result_sync_eq_draft {e : Entry} {env : Environment} {m : Manifest} {mode : WriteMode}
    {files : FileTree} {base : Path}
    (h : ∀ f, (e.sync env m mode files base).result = .error f → f.isWriting = false) :
    (e.sync env m mode files base).result = e.draft env m files base := by
  have hran := e.ran_sync env m mode files base
  generalize (e.sync env m mode files base).result = result,
    (e.sync env m mode files base).files = after at hran h ⊢
  cases hran with
  | failed hdraft => exact hdraft.symm
  | idle hdraft _ => exact hdraft.symm
  | written hdraft _ _ _ => exact hdraft.symm
  | @unwritten d f after _ _ _ hreplace =>
    have hwriting : f.isWriting = true := FileTree.isWriting_of_replace (congrArg Prod.fst hreplace)
    rw [h f rfl] at hwriting
    cases hwriting

namespace Program

variable {e : Entry} {env : Environment} {m : Manifest} {mode : WriteMode} {files : FileTree} {base : Path}
  {f : Failure}

/-- What an entry leaves alone is the same without it. -/
theorem get?_syncAll_filter (htag : '/' ∉ mode.tag.toList) (hwf : files.WellFormed)
    (h : Independent mode.tag m.entries) {l : Location}
    (hl : (e.sync env m mode files base).files.get? l = files.get? l) :
    (syncAll env m mode base files m.entries).files.get? l =
      (syncAll env m mode base files (m.entries.filter (· ≠ e))).files.get? l := by
  obtain ⟨-, hall⟩ := syncAll_alone htag hwf h env m base
  obtain ⟨-, hothers⟩ := syncAll_alone htag hwf (h.sublist List.filter_sublist) env m base
  refine hall.get?_eq_get? hothers (fun a ha hne ↦ List.mem_filter.2 ⟨ha, ?_⟩)
    (fun a ha _ ↦ List.mem_of_mem_filter ha)
    fun a ha b hb hane hbne ↦ get?_sync_eq_of_ne htag hwf h ha hb hane hbne
  exact decide_eq_true fun heq ↦ hne (heq ▸ hl)

/-- **What a failing entry changes besides**: a directory more may be there, and where its temporary file would be
there is nothing. -/
theorem get?_syncAll_of_failed (htag : '/' ∉ mode.tag.toList) (hwf : files.WellFormed)
    (h : Independent mode.tag m.entries) (he : e ∈ m.entries)
    (hf : (e.sync env m mode files base).result = .error f) (l : Location) :
    let all := (syncAll env m mode base files m.entries).files
    let others := (syncAll env m mode base files (m.entries.filter (· ≠ e))).files
    all.get? l = others.get? l ∨ others.get? l = none ∧ all.get? l = some .directory ∨
      all.get? l = none ∧
        ∃ q ∈ temporary? mode.tag (base.join e.target), (e.sync env m mode files base).files.Leads q l := by
  intro all others
  by_cases hl : (e.sync env m mode files base).files.get? l = files.get? l
  · exact Or.inl (get?_syncAll_filter htag hwf h hl)
  · obtain ⟨-, hall⟩ := syncAll_alone htag hwf h env m base
    obtain ⟨-, hothers⟩ := syncAll_alone htag hwf (h.sublist List.filter_sublist) env m base
    -- whoever changes something there does what the failing entry does
    have hsame {a : Entry} (ha : a ∈ m.entries)
        (hane : (a.sync env m mode files base).files.get? l ≠ files.get? l) :
        (a.sync env m mode files base).files.get? l = (e.sync env m mode files base).files.get? l :=
      get?_sync_eq_of_ne htag hwf h ha he hane hl
    have hall' : all.get? l = (e.sync env m mode files base).files.get? l := by
      rcases hall l with ⟨-, hnone⟩ | ⟨a, ha, hane, hnew⟩
      · exact absurd (hnone e he) hl
      · exact hnew.trans (hsame ha hane)
    rcases hothers l with ⟨hold, -⟩ | ⟨a, ha, hane, hnew⟩
    · rcases e.get?_sync env m mode files base l with heq | hmade | ⟨q, hq, hleads, hnone⟩ | ⟨d, hd, -⟩
      · exact absurd heq hl
      · exact Or.inr (Or.inl ⟨hold.trans hmade.before, hall'.trans hmade.after⟩)
      · exact Or.inr (Or.inr ⟨hall'.trans hnone, q, hq, hleads⟩)
      · cases hf.symm.trans hd
    · exact Or.inl (hall'.trans ((hsame (List.mem_of_mem_filter ha) hane).symm.trans hnew.symm))

/-- The files of the others read the same without an entry. -/
theorem readDocument?_syncAll_filter (htag : '/' ∉ mode.tag.toList) (hwf : files.WellFormed)
    (h : Independent mode.tag m.entries) {a : Entry} (he : e ∈ m.entries) (ha : a ∈ m.entries)
    (hne : a ≠ e) :
    (syncAll env m mode base files m.entries).files.readDocument? (base.join a.target) =
      (syncAll env m mode base files (m.entries.filter (· ≠ e))).files.readDocument?
        (base.join a.target) := by
  have hothers := h.sublist (List.filter_sublist (p := fun x ↦ decide (x ≠ e)))
  cases hbase : files.enter (files.start base) base.steps with
  | error c =>
    rw [(syncAll_of_files_eq fun x hx ↦ files_sync_of_enter_eq_error hbase (h.plain x hx)).1,
      (syncAll_of_files_eq fun x hx ↦ files_sync_of_enter_eq_error hbase (hothers.plain x hx)).1]
  | ok D =>
    have ht : Entry.Anchored files base D := ⟨hwf, hbase⟩
    have hrun := ranAlone_syncAll htag ht h env m
    have hrun' := ranAlone_syncAll htag ht hothers env m
    have hplain := (h.plain a ha).target
    refine hrun'.wellFormed.readDocument?_congr hrun.wellFormed
      (FileTree.below_join (ht.of_keepsDirectories hrun'.wellFormed hrun'.keepsDirectories).enter hplain
        a.segments_target)
      (FileTree.below_join (ht.of_keepsDirectories hrun.wellFormed hrun.keepsDirectories).enter hplain
        a.segments_target) ?_
    exact get?_syncAll_filter htag hwf h
      ((h.clear htag he ha hne.symm).get?_target htag ht (h.plain e he) env m)

/-- **Independent entries do not affect each other.** In any order each of them tells what it tells alone, and
the same is everywhere in the end. Of a selection each entry tells what it tells in the run of all. If no file
fails to be written, a dry run tells the same. Without an entry that fails the others tell the same and
their files are the same, and of all else too, but for directories, and for nothing at the place of its
temporary file. -/
theorem syncAll_independent (env : Environment) (m : Manifest) (mode : WriteMode) (base : Path)
    (files : FileTree) (hwf : files.WellFormed) (htag : '/' ∉ mode.tag.toList)
    (h : Independent mode.tag m.entries) :
    let all := syncAll env m mode base files m.entries
    (∀ es, es.Perm m.entries →
      (syncAll env m mode base files es).synced =
          es.map (fun e ↦ ⟨e, (e.sync env m mode files base).result⟩) ∧
        ∀ l, (syncAll env m mode base files es).files.get? l = all.files.get? l) ∧
    (∀ target es, select m (some target) = .ok es →
      (syncAll env m mode base files es).synced = all.synced.filter (·.entry.target == target)) ∧
    ((∀ s ∈ all.synced, ∀ f, s.result = .error f → f.isWriting = false) →
      (syncAll env m ⟨true, mode.tag⟩ base files m.entries).synced = all.synced) ∧
    ∀ e f, ⟨e, .error f⟩ ∈ all.synced →
      let others := syncAll env m mode base files (m.entries.filter (· ≠ e))
      others.synced = all.synced.filter (·.entry ≠ e) ∧
        (∀ a ∈ m.entries, a ≠ e → all.files.readDocument? (base.join a.target) =
          others.files.readDocument? (base.join a.target)) ∧
        ∀ l, all.files.get? l = others.files.get? l ∨
          others.files.get? l = none ∧ all.files.get? l = some .directory ∨
          all.files.get? l = none ∧ ∃ q ∈ temporary? mode.tag (base.join e.target),
            (e.sync env m mode files base).files.Leads q l := by
  intro all
  obtain ⟨hsynced, hjoint⟩ := syncAll_alone htag hwf h env m base
  refine ⟨fun es hes ↦ ?_, fun target es hes ↦ ?_, fun hwritten ↦ ?_, fun e f hef ↦ ?_⟩
  · obtain ⟨hsynced', hjoint'⟩ := syncAll_alone htag hwf (h.perm hes) env m base
    refine ⟨hsynced', fun l ↦ hjoint'.get?_eq_get? hjoint (fun a ha _ ↦ hes.subset ha)
      (fun a ha _ ↦ hes.symm.subset ha) fun a ha b hb ↦ ?_⟩
    exact get?_sync_eq_of_ne htag hwf h (hes.subset ha) (hes.subset hb)
  · have hselected : es = m.entries.filter (·.target == target) := by
      rw [select] at hes
      split at hes
      · cases hes
      · exact (Except.ok.inj hes).symm
    rw [hsynced, hselected, (syncAll_alone htag hwf (h.sublist List.filter_sublist) env m base).1,
      List.filter_map]
    rfl
  · rw [(syncAll_of_dryRun rfl m.entries).2, hsynced]
    refine List.map_congr_left fun e he ↦ ?_
    rw [Entry.result_sync_eq_draft fun f hf ↦ hwritten ⟨e, .error f⟩ ?_ f rfl]
    exact hsynced ▸ List.mem_map.2 ⟨e, he, by rw [hf]⟩
  · rw [hsynced, List.mem_map] at hef
    obtain ⟨e, he, heq⟩ := hef
    obtain ⟨rfl, hf⟩ := Synced.mk.inj heq
    refine ⟨?_, fun a ha hne ↦ readDocument?_syncAll_filter htag hwf h he ha hne,
      get?_syncAll_of_failed htag hwf h he hf⟩
    rw [(syncAll_alone htag hwf (h.sublist List.filter_sublist) env m base).1, hsynced, List.filter_map]
    rfl

/-- Two files in one directory that is not there yet, and between them an entry without a template. -/
theorem syncAll_independent_sample :
    let m : Manifest :=
      ⟨true, ∅, [⟨"tpl", "out/a", "w", ∅⟩, ⟨"none", "b", "w", ∅⟩, ⟨"tpl", "out/c", "w", ∅⟩]⟩
    let mode : WriteMode := ⟨false, "1"⟩
    let files : FileTree := ⟨[], [(["tpl"], .file "x\n".toUTF8)]⟩
    let run := fun es ↦ syncAll .calm m mode ⟨"."⟩ files es
    files.WellFormed ∧ '/' ∉ mode.tag.toList ∧ Independent mode.tag m.entries ∧
      (∀ l, (run m.entries.reverse).files.get? l = (run m.entries).files.get? l) ∧
      (∃ es, select m (some "out/c") = .ok es ∧
        (run es).synced = (run m.entries).synced.filter (·.entry.target == "out/c")) ∧
      (syncAll .calm m ⟨true, "1"⟩ ⟨"."⟩ files m.entries).synced = (run m.entries).synced ∧
      ∃ e f, ⟨e, .error f⟩ ∈ (run m.entries).synced ∧
        (run (m.entries.filter (· ≠ e))).synced = (run m.entries).synced.filter (·.entry ≠ e) := by
  intro m mode files run
  have hwf : files.WellFormed := FileTree.wellFormed_of_entries (by decide +kernel)
  have htag : '/' ∉ mode.tag.toList := by decide +kernel
  have hindependent : Independent mode.tag m.entries := by decide +kernel
  obtain ⟨horder, hselect, hdry, hfailed⟩ :=
    syncAll_independent .calm m mode ⟨"."⟩ files hwf htag hindependent
  have hselected : select m (some "out/c") = .ok [⟨"tpl", "out/c", "w", ∅⟩] :=
    eq_ok_of_toOption (by decide +kernel)
  have hnone : (⟨"none", "b", "w", ∅⟩ : Entry).draft .calm m files ⟨"."⟩ =
      .error (.misuse (.missingTemplate "none" "b")) :=
    Entry.draft_of_contains_eq_false (by decide +kernel)
  have hfailing : ⟨⟨"none", "b", "w", ∅⟩, .error (.misuse (.missingTemplate "none" "b"))⟩ ∈
      (run m.entries).synced := by
    refine (horder m.entries (.refl _)).1 ▸ List.mem_map.2 ⟨⟨"none", "b", "w", ∅⟩, by decide, ?_⟩
    rw [Entry.sync_of_error hnone]
  have hwritten : ((run m.entries).synced.filterMap Synced.failure?).all (!·.isWriting) = true := by
    decide +kernel
  refine ⟨hwf, htag, hindependent, (horder _ (List.reverse_perm m.entries)).2,
    ⟨_, hselected, hselect _ _ hselected⟩, hdry fun s hs f hf ↦ ?_, _, _, hfailing,
    (hfailed _ _ hfailing).1⟩
  have hfailure : s.failure? = some f := by rw [Synced.failure?, hf]
  simpa using List.all_eq_true.1 hwritten f (List.mem_filterMap.2 ⟨s, hs, hfailure⟩)

end Program

end WorkflowAreas
