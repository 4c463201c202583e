import WorkflowAreas.Proofs.Storage.Sibling

/-!
# What replacing a file changes

A replacement can fail at many points, some of them after directories were made or the temporary file was
written. `get?_replace` tells for every location what may have become of it in the end, however the
replacement went: nothing, or a directory was made on the way to the file, or a file in the place of the
temporary one is gone, or the file has its new bytes and the replacement came to an end.

* `AddsDirectories` is the relation between the trees before and after directories were made, closed under
  composition;
* `Exchanged.get?` is the same for the temporary file and the file.
-/

namespace WorkflowAreas

/-- The directories that enclose a path, the nearest first. -/
def Path.parents (p : Path) : List Path :=
  match p.parent? with
  | some parent => parent.withParents
  | none => []

namespace Storage.FileTree

variable {t u v : FileTree} {p : Path} {paths paths' : List Path} {k l : Location}

/-! ### Making directories -/

/-- A directory was made where nothing was, and one of these paths names it. -/
structure MadeOnTheWay (paths : List Path) (t u : FileTree) (l : Location) : Prop where
  before : t.get? l = none
  after : u.get? l = some .directory
  named : ∃ q ∈ paths, u.locate q = .ok l

/-- The second tree is the first one with directories added that these paths name. -/
structure AddsDirectories (paths : List Path) (t u : FileTree) : Prop where
  workingDirectory : u.workingDirectory = t.workingDirectory
  get? : ∀ l, u.get? l = t.get? l ∨ MadeOnTheWay paths t u l

theorem MadeOnTheWay.mono (h : MadeOnTheWay paths t u l) (hsub : paths ⊆ paths') :
    MadeOnTheWay paths' t u l :=
  ⟨h.before, h.after, h.named.imp fun _ hq ↦ ⟨hsub hq.1, hq.2⟩⟩

/-- What was made on the way is named so as long as directories are kept. -/
theorem MadeOnTheWay.of_keepsDirectories (h : MadeOnTheWay paths t u l) (hk : KeepsDirectories u v) :
    MadeOnTheWay paths t v l := by
  have hdir : u.hasDirectory l = true := hasDirectory_iff.2 h.after
  obtain ⟨q, hq, hlocate⟩ := h.named
  exact ⟨h.before, hasDirectory_iff.1 (hk.hasDirectory l hdir), q, hq, hk.walk hlocate hdir⟩

namespace AddsDirectories

theorem refl (paths : List Path) (t : FileTree) : AddsDirectories paths t t :=
  ⟨rfl, fun _ ↦ Or.inl rfl⟩

theorem mono (h : AddsDirectories paths t u) (hsub : paths ⊆ paths') : AddsDirectories paths' t u :=
  ⟨h.workingDirectory, fun l ↦ (h.get? l).imp_right (·.mono hsub)⟩

theorem keepsDirectories (h : AddsDirectories paths t u) : KeepsDirectories t u := by
  refine ⟨h.workingDirectory, fun l hl ↦ ?_⟩
  rcases h.get? l with hsame | hmade
  · rw [hasDirectory, hsame]
    exact hl
  · exact hasDirectory_iff.2 hmade.after

theorem trans (h : AddsDirectories paths t u) (h' : AddsDirectories paths u v) :
    AddsDirectories paths t v := by
  refine ⟨h'.workingDirectory.trans h.workingDirectory, fun l ↦ ?_⟩
  rcases h.get? l with hsame | hmade
  · exact (h'.get? l).imp hsame.subst fun hmade' ↦
      ⟨hsame.symm.trans hmade'.before, hmade'.after, hmade'.named⟩
  · exact Or.inr (hmade.of_keepsDirectories h'.keepsDirectories)

end AddsDirectories

/-- Segments that lead nowhere else stay in a directory. -/
theorem foldlM_step_of_not_isStep {segments : List String} (hl : t.hasDirectory l = true)
    (h : ∀ segment ∈ segments, Path.isStep segment = false) : segments.foldlM t.step l = .ok l := by
  induction segments with
  | nil => rfl
  | cons segment segments ih =>
    have hstep : t.step l segment = .ok l :=
      step_eq_ok_iff.2 ⟨hl, Or.inl ⟨h segment List.mem_cons_self, rfl⟩⟩
    rw [List.foldlM_cons, hstep]
    exact ih fun s hs ↦ h s (List.mem_cons_of_mem segment hs)

/-- **What making a directory does**: it is where nothing was, and the path names it. -/
theorem addsDirectories_makeDirectory (h : t.makeDirectory p = .ok u) : AddsDirectories [p] t u := by
  rw [makeDirectory] at h
  obtain ⟨place, hplace, h⟩ := bind_eq_ok_iff.1 h
  obtain ⟨l, hl, h⟩ := bind_eq_ok_iff.1 h
  split at h
  · cases h
  · rename_i hsome
    obtain rfl := Except.ok.inj h
    have hnone : t.get? l = none := by simpa using hsome
    have hno : t.hasDirectory l = false := by rw [hasDirectory, hnone]
    have hput (k : Location) :
        (t.put l .directory).get? k = if k = l then some .directory else t.get? k :=
      get?_put (ne_nil_of_hasDirectory_eq_false hno)
    refine ⟨rfl, fun k ↦ ?_⟩
    by_cases hk : k = l
    · refine Or.inr ⟨by rw [hk, hnone], by rw [hput, if_pos hk], p, List.mem_singleton_self p, ?_⟩
      obtain ⟨before, name, after, directory, hsegments, hslashes, -, hwalk, hdir, hname, rfl⟩ :=
        location?_of_place hplace hl
      have hkeeps : KeepsDirectories t (t.put (directory ++ [name]) .directory) := .put hno _
      have hmade := hput (directory ++ [name])
      rw [if_pos rfl] at hmade
      have hstep : (t.put (directory ++ [name]) .directory).step directory name =
          .ok (directory ++ [name]) :=
        step_eq_ok_iff.2 ⟨hkeeps.hasDirectory directory hdir,
          Or.inr (Or.inr ⟨hname, by rw [hmade, Option.isSome_some], rfl⟩)⟩
      rw [locate, hsegments, hk]
      refine walk_append (hkeeps.walk hwalk hdir) ?_
      rw [List.foldlM_cons, hstep]
      exact foldlM_step_of_not_isStep (hasDirectory_iff.2 hmade)
        fun s hs ↦ by rw [hslashes s hs]; rfl
    · rw [hput, if_neg hk]
      exact Or.inl rfl

/-- **Making directories one in the other** adds some of them, and those stay if another one cannot be
made. -/
theorem addsDirectories_makeDirectories (t : FileTree) (paths : List Path) :
    AddsDirectories paths t (t.makeDirectories paths).2 := by
  induction paths generalizing t with
  | nil => exact .refl [] t
  | cons p parents ih =>
    have hfirst {t u : FileTree} (h : t.makeDirectory p = .ok u) : AddsDirectories (p :: parents) t u :=
      (addsDirectories_makeDirectory h).mono (List.cons_subset.2 ⟨List.mem_cons_self, List.nil_subset _⟩)
    have hrest : AddsDirectories (p :: parents) t (t.makeDirectories parents).2 :=
      (ih t).mono (List.subset_cons_self p parents)
    rw [makeDirectories]
    split
    · exact .refl _ t
    · dsimp only
      split
      · exact hfirst ‹_›
      · split
        · rename_i made hmade
          rw [hmade] at hrest
          split
          · exact hrest.trans (hfirst ‹_›)
          · exact hrest
        · exact hrest
      · exact .refl _ t

/-- The directories that are made on the way to a path enclose it. -/
theorem addsDirectories_makeParents (t : FileTree) (p : Path) :
    AddsDirectories p.parents t (t.makeParents p).2 := by
  rw [makeParents, Path.parents]
  cases p.parent? with
  | none => exact .refl [] t
  | some parent =>
    have hmade := t.addsDirectories_makeDirectories parent.withParents
    dsimp only
    split
    · exact .refl _ t
    · split
      · rename_i heq
        rw [heq] at hmade
        exact hmade
      · rename_i heq
        rw [heq] at hmade
        exact hmade

/-! ### Exchanging -/

namespace Exchanged

variable {temporary : Path} {bytes : ByteArray} {r : Except Failure Unit}

theorem keepsDirectories (h : t.Exchanged temporary p bytes r u) : KeepsDirectories t u := by
  cases h with
  | refused f => exact ⟨rfl, fun _ hl ↦ hl⟩
  | undone f hk hdir => exact (KeepsDirectories.put hdir _).trans (.erase (hasDirectory_put_file hdir))
  | done hk hdir hl hldir =>
    exact (KeepsDirectories.put hdir _).trans (.put_erase (hasDirectory_put_file hdir) hldir _)

/-- **What an exchange may change**: in the place of the temporary file nothing is left, and the file has
its bytes if the exchange came to an end. -/
theorem get? (h : t.Exchanged temporary p bytes r u) (j : Location) :
    u.get? j = t.get? j ∨ (u.Leads temporary j ∧ u.get? j = none) ∨
      (r = .ok () ∧ u.Leads p j ∧ u.get? j = some (.file bytes)) := by
  have hkeeps := h.keepsDirectories
  cases h with
  | refused f => exact Or.inl rfl
  | @undone f k hk hdir =>
    have hne : k ≠ [] := ne_nil_of_hasDirectory_eq_false hdir
    rw [get?_erase_put hne]
    by_cases hj : j = k
    · rw [hj, if_pos rfl]
      exact Or.inr (Or.inl ⟨hk.of_keepsDirectories hkeeps, rfl⟩)
    · rw [if_neg hj]
      exact Or.inl rfl
  | @done k l hk hdir hl hldir =>
    have hne : k ≠ [] := ne_nil_of_hasDirectory_eq_false hdir
    rw [get?_put (ne_nil_of_hasDirectory_eq_false hldir), get?_erase_put hne]
    by_cases hjl : j = l
    · rw [hjl, if_pos rfl]
      exact Or.inr (Or.inr ⟨rfl,
        hl.of_keepsDirectories (.put_erase (hasDirectory_put_file hdir) hldir _), rfl⟩)
    · rw [if_neg hjl]
      by_cases hj : j = k
      · rw [hj, if_pos rfl]
        exact Or.inr (Or.inl ⟨hk.of_keepsDirectories hkeeps, rfl⟩)
      · rw [if_neg hj]
        exact Or.inl rfl

end Exchanged

/-- **What replacing a file may change**, however it goes. -/
theorem get?_replace {trouble : Path → String → Option Cause} {tag text : String}
    {r : Except Failure Unit} (h : t.replace trouble tag p text = (r, u)) (l : Location) :
    u.get? l = t.get? l ∨ MadeOnTheWay p.parents t u l ∨
      (∃ temporary ∈ temporary? tag p, u.Leads temporary l ∧ u.get? l = none) ∨
      (r = .ok () ∧ u.Leads p l ∧ u.get? l = some (.file text.toUTF8)) := by
  have hparents := t.addsDirectories_makeParents p
  rcases t.replace_cases trouble tag p text with ⟨f, hf⟩ | ⟨temporary, htemporary, hexchanged⟩
  · obtain ⟨-, rfl⟩ := Prod.mk.inj (hf.symm.trans h)
    exact (hparents.get? l).imp_right Or.inl
  · rw [h] at hexchanged
    rcases hexchanged.get? l with hsame | hgone | hdone
    · rw [hsame]
      exact (hparents.get? l).imp_right fun hmade ↦
        Or.inl (hmade.of_keepsDirectories hexchanged.keepsDirectories)
    · exact Or.inr (Or.inr (Or.inl ⟨temporary, htemporary, hgone⟩))
    · exact Or.inr (Or.inr (Or.inr hdone))

end Storage.FileTree

end WorkflowAreas
