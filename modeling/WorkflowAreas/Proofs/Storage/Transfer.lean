import WorkflowAreas.Proofs.Storage.Paving

/-!
# Replacing a file in two trees

A replacement looks at the directories on the way to its file, at the file and at its temporary file, and at
nothing else. `WellFormed.replace_transfer`: in two trees that agree there it comes to the same result and
does the same, location by location (`Fares`). The trees need not agree on the way: the second one may have
directories where the first one has nothing (`Follows`), since those would be made anyway.

* `Below.exchange_eq` is the closed form of an exchange, in terms of the two locations it asks for;
* `WellFormed.replace` says that everything still lies in a directory.
-/

namespace WorkflowAreas.Storage.FileTree

open WorkflowAreas.Path (temporaryName)

variable {t t' u u' v : FileTree} {p q temporary : Path} {way xs ys : List String}
  {name s tag text : String} {D l m : Location} {c : Cause} {bytes : ByteArray} {content : Content}
  {trouble : Path → String → Option Cause}

/-! ### Room for a file -/

/-- The location for a file below a directory, unless a directory is there. -/
def room (t : FileTree) (D : Location) (p : Path) (way : List String) (name : String) :
    Except Cause Location := do
  let l ← t.spot D p way name
  if t.hasDirectory l then throw .isADirectory else return l

theorem Below.room_eq_ok (h : t.Below D p way name) (hl : t.room D p way name = .ok l) :
    l = D ++ (way ++ [name]) ∧ t.hasDirectory l = false := by
  rw [room] at hl
  obtain ⟨k, hk, hl⟩ := bind_eq_ok_iff.1 hl
  split at hl
  · cases hl
  · rename_i hdir
    obtain rfl := Except.ok.inj hl
    refine ⟨?_, by simpa using hdir⟩
    rw [spot] at hk
    split at hk
    · cases hk
    · obtain ⟨j, hj, hk⟩ := bind_eq_ok_iff.1 hk
      split at hk
      · cases hk
      · obtain rfl := eq_append_of_enter (fun s hs ↦ h.plain s (List.mem_append_left _ hs)) hj
        rw [← Except.ok.inj hk, List.append_assoc]

theorem Below.writeFile_eq_map (h : t.Below D p way name) (bytes : ByteArray) :
    t.writeFile p bytes = (t.room D p way name).map fun l ↦ t.put l (.file bytes) := by
  rw [h.writeFile_eq, room]
  cases t.spot D p way name with
  | error c => rfl
  | ok l =>
    rw [ok_bind, ok_bind]
    split
    · rfl
    · rfl

theorem Below.moveFile_eq_map (h : t.Below D p way name) {source : Path}
    (hl : t.locate source = .ok l) (hfile : t.get? l = some (.file bytes)) :
    t.moveFile source p =
      (t.room D p way name).map fun m ↦ (t.erase l).put m (.file bytes) := by
  rw [h.moveFile_eq hl hfile, room]
  cases t.spot D p way name with
  | error c => rfl
  | ok l =>
    rw [ok_bind, ok_bind]
    split
    · rfl
    · rfl

/-- **What an exchange below a directory does**: two locations are asked for, one after the other. -/
theorem Below.exchange_eq (trouble : Path → String → Option Cause)
    (htemporary : t.Below D temporary way s) (h : t.Below D p way name) (text : String) :
    t.exchange trouble temporary p text =
      match t.room D temporary way s with
      | .error c => (.error (.fault (.makeTemporary temporary.text c)), t)
      | .ok k =>
        match trouble temporary text, (t.put k (.file text.toUTF8)).room D p way name with
        | some c, _ =>
          (.error (.fault (.writeTemporary temporary.text c)), (t.put k (.file text.toUTF8)).erase k)
        | none, .error c =>
          (.error (.fault (.replace p.text c)), (t.put k (.file text.toUTF8)).erase k)
        | none, .ok m => (.ok (), ((t.put k (.file text.toUTF8)).erase k).put m (.file text.toUTF8)) := by
  have hwrite := htemporary.writeFile_eq_map text.toUTF8
  rw [exchange, hwrite]
  cases hk : t.room D temporary way s with
  | error c => rfl
  | ok k =>
    rw [hk] at hwrite
    obtain ⟨k', hleads, hdir, hput⟩ := writeFile_eq_ok hwrite
    obtain rfl : k = k' :=
      (Prod.mk.inj (List.cons.inj (congrArg FileTree.entries hput)).1).1
    have hfile : (t.put k (.file text.toUTF8)).get? k = some (.file text.toUTF8) := by
      rw [get?_put (ne_nil_of_hasDirectory_eq_false hdir), if_pos rfl]
    have hkeeps : KeepsDirectories t (t.put k (.file text.toUTF8)) := .put hdir _
    have hlocate : (t.put k (.file text.toUTF8)).locate temporary = .ok k :=
      (hleads.of_keepsDirectories hkeeps).locate (by rw [hfile, Option.isSome_some])
    have hremove : (t.put k (.file text.toUTF8)).removeFile temporary =
        (t.put k (.file text.toUTF8)).erase k := by
      simp only [removeFile, hlocate, hasDirectory_put_file hdir, Bool.false_eq_true, if_false]
    dsimp only [Except.map]
    rw [(h.of_keepsDirectories hkeeps).moveFile_eq_map hlocate hfile, hremove]
    cases trouble temporary text with
    | some c => rfl
    | none => cases (t.put k (.file text.toUTF8)).room D p way name <;> rfl

/-! ### Trees that agree on a way -/

theorem hasDirectory_congr (h : u.get? l = t.get? l) : u.hasDirectory l = t.hasDirectory l := by
  rw [hasDirectory, hasDirectory, h]

theorem enter_congr (hplain : ∀ s ∈ way, Path.isStep s = true ∧ s ≠ "..")
    (h : ∀ xs, xs <+: way → u.get? (D ++ xs) = t.get? (D ++ xs)) :
    u.enter D way = t.enter D way := by
  have hD : u.hasDirectory D = t.hasDirectory D :=
    hasDirectory_congr (by simpa using h [] List.nil_prefix)
  induction way generalizing D with
  | nil => simp only [enter, List.foldlM_nil, pure_bind, hD]
  | cons s way ih =>
    obtain ⟨⟨hs, hup⟩, hway⟩ := List.forall_mem_cons.1 hplain
    have hfirst : u.get? (D ++ [s]) = t.get? (D ++ [s]) := h [s] (List.prefix_append [s] way)
    have hstep : u.step D s = t.step D s := by rw [step, step, hD, hfirst]
    have hrest (xs : List String) (hxs : xs <+: way) :
        u.get? (D ++ [s] ++ xs) = t.get? (D ++ [s] ++ xs) := by
      rw [List.append_assoc]
      exact h ([s] ++ xs) (by simpa using hxs)
    rw [enter_cons, enter_cons, hstep]
    cases hm : t.step D s with
    | error c => rfl
    | ok m =>
      obtain ⟨-, ⟨hnot, -⟩ | ⟨hdots, -⟩ | ⟨-, -, rfl⟩⟩ := step_eq_ok_iff.1 hm
      · simp [hs] at hnot
      · exact absurd hdots hup
      · exact ih hway hrest (hasDirectory_congr hfirst)

theorem room_congr (hplain : ∀ s ∈ way ++ [name], Path.isStep s = true ∧ s ≠ "..")
    (h : ∀ xs, xs <+: way ++ [name] → u.get? (D ++ xs) = t.get? (D ++ xs)) :
    u.room D p way name = t.room D p way name := by
  have hway : ∀ s ∈ way, Path.isStep s = true ∧ s ≠ ".." :=
    fun s hs ↦ hplain s (List.mem_append_left _ hs)
  have henter : u.enter D way = t.enter D way :=
    enter_congr hway fun xs hxs ↦ h xs (hxs.trans (List.prefix_append way [name]))
  have hend : u.hasDirectory (D ++ way ++ [name]) = t.hasDirectory (D ++ way ++ [name]) :=
    hasDirectory_congr (by rw [List.append_assoc]; exact h _ List.prefix_rfl)
  rw [room, room, spot, spot, henter]
  cases refusal? p with
  | some c => rfl
  | none =>
    dsimp only
    cases hl : t.enter D way with
    | error c => rfl
    | ok l =>
      obtain rfl := eq_append_of_enter hway hl
      rw [ok_bind]
      split
      · rfl
      · rw [pure_bind, pure_bind, hend]

/-- How a location fares when a file is replaced in two trees: it is left alone in both, or it belongs to the
file or its temporary file and ends the same, or a directory is there in the end. -/
inductive Fares (D : Location) (way : List String) (s name : String) (t t' u u' : FileTree)
    (l : Location) : Prop
  | same : t'.get? l = t.get? l → u'.get? l = u.get? l → Fares D way s name t t' u u' l
  | file : l = D ++ (way ++ [s]) ∨ l = D ++ (way ++ [name]) → u'.get? l = t'.get? l →
      Fares D way s name t t' u u' l
  | directory : (∃ xs, xs ≠ [] ∧ xs <+: way ∧ l = D ++ xs) → t.hasFile l = false →
      t'.get? l = some .directory → u'.get? l = some .directory → Fares D way s name t t' u u' l

/-- What is left alone afterwards fares no worse. -/
theorem Fares.of_eq {v v' : FileTree} (h : Fares D way s name t t' u u' l) (hv : v.get? l = t'.get? l)
    (hv' : v'.get? l = u'.get? l) : Fares D way s name t v u v' l := by
  cases h with
  | same h h' => exact .same (hv.trans h) (hv'.trans h')
  | file hl h => exact .file hl (hv'.trans (h.trans hv.symm))
  | directory hl hfile h h' => exact .directory hl hfile (hv.trans h) (hv'.trans h')

/-- **An exchange does the same in trees that agree on the way** to both files. -/
theorem Below.exchange_transfer (htemporary : t.Below D temporary way s) (h : t.Below D p way name)
    (htemporary' : u.Below D temporary way s) (h' : u.Below D p way name)
    (hagree : ∀ n xs, n = s ∨ n = name → xs <+: way ++ [n] → u.get? (D ++ xs) = t.get? (D ++ xs))
    (text : String) :
    (u.exchange trouble temporary p text).1 = (t.exchange trouble temporary p text).1 ∧
      ∀ l, Fares D way s name t (t.exchange trouble temporary p text).2 u
        (u.exchange trouble temporary p text).2 l := by
  have hroom : u.room D temporary way s = t.room D temporary way s :=
    room_congr htemporary.plain fun xs ↦ hagree s xs (Or.inl rfl)
  rw [htemporary.exchange_eq trouble h, htemporary'.exchange_eq trouble h', hroom]
  cases hk : t.room D temporary way s with
  | error c => exact ⟨rfl, fun l ↦ .same rfl rfl⟩
  | ok k =>
    obtain ⟨hkl, hdir⟩ := htemporary.room_eq_ok hk
    have hne : k ≠ [] := ne_nil_of_hasDirectory_eq_false hdir
    have hroom' : (u.put k (.file text.toUTF8)).room D p way name =
        (t.put k (.file text.toUTF8)).room D p way name := by
      refine room_congr h.plain fun xs hxs ↦ ?_
      rw [get?_put hne, get?_put hne, hagree name xs (Or.inr rfl) hxs]
    -- a temporary file that was made and removed is the same loss in both
    have hundone (l : Location) : Fares D way s name t ((t.put k (.file text.toUTF8)).erase k) u
        ((u.put k (.file text.toUTF8)).erase k) l := by
      by_cases hl : l = k
      · refine .file (Or.inl (hl.trans hkl)) ?_
        rw [get?_erase_put hne, get?_erase_put hne, if_pos hl, if_pos hl]
      · refine .same ?_ ?_
        all_goals rw [get?_erase_put hne, if_neg hl]
    dsimp only
    rw [hroom']
    cases trouble temporary text with
    | some c => exact ⟨rfl, hundone⟩
    | none =>
      cases hm : (t.put k (.file text.toUTF8)).room D p way name with
      | error c => exact ⟨rfl, hundone⟩
      | ok m =>
        obtain ⟨hml, hmdir⟩ := (h.of_keepsDirectories (.put hdir _)).room_eq_ok hm
        have hmne : m ≠ [] := ne_nil_of_hasDirectory_eq_false hmdir
        refine ⟨rfl, fun l ↦ ?_⟩
        by_cases hl : l = m
        · refine .file (Or.inr (hl.trans hml)) ?_
          rw [get?_put hmne, get?_put hmne, if_pos hl, if_pos hl]
        · by_cases hlk : l = k
          · refine .file (Or.inl (hlk.trans hkl)) ?_
            rw [get?_put hmne, get?_put hmne, if_neg hl, if_neg hl, get?_erase_put hne,
              get?_erase_put hne, if_pos hlk, if_pos hlk]
          · refine .same ?_ ?_
            all_goals rw [get?_put hmne, if_neg hl, get?_erase_put hne, if_neg hlk]

/-! ### Trees that agree but for directories on the way -/

/-- The second tree agrees with the first one where a file and its temporary file are, but there may be
directories on the way where nothing was. -/
structure Follows (t u : FileTree) (D : Location) (way : List String) (s name : String) : Prop where
  keepsDirectories : KeepsDirectories t u
  onTheWay : ∀ xs, xs <+: way → u.get? (D ++ xs) = t.get? (D ++ xs) ∨
    t.get? (D ++ xs) = none ∧ u.get? (D ++ xs) = some .directory
  atTheEnd : ∀ n, n = s ∨ n = name → u.get? (D ++ (way ++ [n])) = t.get? (D ++ (way ++ [n]))

namespace Follows

theorem refl (t : FileTree) (D : Location) (way : List String) (s name : String) :
    Follows t t D way s name :=
  ⟨⟨rfl, fun _ h ↦ h⟩, fun _ _ ↦ Or.inl rfl, fun _ _ ↦ rfl⟩

theorem hasFile_eq (h : Follows t u D way s name) (hxs : xs <+: way) :
    u.hasFile (D ++ xs) = t.hasFile (D ++ xs) := by
  rcases h.onTheWay xs hxs with hsame | ⟨hnone, hdir⟩
  · rw [hasFile, hasFile, hsame]
  · rw [hasFile, hasFile, hnone, hdir]

theorem obstacle?_eq (h : Follows t u D way s name) (hxs : xs <+: way) :
    u.obstacle? D xs = t.obstacle? D xs :=
  obstacle?_congr fun _ _ hys ↦ h.hasFile_eq (hys.trans hxs)

theorem verdictOnParents_eq (h : Follows t u D way s name) (q : Path) :
    u.verdictOnParents D way q = t.verdictOnParents D way q := by
  rw [verdictOnParents, verdictOnParents, h.hasFile_eq List.prefix_rfl, h.obstacle?_eq List.prefix_rfl]

/-- Making the directories of the way does the same in both trees. -/
theorem fares (h : Follows t u D way s name) (hys : ys <+: way) (ht : Paved t D ys t')
    (hu : Paved u D ys u') (l : Location) : Fares D way s name t t' u u' l := by
  by_cases hl : ∃ xs, xs ≠ [] ∧ xs <+: ys ∧ t.obstacle? D xs = none ∧ l = D ++ xs
  · obtain ⟨xs, hne, hxs, hnone, rfl⟩ := hl
    have hnone' := (h.obstacle?_eq (hxs.trans hys)).trans hnone
    exact .directory ⟨xs, hne, hxs.trans hys, rfl⟩
      (hasFile_of_obstacle?_eq_none hnone List.prefix_rfl hne) (ht.made xs hne hxs hnone)
      (hu.made xs hne hxs hnone')
  · refine .same (ht.kept l fun xs hne hxs hnone heq ↦ hl ⟨xs, hne, hxs, hnone, heq⟩)
      (hu.kept l fun xs hne hxs hnone heq ↦ hl ⟨xs, hne, hxs, ?_, heq⟩)
    rw [← h.obstacle?_eq (hxs.trans hys), hnone]

/-- Where the directories of the way are made, or its end is a file, the two trees agree. -/
theorem get?_eq_of_verdictOnParents (h : Follows t u D way s name) (hwf : t.WellFormed)
    (hD : t.hasDirectory D = true) (hok : t.verdictOnParents D way q = .ok ())
    (ht : Paved t D way t') (hu : Paved u D way u') {n : String} (hn : n = s ∨ n = name)
    (hxs : xs <+: way ++ [n]) : u'.get? (D ++ xs) = t'.get? (D ++ xs) := by
  -- what is not made on the way is as it was
  have hkept (hno : ∀ ys, ys <+: way → t.obstacle? D ys = none → xs ≠ ys)
      (hsame : u.get? (D ++ xs) = t.get? (D ++ xs)) : u'.get? (D ++ xs) = t'.get? (D ++ xs) := by
    rw [ht.kept, hu.kept, hsame]
    · exact fun ys _ hys hnone heq ↦
        hno ys hys ((h.obstacle?_eq hys).symm.trans hnone) (List.append_cancel_left heq)
    · exact fun ys _ hys hnone heq ↦ hno ys hys hnone (List.append_cancel_left heq)
  rcases prefix_or_of_prefix_append hxs with hxs | ⟨zs, hne, rfl, hzs⟩
  · cases hnone : t.obstacle? D xs with
    | none =>
      by_cases hnil : xs = []
      · rw [hnil, List.append_nil, hasDirectory_iff.1 (ht.keepsDirectories.hasDirectory D hD),
          hasDirectory_iff.1 ((h.keepsDirectories.trans hu.keepsDirectories).hasDirectory D hD)]
      · rw [ht.made xs hnil hxs hnone,
          hu.made xs hnil hxs ((h.obstacle?_eq hxs).trans hnone)]
    | some c =>
      have hsome := hwf.isSome_of_obstacle? hok hxs hnone
      refine hkept (fun ys hys hfree heq ↦ ?_) ?_
      · rw [heq, hfree] at hnone
        cases hnone
      · rcases h.onTheWay xs hxs with hsame | ⟨hempty, -⟩
        · exact hsame
        · rw [hempty] at hsome
          cases hsome
  · refine hkept (fun ys hys _ heq ↦ ?_) ?_
    · have hlength := hys.length_le
      rw [← heq, List.length_append] at hlength
      exact hne (List.length_eq_zero_iff.1 (by omega))
    · rw [eq_singleton_of_isPrefix hne hzs]
      exact h.atTheEnd n hn

end Follows

/-- **Replacing a file does the same in trees that agree but for directories on the way.** -/
theorem WellFormed.replace_transfer (ht : t.WellFormed) (hu : u.WellFormed)
    (h : t.Below D p way name) (htag : '/' ∉ tag.toList)
    (hf : Follows t u D way (temporaryName tag name) name) (text : String) :
    (u.replace trouble tag p text).1 = (t.replace trouble tag p text).1 ∧
      ∀ l, Fares D way (temporaryName tag name) name t (t.replace trouble tag p text).2 u
        (u.replace trouble tag p text).2 l := by
  have hu' := h.of_keepsDirectories hf.keepsDirectories
  obtain ⟨before, hends, -⟩ := h.exists_endsIn
  obtain ⟨q, hq, -⟩ := hends.exists_parent?
  obtain ⟨temporary, htemporary, hbelow⟩ := h.exists_temporary? htag
  obtain ⟨hresult, hpaved⟩ := ht.makeParents_eq h hq
  obtain ⟨hresult', hpaved'⟩ := hu.makeParents_eq hu' hq
  rw [hf.verdictOnParents_eq, ← hresult] at hresult'
  have hfares := hf.fares (by split; exacts [List.nil_prefix, List.prefix_rfl]) hpaved hpaved'
  rw [replace, replace, htemporary]
  generalize t.makeParents p = made at *
  generalize u.makeParents p = made' at *
  obtain ⟨r, t'⟩ := made
  obtain ⟨r', u'⟩ := made'
  dsimp only at *
  subst hresult'
  cases r' with
  | error f => exact ⟨rfl, hfares⟩
  | ok _ =>
    rw [(verdictOnParents_eq_ok hresult.symm).1] at hpaved hpaved'
    have hagree (n : String) (xs : List String) (hn : n = temporaryName tag name ∨ n = name)
        (hxs : xs <+: way ++ [n]) : u'.get? (D ++ xs) = t'.get? (D ++ xs) :=
      hf.get?_eq_of_verdictOnParents ht h.hasDirectory hresult.symm hpaved hpaved' hn hxs
    have hkeeps := hpaved.keepsDirectories
    have hkeeps' := hf.keepsDirectories.trans hpaved'.keepsDirectories
    obtain ⟨hsame, hexchange⟩ := (hbelow.of_keepsDirectories hkeeps).exchange_transfer
      (h.of_keepsDirectories hkeeps) (hbelow.of_keepsDirectories hkeeps')
      (h.of_keepsDirectories hkeeps') hagree text
    refine ⟨hsame, fun l ↦ ?_⟩
    cases hexchange l with
    | same hl hl' => exact (hfares l).of_eq hl hl'
    | file hl hl' => exact .file hl hl'
    | directory hl hfile hdir hdir' => exact .directory hl (by rw [← hpaved.hasFile_eq, hfile]) hdir hdir'

/-! ### What a replacement keeps -/

theorem WellFormed.put_file (hwf : t.WellFormed) (hl : t.Leads p l) (hdir : t.hasDirectory l = false) :
    (t.put l (.file bytes)).WellFormed := by
  have hkeeps : KeepsDirectories t (t.put l (.file bytes)) := .put hdir _
  intro k name hsome
  refine hkeeps.hasDirectory k ?_
  rw [get?_put (ne_nil_of_hasDirectory_eq_false hdir)] at hsome
  split at hsome
  · rename_i heq
    obtain ⟨_, _, directory, -, -, hparent, -, rfl⟩ := hl
    rwa [(List.append_inj' heq rfl).1]
  · exact hwf k name hsome

theorem WellFormed.erase (hwf : t.WellFormed) (hdir : t.hasDirectory l = false) : (t.erase l).WellFormed := by
  have hkeeps : KeepsDirectories t (t.erase l) := .erase hdir
  intro k name hsome
  refine hkeeps.hasDirectory k (hwf k name ?_)
  rw [get?_erase (ne_nil_of_hasDirectory_eq_false hdir)] at hsome
  split at hsome
  · cases hsome
  · exact hsome

theorem Exchanged.wellFormed {r : Except Failure Unit} (h : t.Exchanged temporary p bytes r u)
    (hwf : t.WellFormed) : u.WellFormed := by
  cases h with
  | refused f => exact hwf
  | undone f hk hdir => exact (hwf.put_file hk hdir).erase (hasDirectory_put_file hdir)
  | @done k l hk hdir hl hldir =>
    have hfile : (t.put k (.file bytes)).hasDirectory k = false := hasDirectory_put_file hdir
    have hkeeps : KeepsDirectories (t.put k (.file bytes)) ((t.put k (.file bytes)).erase k) := .erase hfile
    exact ((hwf.put_file hk hdir).erase hfile).put_file (hl.of_keepsDirectories hkeeps)
      (hasDirectory_erase hfile hldir)

/-- After a replacement whatever is there lies in a directory, and no directory is gone. -/
theorem WellFormed.replace (hwf : t.WellFormed) (h : t.Below D p way name)
    (trouble : Path → String → Option Cause) (tag text : String) :
    (t.replace trouble tag p text).2.WellFormed ∧ KeepsDirectories t (t.replace trouble tag p text).2 := by
  obtain ⟨before, hends, -⟩ := h.exists_endsIn
  obtain ⟨q, hq, -⟩ := hends.exists_parent?
  obtain ⟨-, hpaved⟩ := hwf.makeParents_eq h hq
  have hmade := hpaved.wellFormed hwf h.hasDirectory
  rcases t.replace_cases trouble tag p text with ⟨f, hf⟩ | ⟨temporary, -, hexchanged⟩
  · rw [hf]
    exact ⟨hmade, hpaved.keepsDirectories⟩
  · exact ⟨hexchanged.wellFormed hmade, hpaved.keepsDirectories.trans hexchanged.keepsDirectories⟩

end WorkflowAreas.Storage.FileTree
