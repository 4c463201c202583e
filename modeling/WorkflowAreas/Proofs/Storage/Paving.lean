import WorkflowAreas.Proofs.Storage.Descent

/-!
# Directories on the way

The directories on the way to a file are made from the last one up, as far as they are missing, and then down
again. What comes of that can be told from above: they are made up to the first obstacle, a file or a name that
is too long, and the obstacle is the cause of the failure (`WellFormed.paved_makeDirectories`).

* `obstacle?` is the first obstacle on a way;
* `Paved` relates the trees before and after. Nothing of it depends on which directories were there before;
* `WellFormed.makeParents_eq` is the same for the parents of a path, where a file at the end of the way is
  taken for a directory and it is left to later steps to fail.
-/

namespace WorkflowAreas.Storage.FileTree

open WorkflowAreas.Path (temporaryName)

variable {t u v : FileTree} {p q : Path} {way xs ys names : List String} {name s tag : String}
  {D l m : Location} {c : Cause} {fuel : Nat}

/-- A beginning of two lists in a row ends in the first, or begins the second. -/
theorem prefix_or_of_prefix_append (h : xs <+: way ++ ys) :
    xs <+: way ∨ ∃ zs, zs ≠ [] ∧ xs = way ++ zs ∧ zs <+: ys := by
  rcases List.prefix_or_prefix_of_prefix h (List.prefix_append way ys) with hxs | ⟨zs, rfl⟩
  · exact Or.inl hxs
  · by_cases hzs : zs = []
    · rw [hzs, List.append_nil]
      exact Or.inl List.prefix_rfl
    · exact Or.inr ⟨zs, hzs, rfl, (List.prefix_append_right_inj way).1 h⟩

theorem eq_singleton_of_isPrefix (hne : xs ≠ []) (h : xs <+: [s]) : xs = [s] := by
  obtain ⟨x, rest, rfl⟩ := List.exists_cons_of_ne_nil hne
  obtain ⟨rfl, hrest⟩ := List.cons_prefix_cons.1 h
  rw [List.prefix_nil.1 hrest]

/-! ### Obstacles -/

/-- Whether a file is at a location. -/
def hasFile (t : FileTree) (l : Location) : Bool :=
  match t.get? l with
  | some (.file _) => true
  | _ => false

/-- The first thing that keeps directories from being made one in the other: a name that is too long, or a
file. -/
def obstacle? (t : FileTree) (D : Location) : List String → Option Cause
  | [] => none
  | s :: way =>
    if longestName < s.utf8ByteSize then some .nameTooLong
    else if t.hasFile (D ++ [s]) then some .notADirectory
    else t.obstacle? (D ++ [s]) way

theorem hasFile_eq_false (h : t.hasDirectory l = true) : t.hasFile l = false := by
  rw [hasFile, hasDirectory_iff.1 h]

theorem get?_eq_none (hfile : t.hasFile l = false) (hdir : t.hasDirectory l = false) :
    t.get? l = none := by
  rw [hasFile] at hfile
  rw [hasDirectory] at hdir
  cases h : t.get? l with
  | none => rfl
  | some content => cases content <;> simp_all

theorem isSome_of_hasFile (h : t.hasFile l = true) : (t.get? l).isSome = true := by
  rw [hasFile] at h
  split at h
  · rw [‹t.get? l = _›]
    rfl
  · cases h

theorem obstacle?_append (xs ys : List String) :
    t.obstacle? D (xs ++ ys) = (t.obstacle? D xs).or (t.obstacle? (D ++ xs) ys) := by
  induction xs generalizing D with
  | nil => simp [obstacle?]
  | cons s xs ih =>
    rw [List.cons_append, obstacle?, obstacle?]
    split
    · rfl
    · split
      · rfl
      · rw [ih, List.append_assoc, List.singleton_append]

theorem obstacle?_eq_none_of_isPrefix (hxs : xs <+: ys) (h : t.obstacle? D ys = none) :
    t.obstacle? D xs = none := by
  obtain ⟨zs, rfl⟩ := hxs
  rw [obstacle?_append, Option.or_eq_none_iff] at h
  exact h.1

theorem hasFile_of_obstacle?_eq_none (h : t.obstacle? D way = none) (hxs : xs <+: way) (hne : xs ≠ []) :
    t.hasFile (D ++ xs) = false := by
  obtain ⟨init, s, rfl⟩ := (List.eq_nil_or_concat' xs).resolve_left hne
  have hnone := obstacle?_eq_none_of_isPrefix hxs h
  rw [obstacle?_append, Option.or_eq_none_iff, obstacle?] at hnone
  by_contra hfile
  rw [Bool.not_eq_false, ← List.append_assoc] at hfile
  rw [if_pos hfile] at hnone
  split at hnone
  · cases hnone.2
  · cases hnone.2

/-- Obstacles are the same where the same files are. -/
theorem obstacle?_congr (h : ∀ xs, xs ≠ [] → xs <+: way → t.hasFile (D ++ xs) = u.hasFile (D ++ xs)) :
    t.obstacle? D way = u.obstacle? D way := by
  induction way generalizing D with
  | nil => rfl
  | cons s way ih =>
    have hs : t.hasFile (D ++ [s]) = u.hasFile (D ++ [s]) :=
      h [s] (List.cons_ne_nil s []) (List.prefix_append [s] way)
    rw [obstacle?, obstacle?, hs, ih fun xs _ hxs ↦ ?_]
    rw [List.append_assoc]
    exact h ([s] ++ xs) (by simp) (by simpa using hxs)

/-- **Why a way cannot be gone**: something is missing, or there is an obstacle. -/
theorem enter_cases (hD : t.hasDirectory D = true)
    (hplain : ∀ s ∈ way, Path.isStep s = true ∧ s ≠ "..") :
    t.enter D way = .ok (D ++ way) ∧ t.obstacle? D way = none ∨ t.enter D way = .error .notFound ∨
      ∃ c, c ≠ .notFound ∧ t.enter D way = .error c ∧ t.obstacle? D way = some c := by
  induction way generalizing D with
  | nil => exact Or.inl ⟨by rw [enter_nil hD, List.append_nil], rfl⟩
  | cons s way ih =>
    obtain ⟨⟨hs, hup⟩, hway⟩ := List.forall_mem_cons.1 hplain
    rw [enter_cons, step, obstacle?, hD]
    simp only [hs, hup, Bool.not_true, Bool.false_eq_true, if_false]
    split
    · exact Or.inr (Or.inr ⟨.nameTooLong, by decide, rfl, rfl⟩)
    · split
      · rename_i hsome
        cases hdir : t.hasDirectory (D ++ [s]) with
        | true =>
          have hrest := ih hdir hway
          rw [List.append_assoc, List.singleton_append] at hrest
          rw [hasFile_eq_false hdir, if_neg Bool.false_ne_true, ok_bind]
          exact hrest
        | false =>
          have hfile : t.hasFile (D ++ [s]) = true := by
            by_contra hno
            rw [get?_eq_none (by simpa using hno) hdir] at hsome
            cases hsome
          rw [hfile, if_pos rfl, ok_bind, enter_of_not_hasDirectory hdir]
          exact Or.inr (Or.inr ⟨.notADirectory, by decide, rfl, rfl⟩)
      · exact Or.inr (Or.inl rfl)

/-- Where nothing is missing, there are directories up to the first obstacle. -/
theorem hasDirectory_of_isPrefix (hD : t.hasDirectory D = true)
    (hplain : ∀ s ∈ way, Path.isStep s = true ∧ s ≠ "..") (h : t.enter D way ≠ .error .notFound)
    (hxs : xs <+: way) (hnone : t.obstacle? D xs = none) : t.hasDirectory (D ++ xs) = true := by
  obtain ⟨ys, rfl⟩ := hxs
  have hplain' : ∀ s ∈ xs, Path.isStep s = true ∧ s ≠ ".." :=
    fun s hs ↦ hplain s (List.mem_append_left _ hs)
  rcases enter_cases hD hplain' with ⟨henter, -⟩ | henter | ⟨c, -, -, hsome⟩
  · exact hasDirectory_of_enter henter
  · rw [enter_append, henter] at h
    exact absurd rfl h
  · rw [hnone] at hsome
    cases hsome

/-! ### Paved ways -/

/-- The second tree is the first one with the directories that can be made along a way, up to the first
obstacle. -/
structure Paved (t : FileTree) (D : Location) (way : List String) (u : FileTree) : Prop where
  workingDirectory : u.workingDirectory = t.workingDirectory
  made : ∀ xs, xs ≠ [] → xs <+: way → t.obstacle? D xs = none → u.get? (D ++ xs) = some .directory
  kept : ∀ l, (∀ xs, xs ≠ [] → xs <+: way → t.obstacle? D xs = none → l ≠ D ++ xs) →
    u.get? l = t.get? l

namespace Paved

/-- A location was made along the way, or it is as it was. -/
theorem get?_cases (h : Paved t D way u) (l : Location) :
    (∃ xs, xs ≠ [] ∧ xs <+: way ∧ t.obstacle? D xs = none ∧ l = D ++ xs ∧
      u.get? l = some .directory) ∨ u.get? l = t.get? l := by
  by_cases hl : ∃ xs, xs ≠ [] ∧ xs <+: way ∧ t.obstacle? D xs = none ∧ l = D ++ xs
  · obtain ⟨xs, hne, hxs, hnone, rfl⟩ := hl
    exact Or.inl ⟨xs, hne, hxs, hnone, rfl, h.made xs hne hxs hnone⟩
  · exact Or.inr (h.kept l fun xs hne hxs hnone heq ↦ hl ⟨xs, hne, hxs, hnone, heq⟩)

theorem keepsDirectories (h : Paved t D way u) : KeepsDirectories t u := by
  refine ⟨h.workingDirectory, fun l hl ↦ ?_⟩
  rcases h.get?_cases l with ⟨_, _, _, _, _, hmade⟩ | hsame
  · exact hasDirectory_iff.2 hmade
  · rw [hasDirectory, hsame]
    exact hl

theorem hasFile_eq (h : Paved t D way u) (l : Location) : u.hasFile l = t.hasFile l := by
  rcases h.get?_cases l with ⟨xs, hne, _, hnone, rfl, hmade⟩ | hsame
  · rw [hasFile_of_obstacle?_eq_none hnone List.prefix_rfl hne, hasFile, hmade]
  · rw [hasFile, hsame, hasFile]

theorem obstacle?_eq (h : Paved t D way u) (l : Location) (ys : List String) :
    u.obstacle? l ys = t.obstacle? l ys :=
  obstacle?_congr fun _ _ _ ↦ h.hasFile_eq _

theorem wellFormed (h : Paved t D way u) (hwf : t.WellFormed) (hD : t.hasDirectory D = true) :
    u.WellFormed := by
  intro l name hsome
  rcases h.get?_cases (l ++ [name]) with ⟨xs, hne, hxs, hnone, heq, -⟩ | hsame
  · obtain ⟨init, s, rfl⟩ := (List.eq_nil_or_concat' xs).resolve_left hne
    rw [← List.append_assoc] at heq
    rw [(List.append_inj' heq rfl).1]
    have hinit : init <+: init ++ [s] := List.prefix_append init [s]
    by_cases hnil : init = []
    · rw [hnil, List.append_nil]
      exact h.keepsDirectories.hasDirectory D hD
    · exact hasDirectory_iff.2 (h.made init hnil (hinit.trans hxs) (obstacle?_eq_none_of_isPrefix hinit hnone))
  · rw [hsame] at hsome
    exact h.keepsDirectories.hasDirectory l (hwf l name hsome)

/-- Where nothing is missing, nothing is made. -/
theorem refl (hD : t.hasDirectory D = true) (hplain : ∀ s ∈ way, Path.isStep s = true ∧ s ≠ "..")
    (h : t.enter D way ≠ .error .notFound) : Paved t D way t :=
  ⟨rfl, fun _ _ hxs hnone ↦ hasDirectory_iff.1 (hasDirectory_of_isPrefix hD hplain h hxs hnone),
    fun _ _ ↦ rfl⟩

/-- Where the way goes on after an obstacle, nothing more is made. -/
theorem append_of_obstacle? (h : Paved t D way u) (hsome : t.obstacle? D way = some c) (ys : List String) :
    Paved t D (way ++ ys) u := by
  have hshort (xs : List String) (hxs : xs <+: way ++ ys) (hnone : t.obstacle? D xs = none) :
      xs <+: way := by
    rcases prefix_or_of_prefix_append hxs with hxs | ⟨zs, -, rfl, -⟩
    · exact hxs
    · rw [obstacle?_append, hsome] at hnone
      cases hnone
  exact ⟨h.workingDirectory, fun xs hne hxs hnone ↦ h.made xs hne (hshort xs hxs hnone) hnone,
    fun l hl ↦ h.kept l fun xs hne hxs ↦ hl xs hne (hxs.trans (List.prefix_append way ys))⟩

/-- A way is paved piece by piece. -/
theorem append (h : Paved t D way u) (hnone : t.obstacle? D way = none)
    (h' : Paved u (D ++ way) ys v) : Paved t D (way ++ ys) v := by
  refine ⟨h'.workingDirectory.trans h.workingDirectory, fun xs hne hxs hfree ↦ ?_, fun l hl ↦ ?_⟩
  · rcases prefix_or_of_prefix_append hxs with hxs | ⟨zs, hzne, rfl, hzs⟩
    · have hmade := hasDirectory_iff.2 (h.made xs hne hxs hfree)
      exact hasDirectory_iff.1 (h'.keepsDirectories.hasDirectory _ hmade)
    · rw [obstacle?_append, hnone, Option.none_or, ← h.obstacle?_eq] at hfree
      rw [← List.append_assoc]
      exact h'.made zs hzne hzs hfree
  · rw [h'.kept l, h.kept l]
    · exact fun xs hne hxs hfree ↦ hl xs hne (hxs.trans (List.prefix_append way ys)) hfree
    · intro zs hne hzs hfree heq
      refine hl (way ++ zs) (by simp [hne]) (by simpa using hzs) ?_ (by rw [heq, List.append_assoc])
      rw [obstacle?_append, hnone, Option.none_or, ← h.obstacle?_eq, hfree]

end Paved

/-! ### Making the directories of a way -/

theorem isName_of_obstacle?_eq_none (hplain : ∀ s ∈ way, Path.isStep s = true ∧ s ≠ "..")
    (h : t.obstacle? D way = none) : ∀ s ∈ way, IsName s := by
  induction way generalizing D with
  | nil => exact fun _ hs ↦ absurd hs List.not_mem_nil
  | cons s way ih =>
    obtain ⟨⟨hs, hup⟩, hway⟩ := List.forall_mem_cons.1 hplain
    rw [obstacle?] at h
    split at h
    · cases h
    · rename_i hlong
      split at h
      · cases h
      · exact List.forall_mem_cons.2 ⟨⟨hs, hup, Nat.not_lt.1 hlong⟩, ih hway h⟩

/-- Makes a directory, or takes what is there for it. -/
def makeOrSettle (t : FileTree) (p : Path) : Except Cause Unit × FileTree :=
  match t.makeDirectory p with
  | .ok made => (.ok (), made)
  | .error cause => (if t.isDirectory p then .ok () else .error cause, t)

theorem makeDirectories_of_ne {parents : List Path} (hne : p.text.isEmpty = false)
    (h : t.makeDirectory p ≠ .error .notFound) :
    t.makeDirectories (p :: parents) = t.makeOrSettle p := by
  rw [makeDirectories, hne, makeOrSettle]
  dsimp only
  cases hmade : t.makeDirectory p with
  | ok made => rfl
  | error c =>
    cases c with
    | notFound => exact absurd hmade h
    | _ => rfl

theorem makeDirectories_of_notFound {parents : List Path} (hne : p.text.isEmpty = false)
    (h : t.makeDirectory p = .error .notFound) :
    t.makeDirectories (p :: parents) = match t.makeDirectories parents with
      | (.ok (), made) => made.makeOrSettle p
      | failed => failed := by
  rw [makeDirectories, hne, h]
  rfl

theorem isDirectory_of_locate_eq_error (h : t.locate p = .error c) : t.isDirectory p = false := by
  rw [isDirectory, h]

/-- What can be asked for, where the path is resolved at all. -/
theorem spot_of_refusal?_eq_none (h : refusal? p = none) :
    t.spot D p way name = do
      let l ← t.enter D way
      if longestName < name.utf8ByteSize then throw .nameTooLong else return l ++ [name] := by
  rw [spot, h]

theorem isEmpty_of_refusal? (h : refusal? p = none) : p.text.isEmpty = false := by
  rw [refusal?] at h
  split at h
  · cases h
  · split at h
    · cases h
    · rename_i hempty
      simpa using hempty

/-- **Making the last directory of a way** whose other ones are there. -/
theorem Below.paved_makeOrSettle (h : t.Below D p way s) (hrefusal : refusal? p = none)
    (henter : t.enter D way = .ok (D ++ way))
    (hnone : s.utf8ByteSize ≤ longestName → t.get? (D ++ way ++ [s]) = none) :
    (t.makeOrSettle p).1 = (t.obstacle? (D ++ way) [s]).elim (.ok ()) .error ∧
      Paved t (D ++ way) [s] (t.makeOrSettle p).2 := by
  rw [makeOrSettle, h.makeDirectory_eq, spot_of_refusal?_eq_none hrefusal, henter, ok_bind]
  by_cases hlong : longestName < s.utf8ByteSize
  · have hobstacle : t.obstacle? (D ++ way) [s] = some .nameTooLong := by rw [obstacle?, if_pos hlong]
    have hlocate : t.locate p = .error .nameTooLong := by
      have hplain := h.plain s List.mem_concat_self
      rw [h.locate_eq, hrefusal]
      dsimp only
      rw [henter, ok_bind, step]
      simp [hasDirectory_of_enter henter, hplain, hlong]
    rw [if_pos hlong, hobstacle]
    refine ⟨?_, rfl, fun xs hne hxs hfree ↦ ?_, fun _ _ ↦ rfl⟩
    · change (if t.isDirectory p = true then _ else _) = _
      rw [isDirectory_of_locate_eq_error hlocate]
      rfl
    · rw [eq_singleton_of_isPrefix hne hxs, hobstacle] at hfree
      cases hfree
  · have hnone := hnone (Nat.not_lt.1 hlong)
    have hobstacle : t.obstacle? (D ++ way) [s] = none := by
      rw [obstacle?, if_neg hlong, hasFile, hnone]
      rfl
    have hput (l : Location) : (t.put (D ++ way ++ [s]) .directory).get? l =
        if l = D ++ way ++ [s] then some .directory else t.get? l := get?_put (by simp)
    have hmade : (do
        let l ← (if longestName < s.utf8ByteSize then throw .nameTooLong
          else return D ++ way ++ [s] : Except Cause Location)
        if (t.get? l).isSome then throw .alreadyExists else return t.put l .directory) =
          (.ok (t.put (D ++ way ++ [s]) .directory) : Except Cause FileTree) := by
      rw [if_neg hlong, pure_bind, hnone]
      rfl
    rw [hmade, hobstacle]
    refine ⟨rfl, rfl, fun xs hne hxs _ ↦ ?_, fun l hl ↦ ?_⟩
    · rw [eq_singleton_of_isPrefix hne hxs, hput, if_pos rfl]
    · rw [hput, if_neg (hl [s] (List.cons_ne_nil s []) List.prefix_rfl hobstacle)]

theorem exists_parentsFrom_eq (fuel : Nat) (p : Path) : ∃ parents, Path.parentsFrom fuel p = p :: parents := by
  cases fuel with
  | zero => exact ⟨[], rfl⟩
  | succ fuel => exact ⟨_, rfl⟩

/-- What is written in front of a path that can be resolved can be resolved. -/
theorem refusal?_of_isPrefix (h : q.text.toList <+: p.text.toList) (hq : q.text.isEmpty = false)
    (hp : refusal? p = none) : refusal? q = none := by
  obtain ⟨rest, hrest⟩ := h
  have htext : p.text = q.text ++ String.ofList rest := by
    rw [← String.toList_inj, String.toList_append, String.toList_ofList, hrest]
  rw [refusal?, htext] at hp
  rw [refusal?, hq]
  split at hp
  · cases hp
  · rename_i hnul
    split at hp
    · cases hp
    · split at hp
      · cases hp
      · rename_i hlong
        have hnul' : q.text.toList.contains '\x00' = false := by
          simp_all [String.toList_append]
        rw [String.utf8ByteSize_append] at hlong
        rw [hnul', if_neg Bool.false_ne_true, if_neg Bool.false_ne_true, if_neg (by omega)]

/-- Making directories on a way that has an obstacle already. -/
theorem Below.paved_makeDirectories_of_obstacle? {parents : List Path} (h : t.Below D p way s)
    (hrefusal : refusal? p = none) (hc : c ≠ .notFound) (henter : t.enter D way = .error c)
    (hobstacle : t.obstacle? D way = some c) :
    (t.makeDirectories (p :: parents)).1 = (t.obstacle? D (way ++ [s])).elim (.ok ()) .error ∧
      Paved t D (way ++ [s]) (t.makeDirectories (p :: parents)).2 := by
  have hmake : t.makeDirectory p = .error c := by
    rw [h.makeDirectory_eq, spot_of_refusal?_eq_none hrefusal, henter]
    rfl
  have hlocate : t.locate p = .error c := by
    rw [h.locate_eq, hrefusal]
    dsimp only
    rw [henter]
    rfl
  have hne : t.makeDirectory p ≠ .error .notFound := by simpa [hmake] using hc
  have hpaved : Paved t D way t :=
    .refl h.hasDirectory (fun s hs ↦ h.plain s (List.mem_append_left _ hs)) (by simpa [henter] using hc)
  rw [makeDirectories_of_ne (isEmpty_of_refusal? hrefusal) hne, makeOrSettle, hmake]
  dsimp only
  rw [isDirectory_of_locate_eq_error hlocate, obstacle?_append, hobstacle]
  exact ⟨rfl, hpaved.append_of_obstacle? hobstacle [s]⟩

/-- Making directories on a way whose other ones are there. -/
theorem Below.paved_makeDirectories_of_enter {parents : List Path} (h : t.Below D p way s)
    (hrefusal : refusal? p = none) (hmissing : t.contains p = false)
    (henter : t.enter D way = .ok (D ++ way)) (hobstacle : t.obstacle? D way = none) :
    (t.makeDirectories (p :: parents)).1 = (t.obstacle? D (way ++ [s])).elim (.ok ()) .error ∧
      Paved t D (way ++ [s]) (t.makeDirectories (p :: parents)).2 := by
  have hplain := h.plain s List.mem_concat_self
  have hnone (hshort : s.utf8ByteSize ≤ longestName) : t.get? (D ++ way ++ [s]) = none := by
    by_contra hsome
    have hstep : t.step (D ++ way) s = .ok (D ++ way ++ [s]) :=
      step_eq_ok_iff.2 ⟨hasDirectory_of_enter henter,
        Or.inr (Or.inr ⟨⟨hplain.1, hplain.2, hshort⟩, Option.isSome_iff_ne_none.2 hsome, rfl⟩)⟩
    have hlocate : t.locate p = .ok (D ++ way ++ [s]) := by
      rw [h.locate_eq, hrefusal]
      dsimp only
      rw [henter, ok_bind, hstep]
    rw [contains, hlocate] at hmissing
    cases hmissing
  have hne : t.makeDirectory p ≠ .error .notFound := by
    rw [h.makeDirectory_eq, spot_of_refusal?_eq_none hrefusal, henter, ok_bind]
    by_cases hlong : longestName < s.utf8ByteSize
    · rw [if_pos hlong]
      exact fun h ↦ by cases h
    · rw [if_neg hlong, pure_bind, hnone (Nat.not_lt.1 hlong)]
      exact fun h ↦ by cases h
  have hpaved : Paved t D way t :=
    .refl h.hasDirectory (fun s hs ↦ h.plain s (List.mem_append_left _ hs)) (by simp [henter])
  obtain ⟨hresult, hlast⟩ := h.paved_makeOrSettle hrefusal henter hnone
  rw [makeDirectories_of_ne (isEmpty_of_refusal? hrefusal) hne, obstacle?_append, hobstacle,
    Option.none_or]
  exact ⟨hresult, hpaved.append hobstacle hlast⟩

theorem Below.contains_of_enter_eq_notFound (h : t.Below D p way s)
    (henter : t.enter D (way ++ [s]) = .error .notFound) : t.contains p = false := by
  rw [contains, h.locate_eq]
  rw [enter_append] at henter
  cases refusal? p with
  | some c => rfl
  | none =>
    dsimp only
    cases hway : t.enter D way with
    | error c => rfl
    | ok l =>
      rw [hway, ok_bind, enter_cons] at henter
      rw [ok_bind]
      cases hstep : t.step l s with
      | error c => rfl
      | ok m =>
        rw [hstep, ok_bind, enter] at henter
        simp only [List.foldlM_nil, pure_bind] at henter
        split at henter <;> cases henter

/-- A way that was paved to its end can be gone. -/
theorem Paved.enter_eq_ok (h : Paved t D way u) (hwf : t.WellFormed) (hD : t.hasDirectory D = true)
    (hplain : ∀ s ∈ way, Path.isStep s = true ∧ s ≠ "..") (hne : way ≠ [])
    (hnone : t.obstacle? D way = none) : u.enter D way = .ok (D ++ way) := by
  have hmade : u.get? (D ++ way) = some .directory := h.made way hne List.prefix_rfl hnone
  exact ((h.wellFormed hwf hD).enter_eq_ok_iff (h.keepsDirectories.hasDirectory D hD) hplain).2
    ⟨rfl, isName_of_obstacle?_eq_none hplain hnone, hasDirectory_iff.2 hmade⟩

/-- What lies below a way that was not there is not there when the way is paved. -/
theorem Paved.get?_append_eq_none (h : Paved t D way u) (hwf : t.WellFormed)
    (hD : t.hasDirectory D = true) (hplain : ∀ s ∈ way, Path.isStep s = true ∧ s ≠ "..")
    (hnone : t.obstacle? D way = none) (henter : t.enter D way = .error .notFound) (s : String) :
    u.get? (D ++ way ++ [s]) = none := by
  have hkept : u.get? (D ++ way ++ [s]) = t.get? (D ++ way ++ [s]) := by
    refine h.kept _ fun xs _ hxs _ heq ↦ ?_
    rw [List.append_assoc] at heq
    have hlength := hxs.length_le
    rw [← List.append_cancel_left heq, List.length_append, List.length_singleton] at hlength
    omega
  rw [hkept]
  by_contra hsome
  have hdir : t.hasDirectory (D ++ way) = true := hwf _ s (Option.isSome_iff_ne_none.2 hsome)
  have hok := (hwf.enter_eq_ok_iff hD hplain).2 ⟨rfl, isName_of_obstacle?_eq_none hplain hnone, hdir⟩
  cases henter.symm.trans hok

/-- **Making the directories of a way**, each in the one before it: they are made up to the first obstacle,
which is what the failure tells. -/
theorem WellFormed.paved_makeDirectories (hwf : t.WellFormed) (h : t.Below D p way s)
    (hrefusal : refusal? p = none) (hmissing : t.contains p = false) (hfuel : way.length ≤ fuel) :
    (t.makeDirectories (Path.parentsFrom fuel p)).1 =
        (t.obstacle? D (way ++ [s])).elim (.ok ()) .error ∧
      Paved t D (way ++ [s]) (t.makeDirectories (Path.parentsFrom fuel p)).2 := by
  -- from the end of the way to its beginning, as far as directories are missing
  induction way using List.reverseRecOn generalizing p s fuel with
  | nil =>
    obtain ⟨parents, hparents⟩ := exists_parentsFrom_eq fuel p
    have henter : t.enter D [] = .ok (D ++ []) := by rw [enter_nil h.hasDirectory, List.append_nil]
    rw [hparents]
    exact h.paved_makeDirectories_of_enter hrefusal hmissing henter rfl
  | append_singleton way s' ih =>
    have hplain : ∀ x ∈ way ++ [s'], Path.isStep x = true ∧ x ≠ ".." :=
      fun x hx ↦ h.plain x (List.mem_append_left _ hx)
    obtain ⟨parents, hparents⟩ := exists_parentsFrom_eq fuel p
    rcases enter_cases h.hasDirectory hplain with ⟨henter, hobstacle⟩ | henter | ⟨c, hc, henter, hobstacle⟩
    · rw [hparents]
      exact h.paved_makeDirectories_of_enter hrefusal hmissing henter hobstacle
    · obtain ⟨fuel, rfl⟩ : ∃ n, fuel = n + 1 :=
        Nat.exists_eq_succ_of_ne_zero (by rintro rfl; simp at hfuel)
      obtain ⟨q, hq, hbelow, hbegins⟩ := h.exists_parent?
      obtain ⟨_, _, hends, -, -⟩ := hbelow.reach
      have hq' : refusal? q = none := refusal?_of_isPrefix hbegins hends.isEmpty hrefusal
      have hmissing' : t.contains q = false := hbelow.contains_of_enter_eq_notFound henter
      obtain ⟨hresult, hpaved⟩ := ih hbelow hq' hmissing' (by simpa using hfuel)
      have hmake : t.makeDirectory p = .error .notFound := by
        rw [h.makeDirectory_eq, spot_of_refusal?_eq_none hrefusal, henter]
        rfl
      rw [Path.parentsFrom, hq, makeDirectories_of_notFound (isEmpty_of_refusal? hrefusal) hmake]
      generalize t.makeDirectories (Path.parentsFrom fuel q) = made at hresult hpaved ⊢
      obtain ⟨result, u⟩ := made
      dsimp only at hresult hpaved ⊢
      subst hresult
      cases hobstacle : t.obstacle? D (way ++ [s']) with
      | some c =>
        rw [obstacle?_append, hobstacle]
        exact ⟨rfl, hpaved.append_of_obstacle? hobstacle [s]⟩
      | none =>
        have henter' : u.enter D (way ++ [s']) = .ok (D ++ (way ++ [s'])) :=
          hpaved.enter_eq_ok hwf h.hasDirectory hplain (by simp) hobstacle
        have hnone : u.get? (D ++ (way ++ [s']) ++ [s]) = none :=
          hpaved.get?_append_eq_none hwf h.hasDirectory hplain hobstacle henter s
        obtain ⟨hresult, hlast⟩ := (h.of_keepsDirectories hpaved.keepsDirectories).paved_makeOrSettle
          hrefusal henter' fun _ ↦ hnone
        rw [obstacle?_append, hobstacle, Option.none_or, ← hpaved.obstacle?_eq]
        exact ⟨hresult, hpaved.append hobstacle hlast⟩
    · rw [hparents]
      exact h.paved_makeDirectories_of_obstacle? hrefusal hc henter hobstacle

/-! ### Making parents -/

instance : DecidablePred IsName := fun s ↦ inferInstanceAs (Decidable (Path.isStep s = true ∧ _))

/-- Why the parent of a path cannot be asked for. One that is left out is not asked for at all. -/
def parentRefusal? (q : Path) : Option Cause :=
  if q.text.isEmpty then none else refusal? q

/-- What comes of making the directories of a way, the last of which is `q`. A file in the place of the last one
is not looked at. -/
def verdictOnParents (t : FileTree) (D : Location) (way : List String) (q : Path) :
    Except Failure Unit :=
  match parentRefusal? q with
  | some c => .error (.fault (.makeDirectory q.text c))
  | none =>
    if t.hasFile (D ++ way) && way.all (IsName ·) then .ok ()
    else (t.obstacle? D way).elim (.ok ()) fun c ↦ .error (.fault (.makeDirectory q.text c))

/-- If directories are made for all of the way, there was no obstacle or a file at its end. -/
theorem verdictOnParents_eq_ok (h : t.verdictOnParents D way q = .ok ()) :
    parentRefusal? q = none ∧ (t.hasFile (D ++ way) = true ∨ t.obstacle? D way = none) := by
  rw [verdictOnParents] at h
  split at h
  · cases h
  · rename_i hrefused
    refine ⟨hrefused, ?_⟩
    split at h
    · rename_i hboth
      exact Or.inl (Bool.and_eq_true _ _ ▸ hboth).1
    · cases hobstacle : t.obstacle? D way with
      | none => exact Or.inr rfl
      | some c =>
        rw [hobstacle] at h
        cases h

/-- If the directories of the way count as made in spite of an obstacle, it is a file at the end, and all
before it is there. -/
theorem WellFormed.isSome_of_obstacle? (hwf : t.WellFormed) (hok : t.verdictOnParents D way q = .ok ())
    (hxs : xs <+: way) (hsome : t.obstacle? D xs = some c) : (t.get? (D ++ xs)).isSome = true := by
  obtain ⟨zs, rfl⟩ := hxs
  have hfile : t.hasFile (D ++ xs ++ zs) = true := by
    rw [List.append_assoc]
    refine (verdictOnParents_eq_ok hok).2.resolve_right fun hfree ↦ ?_
    rw [obstacle?_append, hsome] at hfree
    cases hfree
  by_cases hzs : zs = []
  · simpa [hzs] using isSome_of_hasFile hfile
  · rw [hasDirectory_iff.1 (hwf.hasDirectory hzs (isSome_of_hasFile hfile)), Option.isSome_some]

theorem makeDirectories_of_refusal? {parents : List Path} (hne : p.text.isEmpty = false)
    (h : refusal? p = some c) : t.makeDirectories (p :: parents) = (.error c, t) := by
  have hmake : t.makeDirectory p = .error c := by
    rw [makeDirectory, place_of_refusal? h]
    rfl
  have hc : c ≠ .notFound := by
    rintro rfl
    rw [refusal?, hne] at h
    split at h
    · cases h
    · rw [if_neg Bool.false_ne_true] at h
      split at h <;> cases h
  rw [makeDirectories_of_ne hne (by simpa [hmake] using hc), makeOrSettle, hmake]
  dsimp only
  rw [isDirectory_of_locate_eq_error (locate_of_refusal? h)]
  rfl

theorem Paved.nil : Paved t D [] t :=
  ⟨rfl, fun _ hne hxs _ ↦ absurd (List.prefix_nil.1 hxs) hne, fun _ _ ↦ rfl⟩

/-- A way to a directory has no obstacle in it. -/
theorem WellFormed.obstacle?_eq_none (hwf : t.WellFormed) (hD : t.hasDirectory D = true)
    (hplain : ∀ s ∈ way, Path.isStep s = true ∧ s ≠ "..") (hnames : ∀ s ∈ way, IsName s)
    (hdir : t.hasDirectory (D ++ way) = true) : t.obstacle? D way = none := by
  have henter := (hwf.enter_eq_ok_iff hD hplain).2 ⟨rfl, hnames, hdir⟩
  rcases enter_cases hD hplain with ⟨-, hnone⟩ | hno | ⟨c, -, hno, -⟩
  · exact hnone
  · cases henter.symm.trans hno
  · cases henter.symm.trans hno

theorem refusal?_of_parentRefusal? (hne : q.text.isEmpty = false) : parentRefusal? q = refusal? q := by
  rw [parentRefusal?, hne, if_neg Bool.false_ne_true]

/-- If something is at the end of the way, there is nothing to be made. -/
theorem WellFormed.verdictOnParents_of_contains (hwf : t.WellFormed) (h : t.Below D q way s)
    (hrefused : parentRefusal? q = none) (hcontains : t.contains q = true) :
    t.verdictOnParents D (way ++ [s]) q = .ok () := by
  obtain ⟨-, hnames, hsome⟩ := (hwf.contains_iff h).1 hcontains
  rw [verdictOnParents, hrefused]
  dsimp only
  split
  · rfl
  · rename_i hno
    have hfile : t.hasFile (D ++ (way ++ [s])) = false := by
      by_contra hfile
      exact hno (Bool.and_eq_true _ _ ▸ ⟨by simpa using hfile,
        List.all_eq_true.2 fun x hx ↦ decide_eq_true (hnames x hx)⟩)
    have hdir : t.hasDirectory (D ++ (way ++ [s])) = true := by
      by_contra hdir
      rw [get?_eq_none hfile (by simpa using hdir)] at hsome
      cases hsome
    rw [hwf.obstacle?_eq_none h.hasDirectory h.plain hnames hdir]
    rfl

/-- If nothing is at the end of the way, the first obstacle decides. -/
theorem WellFormed.verdictOnParents_of_contains_eq_false (hwf : t.WellFormed) (h : t.Below D q way s)
    (hrefused : parentRefusal? q = none) (hrefusal : refusal? q = none)
    (hcontains : t.contains q = false) :
    t.verdictOnParents D (way ++ [s]) q =
      (t.obstacle? D (way ++ [s])).elim (.ok ()) fun c ↦ .error (.fault (.makeDirectory q.text c)) := by
  have hno : ¬(t.hasFile (D ++ (way ++ [s])) && (way ++ [s]).all (IsName ·)) = true := fun hboth ↦ by
    rw [Bool.and_eq_true, List.all_eq_true] at hboth
    rw [(hwf.contains_iff h).2 ⟨hrefusal, fun x hx ↦ of_decide_eq_true (hboth.2 x hx),
      isSome_of_hasFile hboth.1⟩] at hcontains
    cases hcontains
  rw [verdictOnParents, hrefused]
  dsimp only
  rw [if_neg hno]

/-- **What making the parents of a path does**, if its way is more than the directory it is seen from. -/
theorem WellFormed.makeParents_eq_of_append (hwf : t.WellFormed) (h : t.Below D p (way ++ [s]) name)
    (hq : p.parent? = some q) (hrefused : parentRefusal? q = none) :
    (t.makeParents p).1 = t.verdictOnParents D (way ++ [s]) q ∧
      Paved t D (way ++ [s]) (t.makeParents p).2 := by
  obtain ⟨q', hq', hbelow, -⟩ := h.exists_parent?
  obtain rfl := Option.some.inj (hq'.symm.trans hq)
  obtain ⟨_, _, hends, -, -⟩ := hbelow.reach
  have hrefusal : refusal? q' = none := (refusal?_of_parentRefusal? hends.isEmpty).symm.trans hrefused
  rw [makeParents, hq]
  dsimp only
  rw [hends.isEmpty, Bool.false_or]
  cases hcontains : t.contains q' with
  | true =>
    have hway : t.enter D (way ++ [s]) ≠ .error .notFound := fun henter ↦ by
      rw [hbelow.contains_of_enter_eq_notFound henter] at hcontains
      cases hcontains
    rw [if_pos rfl, hwf.verdictOnParents_of_contains hbelow hrefused hcontains]
    exact ⟨rfl, .refl hbelow.hasDirectory hbelow.plain hway⟩
  | false =>
    obtain ⟨hresult, hpaved⟩ :=
      hwf.paved_makeDirectories hbelow hrefusal hcontains hbelow.length_le
    rw [if_neg Bool.false_ne_true, Path.withParents,
      hwf.verdictOnParents_of_contains_eq_false hbelow hrefused hrefusal hcontains]
    generalize t.makeDirectories (Path.parentsFrom q'.text.length q') = made at hresult hpaved ⊢
    obtain ⟨result, u⟩ := made
    dsimp only at hresult hpaved ⊢
    subst hresult
    cases t.obstacle? D (way ++ [s]) with
    | none => exact ⟨rfl, hpaved⟩
    | some c => exact ⟨rfl, hpaved⟩

/-- **What making the parents of a path does.** -/
theorem WellFormed.makeParents_eq (hwf : t.WellFormed) (h : t.Below D p way name)
    (hq : p.parent? = some q) :
    (t.makeParents p).1 = t.verdictOnParents D way q ∧
      Paved t D (if (parentRefusal? q).isSome then [] else way) (t.makeParents p).2 := by
  cases hrefused : parentRefusal? q with
  | some c =>
    obtain ⟨hne, hrefusal⟩ : q.text.isEmpty = false ∧ refusal? q = some c := by
      rw [parentRefusal?] at hrefused
      split at hrefused
      · cases hrefused
      · exact ⟨Bool.eq_false_iff.2 ‹_›, hrefused⟩
    obtain ⟨parents, hparents⟩ := exists_parentsFrom_eq q.text.length q
    rw [makeParents, hq, verdictOnParents, hrefused]
    dsimp only
    rw [hne, contains, locate_of_refusal? hrefusal, Path.withParents, hparents,
      makeDirectories_of_refusal? hne hrefusal]
    exact ⟨rfl, .nil⟩
  | none =>
    rcases List.eq_nil_or_concat' way with rfl | ⟨init, s, rfl⟩
    · obtain ⟨q', hq', hlocate⟩ := h.exists_parent?_of_nil
      obtain rfl := Option.some.inj (hq'.symm.trans hq)
      have hasked : (q'.text.isEmpty || t.contains q') = true := by
        cases hne : q'.text.isEmpty with
        | true => rfl
        | false =>
          rw [contains, hlocate hne ((refusal?_of_parentRefusal? hne).symm.trans hrefused)]
          rfl
      have hfile : t.hasFile (D ++ []) = false := by
        rw [List.append_nil, hasFile_eq_false h.hasDirectory]
      rw [makeParents, hq, verdictOnParents, hrefused]
      dsimp only
      rw [if_pos hasked, hfile]
      exact ⟨rfl, .nil⟩
    · exact hwf.makeParents_eq_of_append h hq hrefused

end WorkflowAreas.Storage.FileTree
