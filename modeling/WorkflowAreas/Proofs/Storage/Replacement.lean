import Mathlib.Data.List.Basic
import WorkflowAreas.Storage.Replacement

/-!
# A file that was replaced is read back

Replacing a file makes directories, writes a temporary file and moves it. `leads_of_replace` says what
comes of that in the end: the new text is where the path leads, and there it is found by whoever reads the
path afterwards (`Leads.readDocument?`).

The path is resolved in three different trees on the way. `Leads` is what all of them agree on: the
location that a path names, whether or not something is there. It depends on the directories only, and
no step takes one away (`KeepsDirectories`).

`exchanged_exchange` and `replace_cases` tell each way that a replacement can go.
-/

namespace WorkflowAreas

theorem ok_bind {ε α β : Type} (a : α) (f : α → Except ε β) : (Except.ok a >>= f) = f a :=
  rfl

/-- A sequence succeeds if both parts do. -/
theorem bind_eq_ok_iff {ε α β : Type} {x : Except ε α} {f : α → Except ε β} {b : β} :
    x >>= f = .ok b ↔ ∃ a, x = .ok a ∧ f a = .ok b := by
  cases x with
  | error e => exact iff_of_false nofun nofun
  | ok a => exact ⟨fun h ↦ ⟨a, rfl, h⟩, fun ⟨_, ha, h⟩ ↦ Except.ok.inj ha ▸ h⟩

/-- Whether a temporary file had been made before the failure, and was removed again. -/
def Failure.removesTemporary : Failure → Bool
  | .fault (.writeTemporary _ _) | .fault (.replace _ _) => true
  | _ => false

namespace Storage.FileTree

variable {t u v : FileTree} {p : Path} {l m : Location} {content : Content} {bytes : ByteArray}

/-! ### Trees with the same directories -/

/-- Every directory of the one tree is a directory of the other, and names are looked up from the same
directory. -/
structure KeepsDirectories (t u : FileTree) : Prop where
  workingDirectory : u.workingDirectory = t.workingDirectory
  hasDirectory : ∀ l, t.hasDirectory l = true → u.hasDirectory l = true

theorem hasDirectory_iff : t.hasDirectory l = true ↔ t.get? l = some .directory := by
  rw [hasDirectory]
  split
  · exact iff_of_true rfl ‹_›
  · exact iff_of_false Bool.false_ne_true ‹_›

theorem hasDirectory_nil : t.hasDirectory [] = true :=
  hasDirectory_iff.2 rfl

theorem ne_nil_of_hasDirectory_eq_false (h : t.hasDirectory l = false) : l ≠ [] := fun hl ↦ by
  rw [hl, hasDirectory_nil] at h
  cases h

theorem hasDirectory_erase (hm : t.hasDirectory m = false) (hl : t.hasDirectory l = false) :
    (t.erase m).hasDirectory l = false := by
  refine Bool.eq_false_iff.2 fun hdir ↦ ?_
  rw [hasDirectory_iff, get?_erase (ne_nil_of_hasDirectory_eq_false hm)] at hdir
  split at hdir
  · cases hdir
  · rw [hasDirectory_iff.2 hdir] at hl
    cases hl

/-- What was put somewhere and erased again has left nothing there. -/
theorem get?_erase_put (h : l ≠ []) :
    ((t.put l content).erase l).get? m = if m = l then none else t.get? m := by
  rw [get?_erase h, get?_put h]
  split
  · rfl
  · rfl

namespace KeepsDirectories

theorem trans (h : KeepsDirectories t u) (h' : KeepsDirectories u v) : KeepsDirectories t v :=
  ⟨h'.workingDirectory.trans h.workingDirectory, fun l hl ↦ h'.hasDirectory l (h.hasDirectory l hl)⟩

/-- Putting something where no directory is. -/
theorem put (h : t.hasDirectory l = false) (content : Content) :
    KeepsDirectories t (t.put l content) := by
  refine ⟨rfl, fun k hk ↦ ?_⟩
  have hkl : k ≠ l := fun heq ↦ by
    rw [heq, h] at hk
    cases hk
  rw [hasDirectory_iff, get?_put (ne_nil_of_hasDirectory_eq_false h), if_neg hkl]
  exact hasDirectory_iff.1 hk

/-- Removing something that is no directory. -/
theorem erase (h : t.hasDirectory l = false) : KeepsDirectories t (t.erase l) := by
  refine ⟨rfl, fun k hk ↦ ?_⟩
  have hkl : k ≠ l := fun heq ↦ by
    rw [heq, h] at hk
    cases hk
  rw [hasDirectory_iff, get?_erase (ne_nil_of_hasDirectory_eq_false h), if_neg hkl]
  exact hasDirectory_iff.1 hk

/-- Putting something in the place of a thing that is no directory, after one that was none either has
been removed. -/
theorem put_erase (hm : t.hasDirectory m = false) (hl : t.hasDirectory l = false)
    (content : Content) : KeepsDirectories t ((t.erase m).put l content) :=
  (erase hm).trans (put (hasDirectory_erase hm hl) content)

end KeepsDirectories

/-! ### Walks -/

/-- A segment that can be the name of something in a directory. -/
def IsName (segment : String) : Prop :=
  Path.isStep segment = true ∧ segment ≠ ".." ∧ segment.utf8ByteSize ≤ longestName

/-- **What a step can do.** -/
theorem step_eq_ok_iff {segment : String} :
    t.step l segment = .ok m ↔
      t.hasDirectory l = true ∧
        (Path.isStep segment = false ∧ m = l ∨ segment = ".." ∧ m = l.dropLast ∨
          IsName segment ∧ (t.get? (l ++ [segment])).isSome = true ∧ m = l ++ [segment]) := by
  rw [step, IsName]
  cases hdir : t.hasDirectory l with
  | false => simp
  | true =>
    cases hstep : Path.isStep segment with
    | false =>
      have hne : segment ≠ ".." := fun h ↦ by
        rw [h] at hstep
        revert hstep
        decide
      simp [hne, eq_comm (a := m)]
    | true =>
      by_cases hup : segment = ".."
      · simp [hup, eq_comm (a := m)]
      · by_cases hlong : longestName < segment.utf8ByteSize
        · simp [hup, hlong, Nat.not_le.2 hlong]
        · cases hsome : (t.get? (l ++ [segment])).isSome <;>
            simp [hup, hlong, Nat.not_lt.1 hlong, eq_comm (a := m)]

/-- A walk that ends in a directory begins in one. -/
theorem hasDirectory_of_foldlM_step {segments : List String} (h : segments.foldlM t.step l = .ok m)
    (hm : t.hasDirectory m = true) : t.hasDirectory l = true := by
  cases segments with
  | nil =>
    rw [List.foldlM_nil] at h
    rwa [Except.ok.inj h]
  | cons segment segments =>
    cases hs : t.step l segment with
    | ok k => exact (step_eq_ok_iff.1 hs).1
    | error cause =>
      rw [List.foldlM_cons, hs] at h
      cases h

/-- A step into a directory can be taken in every tree that has the directories. -/
theorem KeepsDirectories.step (hk : KeepsDirectories t u) {segment : String}
    (h : t.step l segment = .ok m) (hm : t.hasDirectory m = true) : u.step l segment = .ok m := by
  rw [step_eq_ok_iff] at h ⊢
  refine ⟨hk.hasDirectory l h.1, h.2.imp_right (Or.imp_right fun ⟨hname, _, heq⟩ ↦ ?_)⟩
  -- what the step found was a directory, and it still is one
  have hu := hasDirectory_iff.1 (hk.hasDirectory m hm)
  refine ⟨hname, ?_, heq⟩
  rw [← heq, hu, Option.isSome_some]

theorem KeepsDirectories.foldlM_step (hk : KeepsDirectories t u) {segments : List String}
    (h : segments.foldlM t.step l = .ok m) (hm : t.hasDirectory m = true) :
    segments.foldlM u.step l = .ok m := by
  induction segments generalizing l with
  | nil => exact h
  | cons segment segments ih =>
    rw [List.foldlM_cons] at h ⊢
    cases hs : t.step l segment with
    | error cause =>
      rw [hs] at h
      cases h
    | ok k =>
      rw [hs] at h
      have hrest : segments.foldlM t.step k = .ok m := h
      rw [hk.step hs (hasDirectory_of_foldlM_step hrest hm)]
      exact ih hrest

/-- A walk goes step by step, if the path can be resolved at all. -/
theorem walk_eq_ok_iff {segments : List String} :
    t.walk p segments = .ok m ↔
      (¬p.text.toList.contains '\x00' = true ∧ ¬p.text.isEmpty = true ∧
        ¬longestPath < p.text.utf8ByteSize) ∧
        segments.foldlM t.step (if p.isAbsolute then [] else t.workingDirectory) = .ok m := by
  rw [walk]
  split
  · exact iff_of_false nofun fun h ↦ absurd ‹_› h.1.1
  · split
    · exact iff_of_false nofun fun h ↦ absurd ‹_› h.1.2.1
    · split
      · exact iff_of_false nofun fun h ↦ absurd ‹_› h.1.2.2
      · exact (and_iff_right ⟨‹_›, ‹_›, ‹_›⟩).symm

theorem walk_append {before after : List String} (h : t.walk p before = .ok l)
    (hafter : after.foldlM t.step l = .ok m) : t.walk p (before ++ after) = .ok m := by
  rw [walk_eq_ok_iff] at h ⊢
  rw [List.foldlM_append, h.2]
  exact ⟨h.1, hafter⟩

/-- **A walk to a directory leads there in every tree that has the directories.** -/
theorem KeepsDirectories.walk (hk : KeepsDirectories t u) {segments : List String}
    (h : t.walk p segments = .ok m) (hm : t.hasDirectory m = true) :
    u.walk p segments = .ok m := by
  rw [walk_eq_ok_iff] at h ⊢
  rw [hk.workingDirectory]
  exact ⟨h.1, hk.foldlM_step h.2 hm⟩

/-! ### Where a path leads -/

/-- The path leads to this location, whether or not something is there. -/
def Leads (t : FileTree) (p : Path) (l : Location) : Prop :=
  ∃ before name directory, p.segments = before ++ [name] ∧ t.walk p before = .ok directory ∧
    t.hasDirectory directory = true ∧ IsName name ∧ l = directory ++ [name]

theorem location?_eq_ok {place : Place} {otherwise : Cause} (h : place.location? otherwise = .ok l) :
    ∃ name, place.name = some name ∧ name ≠ "." ∧ name ≠ ".." ∧ name.utf8ByteSize ≤ longestName ∧
      l = place.directory ++ [name] := by
  rw [Place.location?] at h
  split at h
  · rename_i name hname
    split at h
    · cases h
    · split at h
      · cases h
      · rename_i hdots hlong
        simp only [Bool.or_eq_true, decide_eq_true_eq, not_or] at hdots
        exact ⟨name, hname, hdots.1, hdots.2, Nat.not_lt.1 hlong, (Except.ok.inj h).symm⟩
  · cases h

/-- **The place that a path leads to**: after its name come slashes at most. -/
theorem place_eq_ok {place : Place} {name : String} (h : t.place p = .ok place)
    (hname : place.name = some name) :
    ∃ before after, p.segments = before ++ name :: after ∧ (∀ segment ∈ after, segment = "") ∧
      (place.slashFollows = false → after = []) ∧ t.walk p before = .ok place.directory ∧
      t.hasDirectory place.directory = true ∧ name ≠ "" := by
  rw [FileTree.place] at h
  cases hdrop : p.segments.reverse.dropWhile (·.isEmpty) with
  | nil =>
    simp only [hdrop] at h
    obtain ⟨k, -, hk⟩ := bind_eq_ok_iff.1 h
    rw [← Except.ok.inj hk] at hname
    cases hname
  | cons found before =>
    simp only [hdrop] at h
    obtain ⟨k, hwalk, h⟩ := bind_eq_ok_iff.1 h
    split at h
    · cases h
    · rename_i hdir
      obtain rfl := Except.ok.inj h
      obtain rfl : found = name := Option.some.inj hname
      -- from behind, the segments are those of the slashes, the name, and what comes before it
      generalize hslashes : p.segments.reverse.takeWhile (·.isEmpty) = slashes
      have hback : p.segments.reverse = slashes ++ found :: before := by
        rw [← hslashes, ← hdrop, List.takeWhile_append_dropWhile]
      have hempty : ∀ segment ∈ slashes, segment = "" := fun segment hs ↦ by
        rw [← hslashes] at hs
        exact String.isEmpty_iff.1 (List.all_eq_true.1 List.all_takeWhile segment hs)
      have hfound : found ≠ "" := fun heq ↦ by
        have hhead := List.head?_dropWhile_not (·.isEmpty) p.segments.reverse
        rw [hdrop, heq] at hhead
        cases hhead
      refine ⟨before.reverse, slashes.reverse, ?_,
        fun segment hs ↦ hempty segment (List.mem_reverse.1 hs), fun hslash ↦ ?_, hwalk,
        by simpa using hdir, hfound⟩
      · rw [List.reverse_eq_iff.1 hback, List.reverse_append, List.reverse_cons,
          List.append_assoc, List.singleton_append]
      · cases slashes with
        | nil => rfl
        | cons last rest =>
          rw [hback, List.cons_append, List.head?_cons, hempty last List.mem_cons_self] at hslash
          cases hslash

/-- **The location at the place that a path leads to**: a walk goes to the directory, and there is the name. -/
theorem location?_of_place {place : Place} {otherwise : Cause} (h : t.place p = .ok place)
    (hl : place.location? otherwise = .ok l) :
    ∃ before name after directory, p.segments = before ++ name :: after ∧
      (∀ segment ∈ after, segment = "") ∧ (place.slashFollows = false → after = []) ∧
      t.walk p before = .ok directory ∧ t.hasDirectory directory = true ∧ IsName name ∧
      l = directory ++ [name] := by
  obtain ⟨name, hname, hdot, hdots, hlong, rfl⟩ := location?_eq_ok hl
  obtain ⟨before, after, hsegments, hslashes, hafter, hwalk, hdir, hempty⟩ := place_eq_ok h hname
  exact ⟨before, name, after, place.directory, hsegments, hslashes, hafter, hwalk, hdir,
    ⟨by simp [Path.isStep, hempty, hdot], hdots, hlong⟩, rfl⟩

/-- The location is where the path leads, if no slash follows the name. -/
theorem leads_of_place {place : Place} {otherwise : Cause} (h : t.place p = .ok place)
    (hslash : place.slashFollows = false) (hl : place.location? otherwise = .ok l) : t.Leads p l := by
  obtain ⟨before, name, after, directory, hsegments, -, hafter, rest⟩ := location?_of_place h hl
  rw [hafter hslash] at hsegments
  exact ⟨before, name, directory, hsegments, rest⟩

theorem Leads.of_keepsDirectories (h : t.Leads p l) (hk : KeepsDirectories t u) : u.Leads p l := by
  obtain ⟨before, name, directory, hsegments, hwalk, hdir, rest⟩ := h
  exact ⟨before, name, directory, hsegments, hk.walk hwalk hdir, hk.hasDirectory directory hdir, rest⟩

/-- **What is where a path leads is found by the path.** -/
theorem Leads.locate (h : t.Leads p l) (hl : (t.get? l).isSome = true) : t.locate p = .ok l := by
  obtain ⟨before, name, directory, hsegments, hwalk, hdir, hname, rfl⟩ := h
  rw [FileTree.locate, hsegments]
  refine walk_append hwalk ?_
  rw [List.foldlM_cons, step_eq_ok_iff.2 ⟨hdir, Or.inr (Or.inr ⟨hname, hl, rfl⟩)⟩]
  rfl

/-! ### Writing and moving -/

theorem get?_of_readBytes (hl : t.locate p = .ok l) (h : t.readBytes p = .ok bytes) :
    t.get? l = some (.file bytes) := by
  rw [readBytes] at h
  obtain ⟨k, hk, h⟩ := bind_eq_ok_iff.1 h
  obtain rfl := Except.ok.inj (hl.symm.trans hk)
  split at h
  · rename_i found hfound
    rw [hfound, Except.ok.inj h]
  · cases h
  · cases h

/-- **What writing a file does.** -/
theorem writeFile_eq_ok (h : t.writeFile p bytes = .ok u) :
    ∃ l, t.Leads p l ∧ t.hasDirectory l = false ∧ u = t.put l (.file bytes) := by
  rw [writeFile] at h
  obtain ⟨place, hplace, h⟩ := bind_eq_ok_iff.1 h
  obtain ⟨l, hl, h⟩ := bind_eq_ok_iff.1 h
  split at h
  · cases h
  · rename_i hno
    simp only [Bool.or_eq_true, not_or, Bool.not_eq_true] at hno
    exact ⟨l, leads_of_place hplace hno.1 hl, hno.2, (Except.ok.inj h).symm⟩

/-- **What moving a file does.** -/
theorem moveFile_eq_ok {source : Path} (h : t.moveFile source p = .ok u) :
    ∃ k l bytes, t.locate source = .ok k ∧ t.get? k = some (.file bytes) ∧ t.Leads p l ∧
      t.hasDirectory l = false ∧ u = (t.erase k).put l (.file bytes) := by
  rw [moveFile] at h
  obtain ⟨bytes, hbytes, h⟩ := bind_eq_ok_iff.1 h
  obtain ⟨k, hk, h⟩ := bind_eq_ok_iff.1 h
  obtain ⟨place, hplace, h⟩ := bind_eq_ok_iff.1 h
  obtain ⟨l, hl, h⟩ := bind_eq_ok_iff.1 h
  dsimp only at h
  split at h
  · cases h
  · rename_i hslash
    split at h
    · cases h
    · rename_i hdir
      exact ⟨k, l, bytes, hk, get?_of_readBytes hk hbytes,
        leads_of_place hplace (by simpa using hslash) hl, by simpa using hdir,
        (Except.ok.inj h).symm⟩

/-! ### Reading what was written -/

theorem fromUTF8?_toUTF8 (text : String) : String.fromUTF8? text.toUTF8 = some text := by
  rw [String.fromUTF8?]
  exact dif_pos text.isValidUTF8

/-- The text of a file that is where a path leads. -/
theorem Leads.readDocument? (h : t.Leads p l) {text : String}
    (hl : t.get? l = some (.file text.toUTF8)) :
    t.readDocument? p = .ok (some (.ofText text)) := by
  have hlocate : t.locate p = .ok l := h.locate (by rw [hl, Option.isSome_some])
  have hbytes : t.readBytes p = .ok text.toUTF8 := by
    rw [readBytes, bind_eq_ok_iff]
    refine ⟨l, hlocate, ?_⟩
    simp only [hl]
    rfl
  have htext : t.readText p = .ok text := by
    rw [readText, bind_eq_ok_iff]
    refine ⟨text.toUTF8, hbytes, ?_⟩
    simp only [fromUTF8?_toUTF8]
    rfl
  rw [FileTree.readDocument?, contains, hlocate, Except.isOk, Except.toBool, if_pos rfl,
    readDocument, htext]
  rfl

/-! ### Exchanging and replacing -/

variable {trouble : Path → String → Option Cause}

/-- **The ways of an exchange**, with what each of them tells. -/
theorem exchange_cases (trouble : Path → String → Option Cause) (t : FileTree) (temporary p : Path)
    (text : String) :
    (∃ c, t.exchange trouble temporary p text =
        (.error (.fault (.makeTemporary temporary.text c)), t)) ∨
      ∃ k, t.Leads temporary k ∧ t.hasDirectory k = false ∧
        ((∃ f, f.removesTemporary = true ∧ t.exchange trouble temporary p text =
            (.error f, (t.put k (.file text.toUTF8)).erase k)) ∨
          ∃ l, (t.put k (.file text.toUTF8)).Leads p l ∧
            (t.put k (.file text.toUTF8)).hasDirectory l = false ∧
            t.exchange trouble temporary p text =
              (.ok (), ((t.put k (.file text.toUTF8)).erase k).put l (.file text.toUTF8))) := by
  rw [exchange]
  cases hwrite : t.writeFile temporary text.toUTF8 with
  | error cause => exact Or.inl ⟨cause, rfl⟩
  | ok written =>
    obtain ⟨k, hk, hdir, rfl⟩ := writeFile_eq_ok hwrite
    have hput : (t.put k (.file text.toUTF8)).get? k = some (.file text.toUTF8) := by
      rw [get?_put (ne_nil_of_hasDirectory_eq_false hdir), if_pos rfl]
    have hfound : (t.put k (.file text.toUTF8)).locate temporary = .ok k :=
      (hk.of_keepsDirectories (.put hdir _)).locate (by rw [hput, Option.isSome_some])
    have hremove : (t.put k (.file text.toUTF8)).removeFile temporary =
        (t.put k (.file text.toUTF8)).erase k := by
      simp only [removeFile, hfound, hasDirectory, hput, Bool.false_eq_true, if_false]
    refine Or.inr ⟨k, hk, hdir, ?_⟩
    dsimp only
    cases trouble temporary text with
    | some cause => exact Or.inl ⟨_, rfl, by rw [hremove]⟩
    | none =>
      cases hmove : (t.put k (.file text.toUTF8)).moveFile temporary p with
      | error cause => exact Or.inl ⟨_, rfl, by rw [hremove]⟩
      | ok moved =>
        obtain ⟨k', l, bytes, hlocate, hfile, hl, hldir, rfl⟩ := moveFile_eq_ok hmove
        obtain rfl : k = k' := Except.ok.inj (hfound.symm.trans hlocate)
        obtain rfl : text.toUTF8 = bytes := Content.file.inj (Option.some.inj (hput.symm.trans hfile))
        exact Or.inr ⟨l, hl, hldir, rfl⟩

/-- What can come of giving a file its bytes by way of a temporary file: that one cannot be made, or it
is removed again, or it takes the place of the file. -/
inductive Exchanged (t : FileTree) (temporary p : Path) (bytes : ByteArray) :
    Except Failure Unit → FileTree → Prop
  | refused (f : Failure) : Exchanged t temporary p bytes (.error f) t
  | undone (f : Failure) {k : Location} : t.Leads temporary k → t.hasDirectory k = false →
      Exchanged t temporary p bytes (.error f) ((t.put k (.file bytes)).erase k)
  | done {k l : Location} : t.Leads temporary k → t.hasDirectory k = false →
      (t.put k (.file bytes)).Leads p l → (t.put k (.file bytes)).hasDirectory l = false →
      Exchanged t temporary p bytes (.ok ()) (((t.put k (.file bytes)).erase k).put l (.file bytes))

/-- **What an exchange does**: the temporary file that takes its place, or is removed, is the one that was
written before. -/
theorem exchanged_exchange (trouble : Path → String → Option Cause) (t : FileTree) (temporary p : Path)
    (text : String) :
    t.Exchanged temporary p text.toUTF8 (t.exchange trouble temporary p text).1
      (t.exchange trouble temporary p text).2 := by
  rcases t.exchange_cases trouble temporary p text with
    ⟨c, h⟩ | ⟨k, hk, hdir, ⟨f, -, h⟩ | ⟨l, hl, hldir, h⟩⟩
  · rw [h]
    exact .refused _
  · rw [h]
    exact .undone _ hk hdir
  · rw [h]
    exact .done hk hdir hl hldir

theorem hasDirectory_put_file (h : t.hasDirectory l = false) :
    (t.put l (.file bytes)).hasDirectory l = false := by
  rw [hasDirectory, get?_put (ne_nil_of_hasDirectory_eq_false h), if_pos rfl]

/-- An exchange that comes to an end gives the file its bytes. -/
theorem Exchanged.leads {temporary : Path} (h : t.Exchanged temporary p bytes (.ok ()) u) :
    ∃ l, u.Leads p l ∧ u.get? l = some (.file bytes) := by
  cases h with
  | done hk hdir hl hldir =>
    refine ⟨_, hl.of_keepsDirectories (.put_erase (hasDirectory_put_file hdir) hldir _), ?_⟩
    rw [get?_put (ne_nil_of_hasDirectory_eq_false hldir), if_pos rfl]

/-- **What replacing a file does**: the directories on the way to it are made, and then it may come to an
exchange. -/
theorem replace_cases (trouble : Path → String → Option Cause) (t : FileTree) (tag : String) (p : Path)
    (text : String) :
    (∃ f, t.replace trouble tag p text = (.error f, (t.makeParents p).2)) ∨
      ∃ temporary, temporary? tag p = some temporary ∧
        (t.makeParents p).2.Exchanged temporary p text.toUTF8 (t.replace trouble tag p text).1
          (t.replace trouble tag p text).2 := by
  rw [replace]
  obtain ⟨r, made⟩ := t.makeParents p
  cases r with
  | error f => exact Or.inl ⟨f, rfl⟩
  | ok _ =>
    cases htemporary : temporary? tag p with
    | none => exact Or.inl ⟨_, rfl⟩
    | some temporary => exact Or.inr ⟨temporary, rfl, made.exchanged_exchange trouble temporary p text⟩

/-- **A file that was replaced has its new text**, where its path leads. -/
theorem leads_of_replace {tag text : String} (h : t.replace trouble tag p text = (.ok (), u)) :
    ∃ l, u.Leads p l ∧ u.get? l = some (.file text.toUTF8) := by
  rcases t.replace_cases trouble tag p text with ⟨f, hf⟩ | ⟨temporary, -, hexchanged⟩
  · cases (Prod.mk.inj (h.symm.trans hf)).1
  · rw [h] at hexchanged
    exact hexchanged.leads

end Storage.FileTree

end WorkflowAreas
