import Mathlib.Data.List.Infix
import WorkflowAreas.Proofs.Storage.Effect

/-!
# Paths that go down

Most paths lead from some directory down to a name, whatever the detours they are written with. `Below` says
so of a path in a tree, whether or not something is there, and every operation on files has a closed form for
such a path: `Below.place_eq`, `Below.locate_eq`, `Below.makeDirectory_eq`, `Below.writeFile_eq` and
`Below.moveFile_eq` speak of the directory and the names alone. The parent of the path and the path of its
temporary file are below the directory as well (`Below.exists_parent?`, `Below.exists_temporary?`).

* The first half is about how paths are written: `Path.EndsIn.exists_parent?` and `Path.segments_join` tell
  the segments of a parent and of a joined path.
* `enter` goes down to a directory. In a tree in which everything lies in a directory (`WellFormed`) it gets
  there if the names can be names and the last of them is a directory (`WellFormed.enter_eq_ok_iff`), and a
  path is found if something is at its location (`WellFormed.locate_eq_ok_iff`).
-/

namespace WorkflowAreas

namespace Path

open Storage.FileTree (temporary?)

variable {p q base : Path} {before body : List String} {name s : String}

/-! ### Segments -/

/-- A path is its segments with slashes between them. -/
theorem text_eq_intercalate (p : Path) : p.text = "/".intercalate p.segments := by
  have hmap : p.segments.map String.toList = p.text.toList.splitOn '/' := by
    rw [segments, List.map_map]
    exact List.map_id'' (fun cs ↦ String.toList_ofList) _
  rw [← String.toList_inj, String.toList_intercalate, hmap]
  exact (List.intercalate_splitOn '/').symm

theorem segments_injective : Function.Injective segments := fun p q h ↦ by
  have htext : p.text = q.text := by rw [p.text_eq_intercalate, h, ← q.text_eq_intercalate]
  cases p
  cases q
  exact congrArg Path.mk htext

/-- Segments without slashes are those of the path that they make. -/
theorem segments_intercalate {segments : List String} (h : ∀ s ∈ segments, '/' ∉ s.toList)
    (hne : segments ≠ []) : (Path.mk ("/".intercalate segments)).segments = segments := by
  have hslash : ∀ cs ∈ segments.map String.toList, '/' ∉ cs := by
    simpa using h
  rw [Path.segments, String.toList_intercalate]
  exact (congrArg _ (List.splitOn_intercalate '/' hslash (by simpa using hne))).trans (by simp)

/-- The segments that lead elsewhere. -/
def steps (p : Path) : List String :=
  p.segments.filter isStep

/-- A path that goes down and nowhere else: each of its segments is a name. -/
def IsPlain (p : Path) : Prop :=
  ∀ s ∈ p.segments, isStep s = true ∧ s ≠ ".."

instance (p : Path) : Decidable p.IsPlain :=
  inferInstanceAs (Decidable (∀ s ∈ p.segments, _))

theorem isAbsolute_of_isPrefix (h : q.text.toList <+: p.text.toList) (hq : q.text.isEmpty = false) :
    q.isAbsolute = p.isAbsolute := by
  obtain ⟨rest, hrest⟩ := h
  rw [isAbsolute, isAbsolute, ← hrest]
  cases hcs : q.text.toList with
  | nil => simp_all
  | cons c cs => rfl

theorem trimEnd_prefix (segments : List String) : trimEnd segments <+: segments := by
  rw [trimEnd, ← List.reverse_suffix, List.reverse_reverse]
  exact List.dropWhile_suffix _

theorem filter_isStep_trimEnd (segments : List String) :
    (trimEnd segments).filter isStep = segments.filter isStep := by
  have h : (segments.reverse.takeWhile (!isStep ·)).filter isStep = [] :=
    List.filter_eq_nil_iff.2 fun s hs ↦ by simpa using List.all_eq_true.1 List.all_takeWhile s hs
  rw [trimEnd, List.filter_reverse]
  conv_rhs => rw [← List.reverse_reverse segments, List.filter_reverse,
    ← List.takeWhile_append_dropWhile (p := (!isStep ·)) (l := segments.reverse), List.filter_append,
    h, List.nil_append]

theorem trimEnd_append (h : isStep name = true) : trimEnd (before ++ [name]) = before ++ [name] := by
  rw [trimEnd, List.reverse_append, List.reverse_singleton, List.singleton_append,
    List.dropWhile_cons_of_neg (by simp [h]), List.reverse_cons, List.reverse_reverse]

/-- What is left of a list whose end was cut off ends in a step. -/
theorem exists_trimEnd_eq (h : (trimEnd body).filter isStep ≠ []) :
    ∃ before name, trimEnd body = before ++ [name] ∧ isStep name = true := by
  have hne : body.reverse.dropWhile (!isStep ·) ≠ [] := fun hnil ↦ by
    rw [trimEnd, hnil] at h
    exact h rfl
  obtain ⟨name, rest, hrest⟩ := List.exists_cons_of_ne_nil hne
  have hhead := List.head?_dropWhile_not (!isStep ·) body.reverse
  rw [hrest, List.head?_cons] at hhead
  exact ⟨rest.reverse, name, by rw [trimEnd, hrest, List.reverse_cons], by simpa using hhead⟩

theorem length_splitOn_le {α : Type} [DecidableEq α] (a : α) (xs : List α) :
    (xs.splitOn a).length ≤ xs.length + 1 := by
  induction xs with
  | nil => simp
  | cons x xs ih =>
    rw [List.splitOn_cons_eq_if_modifyHead]
    split
    · simpa using ih
    · simp
      omega

theorem length_segments_le (p : Path) : p.segments.length ≤ p.text.length + 1 := by
  rw [segments, List.length_map, ← String.length_toList]
  exact length_splitOn_le _ _

/-! ### The head -/

/-- The segment that the head is written in. -/
def headSegments (p : Path) : List String :=
  p.segments.take (if p.head.isEmpty then 0 else 1)

theorem headSegments_append_body (p : Path) : p.headSegments ++ p.body = p.segments := by
  rw [headSegments, Path.body]
  split
  · rfl
  · rw [← List.drop_one, List.take_append_drop]

/-- The head is nothing, the root or a dot. -/
theorem head_cases (p : Path) :
    p.head = "" ∧ p.headSegments = [] ∧ p.isAbsolute = false ∨
      p.head = "/" ∧ p.headSegments = [""] ∨ p.head = "." ∧ p.headSegments = ["."] := by
  rw [headSegments]
  cases habsolute : p.isAbsolute with
  | true =>
    have hhead : p.head = "/" := by rw [head, if_pos habsolute]
    have hsegments := habsolute
    rw [isAbsolute, beq_iff_eq, List.head?_eq_some_iff] at hsegments
    obtain ⟨rest, hrest⟩ := hsegments
    have hfirst : p.segments.head? = some "" := by
      rw [segments, hrest, List.splitOn_cons_eq_if_modifyHead]
      rfl
    obtain ⟨rest, hrest⟩ := List.head?_eq_some_iff.1 hfirst
    rw [hhead, hrest]
    exact Or.inr (Or.inl ⟨rfl, rfl⟩)
  | false =>
    by_cases hdot : p.segments.head? = some "."
    · have hhead : p.head = "." := by simp [head, habsolute, hdot]
      obtain ⟨rest, hrest⟩ := List.head?_eq_some_iff.1 hdot
      rw [hhead, hrest]
      exact Or.inr (Or.inr ⟨rfl, rfl⟩)
    · have hhead : p.head = "" := by simp [head, habsolute, hdot]
      rw [hhead]
      exact Or.inl ⟨rfl, rfl, rfl⟩

theorem filter_isStep_headSegments (p : Path) : p.headSegments.filter isStep = [] := by
  rcases p.head_cases with ⟨-, h, -⟩ | ⟨-, h⟩ | ⟨-, h⟩
  all_goals
    rw [h]
    decide

theorem text_ofBody (p : Path) (h : body ≠ []) :
    (ofBody p.head body).text = "/".intercalate (p.headSegments ++ body) := by
  have hcons (s : String) : "/".intercalate ([s] ++ body) = s ++ "/" ++ "/".intercalate body := by
    rw [String.intercalate_append_of_ne_nil (List.cons_ne_nil s []) h, String.intercalate_singleton]
  rcases p.head_cases with ⟨hhead, hsegments, -⟩ | ⟨hhead, hsegments⟩ | ⟨hhead, hsegments⟩
  · simp [ofBody, hhead, hsegments]
  · rw [hsegments, hcons]
    simp [ofBody, hhead]
  · rw [hsegments, hcons]
    simp [ofBody, hhead, h]

/-- A path of the same head and some segments of the body is written in front of the path. -/
theorem prefix_text_of_ofBody {rest : List String} (h : p.segments = p.headSegments ++ body ++ rest)
    (hrest : rest ≠ []) : (ofBody p.head body).text.toList <+: p.text.toList := by
  have hcut {xs : List String} (hxs : xs ≠ []) (hp : p.segments = xs ++ rest) :
      p.text.toList = ("/".intercalate xs).toList ++ '/' :: ("/".intercalate rest).toList := by
    rw [p.text_eq_intercalate, hp, String.intercalate_append_of_ne_nil hxs hrest, String.append_assoc,
      String.toList_append, String.toList_append]
    rfl
  cases body with
  | nil =>
    rw [List.append_nil] at h
    rcases p.head_cases with ⟨hhead, -, -⟩ | ⟨hhead, hsegments⟩ | ⟨hhead, hsegments⟩
    · simp [ofBody, hhead]
    · rw [hcut (by simp [hsegments]) h, hsegments, String.intercalate_singleton]
      simp [ofBody, hhead]
    · rw [hcut (by simp [hsegments]) h, hsegments, String.intercalate_singleton]
      simp [ofBody, hhead]
  | cons s body =>
    rw [text_ofBody p (List.cons_ne_nil s body), hcut (by simp) h]
    exact List.prefix_append _ _

theorem segments_ofBody (hbody : body ≠ []) (h : ∀ s ∈ p.headSegments ++ body, '/' ∉ s.toList) :
    (ofBody p.head body).segments = p.headSegments ++ body := by
  have htext : ofBody p.head body = ⟨"/".intercalate (p.headSegments ++ body)⟩ :=
    congrArg Path.mk (text_ofBody p hbody)
  rw [htext, segments_intercalate h (by simp [hbody])]

theorem steps_ofBody (h : ∀ s ∈ p.headSegments ++ body, '/' ∉ s.toList) :
    (ofBody p.head body).steps = body.filter isStep := by
  by_cases hbody : body = []
  · rw [hbody]
    rcases p.head_cases with ⟨hhead, -⟩ | ⟨hhead, -⟩ | ⟨hhead, -⟩
    all_goals
      rw [hhead]
      decide
  · rw [steps, segments_ofBody hbody h, List.filter_append, filter_isStep_headSegments,
      List.nil_append]

theorem isAbsolute_of_isEmpty_ofBody (h : (ofBody p.head body).text.isEmpty = true) :
    p.isAbsolute = false := by
  rcases p.head_cases with ⟨-, -, habsolute⟩ | ⟨hhead, -⟩ | ⟨hhead, -⟩
  · exact habsolute
  · simp [ofBody, hhead] at h
  · cases body <;> simp [ofBody, hhead] at h

/-! ### Parents -/

/-- The path ends in this name, and these segments are before it. -/
structure EndsIn (p : Path) (before : List String) (name : String) : Prop where
  segments : p.segments = before ++ [name]
  isStep : isStep name = true

theorem EndsIn.isEmpty (h : p.EndsIn before name) : p.text.isEmpty = false :=
  Bool.eq_false_iff.2 fun hempty ↦ by
    have hp : p = ⟨""⟩ := congrArg Path.mk (String.isEmpty_iff.1 hempty)
    have hsteps : p.steps = before.filter Path.isStep ++ [name] := by
      rw [steps, h.segments, List.filter_append, List.filter_cons_of_pos h.isStep]
      rfl
    rw [hp, show (⟨""⟩ : Path).steps = [] by decide] at hsteps
    simp at hsteps

theorem EndsIn.exists_body (h : p.EndsIn before name) :
    ∃ body, p.body = body ++ [name] ∧ before = p.headSegments ++ body := by
  have hsegments := p.headSegments_append_body
  rw [h.segments] at hsegments
  rcases List.eq_nil_or_concat' p.body with hnil | ⟨body, last, hbody⟩
  · -- the name would be written in the head
    rw [hnil, List.append_nil] at hsegments
    have hnone := p.filter_isStep_headSegments
    rw [hsegments, List.filter_append, List.filter_cons_of_pos h.isStep] at hnone
    simp at hnone
  · rw [hbody, ← List.append_assoc] at hsegments
    obtain ⟨hbefore, hlast⟩ := List.append_inj' hsegments rfl
    exact ⟨body, by rw [hbody, (List.cons.inj hlast).1], hbefore.symm⟩

/-- The parent of a path leads where the segments before its name lead, and is written in front of it. -/
structure IsParent (q p : Path) (before : List String) : Prop where
  steps : q.steps = before.filter Path.isStep
  isPrefix : q.text.toList <+: p.text.toList
  isAbsolute_of_isEmpty : q.text.isEmpty = true → p.isAbsolute = false
  endsIn : q.steps ≠ [] → ∃ before' name', q.EndsIn before' name'

/-- **A path that ends in a name has a parent.** -/
theorem EndsIn.exists_parent? (h : p.EndsIn before name) :
    ∃ q, p.parent? = some q ∧ q.IsParent p before := by
  obtain ⟨body, hbody, hbefore⟩ := h.exists_body
  have hparent : p.parent? = some (ofBody p.head (trimEnd body)) := by
    rw [parent?, hbody, trimEnd_append h.isStep]
    split
    · rename_i hnil
      simp at hnil
    · rw [List.dropLast_concat]
  obtain ⟨rest, hrest⟩ := trimEnd_prefix body
  have hsegments : p.segments = p.headSegments ++ trimEnd body ++ (rest ++ [name]) := by
    rw [h.segments, hbefore]
    nth_rewrite 1 [← hrest]
    simp only [List.append_assoc]
  have hslash : ∀ s ∈ p.headSegments ++ trimEnd body, '/' ∉ s.toList := fun s hs ↦
    slash_notMem_of_mem_segments (hsegments ▸ List.mem_append_left _ hs)
  have hsteps : (ofBody p.head (trimEnd body)).steps = before.filter Path.isStep := by
    rw [steps_ofBody hslash, filter_isStep_trimEnd, hbefore, List.filter_append,
      filter_isStep_headSegments, List.nil_append]
  refine ⟨_, hparent, hsteps, prefix_text_of_ofBody hsegments (by simp), isAbsolute_of_isEmpty_ofBody,
    fun hne ↦ ?_⟩
  rw [steps_ofBody hslash] at hne
  obtain ⟨before', name', heq, hstep⟩ := exists_trimEnd_eq hne
  refine ⟨p.headSegments ++ before', name', ?_, hstep⟩
  rw [segments_ofBody (by simp [heq]) hslash, heq, List.append_assoc]

/-! ### Joined paths -/

/-- The segments of a path that others are joined to. -/
def lead (base : Path) : List String :=
  if base.text.isEmpty then []
  else if base.text.toList.getLast? == some '/' then base.segments.dropLast
  else base.segments

/-- Behind a slash at the end comes an empty segment. -/
theorem exists_segments_of_slash (h : base.text.toList.getLast? = some '/') :
    ∃ text, base.text = text ++ "/" ∧ base.segments = (Path.mk text).segments ++ [""] := by
  obtain ⟨cs, hcs⟩ := List.getLast?_eq_some_iff.1 h
  have hbase : base.text = String.ofList cs ++ "/" := by
    rw [← String.toList_inj, String.toList_append, String.toList_ofList, hcs]
    rfl
  refine ⟨_, hbase, ?_⟩
  have hpath : base = ⟨String.ofList cs ++ "/" ++ ""⟩ :=
    congrArg Path.mk (hbase.trans String.append_empty.symm)
  rw [hpath, segments_append_slash]
  rfl

theorem segments_join (base : Path) (h : (Path.mk s).isAbsolute = false) :
    (base.join s).segments = base.lead ++ (Path.mk s).segments := by
  rw [join, h, Bool.false_or, lead]
  split
  · rfl
  · split
    · rename_i hlast
      obtain ⟨text, htext, hsegments⟩ := exists_segments_of_slash (beq_iff_eq.1 hlast)
      rw [hsegments, List.dropLast_concat, htext, segments_append_slash]
    · exact segments_append_slash _ _

theorem filter_isStep_lead (base : Path) : base.lead.filter isStep = base.steps := by
  rw [lead]
  split
  · rename_i hempty
    have hbase : base = ⟨""⟩ := congrArg Path.mk (String.isEmpty_iff.1 hempty)
    rw [hbase]
    decide
  · split
    · rename_i hlast
      obtain ⟨text, -, hsegments⟩ := exists_segments_of_slash (beq_iff_eq.1 hlast)
      rw [steps, hsegments, List.dropLast_concat, List.filter_append, List.filter_cons_of_neg (by decide)]
      exact (List.append_nil _).symm
    · rfl

theorem isAbsolute_join (base : Path) (h : (Path.mk s).isAbsolute = false) :
    (base.join s).isAbsolute = base.isAbsolute := by
  rw [join, h, Bool.false_or]
  split
  · rename_i hempty
    have hbase : base = ⟨""⟩ := congrArg Path.mk (String.isEmpty_iff.1 hempty)
    rw [h, hbase]
    rfl
  · rename_i hempty
    have hbegins (rest : String) : base.isAbsolute = (Path.mk (base.text ++ rest)).isAbsolute :=
      isAbsolute_of_isPrefix (by simp [String.toList_append]) (by simpa using hempty)
    split
    · exact (hbegins s).symm
    · rw [String.append_assoc]
      exact (hbegins ("/" ++ s)).symm

/-- The name of the temporary file beside a file. -/
def temporaryName (tag name : String) : String :=
  "." ++ name ++ "." ++ tag ++ ".tmp"

theorem slash_notMem_temporaryName {tag : String} (hname : '/' ∉ name.toList) (htag : '/' ∉ tag.toList) :
    '/' ∉ (temporaryName tag name).toList := by
  simp [temporaryName, String.toList_append, hname, htag]

theorem length_temporaryName (tag name : String) :
    (temporaryName tag name).length = name.length + tag.length + 6 := by
  simp only [temporaryName, String.length_append]
  have hdot : ".".length = 1 := rfl
  have htmp : ".tmp".length = 4 := rfl
  omega

/-- A name of a temporary file is a name, and not that of another file's. -/
theorem isStep_temporaryName (tag name : String) :
    isStep (temporaryName tag name) = true ∧ temporaryName tag name ≠ ".." := by
  have hlength := length_temporaryName tag name
  have hne (s : String) (hs : s.length < 6) : temporaryName tag name ≠ s := fun h ↦ by
    rw [h] at hlength
    omega
  exact ⟨by simp [isStep, hne "" (by decide), hne "." (by decide)], hne ".." (by decide)⟩

theorem temporaryName_injective (tag : String) : Function.Injective (temporaryName tag) := fun a b h ↦ by
  simpa [temporaryName] using h

theorem isAbsolute_of_slash_notMem (h : '/' ∉ s.toList) : (Path.mk s).isAbsolute = false := by
  rw [isAbsolute, beq_eq_false_iff_ne]
  exact fun hhead ↦ h (List.mem_of_mem_head? hhead)

/-- **The temporary file beside a file** is in the same directory. -/
theorem EndsIn.exists_temporary? {tag : String} (h : p.EndsIn before name) (hup : name ≠ "..")
    (htag : '/' ∉ tag.toList) :
    ∃ temporary before', temporary? tag p = some temporary ∧
      temporary.EndsIn before' (temporaryName tag name) ∧
      before'.filter Path.isStep = before.filter Path.isStep ∧
      temporary.isAbsolute = p.isAbsolute := by
  obtain ⟨q, hq, hparent⟩ := h.exists_parent?
  have hname : '/' ∉ name.toList :=
    slash_notMem_of_mem_segments (p := p) (by rw [h.segments]; exact List.mem_concat_self)
  have hslash := slash_notMem_temporaryName hname htag
  have hrelative := isAbsolute_of_slash_notMem hslash
  refine ⟨q.join (temporaryName tag name), q.lead, ?_, ⟨?_, (isStep_temporaryName tag name).1⟩, ?_, ?_⟩
  · rw [temporary?, fileName?_of_segments h.segments h.isStep hup, hq]
    rfl
  · rw [segments_join q hrelative, segments_of_slash_notMem hslash]
  · rw [filter_isStep_lead, hparent.steps]
  · rw [isAbsolute_join q hrelative]
    cases hempty : q.text.isEmpty with
    | true =>
      have hpath : q = ⟨""⟩ := congrArg Path.mk (String.isEmpty_iff.1 hempty)
      rw [hparent.isAbsolute_of_isEmpty hempty, hpath]
      rfl
    | false => exact isAbsolute_of_isPrefix hparent.isPrefix hempty

/-- A path that goes down does not start at the root. -/
theorem IsPlain.isAbsolute (h : p.IsPlain) : p.isAbsolute = false := by
  have hbody := p.headSegments_append_body
  rcases p.head_cases with ⟨-, -, habsolute⟩ | ⟨-, hsegments⟩ | ⟨-, hsegments⟩
  · exact habsolute
  · have hstep := (h "" (by simp [← hbody, hsegments])).1
    cases hstep
  · have hstep := (h "." (by simp [← hbody, hsegments])).1
    cases hstep

end Path

namespace Storage.FileTree

open WorkflowAreas.Path (EndsIn IsParent temporaryName)

variable {t u v : FileTree} {p q : Path} {before way xs ys names : List String} {name s : String}
  {D l m : Location} {c : Cause}

/-! ### Walking into a directory -/

/-- Where a path starts. -/
def start (t : FileTree) (p : Path) : Location :=
  if p.isAbsolute then [] else t.workingDirectory

/-- Why a path is not resolved at all. -/
def refusal? (p : Path) : Option Cause :=
  if p.text.toList.contains '\x00' then some .nulInName
  else if p.text.isEmpty then some .notFound
  else if longestPath < p.text.utf8ByteSize then some .nameTooLong
  else none

theorem walk_eq (t : FileTree) (p : Path) (segments : List String) :
    t.walk p segments = match refusal? p with
      | some c => .error c
      | none => segments.foldlM t.step (t.start p) := by
  rw [walk, refusal?, start]
  split
  · rfl
  · split
    · rfl
    · split
      · rfl
      · rfl

theorem place_of_refusal? (h : refusal? p = some c) : t.place p = .error c := by
  rw [place]
  simp only [walk_eq, h]
  split
  · rfl
  · rfl

theorem locate_of_refusal? (h : refusal? p = some c) : t.locate p = .error c := by
  rw [locate, walk_eq, h]

/-- Follows segments to a directory. -/
def enter (t : FileTree) (l : Location) (segments : List String) : Except Cause Location := do
  let m ← segments.foldlM t.step l
  if t.hasDirectory m then return m else throw .notADirectory

theorem enter_nil (h : t.hasDirectory l = true) : t.enter l [] = .ok l := if_pos h

theorem enter_cons : t.enter l (s :: xs) = t.step l s >>= (t.enter · xs) := by
  rw [enter, List.foldlM_cons]
  cases t.step l s <;> rfl

/-- A file cannot be entered. -/
theorem enter_of_not_hasDirectory (h : t.hasDirectory l = false) (xs : List String) :
    t.enter l xs = .error .notADirectory := by
  cases xs with
  | nil => simp [enter, h]; rfl
  | cons s xs =>
    rw [enter_cons, step, h]
    rfl

theorem hasDirectory_of_enter (h : t.enter l xs = .ok m) : t.hasDirectory m = true := by
  rw [enter] at h
  obtain ⟨k, -, h⟩ := bind_eq_ok_iff.1 h
  split at h
  · rw [← Except.ok.inj h]
    assumption
  · cases h

theorem foldlM_of_enter (h : t.enter l xs = .ok m) : xs.foldlM t.step l = .ok m := by
  rw [enter] at h
  obtain ⟨k, hk, h⟩ := bind_eq_ok_iff.1 h
  split at h
  · rw [hk, Except.ok.inj h]
  · cases h

/-- Where one gets by going down. -/
theorem eq_append_of_enter (hplain : ∀ s ∈ xs, Path.isStep s = true ∧ s ≠ "..")
    (h : t.enter l xs = .ok m) : m = l ++ xs := by
  induction xs generalizing l with
  | nil => rw [← Except.ok.inj (foldlM_of_enter h), List.append_nil]
  | cons s xs ih =>
    obtain ⟨⟨hs, hup⟩, hxs⟩ := List.forall_mem_cons.1 hplain
    rw [enter_cons] at h
    obtain ⟨k, hk, henter⟩ := bind_eq_ok_iff.1 h
    obtain ⟨-, ⟨hnot, -⟩ | ⟨hdots, -⟩ | ⟨-, -, rfl⟩⟩ := step_eq_ok_iff.1 hk
    · simp [hs] at hnot
    · exact absurd hdots hup
    · rw [ih hxs henter, List.append_assoc, List.singleton_append]

theorem enter_append : t.enter l (xs ++ ys) = t.enter l xs >>= (t.enter · ys) := by
  induction xs generalizing l with
  | nil =>
    cases h : t.hasDirectory l with
    | true => rw [enter_nil h]; rfl
    | false =>
      rw [enter_of_not_hasDirectory h, enter_of_not_hasDirectory h]
      rfl
  | cons s xs ih =>
    rw [List.cons_append, enter_cons, enter_cons]
    cases t.step l s with
    | error c => rfl
    | ok k => exact ih

/-- Only steps count for where one gets. -/
theorem enter_filter_isStep (t : FileTree) (l : Location) (xs : List String) :
    t.enter l (xs.filter Path.isStep) = t.enter l xs := by
  induction xs generalizing l with
  | nil => rfl
  | cons s xs ih =>
    cases hs : Path.isStep s with
    | true =>
      rw [List.filter_cons_of_pos hs, enter_cons, enter_cons]
      exact congrArg _ (funext ih)
    | false =>
      rw [List.filter_cons_of_neg (by simp [hs]), ih]
      cases h : t.hasDirectory l with
      | true =>
        rw [enter_cons, step_eq_ok_iff.2 ⟨h, Or.inl ⟨hs, rfl⟩⟩]
        rfl
      | false => rw [enter_of_not_hasDirectory h, enter_of_not_hasDirectory h]

theorem KeepsDirectories.enter (hk : KeepsDirectories t u) (h : t.enter l xs = .ok m) :
    u.enter l xs = .ok m := by
  have hm := hasDirectory_of_enter h
  rw [FileTree.enter, hk.foldlM_step (foldlM_of_enter h) hm, ok_bind, if_pos (hk.hasDirectory m hm)]
  rfl

/-! ### Paths below a directory -/

/-- The path leads from a directory down a way to a name, whether or not something is there. -/
structure Below (t : FileTree) (D : Location) (p : Path) (way : List String) (name : String) : Prop where
  plain : ∀ s ∈ way ++ [name], Path.isStep s = true ∧ s ≠ ".."
  reach : ∃ before lead, p.EndsIn before name ∧ before.filter Path.isStep = lead ++ way ∧
    t.enter (t.start p) lead = .ok D

theorem Below.of_keepsDirectories (h : t.Below D p way name) (hk : KeepsDirectories t u) :
    u.Below D p way name := by
  obtain ⟨before, lead, hends, hfilter, hlead⟩ := h.reach
  refine ⟨h.plain, before, lead, hends, hfilter, ?_⟩
  rw [start, hk.workingDirectory]
  exact hk.enter hlead

theorem Below.length_le (h : t.Below D p way name) : way.length ≤ p.text.length := by
  obtain ⟨before, lead, hends, hfilter, -⟩ := h.reach
  have hbefore := List.length_filter_le Path.isStep before
  have hsegments := p.length_segments_le
  rw [hfilter, List.length_append] at hbefore
  rw [hends.segments, List.length_append, List.length_singleton] at hsegments
  omega

theorem Below.hasDirectory (h : t.Below D p way name) : t.hasDirectory D = true := by
  obtain ⟨_, _, _, _, hlead⟩ := h.reach
  exact hasDirectory_of_enter hlead

theorem Below.exists_endsIn (h : t.Below D p way name) :
    ∃ before, p.EndsIn before name ∧ t.enter (t.start p) before = t.enter D way := by
  obtain ⟨before, lead, hends, hfilter, hlead⟩ := h.reach
  refine ⟨before, hends, ?_⟩
  rw [← enter_filter_isStep, hfilter, enter_append, hlead]
  rfl

theorem Below.ne_dots (h : t.Below D p way name) : name ≠ "." ∧ name ≠ ".." := by
  obtain ⟨hstep, hup⟩ := h.plain name List.mem_concat_self
  refine ⟨fun hdot ↦ ?_, hup⟩
  rw [hdot] at hstep
  cases hstep

/-- The place of a path below a directory. -/
theorem Below.place_eq (h : t.Below D p way name) :
    t.place p = match refusal? p with
      | some c => .error c
      | none => (t.enter D way).map fun l ↦ ⟨l, some name, false⟩ := by
  obtain ⟨before, hends, henter⟩ := h.exists_endsIn
  have hne : name.isEmpty = false := by
    have hstep := hends.isStep
    simp_all [Path.isStep]
  have hback : p.segments.reverse = name :: before.reverse := by
    rw [hends.segments, List.reverse_append, List.reverse_singleton, List.singleton_append]
  simp only [FileTree.place, hback, List.dropWhile_cons, hne, Bool.false_eq_true, if_false,
    List.reverse_reverse, List.head?_cons, walk_eq]
  cases refusal? p with
  | some c => rfl
  | none =>
    dsimp only
    rw [← henter, enter]
    cases before.foldlM t.step (t.start p) with
    | error c => rfl
    | ok l =>
      have hslash : (some name == some "") = false := by simpa using hne
      simp only [ok_bind, hslash]
      cases t.hasDirectory l <;> rfl

/-- The location that a path below a directory names, whether or not something is there. -/
def spot (t : FileTree) (D : Location) (p : Path) (way : List String) (name : String) :
    Except Cause Location :=
  match refusal? p with
  | some c => .error c
  | none => do
    let l ← t.enter D way
    if longestName < name.utf8ByteSize then throw .nameTooLong else return l ++ [name]

/-- Whoever asks for the location at the place of a path below a directory gets this one, without a slash
behind it. -/
theorem Below.place_bind {β : Type} (h : t.Below D p way name) (otherwise : Cause)
    (f : Place → Location → Except Cause β) :
    (do let place ← t.place p; let l ← place.location? otherwise; f place l) =
      (do let l ← t.spot D p way name; f ⟨l.dropLast, some name, false⟩ l) := by
  rw [h.place_eq, spot]
  cases refusal? p with
  | some c => rfl
  | none =>
    cases t.enter D way with
    | error c => rfl
    | ok l =>
      simp only [Except.map, ok_bind, Place.location?, h.ne_dots.1, h.ne_dots.2, decide_false,
        Bool.or_self, Bool.false_eq_true, if_false]
      split
      · rfl
      · simp only [ok_bind, pure_bind, List.dropLast_concat]

theorem Below.makeDirectory_eq (h : t.Below D p way name) :
    t.makeDirectory p = do
      let l ← t.spot D p way name
      if (t.get? l).isSome then throw .alreadyExists else return t.put l .directory := by
  rw [makeDirectory, h.place_bind]
  refine congrArg _ (funext fun l ↦ ?_)
  split
  · rfl
  · rfl

theorem Below.writeFile_eq (h : t.Below D p way name) (bytes : ByteArray) :
    t.writeFile p bytes = do
      let l ← t.spot D p way name
      if t.hasDirectory l then throw .isADirectory else return t.put l (.file bytes) := by
  rw [writeFile, h.place_bind]
  refine congrArg _ (funext fun l ↦ ?_)
  rw [Bool.false_or]
  split
  · rfl
  · rfl

theorem Below.moveFile_eq (h : t.Below D p way name) {source : Path} {bytes : ByteArray}
    (hl : t.locate source = .ok l) (hfile : t.get? l = some (.file bytes)) :
    t.moveFile source p = do
      let m ← t.spot D p way name
      if t.hasDirectory m then throw .isADirectory else return (t.erase l).put m (.file bytes) := by
  have hread : t.readBytes source = .ok bytes := by
    rw [readBytes, hl, ok_bind]
    simp only [hfile]
    rfl
  rw [moveFile, hread, hl, ok_bind, ok_bind, h.place_bind]
  refine congrArg _ (funext fun m ↦ ?_)
  simp only [Bool.false_eq_true, if_false]
  split
  · rfl
  · rfl

theorem Below.locate_eq (h : t.Below D p way name) :
    t.locate p = match refusal? p with
      | some c => .error c
      | none => t.enter D way >>= (t.step · name) := by
  obtain ⟨before, hends, henter⟩ := h.exists_endsIn
  rw [locate, walk_eq, hends.segments]
  cases refusal? p with
  | some c => rfl
  | none =>
    dsimp only
    rw [← henter, enter, List.foldlM_append]
    cases before.foldlM t.step (t.start p) with
    | error c => rfl
    | ok l =>
      simp only [ok_bind, List.foldlM_cons, List.foldlM_nil, bind_pure]
      cases hdir : t.hasDirectory l with
      | true => rfl
      | false =>
        rw [step, hdir]
        rfl

/-! ### Parents and temporary files below a directory -/

/-- The parent of a path below a directory is below it too, until the directory is reached. -/
theorem Below.exists_parent? (h : t.Below D p (way ++ [s]) name) :
    ∃ q, p.parent? = some q ∧ t.Below D q way s ∧ q.text.toList <+: p.text.toList := by
  obtain ⟨before, lead, hends, hfilter, hlead⟩ := h.reach
  obtain ⟨q, hq, hparent⟩ := hends.exists_parent?
  have hsteps : q.steps = lead ++ way ++ [s] := by
    rw [hparent.steps, hfilter, List.append_assoc]
  obtain ⟨before', name', hends'⟩ := hparent.endsIn (by simp [hsteps])
  have hq' : before'.filter Path.isStep ++ [name'] = lead ++ way ++ [s] := by
    rw [← hsteps, Path.steps, hends'.segments, List.filter_append, List.filter_cons_of_pos hends'.isStep]
    rfl
  obtain ⟨hbefore', hname'⟩ := List.append_inj' hq' rfl
  obtain rfl : name' = s := (List.cons.inj hname').1
  refine ⟨q, hq, ⟨fun x hx ↦ h.plain x (List.mem_append_left _ hx), before', lead, hends', hbefore', ?_⟩,
    hparent.isPrefix⟩
  rw [start, Path.isAbsolute_of_isPrefix hparent.isPrefix hends'.isEmpty]
  exact hlead

/-- The parent of a path in the directory is the directory, unless it is left out or cannot be resolved. -/
theorem Below.exists_parent?_of_nil (h : t.Below D p [] name) :
    ∃ q, p.parent? = some q ∧ (q.text.isEmpty = false → refusal? q = none → t.locate q = .ok D) := by
  obtain ⟨before, lead, hends, hfilter, hlead⟩ := h.reach
  obtain ⟨q, hq, hparent⟩ := hends.exists_parent?
  refine ⟨q, hq, fun hne hrefusal ↦ ?_⟩
  rw [locate, walk_eq, hrefusal]
  refine foldlM_of_enter ?_
  rw [← enter_filter_isStep, ← Path.steps, hparent.steps, hfilter, List.append_nil, start,
    Path.isAbsolute_of_isPrefix hparent.isPrefix hne]
  exact hlead

theorem Below.exists_temporary? (h : t.Below D p way name) (htag : '/' ∉ tag.toList) :
    ∃ temporary, temporary? tag p = some temporary ∧
      t.Below D temporary way (temporaryName tag name) := by
  obtain ⟨before, lead, hends, hfilter, hlead⟩ := h.reach
  obtain ⟨temporary, before', htemporary, hends', hbefore', habsolute⟩ :=
    hends.exists_temporary? h.ne_dots.2 htag
  refine ⟨temporary, htemporary, fun s hs ↦ ?_, before', lead, hends', hbefore'.trans hfilter, ?_⟩
  · rcases List.mem_append.1 hs with hs | hs
    · exact h.plain s (List.mem_append_left _ hs)
    · rw [List.mem_singleton.1 hs]
      exact Path.isStep_temporaryName tag name
  · rw [start, habsolute]
    exact hlead

/-! ### Trees in which everything lies in a directory -/

/-- Whatever is there lies in a directory. -/
def WellFormed (t : FileTree) : Prop :=
  ∀ l name, (t.get? (l ++ [name])).isSome = true → t.hasDirectory l = true

/-- The entries of a tree tell whether everything in it lies in a directory. -/
theorem wellFormed_of_entries (h : ∀ e ∈ t.entries, t.hasDirectory e.1.dropLast = true) :
    t.WellFormed := by
  intro l name hsome
  rw [get?, if_neg (by simp), List.lookup_isSome_iff] at hsome
  obtain ⟨e, he, heq⟩ := hsome
  have hdir := h e he
  rwa [← beq_iff_eq.1 heq, List.dropLast_concat] at hdir

namespace WellFormed

/-- Above what is there are directories. -/
theorem hasDirectory (hwf : t.WellFormed) (hxs : xs ≠ []) (h : (t.get? (l ++ xs)).isSome = true) :
    t.hasDirectory l = true := by
  induction xs using List.reverseRecOn with
  | nil => exact absurd rfl hxs
  | append_singleton xs s ih =>
    rw [← List.append_assoc] at h
    have hdir := hwf _ s h
    by_cases hnil : xs = []
    · simpa [hnil] using hdir
    · exact ih hnil (by rw [hasDirectory_iff.1 hdir]; rfl)

/-- **When a way can be gone**: its segments can be names, and it ends in a directory. -/
theorem enter_eq_ok_iff (hwf : t.WellFormed) (hD : t.hasDirectory D = true)
    (hplain : ∀ s ∈ way, Path.isStep s = true ∧ s ≠ "..") :
    t.enter D way = .ok m ↔
      m = D ++ way ∧ (∀ s ∈ way, IsName s) ∧ t.hasDirectory (D ++ way) = true := by
  induction way generalizing D with
  | nil => simp [enter_nil hD, hD, eq_comm]
  | cons s way ih =>
    obtain ⟨hs, hway⟩ := List.forall_mem_cons.1 hplain
    have hassoc : D ++ s :: way = D ++ [s] ++ way := by simp
    rw [enter_cons, bind_eq_ok_iff, List.forall_mem_cons, hassoc]
    constructor
    · rintro ⟨k, hk, henter⟩
      obtain ⟨-, ⟨hnot, -⟩ | ⟨hup, -⟩ | ⟨hname, -, rfl⟩⟩ := step_eq_ok_iff.1 hk
      · simp [hs.1] at hnot
      · exact absurd hup hs.2
      · have hdir : t.hasDirectory (D ++ [s]) = true := by
          by_contra hno
          rw [enter_of_not_hasDirectory (by simpa using hno)] at henter
          cases henter
        obtain ⟨rfl, hnames, hend⟩ := (ih hdir hway).1 henter
        exact ⟨rfl, ⟨hname, hnames⟩, hend⟩
    · rintro ⟨rfl, ⟨hname, hnames⟩, hend⟩
      have hdir : t.hasDirectory (D ++ [s]) = true := by
        by_cases hnil : way = []
        · simpa [hnil] using hend
        · exact hwf.hasDirectory hnil (by rw [hasDirectory_iff.1 hend]; rfl)
      refine ⟨D ++ [s], step_eq_ok_iff.2 ⟨hD, Or.inr (Or.inr ⟨hname, ?_, rfl⟩)⟩,
        (ih hdir hway).2 ⟨rfl, hnames, hend⟩⟩
      rw [hasDirectory_iff.1 hdir]
      rfl

/-- **When a path below a directory can be located**: it can be resolved, and something is there. -/
theorem locate_eq_ok_iff (hwf : t.WellFormed) (h : t.Below D p way name) :
    t.locate p = .ok l ↔ refusal? p = none ∧ l = D ++ (way ++ [name]) ∧
      (∀ s ∈ way ++ [name], IsName s) ∧ (t.get? (D ++ (way ++ [name]))).isSome = true := by
  obtain ⟨hname, hup⟩ := h.plain name List.mem_concat_self
  have hway : ∀ s ∈ way, Path.isStep s = true ∧ s ≠ ".." :=
    fun s hs ↦ h.plain s (List.mem_append_left _ hs)
  rw [h.locate_eq, List.forall_mem_append, List.forall_mem_singleton, ← List.append_assoc]
  cases refusal? p with
  | some c => simp
  | none =>
    simp only [true_and]
    rw [bind_eq_ok_iff]
    constructor
    · rintro ⟨k, hk, hstep⟩
      obtain ⟨rfl, hnames, -⟩ := (hwf.enter_eq_ok_iff h.hasDirectory hway).1 hk
      obtain ⟨-, ⟨hnot, -⟩ | ⟨hdots, -⟩ | ⟨hisname, hsome, rfl⟩⟩ := step_eq_ok_iff.1 hstep
      · simp [hname] at hnot
      · exact absurd hdots hup
      · exact ⟨rfl, ⟨hnames, hisname⟩, hsome⟩
    · rintro ⟨rfl, ⟨hnames, hisname⟩, hsome⟩
      have hdir := hwf _ name hsome
      exact ⟨_, (hwf.enter_eq_ok_iff h.hasDirectory hway).2 ⟨rfl, hnames, hdir⟩,
        step_eq_ok_iff.2 ⟨hdir, Or.inr (Or.inr ⟨hisname, hsome, rfl⟩)⟩⟩

theorem contains_iff (hwf : t.WellFormed) (h : t.Below D p way name) :
    t.contains p = true ↔ refusal? p = none ∧ (∀ s ∈ way ++ [name], IsName s) ∧
      (t.get? (D ++ (way ++ [name]))).isSome = true := by
  have hlocate (l : Location) := hwf.locate_eq_ok_iff (l := l) h
  rw [contains]
  cases hl : t.locate p with
  | ok l =>
    obtain ⟨hrefusal, -, hrest⟩ := (hlocate l).1 hl
    exact iff_of_true rfl ⟨hrefusal, hrest⟩
  | error c =>
    refine iff_of_false Bool.false_ne_true fun hfound ↦ ?_
    cases hl.symm.trans ((hlocate _).2 ⟨hfound.1, rfl, hfound.2⟩)

end WellFormed

end Storage.FileTree

end WorkflowAreas
