import Mathlib.Data.List.Basic
import WorkflowAreas.Proofs.Storage.Replacement

/-!
# The temporary file beside a file

A file is replaced by way of a temporary file whose name is made from its own. `Leads.ne_of_temporary`:
the two are never at one location. The last segment of the temporary path is the name of the file with
something around it (`exists_segments_temporary`), and a location ends in the last segment of a path that
leads there, so the two differ in the length of their names. For this the tag may hold no slash, which
would cut the name.
-/

namespace WorkflowAreas

/-- No piece of a list holds what the list was cut at. -/
theorem notMem_of_mem_splitOn {α : Type} [BEq α] [LawfulBEq α] {a : α} {l piece : List α}
    (h : piece ∈ l.splitOn a) : a ∉ piece := by
  induction l generalizing piece with
  | nil =>
    rw [List.splitOn_nil, List.mem_singleton] at h
    rw [h]
    exact List.not_mem_nil
  | cons x l ih =>
    rw [List.splitOn_cons_eq_if_modifyHead] at h
    split at h
    · rcases List.mem_cons.1 h with rfl | h
      · exact List.not_mem_nil
      · exact ih h
    · rename_i hx
      cases hcut : l.splitOn a with
      | nil => exact absurd hcut (List.splitOn_ne_nil a l)
      | cons first rest =>
        rw [hcut, List.modifyHead_cons] at h
        rw [hcut] at ih
        rcases List.mem_cons.1 h with rfl | h
        · have hne : a ≠ x := fun heq ↦ hx (beq_iff_eq.2 heq.symm)
          exact List.not_mem_cons_of_ne_of_not_mem hne (ih List.mem_cons_self)
        · exact ih (List.mem_cons_of_mem first h)

namespace Path

variable {p : Path} {before : List String} {name segment : String}

theorem slash_notMem_of_mem_segments (h : segment ∈ p.segments) : '/' ∉ segment.toList := by
  obtain ⟨piece, hpiece, rfl⟩ := List.mem_map.1 h
  rw [String.toList_ofList]
  exact notMem_of_mem_splitOn hpiece

/-- A path that goes on after a slash has the segments before and those after it. -/
theorem segments_append_slash (s s' : String) :
    (Path.mk (s ++ "/" ++ s')).segments = (Path.mk s).segments ++ (Path.mk s').segments := by
  have htext : (s ++ "/" ++ s').toList = s.toList ++ '/' :: s'.toList := by
    simp [String.toList_append]
  rw [segments, htext, List.splitOn_append_cons_self, List.map_append]
  rfl

theorem segments_of_slash_notMem (h : '/' ∉ segment.toList) :
    (Path.mk segment).segments = [segment] := by
  rw [segments, List.splitOn_eq_singleton h, List.map_singleton, String.ofList_toList]

/-- A head that is not empty is written in the first segment, which leads nowhere else. -/
theorem exists_head?_segments (h : p.head.isEmpty = false) :
    ∃ first, p.segments.head? = some first ∧ isStep first = false := by
  rw [head] at h
  split at h
  · rename_i habsolute
    rw [isAbsolute, beq_iff_eq, List.head?_eq_some_iff] at habsolute
    obtain ⟨rest, hrest⟩ := habsolute
    refine ⟨"", ?_, rfl⟩
    rw [segments, hrest, List.splitOn_cons_eq_if_modifyHead]
    rfl
  · split at h
    · rename_i hdot
      exact ⟨".", beq_iff_eq.1 hdot, rfl⟩
    · cases h

/-- The last segment is the name of the file, if it can be one. -/
theorem fileName?_of_segments (h : p.segments = before ++ [name]) (hstep : isStep name = true)
    (hup : name ≠ "..") : p.fileName? = some name := by
  have hbody : ∃ before', p.body = before' ++ [name] := by
    rw [body]
    split
    · exact ⟨before, h⟩
    · rename_i hhead
      cases before with
      | nil =>
        -- the only segment would belong to the head
        obtain ⟨first, hfirst, hfirstStep⟩ := exists_head?_segments (by simpa using hhead)
        rw [h, List.nil_append, List.head?_cons] at hfirst
        rw [← Option.some.inj hfirst, hstep] at hfirstStep
        cases hfirstStep
      | cons first before => exact ⟨before, by rw [h, List.cons_append, List.tail_cons]⟩
  obtain ⟨before', hbefore'⟩ := hbody
  have htrim : trimEnd (before' ++ [name]) = before' ++ [name] := by
    rw [trimEnd, List.reverse_append, List.reverse_singleton, List.singleton_append,
      List.dropWhile_cons_of_neg (by simp [hstep]), List.reverse_cons, List.reverse_reverse]
  rw [fileName?, hbefore', htrim, List.getLast?_concat, Option.filter_some_pos (by simpa using hup)]

/-- A name comes last in a path that was joined with it. -/
theorem exists_segments_join (base : Path) (h : '/' ∉ name.toList) :
    ∃ before, (base.join name).segments = before ++ [name] := by
  rw [join]
  split
  · exact ⟨[], segments_of_slash_notMem h⟩
  · split
    · rename_i hlast
      rw [beq_iff_eq, List.getLast?_eq_some_iff] at hlast
      obtain ⟨cs, hcs⟩ := hlast
      have hbase : base.text = String.ofList cs ++ "/" := by
        rw [← String.toList_inj, String.toList_append, String.toList_ofList, hcs]
        rfl
      rw [hbase, segments_append_slash, segments_of_slash_notMem h]
      exact ⟨_, rfl⟩
    · rw [segments_append_slash, segments_of_slash_notMem h]
      exact ⟨_, rfl⟩

end Path

namespace Storage.FileTree

variable {t : FileTree} {p temporary : Path} {k l : Location} {tag : String}

/-- A path leads to one location at most. -/
theorem Leads.unique (hk : t.Leads p k) (hl : t.Leads p l) : k = l := by
  obtain ⟨before, name, directory, hsegments, hwalk, -, -, rfl⟩ := hk
  obtain ⟨before', name', directory', hsegments', hwalk', -, -, rfl⟩ := hl
  obtain ⟨rfl, hnames⟩ := List.append_inj' (hsegments.symm.trans hsegments') rfl
  rw [Except.ok.inj (hwalk.symm.trans hwalk'), hnames]

/-- The temporary path of a path that leads somewhere ends in a longer name. -/
theorem exists_segments_temporary (hl : t.Leads p l) (htag : '/' ∉ tag.toList)
    (h : temporary? tag p = some temporary) :
    ∃ before name, temporary.segments = before ++ ["." ++ name ++ "." ++ tag ++ ".tmp"] ∧
      l.getLast? = some name := by
  obtain ⟨before, name, directory, hsegments, -, -, ⟨hstep, hup, -⟩, rfl⟩ := hl
  rw [temporary?, Path.fileName?_of_segments hsegments hstep hup, Option.map_some] at h
  have hname : '/' ∉ name.toList :=
    Path.slash_notMem_of_mem_segments (by rw [hsegments]; exact List.mem_concat_self)
  have hlonger : '/' ∉ ("." ++ name ++ "." ++ tag ++ ".tmp").toList := by
    simp [String.toList_append, hname, htag]
  obtain ⟨before', hbefore'⟩ := (p.parent?.getD ⟨"."⟩).exists_segments_join hlonger
  exact ⟨before', name, by rw [← Option.some.inj h, hbefore'], List.getLast?_concat⟩

/-- **A file and its temporary file are at different locations.** -/
theorem Leads.ne_of_temporary (hl : t.Leads p l) (htag : '/' ∉ tag.toList)
    (h : temporary? tag p = some temporary) (hk : t.Leads temporary k) : k ≠ l := by
  intro heq
  obtain ⟨before, name, hsegments, hlast⟩ := exists_segments_temporary hl htag h
  obtain ⟨before', name', directory, hsegments', -, -, -, rfl⟩ := hk
  obtain ⟨-, hnames⟩ := List.append_inj' (hsegments.symm.trans hsegments') rfl
  rw [← heq, List.getLast?_concat] at hlast
  have hlength := congrArg String.length (List.cons.inj hnames).1
  have hdot : 0 < ".".length := by decide
  rw [Option.some.inj hlast] at hlength
  simp only [String.length_append] at hlength
  omega

end Storage.FileTree

end WorkflowAreas
