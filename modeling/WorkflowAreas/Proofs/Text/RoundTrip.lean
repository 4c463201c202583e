import WorkflowAreas.Proofs.Text.Lines

/-!
# Texts and lines that come back

Reading a text and writing it are not inverse to each other. A text loses the style of every separator but
the first one, and a list of lines loses what cannot be told apart in the text.

* `toText_ofText_eq_self_iff`: **which texts are written back byte for byte**, namely those with
  separators of one style;
* `lines_ofText_join_eq_self_iff`: **which lines come back**, and that their layout comes back with them
  as far as the text shows it.

Both go from one separator to the next: on texts by `lineInduction`, and on lines by `Layout.join_cons`,
which says when a separator follows the first of them.
-/

namespace WorkflowAreas.Text

/-! ### Texts, line by line -/

/-- A text is a line without a separator, or a line with a line feed after it and another text. -/
theorem lineInduction {P : List Char → Prop} (last : ∀ line, '\n' ∉ line → P line)
    (newline : ∀ line rest, '\n' ∉ line → P rest → P (line ++ '\n' :: rest)) (cs : List Char) :
    P cs := by
  induction hn : cs.length using Nat.strongRecOn generalizing cs with
  | ind n ih =>
    by_cases h : '\n' ∈ cs
    · obtain ⟨line, rest, rfl, hline⟩ := List.eq_append_cons_of_mem h
      refine newline line rest hline (ih rest.length ?_ rest rfl)
      rw [← hn, List.length_append, List.length_cons]
      omega
    · exact last cs h

theorem startsWithCrlf_cons {c : Char} {cs : List Char} (hc : c ≠ '\n')
    (hcs : ∀ rest, c = '\r' → cs ≠ '\n' :: rest) : startsWithCrlf (c :: cs) = startsWithCrlf cs :=
  startsWithCrlf.eq_4 c cs hc hcs

/-- **The first line feed decides on the style.** -/
theorem startsWithCrlf_append_newline {line : List Char} (h : '\n' ∉ line) (rest : List Char) :
    startsWithCrlf (line ++ '\n' :: rest) = (line.getLast? == some '\r') := by
  induction line with
  | nil => rfl
  | cons c line ih =>
    rw [List.mem_cons, not_or] at h
    obtain ⟨hc, hline⟩ := h
    cases line with
    | nil =>
      by_cases hr : c = '\r'
      · rw [hr]
        rfl
      · rw [List.singleton_append, startsWithCrlf_cons (Ne.symm hc) fun _ h ↦ absurd h hr]
        simpa [startsWithCrlf] using hr
    | cons d line =>
      -- the next character is no line feed either, so no separator begins here
      have hd : ∀ tail, c = '\r' → d :: line ++ '\n' :: rest ≠ '\n' :: tail := fun tail _ heq ↦
        hline (List.mem_cons.2 (Or.inl (List.cons.inj heq).1.symm))
      rw [List.cons_append, startsWithCrlf_cons (Ne.symm hc) hd, ih hline, List.getLast?_cons_cons]

theorem splitLines_eq_nil_iff {cs : List Char} : splitLines cs = [] ↔ cs = [] := by
  fun_cases splitLines cs <;> simp

/-! ### Texts that come back -/

/-- All line feeds stand right behind a carriage return, or else none does. -/
def FeedsAre (crlf : Bool) (cs : List Char) : Prop :=
  ∀ u v, cs = u ++ '\n' :: v → (u.getLast? = some '\r' ↔ crlf = true)

theorem feedsAre_of_not_mem {crlf : Bool} {line : List Char} (h : '\n' ∉ line) :
    FeedsAre crlf line := fun u v heq ↦ absurd (by simp [heq]) h

theorem feedsAre_append_newline {crlf : Bool} {line rest : List Char} (h : '\n' ∉ line) :
    FeedsAre crlf (line ++ '\n' :: rest) ↔
      (line.getLast? = some '\r' ↔ crlf = true) ∧ FeedsAre crlf rest := by
  -- what stands before a later line feed ends as it does in the rest alone
  have hlast (u : List Char) : (line ++ '\n' :: u).getLast? = some '\r' ↔ u.getLast? = some '\r' := by
    rw [List.getLast?_append, List.getLast?_cons]
    cases u.getLast? <;> simp
  constructor
  · intro hall
    exact ⟨hall line rest rfl, fun u v heq ↦ by
      rw [← hlast]
      exact hall (line ++ '\n' :: u) v (by rw [heq, List.append_assoc, List.cons_append])⟩
  · rintro ⟨hline, hrest⟩ u v heq
    by_cases hu : '\n' ∈ u
    · obtain ⟨line', u', rfl, hline'⟩ := List.eq_append_cons_of_mem hu
      rw [List.append_assoc, List.cons_append] at heq
      obtain ⟨rfl, rfl⟩ := (append_cons_inj h hline').1 heq
      rw [hlast]
      exact hrest u' v rfl
    · obtain ⟨rfl, -⟩ := (append_cons_inj h hu).1 heq
      exact hline

/-- What is read of a line is made whole again by the separator that the line had, and by no other. -/
theorem withoutReturn_append_iff {crlf : Bool} {line : List Char} :
    withoutReturn line ++ (if crlf then ['\r'] else []) = line ↔
      (line.getLast? = some '\r' ↔ crlf = true) := by
  rw [withoutReturn]
  by_cases hr : line.getLast? = some '\r'
  · have hline : line.dropLast ++ ['\r'] = line := List.dropLast_append_getLast? _ hr
    cases crlf with
    | true => simp [hr, hline]
    | false =>
      have hne : line.dropLast ≠ line := fun heq ↦ by
        rw [heq, List.append_right_eq_self] at hline
        cases hline
      simp [hr, hne]
  · cases crlf with
    | true => simp [hr]
    | false => simp [hr]

/-- A text written again, with separators of one style. -/
def respelled (crlf : Bool) (cs : List Char) : List Char :=
  (Layout.join ⟨crlf, cs.getLast? == some '\n'⟩ ((splitLines cs).map String.ofList)).toList

theorem toList_toText_ofText (text : String) :
    (Document.ofText text).toText.toList = respelled (startsWithCrlf text.toList) text.toList :=
  rfl

theorem respelled_nil (crlf : Bool) : respelled crlf [] = [] :=
  congrArg String.toList (Layout.join_nil _)

theorem respelled_of_not_mem {crlf : Bool} {line : List Char} (h : '\n' ∉ line) :
    respelled crlf line = line := by
  by_cases hnil : line = []
  · rw [hnil, respelled_nil]
  · have hlast : (line.getLast? == some '\n') = false := by
      rw [beq_eq_false_iff_ne]
      exact fun heq ↦ h (List.mem_of_getLast? heq)
    rw [respelled, hlast, splitLines_eq_singleton h hnil, List.map_singleton, Layout.join_singleton,
      if_neg Bool.false_ne_true, String.toList_ofList]

/-- **Writing a text again goes line by line.** -/
theorem respelled_append_newline {crlf : Bool} {line : List Char} (h : '\n' ∉ line)
    (rest : List Char) :
    respelled crlf (line ++ '\n' :: rest) =
      withoutReturn line ++ (if crlf then ['\r'] else []) ++ '\n' :: respelled crlf rest := by
  rw [respelled, splitLines_append_newline h, List.map_cons]
  cases rest with
  | nil =>
    rw [respelled_nil, splitLines, List.map_nil, Layout.join_singleton, List.getLast?_concat,
      if_pos (beq_self_eq_true _), String.toList_append, String.toList_ofList,
      Layout.toList_separator, List.append_assoc]
  | cons c rest =>
    -- the text ends as its rest does
    have hlast : (line ++ '\n' :: c :: rest).getLast? = (c :: rest).getLast? := by
      rw [List.getLast?_append_of_ne_nil _ (List.cons_ne_nil _ _), List.getLast?_cons_cons]
    have hne : (splitLines (c :: rest)).map String.ofList ≠ [] := by
      rw [ne_eq, List.map_eq_nil_iff, splitLines_eq_nil_iff]
      exact List.cons_ne_nil c rest
    rw [Layout.join_cons (Or.inr hne), String.toList_append, String.toList_append,
      String.toList_ofList, Layout.toList_separator, hlast, respelled]
    simp only [List.append_assoc, List.singleton_append]

/-- **A text comes back in one style exactly if that is the style of all its separators.** -/
theorem respelled_eq_self_iff {crlf : Bool} {cs : List Char} :
    respelled crlf cs = cs ↔ FeedsAre crlf cs := by
  induction cs using lineInduction with
  | last line h => exact iff_of_true (respelled_of_not_mem h) (feedsAre_of_not_mem h)
  | newline line rest h ih =>
    have hread : '\n' ∉ withoutReturn line := fun hmem ↦ h (by
      rw [withoutReturn] at hmem
      split at hmem
      · exact List.dropLast_subset line hmem
      · exact hmem)
    rw [respelled_append_newline h, append_cons_inj (newline_not_mem_append_return hread crlf) h,
      withoutReturn_append_iff, ih, feedsAre_append_newline h]

/-- **Which texts are written back byte for byte**: those with separators of one style, all of them
carriage return and line feed, or none. -/
theorem toText_ofText_eq_self_iff (text : String) :
    (Document.ofText text).toText = text ↔
      (∀ u v, text.toList = u ++ '\n' :: v → u.getLast? = some '\r') ∨
        ∀ u v, text.toList = u ++ '\n' :: v → u.getLast? ≠ some '\r' := by
  rw [← String.toList_inj, toList_toText_ofText, respelled_eq_self_iff]
  constructor
  · intro h
    cases hcrlf : startsWithCrlf text.toList with
    | true => exact Or.inl fun u v heq ↦ (h u v heq).2 hcrlf
    | false => exact Or.inr fun u v heq hr ↦ Bool.false_ne_true (hcrlf.symm.trans ((h u v heq).1 hr))
  · -- the first line feed is like the others
    by_cases hmem : '\n' ∈ text.toList
    · obtain ⟨line, rest, htext, hline⟩ := List.eq_append_cons_of_mem hmem
      rw [htext, startsWithCrlf_append_newline hline, ← htext]
      rintro (hall | hnone) u v heq
      · exact iff_of_true (hall u v heq) (beq_iff_eq.2 (hall line rest htext))
      · exact iff_of_false (hnone u v heq) (mt beq_iff_eq.1 (hnone line rest htext))
    · exact fun _ ↦ feedsAre_of_not_mem hmem

/-- The style of the first separator is that of all when the text is written again. -/
example : (Document.ofText "a\nb\r\n\rc").toText = "a\nb\n\rc" := by
  decide +kernel

/-! ### Lines that come back -/

theorem withoutReturn_eq_self_iff {line : List Char} :
    withoutReturn line = line ↔ line.getLast? ≠ some '\r' := by
  simpa using @withoutReturn_append_iff false line

theorem lines_ofText_eq_iff {text : String} {lines : List String} :
    (Document.ofText text).lines = lines ↔ splitLines text.toList = lines.map String.toList := by
  constructor
  · rintro rfl
    simp [Document.ofText, Function.comp_def]
  · intro h
    simp [Document.ofText, h, Function.comp_def]

namespace Layout

variable {layout : Layout} {l : String} {lines : List String}

/-- Where line feeds alone separate lines, a line that comes back has no carriage return before one. -/
theorem return_of_splitLines_join (hlf : layout.crlf = false)
    (hnewline : ∀ l ∈ lines, '\n' ∉ l.toList)
    (h : splitLines (layout.join lines).toList = lines.map String.toList) :
    ∀ l ∈ layout.terminated lines, l.toList.getLast? ≠ some '\r' := by
  induction lines with
  | nil => simp [terminated]
  | cons l lines ih =>
    obtain ⟨hl, hlines⟩ := List.forall_mem_cons.1 hnewline
    by_cases hfollow : layout.finalNewline = true ∨ lines ≠ []
    · have hseparator : layout.separator.toList = ['\n'] := by simp [toList_separator, hlf]
      rw [join_cons hfollow, String.toList_append, String.toList_append, hseparator,
        List.append_assoc, List.singleton_append, splitLines_append_newline hl, List.map_cons] at h
      obtain ⟨hhead, htail⟩ := List.cons.inj h
      rw [terminated_cons hfollow]
      exact List.forall_mem_cons.2 ⟨withoutReturn_eq_self_iff.1 hhead, ih hlines htail⟩
    · -- a single line that nothing follows
      rw [not_or, not_not] at hfollow
      rw [hfollow.2, terminated, if_neg hfollow.1]
      simp

theorem Keeps.of_lines_eq (h : (Document.ofText (layout.join lines)).lines = lines) :
    layout.Keeps lines := by
  have hnewline : ∀ l ∈ lines, '\n' ∉ l.toList := fun l hl ↦
    newline_not_mem_of_mem_lines (h.symm ▸ hl)
  exact ⟨hnewline, fun hlf ↦ return_of_splitLines_join hlf hnewline (lines_ofText_eq_iff.1 h)⟩

/-- Of lines that are kept only an empty last one can be lost. -/
theorem reread_eq_self_iff :
    layout.reread lines = lines ↔
      lines = [] ∨ layout.finalNewline = true ∨ lines.getLast? ≠ some "" := by
  fun_induction reread layout lines with
  | case1 => simp
  | case2 l h => simpa using h
  | case3 l h => simpa using h
  | case4 l m lines ih =>
    rw [List.getLast?_cons_cons, List.cons_eq_cons, and_iff_right rfl, ih]
    simp

/-! ### The layout of lines that come back -/

theorem startsWithCrlf_append_separator (layout : Layout) {line : List Char} (h : '\n' ∉ line)
    (hr : layout.crlf = false → line.getLast? ≠ some '\r') (rest : List Char) :
    startsWithCrlf (line ++ layout.separator.toList ++ rest) = layout.crlf := by
  rw [toList_separator, ← List.append_assoc, List.append_assoc, List.singleton_append,
    startsWithCrlf_append_newline (newline_not_mem_append_return h layout.crlf)]
  cases hcrlf : layout.crlf with
  | true => rw [if_pos rfl, List.getLast?_concat, beq_self_eq_true]
  | false => rw [if_neg Bool.false_ne_true, List.append_nil, beq_eq_false_iff_ne.2 (hr hcrlf)]

/-- **The style is seen in any text that has a separator.** -/
theorem crlf_ofText_join (h : layout.Keeps lines) (hmem : '\n' ∈ (layout.join lines).toList) :
    (Layout.ofText (layout.join lines)).crlf = layout.crlf := by
  cases lines with
  | nil => simp [join_nil] at hmem
  | cons l lines =>
    have hl := h.newline l List.mem_cons_self
    by_cases hfollow : layout.finalNewline = true ∨ lines ≠ []
    · rw [Layout.ofText, join_cons hfollow, String.toList_append, String.toList_append,
        startsWithCrlf_append_separator layout hl (h.return_head hfollow)]
    · rw [not_or, not_not] at hfollow
      rw [hfollow.2, join_singleton, if_neg hfollow.1] at hmem
      exact absurd hmem hl

/-- A text ends as its last line does. -/
theorem exists_join_concat (layout : Layout) (front : List String) (l : String) :
    ∃ s, layout.join (front ++ [l]) = s ++ layout.join [l] := by
  induction front with
  | nil => exact ⟨"", (String.empty_append).symm⟩
  | cons k front ih =>
    obtain ⟨s, hs⟩ := ih
    rw [List.cons_append, join_cons (Or.inr (List.append_ne_nil_of_right_ne_nil _
      (List.cons_ne_nil l []))), hs]
    exact ⟨k ++ layout.separator ++ s, (String.append_assoc ..).symm⟩

/-- **Whether a separator ends the text is seen from the text.** -/
theorem finalNewline_ofText_join (h : layout.Keeps lines) (hne : lines ≠ [])
    (hlast : layout.finalNewline = true ∨ lines.getLast? ≠ some "") :
    (Layout.ofText (layout.join lines)).finalNewline = layout.finalNewline := by
  obtain ⟨front, l, rfl⟩ := (List.eq_nil_or_concat' lines).resolve_left hne
  obtain ⟨s, hs⟩ := layout.exists_join_concat front l
  rw [Layout.ofText, hs, join_singleton]
  cases hfinal : layout.finalNewline with
  | true =>
    rw [if_pos rfl, String.toList_append, String.toList_append, toList_separator, ← List.append_assoc,
      ← List.append_assoc, List.getLast?_concat, beq_self_eq_true]
  | false =>
    have hl : l.toList ≠ [] := by
      rw [hfinal, List.getLast?_concat] at hlast
      simpa using hlast
    rw [if_neg Bool.false_ne_true, String.toList_append, List.getLast?_append_of_ne_nil _ hl,
      beq_eq_false_iff_ne]
    exact fun heq ↦ h.newline l (by simp) (List.mem_of_getLast? heq)

end Layout

/-- **Which lines come back**: those without a line feed, and in a text with line feeds alone without a
carriage return where one follows, if the last one is not empty or has a separator after it. The layout is
seen then, the style of separators if there is one. -/
theorem lines_ofText_join_eq_self_iff (layout : Layout) (lines : List String) :
    ((Document.ofText (layout.join lines)).lines = lines ↔
      (∀ l ∈ lines, '\n' ∉ l.toList) ∧
      (layout.crlf = false → ∀ l ∈ layout.terminated lines, l.toList.getLast? ≠ some '\r') ∧
      (lines = [] ∨ layout.finalNewline = true ∨ lines.getLast? ≠ some "")) ∧
    ((Document.ofText (layout.join lines)).lines = lines → lines ≠ [] →
      (Document.ofText (layout.join lines)).layout.finalNewline = layout.finalNewline ∧
      ('\n' ∈ (layout.join lines).toList →
        (Document.ofText (layout.join lines)).layout.crlf = layout.crlf)) := by
  have hiff : layout.Keeps lines → ((Document.ofText (layout.join lines)).lines = lines ↔
      lines = [] ∨ layout.finalNewline = true ∨ lines.getLast? ≠ some "") := fun hkeeps ↦ by
    rw [lines_ofText_join hkeeps, Layout.reread_eq_self_iff]
  refine ⟨⟨fun h ↦ ?_, fun ⟨hnewline, hreturn, hlast⟩ ↦ (hiff ⟨hnewline, hreturn⟩).2 hlast⟩,
    fun h hne ↦ ?_⟩
  · have hkeeps := Layout.Keeps.of_lines_eq h
    exact ⟨hkeeps.newline, hkeeps.return_, (hiff hkeeps).1 h⟩
  · have hkeeps := Layout.Keeps.of_lines_eq h
    exact ⟨Layout.finalNewline_ofText_join hkeeps hne (((hiff hkeeps).1 h).resolve_left hne),
      Layout.crlf_ofText_join hkeeps⟩

/-- Lines that come back although one ends in a carriage return and one is empty. -/
theorem lines_ofText_join_eq_self_iff_sample :
    let layout : Layout := ⟨true, false⟩
    let lines := ["a\r", "", "b"]
    (Document.ofText (layout.join lines)).lines = lines ∧ lines ≠ [] ∧
      '\n' ∈ (layout.join lines).toList ∧
      (Document.ofText (layout.join lines)).layout.finalNewline = false ∧
      (Document.ofText (layout.join lines)).layout.crlf = true := by
  intro layout lines
  obtain ⟨hiff, hlayout⟩ := lines_ofText_join_eq_self_iff layout lines
  have hlines : (Document.ofText (layout.join lines)).lines = lines :=
    hiff.2 ⟨by decide, nofun, by decide⟩
  have hne : lines ≠ [] := by decide
  have hmem : '\n' ∈ (layout.join lines).toList := by decide +kernel
  exact ⟨hlines, hne, hmem, (hlayout hlines hne).1, (hlayout hlines hne).2 hmem⟩

end WorkflowAreas.Text
