import Mathlib.Data.List.Basic
import WorkflowAreas.Text.Document

/-!
# Lines that survive being written

A document is written as a text and read again later. `Layout.Keeps` says which lines come back from that:
none holds a line feed, and where line feeds alone separate lines, none that is followed by one ends in a
carriage return, which would be taken for a part of the separator.

* `lines_ofText_join`: such lines come back as they were, except that an empty last line is not seen
  again without a separator after it (`Layout.reread`);
* `newline_not_mem_of_mem_lines`: lines that were read hold no line feed.
-/

namespace WorkflowAreas.Text

/-- A text is cut in one way at the first place of a character. -/
theorem append_cons_inj {c : Char} {w z x y : List Char} (hw : c ∉ w) (hz : c ∉ z) :
    w ++ c :: x = z ++ c :: y ↔ w = z ∧ x = y := by
  refine ⟨fun h ↦ ?_, fun ⟨hwz, hxy⟩ ↦ by rw [hwz, hxy]⟩
  induction w generalizing z with
  | nil =>
    cases z with
    | nil => exact ⟨rfl, (List.cons.inj h).2⟩
    | cons d z => exact absurd ((List.cons.inj h).1 ▸ List.mem_cons_self) hz
  | cons d w ih =>
    cases z with
    | nil => exact absurd ((List.cons.inj h).1 ▸ List.mem_cons_self) hw
    | cons e z =>
      obtain ⟨rfl, hrest⟩ := List.cons.inj h
      obtain ⟨rfl, hxy⟩ := ih (fun hm ↦ hw (List.mem_cons_of_mem d hm))
        (fun hm ↦ hz (List.mem_cons_of_mem d hm)) hrest
      exact ⟨rfl, hxy⟩

/-! ### Splitting a text -/

theorem splitLines_cons {c : Char} {cs : List Char} (hc : c ≠ '\n')
    (hcs : ∀ rest, c = '\r' → cs ≠ '\n' :: rest) :
    splitLines (c :: cs) =
      match splitLines cs with
      | [] => [[c]]
      | line :: lines => (c :: line) :: lines :=
  splitLines.eq_4 c cs hc hcs

/-- What is left of a line when it is read with a line feed after it. -/
def withoutReturn (line : List Char) : List Char :=
  if line.getLast? = some '\r' then line.dropLast else line

theorem withoutReturn_cons_cons (c d : Char) (cs : List Char) :
    withoutReturn (c :: d :: cs) = c :: withoutReturn (d :: cs) := by
  rw [withoutReturn, withoutReturn, List.getLast?_cons_cons, List.dropLast_cons_cons]
  split <;> rfl

theorem withoutReturn_append_return (line : List Char) : withoutReturn (line ++ ['\r']) = line := by
  rw [withoutReturn, if_pos List.getLast?_concat, List.dropLast_concat]

theorem newline_not_mem_append_return {line : List Char} (h : '\n' ∉ line) (crlf : Bool) :
    '\n' ∉ line ++ (if crlf then ['\r'] else []) := by
  rw [List.mem_append, not_or]
  exact ⟨h, by cases crlf <;> decide⟩

/-- **A line ends at its line feed**, and a carriage return right before that is no part of it. -/
theorem splitLines_append_newline {line : List Char} (h : '\n' ∉ line) (rest : List Char) :
    splitLines (line ++ '\n' :: rest) = withoutReturn line :: splitLines rest := by
  induction line with
  | nil => rfl
  | cons c line ih =>
    rw [List.mem_cons, not_or] at h
    obtain ⟨hc, hline⟩ := h
    cases line with
    | nil =>
      by_cases hr : c = '\r'
      · rw [hr]
        rfl
      · rw [List.singleton_append, splitLines_cons (Ne.symm hc) fun _ h ↦ absurd h hr,
          withoutReturn, if_neg (by simpa using hr)]
        rfl
    | cons d line =>
      -- the next character is no line feed either, so no separator begins here
      have hd : ∀ tail, c = '\r' → d :: line ++ '\n' :: rest ≠ '\n' :: tail := fun tail _ heq ↦
        hline (List.mem_cons.2 (Or.inl (List.cons.inj heq).1.symm))
      rw [List.cons_append, splitLines_cons (Ne.symm hc) hd, ih hline, withoutReturn_cons_cons]

/-- The text after the last separator is one line. -/
theorem splitLines_eq_singleton {line : List Char} (h : '\n' ∉ line) (hne : line ≠ []) :
    splitLines line = [line] := by
  induction line with
  | nil => exact absurd rfl hne
  | cons c line ih =>
    rw [List.mem_cons, not_or] at h
    obtain ⟨hc, hline⟩ := h
    have hnot : ∀ rest, line ≠ '\n' :: rest := fun rest heq ↦ hline (by
      rw [heq]
      exact List.mem_cons_self)
    rw [splitLines_cons (Ne.symm hc) fun rest _ ↦ hnot rest]
    cases line with
    | nil => rfl
    | cons d line => rw [ih hline (List.cons_ne_nil d line)]

theorem newline_not_mem_of_mem_splitLines {cs : List Char} :
    ∀ line ∈ splitLines cs, '\n' ∉ line := by
  fun_induction splitLines cs with
  | case1 => exact fun _ h ↦ absurd h List.not_mem_nil
  | case2 cs ih => exact List.forall_mem_cons.2 ⟨List.not_mem_nil, ih⟩
  | case3 cs ih => exact List.forall_mem_cons.2 ⟨List.not_mem_nil, ih⟩
  | case4 c cs hc _ hnil ih =>
    refine List.forall_mem_singleton.2 fun h ↦ hc (List.mem_singleton.1 h).symm
  | case5 c cs hc _ line lines hcons ih =>
    rw [hcons, List.forall_mem_cons] at ih
    refine List.forall_mem_cons.2 ⟨fun h ↦ ?_, ih.2⟩
    rcases List.mem_cons.1 h with h | h
    · exact hc h.symm
    · exact ih.1 h

/-- Lines that were read hold no line feed. -/
theorem newline_not_mem_of_mem_lines {text l : String} (h : l ∈ (Document.ofText text).lines) :
    '\n' ∉ l.toList := by
  obtain ⟨line, hline, rfl⟩ := List.mem_map.1 h
  rw [String.toList_ofList]
  exact newline_not_mem_of_mem_splitLines line hline

/-! ### Writing lines and reading them again -/

namespace Layout

/-- The lines that a separator follows. -/
def terminated (layout : Layout) (lines : List String) : List String :=
  if layout.finalNewline then lines else lines.dropLast

/-- The lines can be told apart in the text that they make up. -/
structure Keeps (layout : Layout) (lines : List String) : Prop where
  newline : ∀ l ∈ lines, '\n' ∉ l.toList
  return_ : layout.crlf = false → ∀ l ∈ layout.terminated lines, l.toList.getLast? ≠ some '\r'

instance (layout : Layout) (lines : List String) : Decidable (layout.Keeps lines) :=
  decidable_of_iff ((∀ l ∈ lines, '\n' ∉ l.toList) ∧
    (layout.crlf = false → ∀ l ∈ layout.terminated lines, l.toList.getLast? ≠ some '\r'))
    ⟨fun ⟨h₁, h₂⟩ ↦ ⟨h₁, h₂⟩, fun ⟨h₁, h₂⟩ ↦ ⟨h₁, h₂⟩⟩

/-- A line that a layout keeps wherever it stands. -/
def Admits (layout : Layout) (l : String) : Prop :=
  '\n' ∉ l.toList ∧ (layout.crlf = false → l.toList.getLast? ≠ some '\r')

instance (layout : Layout) (l : String) : Decidable (layout.Admits l) :=
  inferInstanceAs (Decidable (_ ∧ _))

theorem keeps_of_admits {layout : Layout} {lines : List String}
    (h : ∀ l ∈ lines, layout.Admits l) : layout.Keeps lines where
  newline l hl := (h l hl).1
  return_ hlf l hl := (h l (by
    rw [terminated] at hl
    split at hl
    · exact hl
    · exact List.dropLast_subset lines hl)).2 hlf

/-- What is read of lines that were written: all of them, but for an empty line at the end of a text that
no separator ends. -/
def reread (layout : Layout) : List String → List String
  | [] => []
  | [l] => if layout.finalNewline || l != "" then [l] else []
  | l :: m :: lines => l :: reread layout (m :: lines)

theorem reread_eq_or (layout : Layout) (lines : List String) :
    layout.reread lines = lines ∨ lines = layout.reread lines ++ [""] := by
  fun_induction reread layout lines with
  | case1 => exact Or.inl rfl
  | case2 l h => exact Or.inl rfl
  | case3 l h =>
    simp only [Bool.or_eq_true, bne_iff_ne, ne_eq, not_or, not_not] at h
    exact Or.inr (by rw [h.2, List.nil_append])
  | case4 l m lines ih =>
    exact ih.imp (congrArg (l :: ·)) (congrArg (l :: ·))

theorem join_nil (layout : Layout) : layout.join [] = "" := by
  simp only [join, String.intercalate_nil, List.isEmpty_nil, Bool.not_true, Bool.and_false,
    Bool.false_eq_true, if_false]

theorem join_singleton (layout : Layout) (l : String) :
    layout.join [l] = if layout.finalNewline then l ++ layout.separator else l := by
  simp only [join, String.intercalate_singleton, List.isEmpty_cons, Bool.not_false, Bool.and_true]

theorem join_cons_cons (layout : Layout) (l m : String) (lines : List String) :
    layout.join (l :: m :: lines) = l ++ layout.separator ++ layout.join (m :: lines) := by
  simp only [join, String.intercalate_cons_cons, List.isEmpty_cons, Bool.not_false, Bool.and_true]
  split
  · rw [String.append_assoc]
  · rfl

/-- A line is followed by a separator if the text has a final one or other lines come after it. -/
theorem join_cons {layout : Layout} {l : String} {lines : List String}
    (h : layout.finalNewline = true ∨ lines ≠ []) :
    layout.join (l :: lines) = l ++ layout.separator ++ layout.join lines := by
  cases lines with
  | nil =>
    rw [join_singleton, if_pos (h.resolve_right (not_not.2 rfl)), join_nil, String.append_empty]
  | cons m lines => exact join_cons_cons layout l m lines

theorem terminated_cons {layout : Layout} {l : String} {lines : List String}
    (h : layout.finalNewline = true ∨ lines ≠ []) :
    layout.terminated (l :: lines) = l :: layout.terminated lines := by
  rw [terminated, terminated]
  split
  · rfl
  · exact List.dropLast_cons_of_ne_nil (h.resolve_left ‹_›)

theorem Keeps.return_head {layout : Layout} {l : String} {lines : List String}
    (h : layout.Keeps (l :: lines)) (hfollow : layout.finalNewline = true ∨ lines ≠ []) :
    layout.crlf = false → l.toList.getLast? ≠ some '\r' := fun hlf ↦
  h.return_ hlf l (by
    rw [terminated_cons hfollow]
    exact List.mem_cons_self)

theorem Keeps.tail {layout : Layout} {l m : String} {lines : List String}
    (h : layout.Keeps (l :: m :: lines)) : layout.Keeps (m :: lines) where
  newline := (List.forall_mem_cons.1 h.newline).2
  return_ hlf k hk := h.return_ hlf k (by
    rw [terminated_cons (Or.inr (List.cons_ne_nil m lines))]
    exact List.mem_cons_of_mem l hk)

theorem toList_separator (layout : Layout) :
    layout.separator.toList = (if layout.crlf then ['\r'] else []) ++ ['\n'] := by
  rw [separator]
  split <;> simp

/-- A line is read up to the separator that follows it. -/
theorem splitLines_append_separator (layout : Layout) {line : List Char} (h : '\n' ∉ line)
    (hr : layout.crlf = false → line.getLast? ≠ some '\r') (rest : List Char) :
    splitLines (line ++ layout.separator.toList ++ rest) = line :: splitLines rest := by
  rw [toList_separator, ← List.append_assoc, List.append_assoc, List.singleton_append,
    splitLines_append_newline (newline_not_mem_append_return h layout.crlf)]
  cases hcrlf : layout.crlf with
  | true => rw [if_pos rfl, withoutReturn_append_return]
  | false => rw [if_neg Bool.false_ne_true, List.append_nil, withoutReturn, if_neg (hr hcrlf)]

end Layout

/-- **Lines that a layout keeps come back.** -/
theorem lines_ofText_join {layout : Layout} {lines : List String} (h : layout.Keeps lines) :
    (Document.ofText (layout.join lines)).lines = layout.reread lines := by
  suffices hsplit : splitLines (layout.join lines).toList = (layout.reread lines).map String.toList by
    rw [Document.ofText, hsplit, List.map_map]
    simp only [Function.comp_def, String.ofList_toList, List.map_id']
  induction lines with
  | nil =>
    rw [Layout.join_nil]
    rfl
  | cons l lines ih =>
    have hl : '\n' ∉ l.toList := h.newline l List.mem_cons_self
    cases lines with
    | nil =>
      rw [Layout.join_singleton, Layout.reread]
      cases hfinal : layout.finalNewline with
      | true =>
        have hsplit := layout.splitLines_append_separator hl (h.return_head (Or.inl hfinal)) []
        rw [List.append_nil] at hsplit
        rw [if_pos rfl, String.toList_append, hsplit]
        rfl
      | false =>
        rw [if_neg Bool.false_ne_true, Bool.false_or]
        by_cases hempty : l = ""
        · rw [hempty]
          rfl
        · rw [if_pos (by simpa using hempty), List.map_singleton]
          exact splitLines_eq_singleton hl (by simpa using hempty)
    | cons m lines =>
      have hfollow : layout.finalNewline = true ∨ m :: lines ≠ [] := Or.inr (List.cons_ne_nil m lines)
      rw [Layout.join_cons hfollow, String.toList_append, String.toList_append,
        layout.splitLines_append_separator hl (h.return_head hfollow), ih h.tail, Layout.reread,
        List.map_cons]

end WorkflowAreas.Text
