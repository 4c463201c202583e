/-!
# Blank characters

One notion of white space serves the whole library: the Unicode property `White_Space`. Marker lines
are cut into words by it, lines are trimmed by it, and a line made of it alone counts as blank.

`trimStart_append` and `trimEnd_append` say that trimming takes blanks away, `exists_trimStart` and
`exists_trimEnd` that it takes nothing else.
-/

namespace WorkflowAreas.Text

/-- Characters with the Unicode property `White_Space`. -/
def isBlank (c : Char) : Bool :=
  let n := c.toNat
  (0x09 ≤ n && n ≤ 0x0d) || n == 0x20 || n == 0x85 || n == 0xa0 || n == 0x1680 ||
    (0x2000 ≤ n && n ≤ 0x200a) || n == 0x2028 || n == 0x2029 || n == 0x202f || n == 0x205f ||
    n == 0x3000

/-- The text after its leading blanks. -/
def trimStart (cs : List Char) : List Char :=
  cs.dropWhile isBlank

/-- The text before its trailing blanks. -/
def trimEnd (cs : List Char) : List Char :=
  (cs.reverse.dropWhile isBlank).reverse

/-- The text between its leading and its trailing blanks. -/
def trim (cs : List Char) : List Char :=
  trimEnd (trimStart cs)

/-- A line that holds nothing but blanks, the empty line among them. -/
def isBlankLine (line : String) : Bool :=
  line.toList.all isBlank

/-- Blanks in front do not matter to trimmed text. -/
theorem trimStart_append {bs cs : List Char} (h : ∀ b ∈ bs, isBlank b = true) :
    trimStart (bs ++ cs) = trimStart cs := by
  induction bs with
  | nil => rfl
  | cons b bs ih =>
    have hb : isBlank b = true := h b List.mem_cons_self
    simpa [trimStart, List.dropWhile_cons, hb] using ih fun c hc ↦ h c (List.mem_cons_of_mem b hc)

/-- Only blanks are trimmed in front. -/
theorem exists_trimStart (cs : List Char) :
    ∃ bs, (∀ b ∈ bs, isBlank b = true) ∧ bs ++ trimStart cs = cs :=
  ⟨cs.takeWhile isBlank, fun b hb ↦ List.all_eq_true.1 List.all_takeWhile b hb,
    List.takeWhile_append_dropWhile⟩

/-- Blanks behind do not matter to trimmed text. -/
theorem trimEnd_append {bs cs : List Char} (h : ∀ b ∈ bs, isBlank b = true) :
    trimEnd (cs ++ bs) = trimEnd cs := by
  have hr : ∀ b ∈ bs.reverse, isBlank b = true := fun b hb ↦ h b (List.mem_reverse.1 hb)
  rw [trimEnd, List.reverse_append]
  exact congrArg List.reverse (trimStart_append hr)

/-- Only blanks are trimmed behind. -/
theorem exists_trimEnd (cs : List Char) :
    ∃ bs, (∀ b ∈ bs, isBlank b = true) ∧ trimEnd cs ++ bs = cs := by
  obtain ⟨bs, hb, h⟩ := exists_trimStart cs.reverse
  refine ⟨bs.reverse, fun b hm ↦ hb b (List.mem_reverse.1 hm), ?_⟩
  have hc := congrArg List.reverse h
  rwa [List.reverse_append, List.reverse_reverse] at hc

/-- A line is blank exactly when trimming leaves nothing of it. -/
theorem isBlankLine_iff {line : String} : isBlankLine line = true ↔ trimStart line.toList = [] := by
  rw [isBlankLine, trimStart, List.all_eq_true]
  generalize line.toList = cs
  induction cs with
  | nil => simp
  | cons c cs ih => by_cases hc : isBlank c = true <;> simp [hc, ← ih]

end WorkflowAreas.Text
