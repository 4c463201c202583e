import Mathlib.Data.List.Sort
import WorkflowAreas.Proofs.Numbering

/-!
# The areas of a file, by line numbers

`Area.extract` is told without any scan: `Area.StandsIn` says what a file shows at the lines that an area
claims for itself, and `Area.IsPartition` that a list of areas accounts for every opening line of a file.

* `Area.mem_extract_iff`: an area of a file is what an opening line opens, given the lines after it;
* `Area.StandsIn.ext`: the file and the number of its opening line determine an area;
* `Area.StandsIn.lt_line`: of two areas the one ends before the other begins;
* `Area.isPartition_iff`: **the areas of a file are the one list that accounts for it**.

Where an area ends is up to the first marker after its opening line, and everything here comes down to
`Area.endLine_eq_filter_getElem?`: that marker stands right after the body, if there is one at all.
-/

namespace WorkflowAreas

/-- The line with number `n`, counted from one, is `l`. -/
def IsLine (ls : List String) (n : Nat) (l : String) : Prop :=
  1 ≤ n ∧ ls[n - 1]? = some l

theorem isLine_succ {ls : List String} {n : Nat} {l : String} :
    IsLine ls (n + 1) l ↔ ls[n]? = some l := by
  rw [IsLine, Nat.add_sub_cancel]
  exact and_iff_right (Nat.le_add_left 1 n)

theorem IsLine.unique {ls : List String} {n : Nat} {l m : String} (hl : IsLine ls n l)
    (hm : IsLine ls n m) : l = m :=
  Option.some.inj (hl.2.symm.trans hm.2)

namespace Area

variable {ls : List String} {a b : Area} {n : Nat}

/-- The line with this number belongs to the area. -/
def Spans (a : Area) (n : Nat) : Prop :=
  a.line ≤ n ∧ n ≤ a.line + a.extent

/-- What a file shows at the lines of an area. -/
structure StandsIn (a : Area) (ls : List String) : Prop where
  isLine_beginLine : IsLine ls a.line a.header.beginLine
  parse?_beginLine : Header.parse? a.header.beginLine = some a.header
  /-- The body follows the opening line. -/
  isLine_body : ∀ i l, a.body[i]? = some l → IsLine ls (a.line + 1 + i) l
  body : ∀ l ∈ a.body, Marker.isEnd l = false ∧ Marker.isBegin l = false
  /-- The closing line follows the body. -/
  isLine_endLine : ∀ e ∈ a.endLine, IsLine ls (a.line + 1 + a.body.length) e
  endLine : ∀ e ∈ a.endLine, Marker.isEnd e = true ∧ Marker.isBegin e = false
  /-- Without a closing line the area ends where another one begins, or at the end of the file. -/
  unclosed : a.endLine = none →
    ∀ l, IsLine ls (a.line + 1 + a.body.length) l → Marker.isBegin l = true

/-- The areas of a list account for the opening lines of a file, and no line is claimed twice. -/
structure IsPartition (ls : List String) (as : List Area) : Prop where
  ascending : as.Pairwise (·.line < ·.line)
  /-- An area begins at every line that opens one, also if the line closes as well, and at no other. -/
  exists_line_iff : ∀ n, (∃ a ∈ as, a.line = n) ↔ ∃ l, IsLine ls n l ∧ (Header.parse? l).isSome = true
  standsIn : ∀ a ∈ as, a.StandsIn ls
  unique : ∀ a ∈ as, ∀ b ∈ as, ∀ n, a.Spans n → b.Spans n → a = b
  outside : ∀ n l, IsLine ls n l → (∀ a ∈ as, ¬a.Spans n) → Marker.isBegin l = false

/-! ### What a file shows at an area -/

theorem mem_extractFrom_iff :
    a ∈ extractFrom n ls ↔ ∃ i l h, ls[i]? = some l ∧ Header.parse? l = some h ∧
      a = opened h (n + i) (ls.drop (i + 1)) := by
  induction ls generalizing n with
  | nil => simp [extractFrom]
  | cons m ls ih =>
    -- a place after the first line is a place in the rest, which is numbered from the next number on
    have hrest : a ∈ extractFrom (n + 1) ls ↔ ∃ i l h, (m :: ls)[i + 1]? = some l ∧
        Header.parse? l = some h ∧ a = opened h (n + (i + 1)) ((m :: ls).drop (i + 2)) := by
      simp only [ih, List.getElem?_cons_succ, List.drop_succ_cons, Nat.add_assoc, Nat.add_comm 1]
    constructor
    · intro ha
      rw [extractFrom] at ha
      cases hp : Header.parse? m with
      | none =>
        rw [hp] at ha
        obtain ⟨i, rest⟩ := hrest.1 ha
        exact ⟨i + 1, rest⟩
      | some g =>
        rw [hp] at ha
        rcases List.mem_cons.1 ha with rfl | ha
        · exact ⟨0, m, g, rfl, hp, rfl⟩
        · obtain ⟨i, rest⟩ := hrest.1 ha
          exact ⟨i + 1, rest⟩
    · rintro ⟨i, l, h, hget, hl, heq⟩
      rw [extractFrom]
      cases i with
      | zero =>
        obtain rfl : m = l := Option.some.inj hget
        rw [hl, heq]
        exact List.mem_cons_self
      | succ i =>
        have hmem := hrest.2 ⟨i, l, h, hget, hl, heq⟩
        cases Header.parse? m with
        | none => exact hmem
        | some g => exact List.mem_cons_of_mem _ hmem

/-- **An area of a file is what an opening line opens**, and its number is that of the line. -/
theorem mem_extract_iff :
    a ∈ extract ls ↔ ∃ i l h, ls[i]? = some l ∧ Header.parse? l = some h ∧
      a = opened h (i + 1) (ls.drop (i + 1)) := by
  simp only [extract_eq, mem_extractFrom_iff, Nat.add_comm 1]

/-- The lines behind a body begin with the marker that ends the area. -/
theorem getElem?_length_body_opened (h : Header) (n : Nat) (ls : List String) :
    ls[(opened h n ls).body.length]? = ls.find? Marker.isBoundary := by
  induction ls with
  | nil => rfl
  | cons l ls ih =>
    cases hl : Marker.isBoundary l with
    | true =>
      rw [opened_cons_of_isBoundary hl, List.find?_cons_of_pos hl]
      rfl
    | false =>
      rw [opened_cons_of_not_isBoundary hl, List.find?_cons_of_neg (by simp [hl])]
      exact ih

/-- **Where an area ends**: at the first marker after its opening line, which closes it unless it opens
another one. -/
theorem endLine_eq_filter_getElem? (ha : a ∈ extract ls) :
    a.endLine = ls[a.line + a.body.length]?.filter (!Marker.isBegin ·) := by
  obtain ⟨i, l, h, -, -, rfl⟩ := mem_extract_iff.1 ha
  have hnext := getElem?_length_body_opened h (i + 1) (ls.drop (i + 1))
  rw [List.getElem?_drop] at hnext
  exact (congrArg (Option.filter (!Marker.isBegin ·)) hnext).symm

/-- The body stands right after the opening line. -/
theorem getElem?_line_add (ha : a ∈ extract ls) {i : Nat} {l : String} (hl : a.body[i]? = some l) :
    ls[a.line + i]? = some l := by
  obtain ⟨k, m, h, -, -, rfl⟩ := mem_extract_iff.1 ha
  obtain ⟨after, hafter⟩ : (opened h (k + 1) (ls.drop (k + 1))).body <+: ls.drop (k + 1) :=
    List.takeWhile_prefix _
  obtain ⟨hi, -⟩ := List.getElem?_eq_some_iff.1 hl
  rw [← hl, ← List.getElem?_append_left hi, hafter, List.getElem?_drop]
  rfl

theorem standsIn_of_mem_extract (ha : a ∈ extract ls) : a.StandsIn ls where
  isLine_beginLine := getElem?_line ha
  parse?_beginLine := (sound_of_mem_extract ha).parse?_beginLine
  isLine_body i l hl := by
    rw [Nat.add_right_comm, isLine_succ]
    exact getElem?_line_add ha hl
  body l hl := Marker.isBoundary_eq_false_iff.1 ((sound_of_mem_extract ha).body l hl)
  isLine_endLine e he := by
    rw [Option.mem_def, endLine_eq_filter_getElem? ha, Option.filter_eq_some_iff] at he
    rw [Nat.add_right_comm, isLine_succ]
    exact he.1
  endLine := (sound_of_mem_extract ha).endLine
  unclosed hnone l hl := by
    rw [Nat.add_right_comm, isLine_succ] at hl
    rw [endLine_eq_filter_getElem? ha, hl, Option.filter_some] at hnone
    simpa using hnone

/-! ### What the lines determine -/

namespace StandsIn

/-- The line right after the body is no line that a longer body could have. -/
theorem not_lt_length_body (ha : a.StandsIn ls) (hb : b.StandsIn ls) (hline : a.line = b.line) :
    ¬a.body.length < b.body.length := by
  intro hlt
  have hl := hb.isLine_body a.body.length _ (List.getElem?_eq_getElem hlt)
  rw [← hline] at hl
  obtain ⟨hend, hbegin⟩ := hb.body _ (List.getElem_mem hlt)
  cases he : a.endLine with
  | none =>
    rw [ha.unclosed he _ hl] at hbegin
    cases hbegin
  | some e =>
    rw [hl.unique (ha.isLine_endLine e he), (ha.endLine e he).1] at hend
    cases hend

theorem body_eq (ha : a.StandsIn ls) (hb : b.StandsIn ls) (hline : a.line = b.line) :
    a.body = b.body := by
  have hlen : a.body.length = b.body.length :=
    Nat.le_antisymm (Nat.not_lt.1 (hb.not_lt_length_body ha hline.symm))
      (Nat.not_lt.1 (ha.not_lt_length_body hb hline))
  refine List.ext_getElem hlen fun i hi hi' ↦ ?_
  have hl := ha.isLine_body i _ (List.getElem?_eq_getElem hi)
  rw [hline] at hl
  exact hl.unique (hb.isLine_body i _ (List.getElem?_eq_getElem hi'))

/-- Where the file shows a closing line, the area has it. -/
theorem endLine_eq_some (ha : a.StandsIn ls) (hb : b.StandsIn ls) (hline : a.line = b.line)
    {e : String} (he : b.endLine = some e) : a.endLine = some e := by
  have hl := hb.isLine_endLine e he
  rw [← hline, ← ha.body_eq hb hline] at hl
  cases ha' : a.endLine with
  | none => exact absurd (ha.unclosed ha' e hl) (by simp [(hb.endLine e he).2])
  | some e' => rw [(ha.isLine_endLine e' ha').unique hl]

/-- **The file and the number of its opening line determine an area.** -/
theorem ext (ha : a.StandsIn ls) (hb : b.StandsIn ls) (hline : a.line = b.line) : a = b := by
  have hbegin := ha.isLine_beginLine
  rw [hline] at hbegin
  have hheader : a.header = b.header := Header.eq_of_beginLine_eq ha.parse?_beginLine
    hb.parse?_beginLine (hbegin.unique hb.isLine_beginLine)
  have hbody : a.body = b.body := ha.body_eq hb hline
  have hend : a.endLine = b.endLine := Option.ext fun e ↦
    ⟨hb.endLine_eq_some ha hline.symm, ha.endLine_eq_some hb hline⟩
  cases a
  cases b
  simp_all only

/-- The lines of an area after its opening line open none. -/
theorem parse?_eq_none (ha : a.StandsIn ls) {l : String} (hl : IsLine ls n l) (hlt : a.line < n)
    (hle : n ≤ a.line + a.extent) : Header.parse? l = none := by
  rw [← Marker.isBegin_eq_false_iff]
  obtain ⟨i, rfl⟩ := Nat.exists_eq_add_of_lt hlt
  rw [Nat.add_right_comm] at hl hle
  by_cases hi : i < a.body.length
  · have hl' := ha.isLine_body i _ (List.getElem?_eq_getElem hi)
    rw [hl.unique hl']
    exact (ha.body _ (List.getElem_mem hi)).2
  · rw [extent] at hle
    cases he : a.endLine with
    | none =>
      rw [he, Option.toList_none, List.length_nil] at hle
      omega
    | some e =>
      rw [he, Option.toList_some, List.length_singleton] at hle
      obtain rfl : i = a.body.length := by omega
      rw [hl.unique (ha.isLine_endLine e he)]
      exact (ha.endLine e he).2

/-- **Of two areas the one ends before the other begins.** -/
theorem lt_line (ha : a.StandsIn ls) (hb : b.StandsIn ls) (hlt : a.line < b.line) :
    a.line + a.extent < b.line := by
  by_contra hle
  have hnone := ha.parse?_eq_none hb.isLine_beginLine hlt (Nat.not_lt.1 hle)
  rw [hb.parse?_beginLine] at hnone
  cases hnone

/-- No line belongs to two areas. -/
theorem eq_of_spans (ha : a.StandsIn ls) (hb : b.StandsIn ls) (han : a.Spans n) (hbn : b.Spans n) :
    a = b := by
  rcases Nat.lt_trichotomy a.line b.line with hlt | heq | hlt
  · have := ha.lt_line hb hlt
    exact absurd (hbn.1.trans han.2) (by omega)
  · exact ha.ext hb heq
  · have := hb.lt_line ha hlt
    exact absurd (han.1.trans hbn.2) (by omega)

end StandsIn

/-! ### The areas of a file -/

/-- An area begins exactly where a line opens one. -/
theorem exists_line_eq_iff (ls : List String) (n : Nat) :
    (∃ a ∈ extract ls, a.line = n) ↔ ∃ l, IsLine ls n l ∧ (Header.parse? l).isSome = true := by
  constructor
  · rintro ⟨a, ha, rfl⟩
    have hs := standsIn_of_mem_extract ha
    exact ⟨_, hs.isLine_beginLine, by rw [hs.parse?_beginLine, Option.isSome_some]⟩
  · rintro ⟨l, ⟨hpos, hget⟩, hl⟩
    obtain ⟨h, hl⟩ := Option.isSome_iff_exists.1 hl
    exact ⟨_, mem_extract_iff.2 ⟨n - 1, l, h, hget, hl, rfl⟩, Nat.sub_add_cancel hpos⟩

theorem isPartition_extract (ls : List String) : IsPartition ls (extract ls) where
  ascending := pairwise_line_extract ls
  exists_line_iff := exists_line_eq_iff ls
  standsIn _ ha := standsIn_of_mem_extract ha
  unique _ ha _ hb _ := (standsIn_of_mem_extract ha).eq_of_spans (standsIn_of_mem_extract hb)
  outside n l hl hout := by
    by_contra hbegin
    rw [Bool.not_eq_false] at hbegin
    obtain ⟨a, ha, rfl⟩ := (exists_line_eq_iff ls n).2 ⟨l, hl, hbegin⟩
    exact hout a ha ⟨Nat.le_refl _, Nat.le_add_right _ _⟩

/-- **The areas of a file are the one list that accounts for it.** -/
theorem isPartition_iff (ls : List String) (as : List Area) :
    IsPartition ls as ↔ as = extract ls := by
  constructor
  · intro h
    have hirrefl : Std.Irrefl fun a b : Area ↦ a.line < b.line := ⟨fun a ↦ Nat.lt_irrefl a.line⟩
    have hantisymm : Std.Antisymm fun a b : Area ↦ a.line < b.line :=
      ⟨fun _ _ hab hba ↦ absurd hab (Nat.lt_asymm hba)⟩
    -- both lists have an area at every opening line, and the file tells which
    refine h.ascending.eq_of_mem_iff (pairwise_line_extract ls) fun a ↦ ⟨fun ha ↦ ?_, fun ha ↦ ?_⟩
    · obtain ⟨b, hb, hline⟩ :=
        (exists_line_eq_iff ls a.line).2 ((h.exists_line_iff a.line).1 ⟨a, ha, rfl⟩)
      rwa [(h.standsIn a ha).ext (standsIn_of_mem_extract hb) hline.symm]
    · obtain ⟨b, hb, hline⟩ :=
        (h.exists_line_iff a.line).2 ((exists_line_eq_iff ls a.line).1 ⟨a, ha, rfl⟩)
      rwa [(standsIn_of_mem_extract ha).ext (h.standsIn b hb) hline.symm]
  · rintro rfl
    exact isPartition_extract ls

end Area

end WorkflowAreas
