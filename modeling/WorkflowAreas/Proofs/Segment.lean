import WorkflowAreas.Proofs.Scanning

/-!
# Files cut into segments

A file is a sequence of segments: lines outside of every area, and areas. `Area.extract` keeps the areas
alone; `Segment.cut` keeps the lines between them as well, so the file can be put together again.

* `flatten_cut`: the segments of a file, written one after the other, are the file;
* `areas_cut`: its area segments are the areas that `Area.extract` finds;
* `Segment.sound_of_mem_cut`: a line outside an area opens none, and an area has no marker in its body.

**The cut is structural.** An area takes up several lines, so the recursion carries the number of lines
that still belong to the area before. Every induction below is on the lines, for all such numbers.
-/

namespace WorkflowAreas

/-! ### Opening lines -/

namespace Clause

theorem isSome_after?_of_parse? {cs : List Char} {clause : Clause}
    (h : parse? cs = some clause) : (after? "BEGIN " cs).isSome = true := by
  cases ha : after? "BEGIN " cs with
  | none =>
    rw [parse?, ha] at h
    cases h
  | some rest => rfl

/-- Text with a clause has a letter, wherever the clause begins. -/
theorem mem_of_find?_eq_some {cs lead : List Char} {clause : Clause}
    (h : find? cs = some (lead, clause)) : 'B' ∈ cs := by
  induction cs generalizing lead with
  | nil => cases h
  | cons c cs ih =>
    rw [find?] at h
    cases hp : parse? (c :: cs) with
    | some found =>
      have hword := isSome_after?_of_parse? hp
      rw [after?, List.isSome_isPrefixOf?_eq_isPrefixOf, List.isPrefixOf_iff_prefix] at hword
      exact hword.subset (by decide)
    | none =>
      simp only [hp] at h
      split at h
      · cases h
      · obtain ⟨⟨lead', clause'⟩, hfind, hsame⟩ := Option.map_eq_some_iff.1 h
        obtain ⟨-, rfl⟩ := Prod.mk.inj hsame
        exact List.mem_cons_of_mem c (ih hfind)

end Clause

namespace Header

/-- A header keeps the line that it was read from. -/
theorem beginLine_of_parse? {line : String} {h : Header} (hp : parse? line = some h) :
    h.beginLine = line := by
  rw [parse?, Option.map_eq_some_iff] at hp
  obtain ⟨⟨lead, clause⟩, -, rfl⟩ := hp
  rfl

theorem parse?_beginLine {line : String} {h : Header} (hp : parse? line = some h) :
    parse? h.beginLine = some h := by
  rw [beginLine_of_parse? hp, hp]

/-- **The opening line says all that a header says.** -/
theorem eq_of_beginLine_eq {g h : Header} (hg : parse? g.beginLine = some g)
    (hh : parse? h.beginLine = some h) (heq : g.beginLine = h.beginLine) : g = h := by
  rw [heq, hh] at hg
  exact (Option.some.inj hg).symm

/-- **An opening line is not blank.** -/
theorem isBlankLine_eq_false_of_parse? {line : String} {h : Header} (hp : parse? line = some h) :
    Text.isBlankLine line = false := by
  rw [parse?, Option.map_eq_some_iff] at hp
  obtain ⟨⟨lead, clause⟩, hfind, -⟩ := hp
  rw [Text.isBlankLine, List.all_eq_false]
  exact ⟨'B', Clause.mem_of_find?_eq_some hfind, by decide⟩

end Header

namespace Marker

theorem isBegin_eq_false_iff {line : String} : isBegin line = false ↔ Header.parse? line = none := by
  rw [isBegin, Option.isSome_eq_false_iff, Option.isNone_iff_eq_none]

theorem isBoundary_eq_false_iff {line : String} :
    isBoundary line = false ↔ isEnd line = false ∧ isBegin line = false :=
  Bool.or_eq_false_iff

theorem parse?_eq_none_of_not_isBoundary {line : String} (h : isBoundary line = false) :
    Header.parse? line = none :=
  isBegin_eq_false_iff.1 (isBoundary_eq_false_iff.1 h).2

end Marker

/-! ### The lines of an area -/

namespace Area

/-- The lines of an area, its markers among them. -/
def lines (a : Area) : List String :=
  a.header.beginLine :: (a.body ++ a.endLine.toList)

/-- The number of lines that belong to an area after its opening line. -/
def extent (a : Area) : Nat :=
  a.body.length + a.endLine.toList.length

/-- What holds of an area that was read from a file: its header is what its opening line says, its
body has no marker, and its closing line closes and does not open. -/
structure Sound (a : Area) : Prop where
  parse?_beginLine : Header.parse? a.header.beginLine = some a.header
  body : ∀ l ∈ a.body, Marker.isBoundary l = false
  endLine : ∀ e ∈ a.endLine, Marker.isEnd e = true ∧ Marker.isBegin e = false

/-- The markers of an area are marker lines. -/
theorem Sound.isBoundary_beginLine {a : Area} (h : a.Sound) :
    Marker.isBoundary a.header.beginLine = true := by
  rw [Marker.isBoundary, Marker.isBegin, h.parse?_beginLine, Option.isSome_some, Bool.or_true]

theorem Sound.isBoundary_endLine {a : Area} (h : a.Sound) :
    ∀ e ∈ a.endLine, Marker.isBoundary e = true := by
  intro e he
  rw [Marker.isBoundary, (h.endLine e he).1, Bool.true_or]

theorem isTerminated_iff {a : Area} : a.isTerminated = true ↔ ∃ e, a.endLine = some e :=
  Option.isSome_iff_exists

/-- A marker right after an opening line ends the area, and closes it unless it opens another one. -/
theorem opened_cons_of_isBoundary {l : String} (hl : Marker.isBoundary l = true) (h : Header)
    (n : Nat) (ls : List String) :
    opened h n (l :: ls) = ⟨h, [], (some l).filter (!Marker.isBegin ·), n⟩ := by
  rw [opened, List.takeWhile_cons_of_neg (by simpa using hl), List.find?_cons_of_pos hl]

/-- Any other line is the first one of the body. -/
theorem opened_cons_of_not_isBoundary {l : String} (hl : Marker.isBoundary l = false) (h : Header)
    (n : Nat) (ls : List String) :
    opened h n (l :: ls) = ⟨h, l :: (opened h n ls).body, (opened h n ls).endLine, n⟩ := by
  rw [opened, List.takeWhile_cons_of_pos (by simpa using hl),
    List.find?_cons_of_neg (by simpa using hl), opened]

theorem extent_opened_cons {l : String} (hl : Marker.isBoundary l = false) (h : Header)
    (n : Nat) (ls : List String) :
    (opened h n (l :: ls)).extent = (opened h n ls).extent + 1 := by
  rw [opened_cons_of_not_isBoundary hl]
  exact Nat.add_right_comm _ _ _

/-- An area takes its body and its closing line from the lines that follow its opening line. -/
theorem body_append_endLine_opened (h : Header) (n : Nat) (ls : List String) :
    (opened h n ls).body ++ (opened h n ls).endLine.toList = ls.take (opened h n ls).extent := by
  induction ls with
  | nil => rfl
  | cons l ls ih =>
    cases hl : Marker.isBoundary l with
    | true =>
      rw [opened_cons_of_isBoundary hl, extent, Option.filter_some]
      split <;> rfl
    | false =>
      rw [extent_opened_cons hl, opened_cons_of_not_isBoundary hl, List.cons_append, ih,
        List.take_succ_cons]

theorem sound_opened {l : String} {h : Header} (hp : Header.parse? l = some h) (n : Nat)
    (ls : List String) : (opened h n ls).Sound where
  parse?_beginLine := Header.parse?_beginLine hp
  -- the body stops short of the first marker, and the closing line is that marker
  body m hm := by
    have hnot := List.all_eq_true.1 (List.all_takeWhile (p := (!Marker.isBoundary ·))) m hm
    simpa using hnot
  endLine e he := by
    obtain ⟨hfind, hbegin⟩ := Option.filter_eq_some_iff.1 he
    have hbound := List.find?_some hfind
    rw [Bool.not_eq_true'] at hbegin
    rw [Marker.isBoundary, hbegin, Bool.or_false] at hbound
    exact ⟨hbound, hbegin⟩

end Area

/-! ### Segments -/

/-- A piece of a file. -/
inductive Segment
  /-- A line outside of every area. -/
  | text (line : String)
  | area (a : Area)
deriving DecidableEq

namespace Segment

/-- The lines of a segment. -/
def lines : Segment → List String
  | text l => [l]
  | area a => a.lines

/-- The area that a segment is, if it is one. -/
def area? : Segment → Option Area
  | text _ => none
  | area a => some a

/-- The areas among segments. -/
def areas (segments : List Segment) : List Area :=
  segments.filterMap area?

/-- The file that segments make up. -/
def flatten (segments : List Segment) : List String :=
  segments.flatMap lines

/-- What holds of a segment that was cut from a file. -/
def Sound : Segment → Prop
  | text l => Header.parse? l = none
  | area a => a.Sound

/-- Cuts lines that are numbered from `n` on. The first `skip` of them belong to the area before. -/
def cutFrom (n : Nat) : Nat → List String → List Segment
  | _, [] => []
  | skip + 1, _ :: ls => cutFrom (n + 1) skip ls
  | 0, l :: ls =>
    match Header.parse? l with
    | none => text l :: cutFrom (n + 1) 0 ls
    | some h => area (Area.opened h n ls) :: cutFrom (n + 1) (Area.opened h n ls).extent ls

/-- The segments of a file, in order. -/
def cut (ls : List String) : List Segment :=
  cutFrom 1 0 ls

@[simp] theorem areas_nil : areas [] = [] := rfl

@[simp] theorem areas_text_cons (l : String) (D : List Segment) :
    areas (text l :: D) = areas D := rfl

@[simp] theorem areas_area_cons (a : Area) (D : List Segment) :
    areas (area a :: D) = a :: areas D := rfl

@[simp] theorem areas_append (D E : List Segment) : areas (D ++ E) = areas D ++ areas E :=
  List.filterMap_append

@[simp] theorem areas_map_text (ls : List String) : areas (ls.map text) = [] := by
  induction ls with
  | nil => rfl
  | cons l ls ih => rw [List.map_cons, areas_text_cons, ih]

theorem mem_areas {a : Area} {D : List Segment} : a ∈ areas D ↔ area a ∈ D := by
  rw [areas, List.mem_filterMap]
  constructor
  · rintro ⟨s, hs, ha⟩
    cases s with
    | text l => cases ha
    | area b =>
      obtain rfl : b = a := Option.some.inj ha
      exact hs
  · exact fun h ↦ ⟨area a, h, rfl⟩

@[simp] theorem flatten_nil : flatten [] = [] := rfl

@[simp] theorem flatten_cons (s : Segment) (D : List Segment) :
    flatten (s :: D) = s.lines ++ flatten D :=
  List.flatMap_cons

@[simp] theorem flatten_append (D E : List Segment) : flatten (D ++ E) = flatten D ++ flatten E :=
  List.flatMap_append

@[simp] theorem flatten_map_text (ls : List String) : flatten (ls.map text) = ls := by
  induction ls with
  | nil => rfl
  | cons l ls ih => rw [List.map_cons, flatten_cons, ih, lines, List.singleton_append]

/-- Writing segment by segment what becomes of them is writing what becomes of all. -/
theorem flatten_flatMap (f : Segment → List Segment) (D : List Segment) :
    flatten (D.flatMap f) = D.flatMap fun s ↦ flatten (f s) :=
  List.flatMap_assoc

/-! ### What a cut keeps -/

theorem flatten_cutFrom (n skip : Nat) (ls : List String) :
    flatten (cutFrom n skip ls) = ls.drop skip := by
  induction ls generalizing n skip with
  | nil => simp [cutFrom]
  | cons l ls ih =>
    cases skip with
    | succ skip => rw [cutFrom, ih, List.drop_succ_cons]
    | zero =>
      rw [cutFrom, List.drop_zero]
      cases hp : Header.parse? l with
      | none =>
        simp only [flatten_cons, ih, List.drop_zero]
        rfl
      | some h =>
        simp only [flatten_cons, ih]
        -- the area has the lines that the rest of the cut leaves out
        rw [lines, Area.lines, Area.body_append_endLine_opened, List.cons_append,
          List.take_append_drop]
        exact congrArg (· :: ls) (Header.beginLine_of_parse? hp)

/-- **Nothing is lost**: the segments of a file make up the file. -/
theorem flatten_cut (ls : List String) : flatten (cut ls) = ls :=
  flatten_cutFrom 1 0 ls

/-- Lines that open no area have no part in the areas of a file. -/
theorem extractFrom_append {front : List String} (hf : ∀ l ∈ front, Header.parse? l = none)
    (n : Nat) (ls : List String) :
    Area.extractFrom n (front ++ ls) = Area.extractFrom (n + front.length) ls := by
  induction front generalizing n with
  | nil => rfl
  | cons l front ih =>
    have hl : Header.parse? l = none := hf l List.mem_cons_self
    rw [List.cons_append, Area.extractFrom, hl]
    simp only
    rw [ih (fun m hm ↦ hf m (List.mem_cons_of_mem l hm)), List.length_cons, Nat.add_assoc,
      Nat.add_comm 1]

/-- The lines that an area takes up after its opening line open none. -/
theorem parse?_eq_none_of_mem_take {l : String} {h : Header} (hp : Header.parse? l = some h)
    (n : Nat) (ls : List String) :
    ∀ m ∈ ls.take (Area.opened h n ls).extent, Header.parse? m = none := by
  intro m hm
  have hsound := Area.sound_opened hp n ls
  rw [← Area.body_append_endLine_opened, List.mem_append, Option.mem_toList] at hm
  rcases hm with hm | hm
  · exact Marker.parse?_eq_none_of_not_isBoundary (hsound.body m hm)
  · exact Marker.isBegin_eq_false_iff.1 (hsound.endLine m hm).2

theorem areas_cutFrom (n skip : Nat) (ls : List String) :
    areas (cutFrom n skip ls) = Area.extractFrom (n + skip) (ls.drop skip) := by
  induction ls generalizing n skip with
  | nil => simp [cutFrom, Area.extractFrom]
  | cons l ls ih =>
    cases skip with
    | succ skip =>
      rw [cutFrom, ih, List.drop_succ_cons, Nat.add_assoc, Nat.add_comm 1]
    | zero =>
      rw [cutFrom, List.drop_zero, Area.extractFrom]
      cases hp : Header.parse? l with
      | none => simp only [areas_text_cons, ih, List.drop_zero, Nat.add_zero]
      | some h =>
        simp only [areas_area_cons, ih]
        -- the lines of this area open no other one, so both sides go on after them
        have hskip := extractFrom_append (parse?_eq_none_of_mem_take hp n ls) (n + 1)
          (ls.drop (Area.opened h n ls).extent)
        rw [List.take_append_drop] at hskip
        have hlen : (ls.take (Area.opened h n ls).extent).length = (Area.opened h n ls).extent := by
          rw [← Area.body_append_endLine_opened, List.length_append]
          rfl
        rw [hskip, hlen]
        rfl

/-- **The area segments of a file are its areas.** -/
theorem areas_cut (ls : List String) : areas (cut ls) = Area.extract ls :=
  (areas_cutFrom 1 0 ls).trans (Area.extract_eq ls).symm

theorem sound_of_mem_cutFrom {n skip : Nat} {ls : List String} :
    ∀ s ∈ cutFrom n skip ls, s.Sound := by
  induction ls generalizing n skip with
  | nil => simp [cutFrom]
  | cons l ls ih =>
    cases skip with
    | succ skip => exact ih
    | zero =>
      rw [cutFrom]
      cases hp : Header.parse? l with
      | none =>
        intro s hs
        rcases List.mem_cons.1 hs with rfl | hs
        · exact hp
        · exact ih s hs
      | some h =>
        intro s hs
        rcases List.mem_cons.1 hs with rfl | hs
        · exact Area.sound_opened hp n ls
        · exact ih s hs

/-- **Markers stand where segments say.** -/
theorem sound_of_mem_cut {ls : List String} : ∀ s ∈ cut ls, s.Sound :=
  sound_of_mem_cutFrom

end Segment

/-- The areas of a file are sound. -/
theorem Area.sound_of_mem_extract {ls : List String} {a : Area} (h : a ∈ Area.extract ls) :
    a.Sound := by
  rw [← Segment.areas_cut, Segment.mem_areas] at h
  exact Segment.sound_of_mem_cut _ h

end WorkflowAreas
