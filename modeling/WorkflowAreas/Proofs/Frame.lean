import Mathlib.Data.List.Nodup
import WorkflowAreas.Proofs.Segment

/-!
# The frames of a file

The frame of an area is its markers: the header and the closing line, without the body. Whether two
files agree is a matter of their frames alone, and the frames of a file are a matter of its marker lines
alone.

* `frames_eq_of_filter_eq`: files with the same marker lines have the same frames, so lines that are no
  markers may come, go and change (`frames_insert`, `frames_map`);
* `frames_flatten`: segments in good order make up a file with the frames of their areas.

`Descends` relates a file to one that it comes from, and `Tidy` is the good order: what every file has
that passes the check against some template.
-/

namespace WorkflowAreas

/-- The markers of an area: its header and its closing line. -/
def Area.frame (a : Area) : Header × Option String :=
  (a.header, a.endLine)

theorem Area.header_eq_of_frame_eq {a b : Area} (h : a.frame = b.frame) : a.header = b.header :=
  congrArg Prod.fst h

theorem Area.endLine_eq_of_frame_eq {a b : Area} (h : a.frame = b.frame) : a.endLine = b.endLine :=
  congrArg Prod.snd h

theorem Area.isTerminated_of_frame_eq {a b : Area} (h : a.frame = b.frame)
    (ha : a.isTerminated = true) : b.isTerminated = true := by
  rwa [isTerminated, ← endLine_eq_of_frame_eq h]

/-- Areas with no frames but those of closed areas are closed. -/
theorem Area.isTerminated_of_subset {as bs : List Area} (hsub : bs.map frame ⊆ as.map frame)
    (hc : ∀ a ∈ as, a.isTerminated = true) : ∀ b ∈ bs, b.isTerminated = true := by
  intro b hb
  obtain ⟨a, ha, hframe⟩ := List.mem_map.1 (hsub (List.mem_map_of_mem hb))
  exact isTerminated_of_frame_eq hframe (hc a ha)

/-- The frames of the areas of a file, in order. -/
def frames (ls : List String) : List (Header × Option String) :=
  (Area.extract ls).map Area.frame

/-! ### Frames line by line -/

/-- The numbers of the lines do not matter to the frames. -/
theorem map_frame_extractFrom (n : Nat) (ls : List String) :
    (Area.extractFrom n ls).map Area.frame = frames ls := by
  suffices h : ∀ m, (Area.extractFrom n ls).map Area.frame = (Area.extractFrom m ls).map Area.frame by
    rw [frames, Area.extract_eq, h 1]
  induction ls generalizing n with
  | nil => exact fun _ ↦ rfl
  | cons l ls ih =>
    intro m
    rw [Area.extractFrom, Area.extractFrom]
    cases Header.parse? l with
    | none => exact ih (n + 1) (m + 1)
    | some h =>
      simp only [List.map_cons, ih (n + 1) (m + 1)]
      rfl

theorem frames_cons_of_eq_none {l : String} (hl : Header.parse? l = none) (ls : List String) :
    frames (l :: ls) = frames ls := by
  rw [frames, Area.extract_eq, Area.extractFrom, hl]
  exact map_frame_extractFrom 2 ls

theorem frames_cons_of_eq_some {l : String} {h : Header} (hl : Header.parse? l = some h)
    (ls : List String) :
    frames (l :: ls) =
      (h, (ls.find? Marker.isBoundary).filter (!Marker.isBegin ·)) :: frames ls := by
  rw [frames, Area.extract_eq, Area.extractFrom, hl]
  simp only [List.map_cons, map_frame_extractFrom]
  rfl

theorem frames_append_of_eq_none {front : List String}
    (hf : ∀ l ∈ front, Header.parse? l = none) (ls : List String) :
    frames (front ++ ls) = frames ls := by
  induction front with
  | nil => rfl
  | cons l front ih =>
    rw [List.cons_append, frames_cons_of_eq_none (hf l List.mem_cons_self)]
    exact ih fun m hm ↦ hf m (List.mem_cons_of_mem l hm)

/-- **Frames are a matter of the marker lines alone.** -/
theorem frames_filter (ls : List String) : frames (ls.filter Marker.isBoundary) = frames ls := by
  induction ls with
  | nil => rfl
  | cons l ls ih =>
    cases hb : Marker.isBoundary l with
    | false =>
      rw [List.filter_cons_of_neg (by simp [hb]), ih,
        frames_cons_of_eq_none (Marker.parse?_eq_none_of_not_isBoundary hb)]
    | true =>
      rw [List.filter_cons_of_pos hb]
      cases hl : Header.parse? l with
      | none => rw [frames_cons_of_eq_none hl, frames_cons_of_eq_none hl, ih]
      | some h =>
        -- the next marker decides whether the area is closed, and no marker is left out
        rw [frames_cons_of_eq_some hl, frames_cons_of_eq_some hl, ih, List.find?_filter]
        simp only [and_self, Bool.decide_eq_true]

theorem frames_eq_of_filter_eq {ls ms : List String}
    (h : ls.filter Marker.isBoundary = ms.filter Marker.isBoundary) : frames ls = frames ms := by
  rw [← frames_filter ls, h, frames_filter]

/-- A line that is no marker may stand anywhere. -/
theorem frames_insert {l : String} (hl : Marker.isBoundary l = false) (front back : List String) :
    frames (front ++ l :: back) = frames (front ++ back) := by
  refine frames_eq_of_filter_eq ?_
  rw [List.filter_append, List.filter_append, List.filter_cons_of_neg (by simp [hl])]

/-- Lines that are no markers may turn into others. -/
theorem frames_map {f : String → String} (hkeep : ∀ l, Marker.isBoundary l = true → f l = l)
    (hsafe : ∀ l, Marker.isBoundary l = false → Marker.isBoundary (f l) = false)
    (ls : List String) : frames (ls.map f) = frames ls := by
  refine frames_eq_of_filter_eq ?_
  induction ls with
  | nil => rfl
  | cons l ls ih =>
    rw [List.map_cons]
    cases hb : Marker.isBoundary l with
    | false =>
      rw [List.filter_cons_of_neg (by simp [hsafe l hb]), List.filter_cons_of_neg (by simp [hb]), ih]
    | true => rw [hkeep l hb, List.filter_cons_of_pos hb, List.filter_cons_of_pos hb, ih]

/-! ### Headers line by line -/

/-- What the lines of a file open areas with, in order. -/
def headers (ls : List String) : List Header :=
  ls.filterMap Header.parse?

theorem mem_headers {ls : List String} {h : Header} :
    h ∈ headers ls ↔ ∃ l ∈ ls, Header.parse? l = some h :=
  List.mem_filterMap

theorem headers_append (ls ms : List String) : headers (ls ++ ms) = headers ls ++ headers ms :=
  List.filterMap_append

theorem headers_cons_of_eq_some {l : String} {h : Header} (hl : Header.parse? l = some h)
    (ls : List String) : headers (l :: ls) = h :: headers ls :=
  List.filterMap_cons_some hl

theorem headers_cons_of_eq_none {l : String} (hl : Header.parse? l = none) (ls : List String) :
    headers (l :: ls) = headers ls :=
  List.filterMap_cons_none hl

/-- Lines without markers have no headers. -/
theorem headers_eq_nil {ls : List String} (h : ∀ l ∈ ls, Marker.isBoundary l = false) :
    headers ls = [] :=
  List.filterMap_eq_nil_iff.2 fun l hl ↦ Marker.parse?_eq_none_of_not_isBoundary (h l hl)

/-- Different lines open areas with different headers. -/
theorem nodup_headers {ls : List String} (h : ls.Nodup) : (headers ls).Nodup :=
  h.filterMap fun l m g hl hm ↦ by
    rw [← Header.beginLine_of_parse? hl, ← Header.beginLine_of_parse? hm]

theorem map_fst_frames (ls : List String) : (frames ls).map Prod.fst = headers ls := by
  induction ls with
  | nil => rfl
  | cons l ls ih =>
    cases hl : Header.parse? l with
    | none => rw [frames_cons_of_eq_none hl, headers_cons_of_eq_none hl, ih]
    | some h => rw [frames_cons_of_eq_some hl, headers_cons_of_eq_some hl, List.map_cons, ih]

/-- **The headers of the areas of a file are what its lines are read as.** -/
theorem map_header_extract (ls : List String) :
    (Area.extract ls).map Area.header = headers ls := by
  rw [← map_fst_frames, frames, List.map_map]
  rfl

/-! ### Files that come from others -/

/-- The markers of a file are those of another one, in order, except for `ONCE` areas that are gone. -/
structure Descends (ancestor file : List String) : Prop where
  sublist : (frames file).Sublist (frames ancestor)
  kept : ∀ f ∈ frames ancestor, f.1.once = false → f ∈ frames file

namespace Descends

variable {ls ms ns : List String}

theorem of_frames_eq (h : frames ms = frames ls) : Descends ls ms :=
  ⟨h ▸ List.Sublist.refl _, fun _ hf _ ↦ h ▸ hf⟩

theorem refl (ls : List String) : Descends ls ls :=
  of_frames_eq rfl

theorem trans (h : Descends ls ms) (h' : Descends ms ns) : Descends ls ns :=
  ⟨h'.sublist.trans h.sublist, fun f hf hon ↦ h'.kept f (h.kept f hf hon) hon⟩

/-- Every area of the file has the markers of one of its ancestor. -/
theorem exists_frame (h : Descends ls ms) {b : Area} (hb : b ∈ Area.extract ms) :
    ∃ a ∈ Area.extract ls, a.frame = b.frame :=
  List.mem_map.1 (h.sublist.subset (List.mem_map_of_mem hb))

end Descends

/-! ### Segments in good order -/

namespace Segment

/-- Segments in good order: markers stand where the segments say, every area is closed, and no two
areas have the same opening line. -/
structure Tidy (D : List Segment) : Prop where
  sound : ∀ s ∈ D, s.Sound
  closed : ∀ a ∈ areas D, a.isTerminated = true
  distinct : ((areas D).map (·.header.beginLine)).Nodup

/-- **Good order is a matter of the lines and of the frames**: segments are in good order if they are sound
and have frames of others that are. -/
theorem Tidy.of_frames_sublist {D E : List Segment} (h : Tidy D) (hs : ∀ s ∈ E, s.Sound)
    (hsub : ((areas E).map Area.frame).Sublist ((areas D).map Area.frame)) : Tidy E where
  sound := hs
  closed := Area.isTerminated_of_subset hsub.subset h.closed
  distinct := by
    have hmap : ∀ F : List Segment, (areas F).map (·.header.beginLine) =
        ((areas F).map Area.frame).map fun f ↦ f.1.beginLine :=
      fun F ↦ by rw [List.map_map]; rfl
    have hd := h.distinct
    rw [hmap] at hd ⊢
    exact hd.sublist (hsub.map _)

/-- The first marker after the opening line of a sound and closed area is its closing line. -/
theorem find?_isBoundary_of_sound {a : Area} (ha : a.Sound) {e : String} (he : a.endLine = some e)
    (back : List String) : (a.body ++ e :: back).find? Marker.isBoundary = some e := by
  have hbody : a.body.find? Marker.isBoundary = none :=
    List.find?_eq_none.2 fun l hl ↦ by simp [ha.body l hl]
  rw [List.find?_append, hbody, Option.none_or,
    List.find?_cons_of_pos (ha.isBoundary_endLine e he)]

/-- A sound and closed area has its own frame, whatever follows it. -/
theorem frames_lines_append {a : Area} (ha : a.Sound) (hc : a.isTerminated = true)
    (back : List String) : frames (a.lines ++ back) = a.frame :: frames back := by
  obtain ⟨e, he⟩ := Area.isTerminated_iff.1 hc
  have hbegin : Marker.isBegin e = false := (ha.endLine e he).2
  have hbody : ∀ l ∈ a.body, Header.parse? l = none :=
    fun l hl ↦ Marker.parse?_eq_none_of_not_isBoundary (ha.body l hl)
  rw [Area.lines, he, Option.toList_some, List.cons_append, List.append_assoc,
    List.singleton_append, frames_cons_of_eq_some ha.parse?_beginLine,
    find?_isBoundary_of_sound ha he, frames_append_of_eq_none hbody,
    frames_cons_of_eq_none (Marker.isBegin_eq_false_iff.1 hbegin), Area.frame, he]
  simp [hbegin]

/-- **Segments in good order make up a file with the frames of their areas.** -/
theorem frames_flatten {D : List Segment} (hs : ∀ s ∈ D, s.Sound)
    (hc : ∀ a ∈ areas D, a.isTerminated = true) :
    frames (flatten D) = (areas D).map Area.frame := by
  induction D with
  | nil => rfl
  | cons s D ih =>
    have hD : ∀ t ∈ D, t.Sound := fun t ht ↦ hs t (List.mem_cons_of_mem s ht)
    cases s with
    | text l =>
      rw [flatten_cons, lines, List.singleton_append,
        frames_cons_of_eq_none (hs (text l) List.mem_cons_self), ih hD hc, areas_text_cons]
    | area a =>
      rw [areas_area_cons] at hc ⊢
      rw [flatten_cons, lines, frames_lines_append (hs (area a) List.mem_cons_self)
        (hc a List.mem_cons_self), ih hD fun b hb ↦ hc b (List.mem_cons_of_mem a hb), List.map_cons]

/-- A file whose areas are closed and have different headers is cut into segments in good order. -/
theorem tidy_cut {ls : List String} (hc : ∀ a ∈ Area.extract ls, a.isTerminated = true)
    (hn : ((Area.extract ls).map Area.header).Nodup) : Tidy (cut ls) where
  sound := sound_of_mem_cut
  closed := by rwa [areas_cut]
  distinct := by
    have hmap : (Area.extract ls).map (·.header.beginLine) =
        ((Area.extract ls).map Area.header).map Header.beginLine := by
      rw [List.map_map]
      rfl
    rw [areas_cut, hmap]
    -- an opening line can be read back, so different headers have different ones
    refine hn.map_on fun g hg h hh heq ↦ ?_
    obtain ⟨a, ha, rfl⟩ := List.mem_map.1 hg
    obtain ⟨b, hb, rfl⟩ := List.mem_map.1 hh
    exact Header.eq_of_beginLine_eq (Area.sound_of_mem_extract ha).parse?_beginLine
      (Area.sound_of_mem_extract hb).parse?_beginLine heq

end Segment

end WorkflowAreas
