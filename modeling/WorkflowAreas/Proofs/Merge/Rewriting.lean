import WorkflowAreas.Proofs.Frame
import WorkflowAreas.Proofs.Merge.Region

/-!
# A merge as a rewriting of segments

`Merge.mergeArea` looks for literal lines in a file that earlier areas have changed. Here the same step
is described on the segments of the file: `Segment.absorb` rewrites the one area with the same opening
line and leaves every other segment alone.

* `lines_mergeArea`, `changed_mergeArea`, `skipped_mergeArea`: a step of the merge is that rewriting, as
  long as the file is in good order (`Segment.Tidy`) and the closing lines agree (`Segment.Fits`);
* `Segment.Tidy.flatMap_absorb`, `Segment.Fits.flatMap_absorb`: both last through a step;
* `Segment.Tidy.descends_flatMap_absorb`: the file after a step descends from the one before.

**Why a lookup hits its area.** A line equal to an opening line is an opening line, so it opens an area
of the file, and no two areas share theirs. The body of that area holds no marker, so the first line
equal to its closing line is its closing line.
-/

namespace WorkflowAreas

open Merge (Strategy Outcome Region)

/-- A transform that turns no line into a marker. -/
def MarkerSafe (transform : String → String) : Prop :=
  ∀ l, Marker.isBoundary l = false → Marker.isBoundary (transform l) = false

/-- **Content has no markers.** -/
theorem Merge.not_isBoundary_of_mem_content {transform : String → String} (ht : MarkerSafe transform)
    (flags : Flags) {a : Area} (ha : a.Sound) :
    ∀ l ∈ Merge.content transform flags a, Marker.isBoundary l = false := by
  intro l hl
  obtain ⟨m, hm, rfl⟩ := List.mem_map.1 hl
  exact ht m (ha.body m ((Branch.choose_sublist a.body a.header.flag flags).subset hm))

theorem Merge.ofHeader_eq_replace {h : Header} (ho : h.once = true) :
    Strategy.ofHeader h = .replace := by
  rw [Strategy.ofHeader, if_pos ho]

theorem Merge.ofHeader_ne_replace {h : Header} (ho : h.once = false) :
    Strategy.ofHeader h ≠ .replace := by
  rw [Strategy.ofHeader, ho, if_neg Bool.false_ne_true]
  split <;> decide

namespace Segment

/-! ### Rewriting segments -/

/-- What becomes of a segment when an area with this content is merged: the area with the same opening
line takes the content up by the strategy of that line. -/
def absorb (a : Area) (content : List String) : Segment → List Segment
  | text l => [text l]
  | area b =>
    if b.header.beginLine = a.header.beginLine then
      if a.header.once then content.map text
      else [area { b with body := (Strategy.ofHeader a.header).fill b.body content }]
    else [area b]

variable {a b : Area} {content : List String} {D : List Segment}

theorem absorb_of_ne (h : b.header.beginLine ≠ a.header.beginLine) :
    absorb a content (area b) = [area b] := by
  rw [absorb, if_neg h]

theorem absorb_of_once (h : b.header.beginLine = a.header.beginLine) (ho : a.header.once = true) :
    absorb a content (area b) = content.map text := by
  rw [absorb, if_pos h, if_pos ho]

theorem absorb_of_not_once (h : b.header.beginLine = a.header.beginLine)
    (ho : a.header.once = false) :
    absorb a content (area b) =
      [area { b with body := (Strategy.ofHeader a.header).fill b.body content }] := by
  rw [absorb, if_pos h, ho, if_neg Bool.false_ne_true]

/-- Where no area has the opening line there is nothing to rewrite. -/
theorem flatMap_absorb_eq_self (h : ∀ b ∈ areas D, b.header.beginLine ≠ a.header.beginLine) :
    D.flatMap (absorb a content) = D := by
  induction D with
  | nil => rfl
  | cons s D ih =>
    cases s with
    | text l =>
      rw [areas_text_cons] at h
      rw [List.flatMap_cons, ih h]
      rfl
    | area b =>
      rw [areas_area_cons] at h
      rw [List.flatMap_cons, ih fun c hc ↦ h c (List.mem_cons_of_mem b hc),
        absorb_of_ne (h b List.mem_cons_self), List.singleton_append]

/-- **Rewriting touches no marker**, except that it removes those of the area itself if it is marked
`ONCE`. -/
theorem frames_flatMap_absorb :
    (areas (D.flatMap (absorb a content))).map Area.frame =
      ((areas D).map Area.frame).filter fun f ↦
        !(a.header.once && f.1.beginLine == a.header.beginLine) := by
  induction D with
  | nil => rfl
  | cons s D ih =>
    rw [List.flatMap_cons, areas_append, List.map_append, ih]
    cases s with
    | text l => rfl
    | area b =>
      rw [areas_area_cons, List.map_cons]
      by_cases h : b.header.beginLine = a.header.beginLine
      · cases ho : a.header.once with
        | true =>
          rw [absorb_of_once h ho, areas_map_text,
            List.filter_cons_of_neg (by simp [Area.frame, h])]
          rfl
        | false =>
          rw [absorb_of_not_once h ho, List.filter_cons_of_pos (by simp)]
          rfl
      · rw [absorb_of_ne h, List.filter_cons_of_pos (by simp [Area.frame, h])]
        rfl

theorem frames_flatMap_absorb_sublist :
    ((areas (D.flatMap (absorb a content))).map Area.frame).Sublist
      ((areas D).map Area.frame) := by
  rw [frames_flatMap_absorb]
  exact List.filter_sublist

/-- Every area after a rewriting has the markers of one before. -/
theorem exists_frame_of_mem_flatMap_absorb (h : b ∈ areas (D.flatMap (absorb a content))) :
    ∃ c ∈ areas D, c.frame = b.frame :=
  List.mem_map.1 (frames_flatMap_absorb_sublist.subset (List.mem_map_of_mem h))

/-- **No rewriting loses an area but a `ONCE` area.** -/
theorem mem_frames_flatMap_absorb (ha : a.Sound) (hb : b.Sound)
    (hon : b.header.once = false) {f : Header × Option String}
    (heq : f.1.beginLine = b.header.beginLine) (hf : f ∈ (areas D).map Area.frame) :
    f ∈ (areas (D.flatMap (absorb a content))).map Area.frame := by
  rw [frames_flatMap_absorb, List.mem_filter]
  refine ⟨hf, ?_⟩
  by_contra hgone
  simp only [Bool.not_eq_true', Bool.not_eq_false, Bool.and_eq_true, beq_iff_eq] at hgone
  have hsame : b.header = a.header :=
    Header.eq_of_beginLine_eq hb.parse?_beginLine ha.parse?_beginLine (heq.symm.trans hgone.2)
  rw [hsame, hgone.1] at hon
  cases hon

/-- Content without markers leaves segments sound. -/
theorem sound_of_mem_absorb (hc : ∀ l ∈ content, Marker.isBoundary l = false) {s t : Segment}
    (hs : s.Sound) (ht : t ∈ absorb a content s) : t.Sound := by
  cases s with
  | text l =>
    rw [absorb, List.mem_singleton] at ht
    exact ht ▸ hs
  | area b =>
    by_cases h : b.header.beginLine = a.header.beginLine
    · cases ho : a.header.once with
      | true =>
        rw [absorb_of_once h ho] at ht
        obtain ⟨l, hl, rfl⟩ := List.mem_map.1 ht
        exact Marker.parse?_eq_none_of_not_isBoundary (hc l hl)
      | false =>
        rw [absorb_of_not_once h ho, List.mem_singleton] at ht
        subst ht
        refine ⟨hs.parse?_beginLine, fun l hl ↦ ?_, hs.endLine⟩
        rcases Strategy.mem_of_mem_fill hl with hl | hl
        · exact hs.body l hl
        · exact hc l hl
    · rw [absorb_of_ne h, List.mem_singleton] at ht
      exact ht ▸ hs

/-- **Good order lasts.** -/
theorem Tidy.flatMap_absorb (h : Tidy D) (hc : ∀ l ∈ content, Marker.isBoundary l = false) :
    Tidy (D.flatMap (absorb a content)) := by
  refine h.of_frames_sublist (fun t ht ↦ ?_) frames_flatMap_absorb_sublist
  obtain ⟨s, hs, ht⟩ := List.mem_flatMap.1 ht
  exact sound_of_mem_absorb hc (h.sound s hs) ht

/-- **A rewriting leaves what comes from the file before.** -/
theorem Tidy.descends_flatMap_absorb (h : Tidy D) (ha : a.Sound)
    (hc : ∀ l ∈ content, Marker.isBoundary l = false) :
    Descends (flatten D) (flatten (D.flatMap (absorb a content))) := by
  have h' := h.flatMap_absorb (a := a) hc
  constructor
  · rw [frames_flatten h.sound h.closed, frames_flatten h'.sound h'.closed]
    exact frames_flatMap_absorb_sublist
  · rw [frames_flatten h.sound h.closed, frames_flatten h'.sound h'.closed]
    intro f hf hon
    obtain ⟨b, hb, rfl⟩ := List.mem_map.1 hf
    exact mem_frames_flatMap_absorb ha (h.sound _ (mem_areas.1 hb)) hon rfl hf

/-- An area of a template that can be merged into segments: it is closed, and where the segments have
an area with its opening line they have its closing line too. -/
structure Fits (D : List Segment) (a : Area) : Prop where
  sound : a.Sound
  closed : a.isTerminated = true
  endLine : ∀ b ∈ areas D, b.header.beginLine = a.header.beginLine → b.endLine = a.endLine

theorem Fits.flatMap_absorb {a' : Area} (h : Fits D a') :
    Fits (D.flatMap (absorb a content)) a' where
  sound := h.sound
  closed := h.closed
  endLine b hb heq := by
    obtain ⟨c, hc, hframe⟩ := exists_frame_of_mem_flatMap_absorb hb
    rw [← Area.endLine_eq_of_frame_eq hframe]
    exact h.endLine c hc (by rw [Area.header_eq_of_frame_eq hframe, heq])

/-! ### Where an area is -/

/-- A line that opens an area stands in a file only where an area of it has that opening line. -/
theorem beginLine_not_mem_flatten (hs : ∀ s ∈ D, s.Sound) (ha : a.Sound)
    (h : ∀ b ∈ areas D, b.header.beginLine ≠ a.header.beginLine) :
    a.header.beginLine ∉ flatten D := by
  intro hmem
  obtain ⟨s, hsD, hl⟩ := List.mem_flatMap.1 hmem
  have hparse := ha.parse?_beginLine
  have hsound := hs s hsD
  -- only the opening line of an area can be read as a header
  cases s with
  | text l =>
    rw [lines, List.mem_singleton] at hl
    rw [hl, show Header.parse? l = none from hsound] at hparse
    cases hparse
  | area b =>
    rw [lines, Area.lines, List.mem_cons, List.mem_append, Option.mem_toList] at hl
    rcases hl with hl | hl | hl
    · exact h b (mem_areas.2 hsD) hl.symm
    · rw [Marker.parse?_eq_none_of_not_isBoundary (hsound.body _ hl)] at hparse
      cases hparse
    · rw [Marker.isBegin_eq_false_iff.1 (hsound.endLine _ hl).2] at hparse
      cases hparse

/-- **No area before or behind it has the opening line of an area.** -/
theorem Tidy.exists_split (h : Tidy D) (hb : b ∈ areas D) :
    ∃ front back, D = front ++ area b :: back ∧
      (∀ c ∈ areas front, c.header.beginLine ≠ b.header.beginLine) ∧
      ∀ c ∈ areas back, c.header.beginLine ≠ b.header.beginLine := by
  obtain ⟨front, back, rfl⟩ := List.append_of_mem (mem_areas.1 hb)
  have hd := h.distinct
  rw [areas_append, areas_area_cons, List.map_append, List.map_cons, List.nodup_middle,
    List.nodup_cons, List.mem_append, not_or] at hd
  exact ⟨front, back, rfl,
    fun c hc heq ↦ hd.1.1 (heq ▸ List.mem_map_of_mem (f := (·.header.beginLine)) hc),
    fun c hc heq ↦ hd.1.2 (heq ▸ List.mem_map_of_mem (f := (·.header.beginLine)) hc)⟩

end Segment

/-! ### One step of a merge -/

namespace Merge

open Segment

variable {transform : String → String} {flags : Flags} {o : Outcome} {a b : Area} {e : String}

theorem mergeArea_of_locate?_eq_none (he : a.endLine = some e)
    (h : locate? o.lines a.header.beginLine e = none) :
    mergeArea transform flags o a =
      if a.header.once && !o.lines.contains a.header.beginLine then o.noted (.resolved a.name)
      else o.skip a.name (.notFound a.name a.header.beginLine) := by
  rw [mergeArea, he]
  simp only [h]

theorem mergeArea_of_locate?_eq_some (transform : String → String) (flags : Flags) {r : Region}
    (he : a.endLine = some e)
    (h : locate? o.lines a.header.beginLine e = some r) :
    (mergeArea transform flags o a).lines =
        ((Strategy.ofHeader a.header).apply o.lines r (content transform flags a)).1 ∧
      (mergeArea transform flags o a).changed =
        (if ((Strategy.ofHeader a.header).apply o.lines r (content transform flags a)).2 then
          o.changed ++ [a.name] else o.changed) ∧
      (mergeArea transform flags o a).skipped = o.skipped := by
  rw [mergeArea, he]
  refine ⟨?_, ?_, ?_⟩ <;> simp only [h]
  rfl

/-- An area that no area of the file matches changes nothing, and is skipped unless it is marked
`ONCE`. -/
theorem mergeArea_of_absent {D : List Segment} (hD : ∀ s ∈ D, s.Sound) (ha : a.Sound)
    (hc : a.isTerminated = true) (ho : o.lines = flatten D)
    (h : ∀ b ∈ areas D, b.header.beginLine ≠ a.header.beginLine) :
    (mergeArea transform flags o a).lines = o.lines ∧
      (mergeArea transform flags o a).changed = o.changed ∧
      (mergeArea transform flags o a).skipped =
        o.skipped ++ if a.header.once then [] else [a.name] := by
  obtain ⟨e, he⟩ := Area.isTerminated_iff.1 hc
  have hmem : a.header.beginLine ∉ o.lines := ho ▸ beginLine_not_mem_flatten hD ha h
  have hcontains : o.lines.contains a.header.beginLine = false := by simpa using hmem
  rw [mergeArea_of_locate?_eq_none he (locate?_eq_none hmem), hcontains]
  cases a.header.once with
  | true => exact ⟨rfl, rfl, (List.append_nil _).symm⟩
  | false => exact ⟨rfl, rfl, rfl⟩

/-- A closed area among segments is a region of the file that they make up. -/
theorem flatten_append_area_cons (he : b.endLine = some e) (front back : List Segment) :
    flatten (front ++ area b :: back) =
      flatten front ++ b.header.beginLine :: (b.body ++ e :: flatten back) := by
  rw [flatten_append, flatten_cons, lines, Area.lines, he, Option.toList_some, List.cons_append,
    List.append_assoc, List.singleton_append]

/-- **The lookup hits the area.** -/
theorem locate?_flatten {front : List Segment} (back : List Segment) (hf : ∀ s ∈ front, s.Sound)
    (hb : b.Sound) (he : b.endLine = some e)
    (hne : ∀ c ∈ areas front, c.header.beginLine ≠ b.header.beginLine) :
    locate? (flatten (front ++ area b :: back)) b.header.beginLine e =
      some (Region.between (flatten front) b.body) := by
  have hbegin : b.header.beginLine ∉ flatten front := beginLine_not_mem_flatten hf hb hne
  have hend : e ∉ b.body := fun hmem ↦ by
    have hnot := Marker.isBoundary_eq_false_iff.1 (hb.body e hmem)
    rw [(hb.endLine e he).1] at hnot
    exact absurd hnot.1 Bool.noConfusion
  exact locate?_eq_some_iff.2
    ⟨_, _, _, flatten_append_area_cons he front back, hbegin, hend, rfl⟩

section Place

variable {front back : List Segment} {content : List String}

/-- A rewriting stays in its place where no other area has the opening line. -/
theorem flatMap_absorb_append_area_cons
    (hf : ∀ c ∈ areas front, c.header.beginLine ≠ a.header.beginLine)
    (hb : ∀ c ∈ areas back, c.header.beginLine ≠ a.header.beginLine) :
    (front ++ area b :: back).flatMap (absorb a content) =
      front ++ (absorb a content (area b) ++ back) := by
  rw [List.flatMap_append, List.flatMap_cons, flatMap_absorb_eq_self hf, flatMap_absorb_eq_self hb]

/-- **A strategy does to the region what the rewriting does to the area.** -/
theorem fst_apply_flatten (heq : b.header.beginLine = a.header.beginLine) (he : b.endLine = some e) :
    ((Strategy.ofHeader a.header).apply (flatten (front ++ area b :: back))
        (Region.between (flatten front) b.body) content).1 =
      flatten (front ++ (absorb a content (area b) ++ back)) := by
  rw [flatten_append_area_cons he]
  cases ho : a.header.once with
  | true =>
    rw [ofHeader_eq_replace ho, fst_apply_replace, absorb_of_once heq ho, flatten_append,
      flatten_append, flatten_map_text, List.append_assoc]
  | false =>
    let filled := { b with body := (Strategy.ofHeader a.header).fill b.body content }
    have hfilled : filled.endLine = some e := he
    rw [fst_apply_of_ne_replace (ofHeader_ne_replace ho), absorb_of_not_once heq ho]
    exact (flatten_append_area_cons hfilled front back).symm

/-- It reports a change exactly where the rewriting does not keep the area. -/
theorem snd_apply_flatten (heq : b.header.beginLine = a.header.beginLine) (he : b.endLine = some e) :
    ((Strategy.ofHeader a.header).apply (flatten (front ++ area b :: back))
        (Region.between (flatten front) b.body) content).2 = true ↔
      absorb a content (area b) ≠ [area b] := by
  cases ho : a.header.once with
  | true =>
    -- an area that gives way to text is not kept
    rw [ofHeader_eq_replace ho, absorb_of_once heq ho]
    refine iff_of_true rfl fun hkeep ↦ ?_
    obtain ⟨l, -, hl⟩ := List.mem_map.1 (hkeep ▸ List.mem_singleton_self (area b))
    cases hl
  | false =>
    rw [flatten_append_area_cons he, snd_apply_of_ne_replace (ofHeader_ne_replace ho),
      absorb_of_not_once heq ho, Ne, Ne, List.singleton_inj, area.injEq]
    refine not_congr ⟨fun hfill ↦ ?_, congrArg Area.body⟩
    rw [hfill]

end Place

/-- An area that an area of the file matches is put into that one. -/
theorem mergeArea_of_present {D : List Segment} (hD : Tidy D) (ha : Fits D a)
    (ho : o.lines = flatten D) (hb : b ∈ areas D)
    (heq : b.header.beginLine = a.header.beginLine) :
    (mergeArea transform flags o a).lines =
        flatten (D.flatMap (absorb a (content transform flags a))) ∧
      (mergeArea transform flags o a).changed = (o.changed ++
        if absorb a (content transform flags a) (area b) = [area b] then [] else [a.name]) ∧
      (mergeArea transform flags o a).skipped = o.skipped := by
  obtain ⟨e, he⟩ := Area.isTerminated_iff.1 ha.closed
  have hbe : b.endLine = some e := (ha.endLine b hb heq).trans he
  have hbs : b.Sound := hD.sound _ (mem_areas.1 hb)
  obtain ⟨front, back, rfl, hfront, hback⟩ := hD.exists_split hb
  have hfs : ∀ s ∈ front, s.Sound := fun s hs ↦ hD.sound s (List.mem_append_left _ hs)
  have hlocate := locate?_flatten back hfs hbs hbe hfront
  rw [← ho, heq] at hlocate
  rw [heq] at hfront hback
  obtain ⟨hlines, hchanged, hskipped⟩ :=
    mergeArea_of_locate?_eq_some transform flags he hlocate
  rw [flatMap_absorb_append_area_cons hfront hback]
  refine ⟨?_, ?_, hskipped⟩
  · rw [hlines, ho, fst_apply_flatten heq hbe]
  · rw [hchanged, ho]
    simp only [snd_apply_flatten heq hbe, ite_not]
    split
    · rw [List.append_nil]
    · rfl

/-- Whether an area has neither a place in the segments nor an excuse for that. -/
def Unplaced (D : List Segment) (a : Area) : Prop :=
  a.header.once = false ∧ ∀ b ∈ areas D, b.header.beginLine ≠ a.header.beginLine

instance (D : List Segment) (a : Area) : Decidable (Unplaced D a) :=
  inferInstanceAs (Decidable (_ ∧ _))

variable {D : List Segment}

/-- **The lines after a step** are the rewritten segments. -/
theorem lines_mergeArea (hD : Tidy D) (ha : Fits D a) (ho : o.lines = flatten D) :
    (mergeArea transform flags o a).lines =
      flatten (D.flatMap (absorb a (content transform flags a))) := by
  by_cases h : ∃ b ∈ areas D, b.header.beginLine = a.header.beginLine
  · obtain ⟨b, hb, heq⟩ := h
    exact (mergeArea_of_present hD ha ho hb heq).1
  · simp only [not_exists, not_and] at h
    rw [(mergeArea_of_absent hD.sound ha.sound ha.closed ho h).1, flatMap_absorb_eq_self h, ho]

/-- Whether putting the area into the segments makes something else of one of their areas. -/
def Alters (transform : String → String) (flags : Flags) (D : List Segment) (a : Area) : Prop :=
  ∃ b ∈ areas D, b.header.beginLine = a.header.beginLine ∧
    absorb a (content transform flags a) (area b) ≠ [area b]

instance (transform : String → String) (flags : Flags) (D : List Segment) (a : Area) :
    Decidable (Alters transform flags D a) :=
  inferInstanceAs (Decidable (∃ b ∈ areas D, _ ∧ _))

theorem not_alters_of_flatMap_absorb_eq_self (hD : Tidy D)
    (hsame : D.flatMap (absorb a (content transform flags a)) = D) : ¬Alters transform flags D a := by
  rintro ⟨b, hb, heq, hne⟩
  obtain ⟨front, back, rfl, hfront, hback⟩ := hD.exists_split hb
  rw [heq] at hfront hback
  rw [flatMap_absorb_append_area_cons hfront hback] at hsame
  -- the rewriting keeps all segments, so it keeps this one
  exact hne (List.append_cancel_right (List.append_cancel_left
    (hsame.trans (by rw [List.singleton_append]))))

/-- **A change is reported** exactly if the rewriting alters an area. -/
theorem changed_mergeArea (hD : Tidy D) (ha : Fits D a) (ho : o.lines = flatten D) :
    (mergeArea transform flags o a).changed =
      o.changed ++ if Alters transform flags D a then [a.name] else [] := by
  by_cases h : ∃ b ∈ areas D, b.header.beginLine = a.header.beginLine
  · obtain ⟨b, hb, heq⟩ := h
    rw [(mergeArea_of_present hD ha ho hb heq).2.1]
    by_cases hkeep : absorb a (content transform flags a) (area b) = [area b]
    · -- no other area has this opening line
      have hno : ¬Alters transform flags D a := by
        rintro ⟨c, hc, hca, hne⟩
        obtain rfl : c = b := List.inj_on_of_nodup_map hD.distinct hc hb (hca.trans heq.symm)
        exact hne hkeep
      rw [if_pos hkeep, if_neg hno]
    · rw [if_neg hkeep, if_pos ⟨b, hb, heq, hkeep⟩]
  · have hno : ¬Alters transform flags D a := fun ⟨b, hb, heq, _⟩ ↦ h ⟨b, hb, heq⟩
    simp only [not_exists, not_and] at h
    rw [(mergeArea_of_absent hD.sound ha.sound ha.closed ho h).2.1, if_neg hno, List.append_nil]

/-- **An area is skipped** exactly if it is not marked `ONCE` and has no place in the file. -/
theorem skipped_mergeArea (hD : Tidy D) (ha : Fits D a) (ho : o.lines = flatten D) :
    (mergeArea transform flags o a).skipped =
      o.skipped ++ if Unplaced D a then [a.name] else [] := by
  by_cases h : ∃ b ∈ areas D, b.header.beginLine = a.header.beginLine
  · obtain ⟨b, hb, heq⟩ := h
    rw [(mergeArea_of_present hD ha ho hb heq).2.2, if_neg fun hu ↦ hu.2 b hb heq, List.append_nil]
  · simp only [not_exists, not_and] at h
    rw [(mergeArea_of_absent hD.sound ha.sound ha.closed ho h).2.2]
    cases hon : a.header.once with
    | true => rw [if_pos rfl, if_neg fun hu ↦ by rw [hu.1] at hon; cases hon]
    | false => rw [if_neg Bool.false_ne_true, if_pos ⟨hon, h⟩]

end Merge

end WorkflowAreas
