import WorkflowAreas.Proofs.Merge.Whole

/-!
# Areas with nothing left to do

A merge leaves a file alone exactly if every area that it brings is *settled*: no area of the file with
its opening line is marked `ONCE`, and filling the interior of one again gives that interior.

* `settled_iff` says so area by area, in terms of bodies;
* `Tidy.lines_merge_eq_self_iff`: a merge leaves the lines of a file exactly if its areas are settled;
* `settled_absorbAll`: they are after a merge;
* `Settled.absorbAll`: they still are after a merge for another workflow or with other flags.

Only what is in the areas of a file counts (`Settled.of_unnumbered_subset`), and that can be read off the
lines (`map_unnumbered_extract_flatten`), so the first two do not depend on how a file was cut.
-/

namespace WorkflowAreas

open Merge (Strategy content)

/-! ### Areas without their place -/

/-- The area, wherever in a file it stands. -/
def Area.unnumbered (a : Area) : Area :=
  { a with line := 0 }

theorem Area.header_body_eq_of_unnumbered_eq {a b : Area} (h : a.unnumbered = b.unnumbered) :
    a.header = b.header ∧ a.body = b.body := by
  rw [unnumbered, unnumbered, Area.mk.injEq] at h
  exact ⟨h.1, h.2.1⟩

namespace Segment

/-- **A closed area is read back from its lines**, whatever follows them. -/
theorem extractFrom_lines_append {a : Area} (ha : a.Sound) (hc : a.isTerminated = true) (n : Nat)
    (back : List String) :
    Area.extractFrom n (a.lines ++ back) =
      { a with line := n } :: Area.extractFrom (n + a.lines.length) back := by
  obtain ⟨e, he⟩ := Area.isTerminated_iff.1 hc
  have hclose : Marker.isEnd e = true ∧ Marker.isBegin e = false := ha.endLine e he
  have hbound : Marker.isBoundary e = true := ha.isBoundary_endLine e he
  have hbody : ∀ l ∈ a.body, (!Marker.isBoundary l) = true := fun l hl ↦ by rw [ha.body l hl]; rfl
  have hopened : Area.opened a.header n (a.body ++ e :: back) = { a with line := n } := by
    rw [Area.opened, List.takeWhile_append_of_pos hbody,
      List.takeWhile_cons_of_neg (by simp [hbound]), List.append_nil,
      find?_isBoundary_of_sound ha he, Option.filter_some, hclose.2, he]
    rfl
  have hnone : ∀ l ∈ a.body ++ [e], Header.parse? l = none := by
    intro l hl
    rcases List.mem_append.1 hl with hl | hl
    · exact Marker.parse?_eq_none_of_not_isBoundary (ha.body l hl)
    · rw [List.mem_singleton.1 hl]
      exact Marker.isBegin_eq_false_iff.1 hclose.2
  have hrest := extractFrom_append hnone (n + 1) back
  rw [List.append_assoc, List.singleton_append] at hrest
  rw [Area.lines, he, Option.toList_some, List.cons_append, List.append_assoc,
    List.singleton_append, Area.extractFrom, ha.parse?_beginLine]
  simp only
  rw [hopened, hrest, List.length_cons, Nat.add_right_comm, Nat.add_assoc, he]

/-- **Segments in good order can be read back**: the areas of the file that they make up are theirs. -/
theorem map_unnumbered_extract_flatten {D : List Segment} (hs : ∀ s ∈ D, s.Sound)
    (hc : ∀ a ∈ areas D, a.isTerminated = true) :
    (Area.extract (flatten D)).map Area.unnumbered = (areas D).map Area.unnumbered := by
  suffices h : ∀ n, (Area.extractFrom n (flatten D)).map Area.unnumbered =
      (areas D).map Area.unnumbered by rw [Area.extract_eq, h 1]
  induction D with
  | nil => exact fun _ ↦ rfl
  | cons s D ih =>
    intro n
    have hD : ∀ t ∈ D, t.Sound := fun t ht ↦ hs t (List.mem_cons_of_mem s ht)
    cases s with
    | text l =>
      have hl : ∀ m ∈ [l], Header.parse? m = none := fun m hm ↦ by
        rw [List.mem_singleton.1 hm]
        exact hs (text l) List.mem_cons_self
      rw [flatten_cons, lines, extractFrom_append hl, ih hD hc, areas_text_cons]
    | area a =>
      rw [areas_area_cons] at hc ⊢
      rw [flatten_cons, lines, extractFrom_lines_append (hs (area a) List.mem_cons_self)
        (hc a List.mem_cons_self), List.map_cons, List.map_cons,
        ih hD fun b hb ↦ hc b (List.mem_cons_of_mem a hb)]
      rfl

/-! ### Settled areas -/

/-- No area of a list has anything left to do in the segments. -/
def Settled (transform : String → String) (flags : Flags) (as : List Area) (D : List Segment) : Prop :=
  ∀ a ∈ as, ∀ s ∈ D, absorb a (content transform flags a) s = [s]

variable {transform : String → String} {flags flags' : Flags} {as bs : List Area} {a b : Area}
  {D E : List Segment}

/-- An area is left alone where it has another opening line, or is not marked `ONCE` and filled. -/
theorem absorb_area_eq_self_iff {content : List String} :
    absorb a content (area b) = [area b] ↔
      (b.header.beginLine = a.header.beginLine → a.header.once = false ∧
        (Strategy.ofHeader a.header).fill b.body content = b.body) := by
  by_cases heq : b.header.beginLine = a.header.beginLine
  · rw [forall_prop_of_true heq]
    cases ho : a.header.once with
    | true =>
      -- an area that gives way to text is not left alone
      rw [absorb_of_once heq ho]
      refine iff_of_false (fun hself ↦ ?_) fun h ↦ Bool.noConfusion h.1
      obtain ⟨l, -, hl⟩ := List.mem_map.1 (hself ▸ List.mem_singleton_self (area b))
      cases hl
    | false =>
      rw [absorb_of_not_once heq ho, List.singleton_inj, area.injEq]
      constructor
      · exact fun hself ↦ ⟨rfl, congrArg Area.body hself⟩
      · rintro ⟨-, hfill⟩
        rw [hfill]
  · exact iff_of_true (absorb_of_ne heq) fun h ↦ absurd h heq

/-- **What it means to be settled**: the areas of the list have no `ONCE` area among the segments, and
each of them finds its content in place. -/
theorem settled_iff :
    Settled transform flags as D ↔
      ∀ a ∈ as, ∀ b ∈ areas D, b.header.beginLine = a.header.beginLine → a.header.once = false ∧
        (Strategy.ofHeader a.header).fill b.body (content transform flags a) = b.body := by
  refine forall₂_congr fun a _ ↦ ⟨fun h b hb ↦ ?_, fun h s hs ↦ ?_⟩
  · exact absorb_area_eq_self_iff.1 (h (area b) (mem_areas.1 hb))
  · cases s with
    | text l => rfl
    | area b => exact absorb_area_eq_self_iff.2 (h b (mem_areas.2 hs))

/-- Whether areas are settled is a matter of the areas of a file, not of where they stand. -/
theorem Settled.of_unnumbered_subset (h : Settled transform flags as E)
    (hsub : (areas D).map Area.unnumbered ⊆ (areas E).map Area.unnumbered) :
    Settled transform flags as D := by
  refine settled_iff.2 fun a ha b hb heq ↦ ?_
  obtain ⟨c, hc, hcb⟩ := List.mem_map.1 (hsub (List.mem_map_of_mem hb))
  obtain ⟨hheader, hbody⟩ := Area.header_body_eq_of_unnumbered_eq hcb
  rw [← hbody]
  exact settled_iff.1 h a ha c hc (by rw [hheader, heq])

/-- **After a merge its areas are settled.** -/
theorem settled_absorbAll (hn : (as.map (·.header.beginLine)).Nodup) (D : List Segment) :
    Settled transform flags as (absorbAll transform flags as D) := by
  rw [absorbAll_eq_flatMap_settle hn]
  intro a ha t ht
  obtain ⟨s, -, ht⟩ := List.mem_flatMap.1 ht
  exact absorb_of_mem_settle hn ha ht

/-! ### Other merges in between -/

/-- **An area that is settled stays so while others are merged**, also the same area with the content of
another branch. The contents of `SORTED` areas must have no blank lines for that. -/
theorem absorb_of_mem_absorb_other {c c' : List String} {s t : Segment} (ha : a.Sound) (hb : b.Sound)
    (hc : Strategy.ofHeader a.header = .unite → ∀ l ∈ c, Text.isBlankLine l = false)
    (hc' : Strategy.ofHeader b.header = .unite → ∀ l ∈ c', Text.isBlankLine l = false)
    (hself : absorb a c s = [s]) (ht : t ∈ absorb b c' s) : absorb a c t = [t] := by
  cases s with
  | text l =>
    rw [absorb, List.mem_singleton] at ht
    rw [ht]
    rfl
  | area d =>
    by_cases hdb : d.header.beginLine = b.header.beginLine
    · cases hob : b.header.once with
      | true =>
        rw [absorb_of_once hdb hob] at ht
        obtain ⟨l, -, rfl⟩ := List.mem_map.1 ht
        rfl
      | false =>
        rw [absorb_of_not_once hdb hob, List.mem_singleton] at ht
        rw [ht]
        refine absorb_area_eq_self_iff.2 fun hda ↦ ?_
        obtain ⟨hoa, hfill⟩ := absorb_area_eq_self_iff.1 hself hda
        -- one opening line, so both areas have one header and one strategy
        have hsame : b.header = a.header := Header.eq_of_beginLine_eq hb.parse?_beginLine
          ha.parse?_beginLine (hdb.symm.trans hda)
        rw [hsame] at hc'
        refine ⟨hoa, ?_⟩
        rw [hsame]
        exact Strategy.fill_fill_of_fill_eq_self (Merge.ofHeader_ne_replace hoa) hfill hc hc'
    · rw [absorb_of_ne hdb, List.mem_singleton] at ht
      rw [ht, hself]

/-- A `SORTED` area of the list has content without blank lines. -/
def SortedLinesCount (transform : String → String) (as : List Area) : Prop :=
  ∀ a ∈ as, a.header.once = false → a.header.sorted = true → ∀ l ∈ a.body,
    Text.isBlankLine (transform l) = false

theorem SortedLinesCount.not_isBlankLine_of_mem_content (h : SortedLinesCount transform as)
    (ha : a ∈ as) (flags : Flags) (hu : Strategy.ofHeader a.header = .unite) :
    ∀ l ∈ content transform flags a, Text.isBlankLine l = false := by
  intro l hl
  obtain ⟨m, hm, rfl⟩ := List.mem_map.1 hl
  have ho : a.header.once = false := by
    by_contra ho
    rw [Merge.ofHeader_eq_replace (by simpa using ho)] at hu
    cases hu
  have hs : a.header.sorted = true := by
    by_contra hs
    rw [Strategy.ofHeader, ho, if_neg Bool.false_ne_true, if_neg hs] at hu
    cases hu
  exact h a ha ho hs m ((Branch.choose_sublist a.body a.header.flag flags).subset hm)

/-- **Settled areas last** through every later merge. -/
theorem Settled.absorbAll (h : Settled transform flags as D) (hs : ∀ a ∈ as, a.Sound)
    (hs' : ∀ b ∈ bs, b.Sound) (hcount : SortedLinesCount transform as)
    (hcount' : SortedLinesCount transform bs) :
    Settled transform flags as (absorbAll transform flags' bs D) := by
  induction bs generalizing D with
  | nil => exact h
  | cons b bs ih =>
    rw [absorbAll_cons]
    refine ih ?_ (fun c hc ↦ hs' c (List.mem_cons_of_mem b hc))
      fun c hc ↦ hcount' c (List.mem_cons_of_mem b hc)
    intro a ha t ht
    obtain ⟨s, hsD, ht⟩ := List.mem_flatMap.1 ht
    exact absorb_of_mem_absorb_other (hs a ha) (hs' b List.mem_cons_self)
      (hcount.not_isBlankLine_of_mem_content ha flags)
      (hcount'.not_isBlankLine_of_mem_content List.mem_cons_self flags') (h a ha s hsD) ht

/-! ### Merges without effect -/

variable {workflow : String} {template : List String}

/-- Settled areas leave the lines and report no change. -/
theorem Tidy.merge_of_settled (hD : Tidy D)
    (hfit : ∀ a ∈ Area.applicable workflow template, Fits D a)
    (h : Settled transform flags (Area.applicable workflow template) D) :
    (Merge.merge workflow transform flags (flatten D) template).lines = flatten D ∧
      (Merge.merge workflow transform flags (flatten D) template).changed = [] :=
  Merge.merge_of_settled hD hfit fun a ha ↦ by
    rw [List.flatMap_congr (h a ha), List.flatMap_singleton']

/-- **A merge leaves a file alone exactly if its areas are settled.** -/
theorem Tidy.lines_merge_eq_self_iff (hD : Tidy D) (hsafe : MarkerSafe transform) (flags : Flags)
    (hfit : ∀ a ∈ Area.applicable workflow template, Fits D a)
    (hn : ((Area.applicable workflow template).map (·.header.beginLine)).Nodup) :
    (Merge.merge workflow transform flags (flatten D) template).lines = flatten D ↔
      Settled transform flags (Area.applicable workflow template) D := by
  refine ⟨fun hsame ↦ ?_, fun h ↦ (hD.merge_of_settled hfit h).1⟩
  -- the file is what the merge makes of it, so its areas are those that a merge leaves
  have hsound : ∀ a ∈ Area.applicable workflow template, a.Sound :=
    fun _ ha ↦ Area.sound_of_mem_applicable ha
  have hD' := hD.absorbAll hsafe flags hsound
  rw [Merge.lines_merge hsafe flags hD hfit] at hsame
  have hareas := map_unnumbered_extract_flatten hD'.sound hD'.closed
  rw [hsame, map_unnumbered_extract_flatten hD.sound hD.closed] at hareas
  exact (settled_absorbAll hn D).of_unnumbered_subset fun c hc ↦ hareas ▸ hc

end Segment

end WorkflowAreas
