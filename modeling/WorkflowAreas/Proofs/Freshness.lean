import WorkflowAreas.Proofs.Lifetime
import WorkflowAreas.Proofs.Merge.Settled

/-!
# What a merge finds in a fresh file

A first rendering and a merge bring the content of an area into a file in different ways: the one copies a
body or the chosen branch of it, the other transforms the chosen branch and fills the area with it. They
agree on all areas but the `SORTED` ones. Such an area is copied in the order of the template, and a merge
sorts it and clears blank lines away.

`lines_merge_firstRendering_eq_self_iff` says so exactly: merging a template into its own first rendering
leaves that file alone **if and only if** the `SORTED` areas for the workflow are `Presorted`.

The fresh file is described in segments (`Segment.fresh`), in which an area of the template for the
workflow can be found again by its opening line (`Segment.mem_areas_fresh_iff`).
-/

namespace WorkflowAreas

open Segment
open Merge (Strategy content)

/-! ### Areas of a fresh file -/

namespace Area

/-- The lines of the body that a first rendering leaves of an area for its workflow. -/
def shown (flags : Flags) (a : Area) : List String :=
  if a.header.isConditional then Branch.choose a.body a.header.flag flags else a.body

theorem shown_subset (flags : Flags) (a : Area) : a.shown flags ⊆ a.body := by
  rw [shown]
  split
  · exact (Branch.choose_sublist a.body a.header.flag flags).subset
  · exact fun _ hl ↦ hl

/-- A merge brings lines that are there already, and they come first. -/
theorem choose_prefix_shown (flags : Flags) (a : Area) :
    Branch.choose a.body a.header.flag flags <+: a.shown flags := by
  rw [shown, Header.isConditional]
  cases a.header.flag with
  | some flag => exact List.prefix_rfl
  | none => exact List.takeWhile_prefix _

/-- What a first rendering leaves of a `SORTED` area is what a merge would make of it: the lines ascend,
and there is no blank one that the merge does not bring itself. -/
structure Presorted (transform : String → String) (flags : Flags) (a : Area) : Prop where
  ascending : ((a.shown flags).map transform).Pairwise (· < ·)
  blank : ∀ l ∈ (a.shown flags).map transform, Text.isBlankLine l = true →
    l ∈ content transform flags a

instance (transform : String → String) (flags : Flags) (a : Area) :
    Decidable (a.Presorted transform flags) :=
  decidable_of_iff (((a.shown flags).map transform).Pairwise (· < ·) ∧
    ∀ l ∈ (a.shown flags).map transform, Text.isBlankLine l = true → l ∈ content transform flags a)
    ⟨fun ⟨h₁, h₂⟩ ↦ ⟨h₁, h₂⟩, fun ⟨h₁, h₂⟩ ↦ ⟨h₁, h₂⟩⟩

/-- **Filling what a first rendering leaves** changes it only in a `SORTED` area. -/
theorem fill_shown_eq_self_iff (transform : String → String) (flags : Flags) {a : Area}
    (ho : a.header.once = false) :
    (Strategy.ofHeader a.header).fill ((a.shown flags).map transform) (content transform flags a) =
        (a.shown flags).map transform ↔
      (a.header.sorted = true → a.Presorted transform flags) := by
  have hprefix : content transform flags a <+: (a.shown flags).map transform :=
    (a.choose_prefix_shown flags).map transform
  cases hs : a.header.sorted with
  | true =>
    have hunite : Strategy.ofHeader a.header = .unite := by
      rw [Strategy.ofHeader, ho, hs, if_neg Bool.false_ne_true, if_pos rfl]
    rw [hunite, Strategy.fill, Merge.union_eq_self_iff, forall_prop_of_true rfl]
    exact ⟨fun h ↦ ⟨h.1, h.2.2⟩,
      fun h ↦ ⟨h.ascending, fun l hl ↦ hprefix.subset hl, h.blank⟩⟩
  | false =>
    have happend : Strategy.ofHeader a.header = .append := by
      rw [Strategy.ofHeader, ho, hs, if_neg Bool.false_ne_true, if_neg Bool.false_ne_true]
    rw [happend, Strategy.fill_append_eq_self_iff]
    obtain ⟨back, hback⟩ := hprefix
    exact iff_of_true (Run.occurs_iff.2 ⟨[], back, hback.symm⟩) fun h ↦ Bool.noConfusion h

end Area

namespace Segment

/-! ### Lines of segments one by one -/

/-- The segment with other lines, but for the markers of an area. -/
def mapLines (f : String → String) : Segment → Segment
  | text l => text (f l)
  | area a => area { a with body := a.body.map f }

section MapLines

variable {f : String → String} {D : List Segment}

theorem areas_map_mapLines (f : String → String) (D : List Segment) :
    areas (D.map (mapLines f)) = (areas D).map fun a ↦ { a with body := a.body.map f } := by
  induction D with
  | nil => rfl
  | cons s D ih =>
    cases s with
    | text l => exact ih
    | area a => exact congrArg _ ih

/-- Where markers are left alone, the lines of a file are changed segment by segment. -/
theorem flatten_map_mapLines (hkeep : ∀ l, Marker.isBoundary l = true → f l = l)
    (hs : ∀ s ∈ D, s.Sound) : flatten (D.map (mapLines f)) = (flatten D).map f := by
  induction D with
  | nil => rfl
  | cons s D ih =>
    obtain ⟨hsound, hD⟩ := List.forall_mem_cons.1 hs
    rw [List.map_cons, flatten_cons, flatten_cons, List.map_append, ih hD]
    refine congrArg (· ++ (flatten D).map f) ?_
    cases s with
    | text l => rfl
    | area a =>
      have hbegin : f a.header.beginLine = a.header.beginLine :=
        hkeep _ hsound.isBoundary_beginLine
      have hend : a.endLine.toList.map f = a.endLine.toList :=
        (List.map_congr_left fun e he ↦
          hkeep e (hsound.isBoundary_endLine e (Option.mem_toList.1 he))).trans (List.map_id _)
      rw [mapLines, lines, lines, Area.lines, Area.lines, List.map_cons, List.map_append, hbegin,
        hend]

theorem Tidy.map_mapLines (hkeep : ∀ l, Marker.isBoundary l = true → f l = l)
    (hsafe : ∀ l, Marker.isBoundary l = false → Marker.isBoundary (f l) = false) (h : Tidy D) :
    Tidy (D.map (mapLines f)) := by
  refine h.of_frames_sublist (fun t ht ↦ ?_) ?_
  · obtain ⟨s, hs, rfl⟩ := List.mem_map.1 ht
    have hsound := h.sound s hs
    cases s with
    | text l =>
      cases hb : Marker.isBoundary l with
      | true => exact (congrArg Header.parse? (hkeep l hb)).trans hsound
      | false => exact Marker.parse?_eq_none_of_not_isBoundary (hsafe l hb)
    | area a =>
      refine ⟨hsound.parse?_beginLine, fun l hl ↦ ?_, hsound.endLine⟩
      obtain ⟨m, hm, rfl⟩ := List.mem_map.1 hl
      exact hsafe m (hsound.body m hm)
  · rw [areas_map_mapLines, List.map_map]
    exact List.Sublist.refl _

end MapLines

/-! ### The segments of a fresh file -/

variable {workflow : String} {flags : Flags} {transform : String → String} {template : List String}
  {a b c : Area} {p q : String}

/-- What a first rendering makes of a closed area for its workflow. -/
theorem rendered_of_appliesTo (happ : a.header.appliesTo workflow = true)
    (hc : a.isTerminated = true) :
    rendered workflow flags (area a) =
      if a.header.once then (Branch.choose a.body a.header.flag flags).map text
      else [area { a with body := a.shown flags }] := by
  rw [rendered, happ, hc, Specialization.holds, Area.shown]
  cases a.header.once with
  | true => rfl
  | false => cases a.header.isConditional <;> rfl

/-- No area comes out of a rendering under another header. -/
theorem header_of_mem_areas_rendered (hb : b ∈ areas (rendered workflow flags (area a))) :
    b.header = a.header := by
  rw [rendered] at hb
  split at hb
  · rw [areas_area_cons, areas_nil, List.mem_singleton] at hb
    rw [hb]
  · split at hb
    · split at hb
      · rw [areas_map_text] at hb
        cases hb
      · rw [areas_area_cons, areas_nil, List.mem_singleton] at hb
        rw [hb]
    · rw [areas_area_cons, areas_nil, List.mem_singleton] at hb
      rw [hb]

/-- The segments of the first rendering of a template. -/
def fresh (workflow : String) (transform : String → String) (flags : Flags)
    (template : List String) : List Segment :=
  ((cut template).flatMap (rendered workflow flags)).map
    (mapLines fun l ↦ if Marker.isBoundary l then l else transform l)

theorem flatten_fresh :
    flatten (fresh workflow transform flags template) =
      firstRendering workflow transform flags template := by
  rw [fresh, flatten_map_mapLines (fun l hl ↦ if_pos hl), ← render_eq_flatten, firstRendering]
  intro t ht
  obtain ⟨s, hs, ht⟩ := List.mem_flatMap.1 ht
  exact sound_of_mem_rendered (sound_of_mem_cut s hs) ht

/-- A rendering of segments in good order is in good order. -/
theorem Tidy.flatMap_rendered {D : List Segment} (h : Tidy D) (workflow : String) (flags : Flags) :
    Tidy (D.flatMap (rendered workflow flags)) := by
  refine h.of_frames_sublist (fun t ht ↦ ?_) ?_
  · obtain ⟨s, hs, ht⟩ := List.mem_flatMap.1 ht
    exact sound_of_mem_rendered (h.sound s hs) ht
  · rw [frames_flatMap_rendered h.closed]
    exact List.filter_sublist

section Fresh

variable (hself : (Consistency.check template template p q).passed = true)
include hself

theorem tidy_fresh (hsafe : MarkerSafe transform) :
    Tidy (fresh workflow transform flags template) := by
  refine ((tidy_cut_of_passed hself).flatMap_rendered workflow flags).map_mapLines
    (fun l hl ↦ if_pos hl) fun l hl ↦ ?_
  rw [hl, if_neg Bool.false_ne_true]
  exact hsafe l hl

/-- **Which area of a fresh file has the opening line of an area for the workflow**: none if that is
marked `ONCE`, and otherwise the area itself with what is shown of it. -/
theorem mem_areas_fresh_iff (ha : a ∈ Area.applicable workflow template) :
    b ∈ areas (fresh workflow transform flags template) ∧
        b.header.beginLine = a.header.beginLine ↔
      a.header.once = false ∧ b = { a with body := (a.shown flags).map transform } := by
  obtain ⟨hat, happ⟩ := Area.mem_applicable.1 ha
  have hclosed := (Consistency.passed_check_iff.1 hself).closed_template a hat
  have hsound := Area.sound_of_mem_extract hat
  -- bodies have no markers, so all of their lines are transformed
  have hbody : (a.shown flags).map (fun l ↦ if Marker.isBoundary l then l else transform l) =
      (a.shown flags).map transform :=
    List.map_congr_left fun l hl ↦ by
      rw [hsound.body l (a.shown_subset flags hl), if_neg Bool.false_ne_true]
  rw [fresh, areas_map_mapLines]
  constructor
  · rintro ⟨hb, heq⟩
    obtain ⟨d, hd, rfl⟩ := List.mem_map.1 hb
    obtain ⟨s, hs, hds⟩ := List.mem_flatMap.1 (mem_areas.1 hd)
    cases s with
    | text l => cases List.mem_singleton.1 hds
    | area c =>
      have hheader := header_of_mem_areas_rendered (mem_areas.2 hds)
      have hct : c ∈ Area.extract template := areas_cut template ▸ mem_areas.2 hs
      obtain rfl : c = a := List.inj_on_of_nodup_map
        (areas_cut template ▸ (tidy_cut_of_passed hself).distinct) hct hat (by
          rw [← hheader]
          exact heq)
      rw [rendered_of_appliesTo happ hclosed] at hds
      cases ho : c.header.once with
      | true =>
        rw [ho, if_pos rfl] at hds
        obtain ⟨l, -, hl⟩ := List.mem_map.1 hds
        cases hl
      | false =>
        rw [ho, if_neg Bool.false_ne_true, List.mem_singleton, area.injEq] at hds
        rw [hds]
        exact ⟨rfl, congrArg (fun body ↦ { c with body := body }) hbody⟩
  · rintro ⟨ho, rfl⟩
    refine ⟨List.mem_map.2 ⟨{ a with body := a.shown flags }, ?_, ?_⟩, rfl⟩
    · refine mem_areas.2 (List.mem_flatMap.2 ⟨area a, ?_, ?_⟩)
      · rw [← mem_areas, areas_cut]
        exact hat
      · rw [rendered_of_appliesTo happ hclosed, ho, if_neg Bool.false_ne_true]
        exact List.mem_singleton_self _
    · exact congrArg (fun body ↦ { a with body := body }) hbody

theorem fits_fresh (ha : a ∈ Area.applicable workflow template) :
    Fits (fresh workflow transform flags template) a where
  sound := Area.sound_of_mem_applicable ha
  closed := (Consistency.passed_check_iff.1 hself).closed_template a (Area.mem_applicable.1 ha).1
  endLine b hb heq := by
    obtain ⟨-, rfl⟩ := (mem_areas_fresh_iff hself ha).1 ⟨hb, heq⟩
    rfl

/-- **What is settled in a fresh file.** -/
theorem settled_fresh_iff :
    Settled transform flags (Area.applicable workflow template)
        (fresh workflow transform flags template) ↔
      ∀ a ∈ Area.applicable workflow template, a.header.once = false →
        a.header.sorted = true → a.Presorted transform flags := by
  rw [settled_iff]
  refine forall₂_congr fun a ha ↦ ⟨fun h ho ↦ ?_, fun h b hb heq ↦ ?_⟩
  · have hb : ({ a with body := (a.shown flags).map transform } : Area) ∈
        areas (fresh workflow transform flags template) :=
      ((mem_areas_fresh_iff hself ha).2 ⟨ho, rfl⟩).1
    exact (Area.fill_shown_eq_self_iff transform flags ho).1 (h _ hb rfl).2
  · obtain ⟨ho, rfl⟩ := (mem_areas_fresh_iff hself ha).1 ⟨hb, heq⟩
    exact ⟨ho, (Area.fill_shown_eq_self_iff transform flags ho).2 (h ho)⟩

end Fresh

/-! ### The lines of a fresh file -/

theorem mem_lines_of_body {body : List String} (h : ∀ m ∈ body, m ∈ a.body ∨ m = "") {l : String}
    (hl : l ∈ ({ a with body := body } : Area).lines) : l ∈ a.lines ∨ l = "" := by
  simp only [Area.lines, List.mem_cons, List.mem_append] at hl ⊢
  rcases hl with hl | hl | hl
  · exact Or.inl (Or.inl hl)
  · exact (h l hl).imp_left fun hl ↦ Or.inr (Or.inl hl)
  · exact Or.inl (Or.inr (Or.inr hl))

/-- A rendering has lines of its template, and empty lines. -/
theorem mem_of_mem_render {l : String}
    (hl : l ∈ Specialization.render workflow flags template) : l ∈ template ∨ l = "" := by
  rw [render_eq_flatten] at hl
  obtain ⟨t, ht, hl⟩ := List.mem_flatMap.1 hl
  obtain ⟨s, hs, ht⟩ := List.mem_flatMap.1 ht
  suffices h : l ∈ s.lines ∨ l = "" from
    h.imp_left fun hl ↦ flatten_cut template ▸ List.mem_flatMap.2 ⟨s, hs, hl⟩
  cases s with
  | text m =>
    rw [rendered, List.mem_singleton] at ht
    exact Or.inl (ht ▸ hl)
  | area a =>
    have hchosen := (Branch.choose_sublist a.body a.header.flag flags).subset
    rw [rendered] at ht
    split at ht
    · rw [List.mem_singleton] at ht
      subst ht
      refine mem_lines_of_body (fun m hm ↦ Or.inr ?_) hl
      obtain ⟨k, -, rfl⟩ := List.mem_map.1 hm
      rfl
    · split at ht
      · split at ht
        · obtain ⟨m, hm, rfl⟩ := List.mem_map.1 ht
          rw [lines, List.mem_singleton] at hl
          rw [hl]
          exact Or.inl (List.mem_cons_of_mem _ (List.mem_append_left _ (hchosen hm)))
        · rw [List.mem_singleton] at ht
          subst ht
          exact mem_lines_of_body (fun m hm ↦ Or.inl (hchosen hm)) hl
      · rw [List.mem_singleton] at ht
        exact Or.inl (ht ▸ hl)

end Segment

variable {workflow p q : String} {transform : String → String} {flags : Flags}
  {template : List String}

/-- So a fresh file has these lines transformed outside of markers. -/
theorem mem_firstRendering {l : String}
    (hl : l ∈ firstRendering workflow transform flags template) :
    ∃ m, (m ∈ template ∨ m = "") ∧ l = if Marker.isBoundary m then m else transform m := by
  obtain ⟨m, hm, rfl⟩ := List.mem_map.1 hl
  exact ⟨m, mem_of_mem_render hm, rfl⟩

/-- The `SORTED` areas of a template are ready for a first rendering. -/
def Presorted (workflow : String) (transform : String → String) (flags : Flags)
    (template : List String) : Prop :=
  ∀ a ∈ Area.applicable workflow template, a.header.once = false → a.header.sorted = true →
    a.Presorted transform flags

instance (workflow : String) (transform : String → String) (flags : Flags)
    (template : List String) : Decidable (Presorted workflow transform flags template) :=
  inferInstanceAs (Decidable (∀ a ∈ Area.applicable workflow template, _))

/-- **A merge leaves a fresh file alone** exactly if the `SORTED` areas of its template were ready for
it. It then reports no change either. -/
theorem lines_merge_firstRendering_eq_self_iff
    (hself : (Consistency.check template template p q).passed = true)
    (hsafe : MarkerSafe transform) :
    let first := firstRendering workflow transform flags template
    let again := Merge.merge workflow transform flags first template
    (again.lines = first ↔ Presorted workflow transform flags template) ∧
      (Presorted workflow transform flags template → again.changed = []) := by
  intro first again
  have hD : Tidy (fresh workflow transform flags template) := tidy_fresh hself hsafe
  have hfit : ∀ a ∈ Area.applicable workflow template,
      Fits (fresh workflow transform flags template) a := fun a ha ↦ fits_fresh hself ha
  have hiff := hD.lines_merge_eq_self_iff hsafe flags hfit
    (nodup_applicable_of_passed hself workflow)
  rw [settled_fresh_iff hself, flatten_fresh] at hiff
  refine ⟨hiff, fun h ↦ ?_⟩
  have hsettled := hD.merge_of_settled hfit ((settled_fresh_iff hself).2 h)
  rw [flatten_fresh] at hsettled
  exact hsettled.2

end WorkflowAreas
