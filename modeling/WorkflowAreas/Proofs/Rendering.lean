import WorkflowAreas.Proofs.Frame
import WorkflowAreas.Proofs.Numbering
import WorkflowAreas.Specialization

/-!
# The first rendering, segment by segment

`Specialization.render` goes through a template line by line and carries along where it is. It cuts the
template where `Segment.cut` cuts it, so the rendering is a rewriting of segments (`render_eq_flatten`).

The bridge is `Specialization.within`, which tells what is written from a place in an area up to the end
of that area: the body passes line by line, then the area is closed or left unfinished.

`FirstRendered` says case by case which lines an area leaves, and `render_areaWise` that a rendering puts
them together in the order of the template.
-/

namespace WorkflowAreas

namespace Specialization

variable {workflow : String} {flags : Flags}

/-! ### Inside an area -/

/-- The lines written from a place on, given the rest of the body and the closing line. -/
def within (flags : Flags) : Place → List String → Option String → List String
  | place, [], none => place.unfinished
  | place, [], some e => close flags place e
  | place, l :: body, e => (pass place l).1 ++ within flags (pass place l).2 body e

/-- At an opening line whatever was kept back is written, and all starts afresh. -/
theorem renderFrom_of_isBegin {l : String} {h : Header} (hl : Header.parse? l = some h)
    (place : Place) (ls : List String) :
    renderFrom workflow flags place (l :: ls) =
      place.unfinished ++ renderFrom workflow flags .outside (l :: ls) := by
  simp only [renderFrom, hl, Place.unfinished, List.nil_append, List.append_assoc]

/-- **From a place on, a rendering finishes the area and goes on outside.** -/
theorem renderFrom_eq_within (h : Header) (n : Nat) (place : Place) (ls : List String) :
    renderFrom workflow flags place ls =
      within flags place (Area.opened h n ls).body (Area.opened h n ls).endLine ++
        renderFrom workflow flags .outside (ls.drop (Area.opened h n ls).extent) := by
  -- the header is carried along and decides nothing: where an area ends is up to the lines
  induction ls generalizing place with
  | nil => exact (List.append_nil _).symm
  | cons l ls ih =>
    cases hb : Marker.isBoundary l with
    | false =>
      have hnone := Marker.parse?_eq_none_of_not_isBoundary hb
      have hend := (Marker.isBoundary_eq_false_iff.1 hb).1
      rw [Area.extent_opened_cons hb, Area.opened_cons_of_not_isBoundary hb, within,
        List.drop_succ_cons, List.append_assoc, ← ih, renderFrom]
      simp only [hnone, hend, Bool.false_eq_true, if_false]
    | true =>
      rw [Area.opened_cons_of_isBoundary hb, Area.extent, Option.filter_some]
      cases hl : Header.parse? l with
      | some g =>
        have hbegin : Marker.isBegin l = true := by rw [Marker.isBegin, hl, Option.isSome_some]
        simp only [hbegin, Bool.not_true, Bool.false_eq_true, if_false]
        exact renderFrom_of_isBegin hl place ls
      | none =>
        have hbegin : Marker.isBegin l = false := Marker.isBegin_eq_false_iff.2 hl
        have hend : Marker.isEnd l = true := by
          rwa [Marker.isBoundary, hbegin, Bool.or_false] at hb
        simp only [hbegin, Bool.not_false, if_true]
        rw [renderFrom]
        simp only [hl, hend, if_true]
        rfl

theorem within_excluded (body : List String) (e : Option String) :
    within flags .excluded body e = body.map (fun _ ↦ "") ++ e.toList := by
  induction body with
  | nil => cases e <;> rfl
  | cons l body ih => exact congrArg ("" :: ·) ih

theorem within_copied (body : List String) (e : Option String) :
    within flags .copied body e = body ++ e.toList := by
  induction body with
  | nil => cases e <;> rfl
  | cons l body ih => exact congrArg (l :: ·) ih

theorem within_held (h : Header) (before body : List String) (e : Option String) :
    within flags (.held h before) body e =
      match e with
      | none => h.beginLine :: (before ++ body)
      | some e => close flags (.held h (before ++ body)) e := by
  induction body generalizing before with
  | nil =>
    rw [List.append_nil]
    cases e <;> rfl
  | cons l body ih =>
    rw [within, pass, ih, List.append_assoc, List.singleton_append]
    rfl

end Specialization

/-! ### Segments -/

namespace Segment

open WorkflowAreas.Specialization (holds render renderFrom within)

variable (workflow : String) (flags : Flags)

/-- What a first rendering makes of a segment. An area for other workflows is emptied, and one that
waits for its closing line shows the branch that was chosen, if the closing line comes. -/
def rendered : Segment → List Segment
  | text l => [text l]
  | area a =>
    if !a.header.appliesTo workflow then [area { a with body := a.body.map fun _ ↦ "" }]
    else if holds a.header && a.isTerminated then
      if a.header.once then (Branch.choose a.body a.header.flag flags).map text
      else [area { a with body := Branch.choose a.body a.header.flag flags }]
    else [area a]

variable {workflow flags}

/-- What is written at and after an opening line is what becomes of the area. -/
theorem enter_append_within {a : Area} :
    (Specialization.enter workflow a.header).1 ++
        within flags (Specialization.enter workflow a.header).2 a.body a.endLine =
      flatten (rendered workflow flags (area a)) := by
  rw [Specialization.enter, rendered]
  cases happ : a.header.appliesTo workflow with
  | false =>
    simp only [Bool.not_false, if_true]
    rw [Specialization.within_excluded, flatten_cons, flatten_nil, List.append_nil]
    rfl
  | true =>
    simp only [Bool.not_true, Bool.false_eq_true, if_false]
    cases hh : holds a.header with
    | false =>
      simp only [Bool.false_eq_true, if_false, Bool.false_and]
      rw [Specialization.within_copied, flatten_cons, flatten_nil, List.append_nil]
      rfl
    | true =>
      simp only [if_true, Bool.true_and, List.nil_append]
      rw [Specialization.within_held, List.nil_append, Area.isTerminated]
      cases he : a.endLine with
      | none =>
        simp only [Option.isSome_none, Bool.false_eq_true, if_false]
        rw [flatten_cons, flatten_nil, List.append_nil, lines, Area.lines, he, Option.toList_none,
          List.append_nil]
      | some e =>
        simp only [Option.isSome_some, if_true, Specialization.close]
        split
        · rw [flatten_map_text]
        · rw [flatten_cons, flatten_nil, List.append_nil]
          rfl

/-- The rendering of the lines that a cut starts from. -/
theorem renderFrom_drop (n skip : Nat) (ls : List String) :
    renderFrom workflow flags .outside (ls.drop skip) =
      flatten ((cutFrom n skip ls).flatMap (rendered workflow flags)) := by
  induction ls generalizing n skip with
  | nil => rw [List.drop_nil, cutFrom]; rfl
  | cons l ls ih =>
    cases skip with
    | succ skip => rw [List.drop_succ_cons, cutFrom, ih (n + 1)]
    | zero =>
      rw [List.drop_zero, cutFrom, renderFrom]
      cases hp : Header.parse? l with
      | none =>
        simp only [List.flatMap_cons, flatten_append, ← ih, List.drop_zero]
        split <;> rfl
      | some h =>
        -- the rendering goes on where the cut does, behind the lines of the area
        simp only [List.flatMap_cons, flatten_append, ← ih]
        rw [← enter_append_within, Specialization.renderFrom_eq_within h n]
        simp only [Specialization.Place.unfinished, List.nil_append, List.append_assoc]
        rfl

/-- **A first rendering rewrites the template segment by segment.** -/
theorem render_eq_flatten (ls : List String) :
    render workflow flags ls = flatten ((cut ls).flatMap (rendered workflow flags)) :=
  renderFrom_drop 1 0 ls

/-! ### What a rendering keeps -/

theorem frames_rendered {a : Area} (hc : a.isTerminated = true) :
    (areas (rendered workflow flags (area a))).map Area.frame =
      if a.header.appliesTo workflow && a.header.once then [] else [a.frame] := by
  rw [rendered]
  cases happ : a.header.appliesTo workflow with
  | false => rfl
  | true =>
    cases ho : a.header.once with
    | true =>
      have hh : holds a.header = true := by rw [holds, ho, Bool.true_or]
      simp only [Bool.not_true, Bool.false_eq_true, if_false, hh, hc, Bool.and_self, if_true,
        areas_map_text, List.map_nil]
    | false =>
      simp only [Bool.not_true, Bool.false_eq_true, if_false, Bool.and_false]
      split <;> rfl

/-- **A rendering touches no marker of closed areas**, except that it removes those of the `ONCE` areas
for the workflow. -/
theorem frames_flatMap_rendered {D : List Segment}
    (hc : ∀ a ∈ areas D, a.isTerminated = true) :
    (areas (D.flatMap (rendered workflow flags))).map Area.frame =
      ((areas D).map Area.frame).filter fun f ↦ !(f.1.appliesTo workflow && f.1.once) := by
  induction D with
  | nil => rfl
  | cons s D ih =>
    rw [List.flatMap_cons, areas_append, List.map_append]
    cases s with
    | text l => exact ih hc
    | area a =>
      rw [areas_area_cons] at hc
      rw [ih fun b hb ↦ hc b (List.mem_cons_of_mem a hb), frames_rendered (hc a List.mem_cons_self),
        areas_area_cons, List.map_cons]
      cases hgone : a.header.appliesTo workflow && a.header.once with
      | true => rw [if_pos rfl, List.filter_cons_of_neg (by simp [Area.frame, hgone])]; rfl
      | false =>
        rw [if_neg Bool.false_ne_true, List.filter_cons_of_pos (by simp [Area.frame, hgone])]
        rfl

theorem sound_of_mem_rendered {s t : Segment} (hs : s.Sound)
    (ht : t ∈ rendered workflow flags s) : t.Sound := by
  cases s with
  | text l =>
    rw [rendered, List.mem_singleton] at ht
    exact ht ▸ hs
  | area a =>
    have hchosen : ∀ l ∈ Branch.choose a.body a.header.flag flags, Marker.isBoundary l = false :=
      fun l hl ↦ hs.body l ((Branch.choose_sublist a.body a.header.flag flags).subset hl)
    rw [rendered] at ht
    split at ht
    · rw [List.mem_singleton] at ht
      subst ht
      refine ⟨hs.parse?_beginLine, fun l hl ↦ ?_, hs.endLine⟩
      obtain ⟨m, -, rfl⟩ := List.mem_map.1 hl
      decide
    · split at ht
      · split at ht
        · obtain ⟨l, hl, rfl⟩ := List.mem_map.1 ht
          exact Marker.parse?_eq_none_of_not_isBoundary (hchosen l hl)
        · rw [List.mem_singleton] at ht
          subst ht
          exact ⟨hs.parse?_beginLine, hchosen, hs.endLine⟩
      · rw [List.mem_singleton] at ht
        exact ht ▸ hs

/-- The frames of a rendering of a template whose areas are closed. -/
theorem frames_render {ls : List String} (hc : ∀ a ∈ Area.extract ls, a.isTerminated = true) :
    frames (render workflow flags ls) =
      (frames ls).filter fun f ↦ !(f.1.appliesTo workflow && f.1.once) := by
  have hframes : (areas ((cut ls).flatMap (rendered workflow flags))).map Area.frame =
      (frames ls).filter fun f ↦ !(f.1.appliesTo workflow && f.1.once) := by
    rw [frames_flatMap_rendered (by rwa [areas_cut]), areas_cut, frames]
  rw [render_eq_flatten, frames_flatten, hframes]
  · intro t ht
    obtain ⟨s, hs, ht⟩ := List.mem_flatMap.1 ht
    exact sound_of_mem_rendered (sound_of_mem_cut s hs) ht
  · refine Area.isTerminated_of_subset ?_ hc
    rw [hframes]
    exact List.filter_sublist.subset

/-! ### The lines that are written -/

/-- The lines that a first rendering leaves of a segment. -/
inductive FirstRendered (workflow : String) (flags : Flags) : Segment → List String → Prop
  /-- A line outside of every area stays, a closing line as much as any other. -/
  | text (l : String) : FirstRendered workflow flags (.text l) [l]
  /-- An area for other workflows has an empty line for each line of its body. -/
  | excluded {a : Area} (happ : a.header.appliesTo workflow = false) :
      FirstRendered workflow flags (.area a)
        (a.header.beginLine :: (a.body.map (fun _ ↦ "") ++ a.endLine.toList))
  | copied {a : Area} (happ : a.header.appliesTo workflow = true) (ho : a.header.once = false)
      (hf : a.header.flag = none) : FirstRendered workflow flags (.area a) a.lines
  /-- Of a `ONCE` area the branch is left, without markers. -/
  | once {a : Area} {e : String} (happ : a.header.appliesTo workflow = true)
      (ho : a.header.once = true) (he : a.endLine = some e) :
      FirstRendered workflow flags (.area a) (Branch.choose a.body a.header.flag flags)
  | chosen {a : Area} {e flag : String} (happ : a.header.appliesTo workflow = true)
      (ho : a.header.once = false) (hf : a.header.flag = some flag) (he : a.endLine = some e) :
      FirstRendered workflow flags (.area a)
        (a.header.beginLine :: (Branch.choose a.body (some flag) flags ++ [e]))
  /-- Without a closing line nothing is chosen. -/
  | unfinished {a : Area} (happ : a.header.appliesTo workflow = true)
      (hh : a.header.once = true ∨ a.header.flag ≠ none) (he : a.endLine = none) :
      FirstRendered workflow flags (.area a) (a.header.beginLine :: a.body)

theorem holds_eq_false_iff {h : Header} : holds h = false ↔ h.once = false ∧ h.flag = none := by
  rw [holds, Bool.or_eq_false_iff, Header.isConditional, Option.isSome_eq_false_iff,
    Option.isNone_iff_eq_none]

/-- What becomes of a segment has the lines that the cases tell. -/
theorem firstRendered_rendered (s : Segment) :
    FirstRendered workflow flags s (flatten (rendered workflow flags s)) := by
  cases s with
  | text l => exact .text l
  | area a =>
    rw [rendered]
    cases happ : a.header.appliesTo workflow with
    | false =>
      rw [Bool.not_false, if_pos rfl, flatten_cons, flatten_nil, List.append_nil]
      exact .excluded happ
    | true =>
      rw [Bool.not_true, if_neg Bool.false_ne_true]
      cases hh : holds a.header with
      | false =>
        obtain ⟨ho, hf⟩ := holds_eq_false_iff.1 hh
        rw [Bool.false_and, if_neg Bool.false_ne_true, flatten_cons, flatten_nil, List.append_nil]
        exact .copied happ ho hf
      | true =>
        rw [Bool.true_and, Area.isTerminated]
        cases he : a.endLine with
        | none =>
          have hwaits : a.header.once = true ∨ a.header.flag ≠ none := by
            rwa [holds, Bool.or_eq_true, Header.isConditional, Option.isSome_iff_ne_none] at hh
          have hlines : a.lines = a.header.beginLine :: a.body := by
            rw [Area.lines, he, Option.toList_none, List.append_nil]
          rw [Option.isSome_none, if_neg Bool.false_ne_true, flatten_cons, flatten_nil,
            List.append_nil, lines, hlines]
          exact .unfinished happ hwaits he
        | some e =>
          rw [Option.isSome_some, if_pos rfl]
          cases ho : a.header.once with
          | true =>
            rw [if_pos rfl, flatten_map_text]
            exact .once happ ho he
          | false =>
            rw [if_neg Bool.false_ne_true, flatten_cons, flatten_nil, List.append_nil]
            rw [holds, ho, Bool.false_or, Header.isConditional] at hh
            obtain ⟨flag, hf⟩ := Option.isSome_iff_exists.1 hh
            show FirstRendered workflow flags (area a) (a.header.beginLine ::
              (Branch.choose a.body a.header.flag flags ++ [e]))
            rw [hf]
            exact .chosen happ ho hf he

/-- **A first rendering, area by area.** The template is cut into the areas that `Area.extract` finds, each
where its number says, and the lines between them. The rendering has what is left of each, in the same
order. -/
theorem render_areaWise (workflow : String) (flags : Flags) (template : List String) :
    flatten (cut template) = template ∧ areas (cut template) = Area.extract template ∧
      (∀ front a back, cut template = front ++ area a :: back →
        a.line = (flatten front).length + 1) ∧
      ∃ pieces, List.Forall₂ (FirstRendered workflow flags) (cut template) pieces ∧
        render workflow flags template = pieces.flatten := by
  refine ⟨flatten_cut template, areas_cut template, fun _ _ _ ↦ line_of_cut_eq_append,
    (cut template).map fun s ↦ flatten (rendered workflow flags s), ?_, ?_⟩
  · rw [List.forall₂_map_right_iff]
    exact List.forall₂_same.2 fun s _ ↦ firstRendered_rendered s
  · rw [render_eq_flatten, flatten_flatMap, List.flatMap_def]

end Segment

end WorkflowAreas
