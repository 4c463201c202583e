import WorkflowAreas.Proofs.Merge.Provenance
import WorkflowAreas.Proofs.Partition
import WorkflowAreas.Proofs.Rendering

/-!
# Content for other workflows

Two templates agree for a workflow (`AgreeFor`) if they differ only inside the bodies of areas for other
workflows, line by line and without markers. Such templates make the same of every file:

* `Segment.forall₂_cut`: their cuts run in parallel, area by area, and only excluded bodies differ
  (`Segment.AlikeFor`);
* `Segment.flatten_rendered_congr` and `Merge.mergeArea_congr`: neither a first rendering nor a
  merge looks at what differs, nor at a flag that the area does not name;
* `AgreeFor.render_eq_and_merge_eq`: **content for other workflows has no influence**.

The excluded bodies may differ in `ELSE` lines too. What they share is their length, and a first rendering
shows no more of them than that.
-/

namespace WorkflowAreas

/-- The line with number `n` is in the body of one of the areas, and that one is for other workflows. -/
def ForOthers (workflow : String) (as : List Area) (n : Nat) : Prop :=
  ∃ a ∈ as, a.header.appliesTo workflow = false ∧ a.line < n ∧ n ≤ a.line + a.body.length

/-- The templates differ only inside the bodies of areas for other workflows. -/
structure AgreeFor (workflow : String) (ls ms : List String) : Prop where
  length_eq : ms.length = ls.length
  agree : ∀ n l m, IsLine ls n l → IsLine ms n m →
    l = m ∨ ForOthers workflow (Area.extract ls) n ∧ Marker.isBoundary m = false

/-- The settings give one value to every flag that an area for the workflow names. -/
def FlagsAgreeFor (workflow : String) (ls : List String) (flags flags' : Flags) : Prop :=
  ∀ a ∈ Area.extract ls, a.header.appliesTo workflow = true →
    ∀ flag ∈ a.header.flag, flags.isOn flag = flags'.isOn flag

variable {workflow : String} {flags flags' : Flags} {ls ms : List String}

/-- The choice of a branch looks at no flag but its own. -/
theorem Branch.choose_congr {body : List String} {flag : Option String}
    (h : ∀ f ∈ flag, flags.isOn f = flags'.isOn f) :
    choose body flag flags = choose body flag flags' := by
  cases flag with
  | none => rfl
  | some f => rw [choose, choose, Option.all_some, Option.all_some, h f rfl]

/-! ### Areas that are alike -/

/-- The areas differ in the body at most, and there only if they are for other workflows. -/
structure Area.AlikeFor (workflow : String) (a b : Area) : Prop where
  header : b.header = a.header
  endLine : b.endLine = a.endLine
  line : b.line = a.line
  length_body : b.body.length = a.body.length
  body : a.header.appliesTo workflow = true → b.body = a.body

namespace Area.AlikeFor

variable {a b : Area}

theorem refl (a : Area) : a.AlikeFor workflow a :=
  ⟨rfl, rfl, rfl, rfl, fun _ ↦ rfl⟩

theorem extent (h : a.AlikeFor workflow b) : b.extent = a.extent := by
  rw [Area.extent, Area.extent, h.length_body, h.endLine]

theorem eq (h : a.AlikeFor workflow b) (happ : a.header.appliesTo workflow = true) : b = a := by
  have hbody := h.body happ
  obtain ⟨hheader, hend, hline, -, -⟩ := h
  cases a
  cases b
  simp_all only

/-- An area is alike what opens in front of other lines, if those agree up to the marker that ends it. -/
theorem opened (h : Header) (n : Nat) (hlen : ms.length = ls.length)
    (hagree : ∀ k ≤ (Area.opened h n ls).body.length, ∀ l m, ls[k]? = some l → ms[k]? = some m →
      l = m ∨ h.appliesTo workflow = false ∧ k < (Area.opened h n ls).body.length ∧
        Marker.isBoundary m = false) :
    (Area.opened h n ls).AlikeFor workflow (Area.opened h n ms) := by
  induction ls generalizing ms with
  | nil =>
    rw [List.length_eq_zero_iff.1 hlen]
    exact refl _
  | cons l ls ih =>
    cases ms with
    | nil => cases hlen
    | cons m ms =>
      have hfirst := hagree 0 (Nat.zero_le _) l m rfl rfl
      cases hl : Marker.isBoundary l with
      | true =>
        -- the area ends here, so there is nothing in which the lines could differ
        rw [Area.opened_cons_of_isBoundary hl] at hfirst ⊢
        obtain rfl : l = m := hfirst.resolve_right fun h ↦ Nat.lt_irrefl 0 h.2.1
        rw [Area.opened_cons_of_isBoundary hl]
        exact refl _
      | false =>
        have hm : Marker.isBoundary m = false := hfirst.elim (fun heq ↦ heq ▸ hl) fun h ↦ h.2.2
        rw [Area.opened_cons_of_not_isBoundary hl] at hagree
        have hrest := ih (Nat.succ.inj hlen) fun k hk l' m' hl' hm' ↦
          (hagree (k + 1) (Nat.succ_le_succ hk) l' m' hl' hm').imp_right fun h ↦
            ⟨h.1, Nat.lt_of_succ_lt_succ h.2.1, h.2.2⟩
        rw [Area.opened_cons_of_not_isBoundary hl, Area.opened_cons_of_not_isBoundary hm]
        refine ⟨rfl, hrest.endLine, rfl, congrArg Nat.succ hrest.length_body, fun happ ↦ ?_⟩
        obtain rfl : l = m := hfirst.resolve_right fun h ↦ Bool.false_ne_true (h.1.symm.trans happ)
        exact congrArg (l :: ·) (hrest.body happ)

end Area.AlikeFor

/-! ### Cuts that run in parallel -/

namespace Segment

/-- The segments are one line of text, or areas that are alike. -/
inductive AlikeFor (workflow : String) : Segment → Segment → Prop
  | text (l : String) : AlikeFor workflow (text l) (text l)
  | area {a b : Area} (h : a.AlikeFor workflow b) : AlikeFor workflow (area a) (area b)

theorem le_line_of_mem_areas_cutFrom {n skip : Nat} :
    ∀ a ∈ areas (cutFrom n skip ls), n + skip ≤ a.line := by
  rw [areas_cutFrom]
  exact Area.le_line_of_mem_extractFrom

theorem forall₂_cutFrom {n skip : Nat} (hlen : ms.length = ls.length)
    (hagree : ∀ k, skip ≤ k → ∀ l m, ls[k]? = some l → ms[k]? = some m →
      l = m ∨ ForOthers workflow (areas (cutFrom n skip ls)) (n + k) ∧
        Marker.isBoundary m = false) :
    List.Forall₂ (AlikeFor workflow) (cutFrom n skip ls) (cutFrom n skip ms) := by
  induction ls generalizing n skip ms with
  | nil =>
    rw [List.length_eq_zero_iff.1 hlen, cutFrom]
    exact .nil
  | cons l ls ih =>
    cases ms with
    | nil => cases hlen
    | cons m ms =>
      have hlen' : ms.length = ls.length := Nat.succ.inj hlen
      have hnumber : ∀ k, n + (k + 1) = n + 1 + k := fun k ↦ by omega
      cases skip with
      | succ skip =>
        rw [cutFrom] at hagree
        rw [cutFrom, cutFrom]
        exact ih hlen' fun k hk l' m' hl hm ↦
          hnumber k ▸ hagree (k + 1) (Nat.succ_le_succ hk) l' m' hl hm
      | zero =>
        -- every area begins at the first line or later, so the first line is in no body
        obtain rfl : l = m := by
          refine (hagree 0 (Nat.le_refl 0) l m rfl rfl).resolve_right ?_
          rintro ⟨⟨a, ha, -, hlt, -⟩, -⟩
          exact absurd (le_line_of_mem_areas_cutFrom a ha) (Nat.not_le.2 hlt)
        rw [cutFrom] at hagree
        rw [cutFrom, cutFrom]
        cases hp : Header.parse? l with
        | none =>
          simp only [hp, areas_text_cons] at hagree ⊢
          exact .cons (.text l) (ih hlen' fun k _ l' m' hl hm ↦
            hnumber k ▸ hagree (k + 1) (Nat.zero_le _) l' m' hl hm)
        | some h =>
          simp only [hp, areas_area_cons] at hagree ⊢
          have hline : (Area.opened h n ls).line = n := rfl
          have hextent : (Area.opened h n ls).body.length ≤ (Area.opened h n ls).extent :=
            Nat.le_add_right _ _
          -- up to the end of this area a difference is in its body, after that it is in a later one
          have halike : (Area.opened h n ls).AlikeFor workflow (Area.opened h n ms) := by
            refine .opened h n hlen' fun k hk l' m' hl hm ↦ ?_
            refine (hagree (k + 1) (Nat.zero_le _) l' m' hl hm).imp_right ?_
            rintro ⟨⟨a, ha, happ, hlt, hle⟩, hm⟩
            rcases List.mem_cons.1 ha with rfl | ha
            · exact ⟨happ, by omega, hm⟩
            · have hfirst := le_line_of_mem_areas_cutFrom a ha
              omega
          refine .cons (.area halike) ?_
          rw [halike.extent]
          refine ih hlen' fun k hk l' m' hl hm ↦ ?_
          rw [← hnumber]
          refine (hagree (k + 1) (Nat.zero_le _) l' m' hl hm).imp_right ?_
          rintro ⟨⟨a, ha, happ, hlt, hle⟩, hm⟩
          rcases List.mem_cons.1 ha with rfl | ha
          · omega
          · exact ⟨⟨a, ha, happ, hlt, hle⟩, hm⟩

/-- **Templates that agree for a workflow are cut alike.** -/
theorem forall₂_cut (h : AgreeFor workflow ls ms) :
    List.Forall₂ (AlikeFor workflow) (cut ls) (cut ms) := by
  refine forall₂_cutFrom h.length_eq fun k _ l m hl hm ↦ ?_
  rw [show areas (cutFrom 1 0 ls) = Area.extract ls from areas_cut ls, Nat.add_comm]
  exact h.agree (k + 1) l m (isLine_succ.2 hl) (isLine_succ.2 hm)

/-! ### What a workflow sees -/

/-- The areas for the workflow are the same. -/
theorem filter_areas_of_forall₂ {D E : List Segment} (h : List.Forall₂ (AlikeFor workflow) D E) :
    (areas E).filter (·.header.appliesTo workflow) =
      (areas D).filter (·.header.appliesTo workflow) := by
  induction h with
  | nil => rfl
  | cons hst _ ih =>
    cases hst with
    | text l => exact ih
    | @area a b hab =>
      rw [areas_area_cons, areas_area_cons]
      cases happ : a.header.appliesTo workflow with
      | true => simp only [hab.eq happ, happ, List.filter_cons_of_pos, ih]
      | false => simp [hab.header, happ, ih]

/-- What a first rendering leaves of a segment. -/
theorem flatten_rendered_congr {s t : Segment} (h : s.AlikeFor workflow t)
    (hflags : ∀ a ∈ s.area?, a.header.appliesTo workflow = true →
      ∀ flag ∈ a.header.flag, flags.isOn flag = flags'.isOn flag) :
    flatten (rendered workflow flags s) = flatten (rendered workflow flags' t) := by
  cases h with
  | text l => rfl
  | @area a b hab =>
    cases happ : a.header.appliesTo workflow with
    | true =>
      rw [hab.eq happ, rendered, rendered, Branch.choose_congr (hflags a rfl happ)]
    | false =>
      -- an empty line for each line of the body is all that is left of it
      simp only [rendered, happ, Bool.not_false, if_true, List.map_const', hab.length_body,
        flatten_cons, lines, Area.lines, hab.header, hab.endLine]

theorem flatMap_rendered_congr {D E : List Segment} (h : List.Forall₂ (AlikeFor workflow) D E)
    (hflags : ∀ a ∈ areas D, a.header.appliesTo workflow = true →
      ∀ flag ∈ a.header.flag, flags.isOn flag = flags'.isOn flag) :
    flatten (D.flatMap (rendered workflow flags)) =
      flatten (E.flatMap (rendered workflow flags')) := by
  induction h with
  | nil => rfl
  | @cons s t D E hst _ ih =>
    have hs : ∀ a ∈ s.area?, a ∈ areas (s :: D) := fun a ha ↦
      List.mem_filterMap.2 ⟨s, List.mem_cons_self, ha⟩
    have hD : ∀ a ∈ areas D, a ∈ areas (s :: D) := fun a ha ↦
      mem_areas.2 (List.mem_cons_of_mem s (mem_areas.1 ha))
    rw [List.flatMap_cons, List.flatMap_cons, flatten_append, flatten_append,
      flatten_rendered_congr hst fun a ha ↦ hflags a (hs a ha), ih fun a ha ↦ hflags a (hD a ha)]

end Segment

/-- **Content for other workflows has no influence.** Templates that differ only there, with settings that
differ only in flags that the workflow does not know, are rendered and merged alike: a merge arrives at
the same lines, changes and skips the same areas and notes the same. -/
theorem AgreeFor.render_eq_and_merge_eq (h : AgreeFor workflow ls ms)
    (hflags : FlagsAgreeFor workflow ls flags flags') :
    Specialization.render workflow flags ls = Specialization.render workflow flags' ms ∧
      ∀ transform target, Merge.merge workflow transform flags target ls =
        Merge.merge workflow transform flags' target ms := by
  have hcut := Segment.forall₂_cut h
  constructor
  · rw [Segment.render_eq_flatten, Segment.render_eq_flatten]
    exact Segment.flatMap_rendered_congr hcut fun a ha ↦ hflags a (Segment.areas_cut ls ▸ ha)
  · intro transform target
    have happlicable := Segment.filter_areas_of_forall₂ hcut
    rw [Segment.areas_cut, Segment.areas_cut] at happlicable
    rw [Merge.merge, Merge.merge, happlicable]
    refine List.foldl_ext _ _ _ fun o a ha ↦ Merge.mergeArea_congr ?_
    obtain ⟨ha, happ⟩ := List.mem_filter.1 ha
    rw [Merge.content, Merge.content, Branch.choose_congr (hflags a ha happ)]

/-- An area for another workflow gets other lines, an `ELSE` line at another place among them, and is never
closed. A flag that only it names is switched. -/
theorem AgreeFor.render_eq_and_merge_eq_sample :
    let ls := ["// BEGIN WORKFLOW AREA a FOR w IF f", "on", "// ELSE", "off", "// END WORKFLOW AREA",
      "// BEGIN WORKFLOW AREA b FOR v IF g", "one", "// ELSE", "two",
      "// BEGIN ONCE WORKFLOW AREA c FOR v w", "x", "// END WORKFLOW AREA"]
    let ms := ["// BEGIN WORKFLOW AREA a FOR w IF f", "on", "// ELSE", "off", "// END WORKFLOW AREA",
      "// BEGIN WORKFLOW AREA b FOR v IF g", "// ELSE", "", "three",
      "// BEGIN ONCE WORKFLOW AREA c FOR v w", "x", "// END WORKFLOW AREA"]
    let flags : Flags := Table.ofList [("f", true), ("g", true)]
    let flags' : Flags := Table.ofList [("f", true)]
    AgreeFor "w" ls ms ∧ FlagsAgreeFor "w" ls flags flags' ∧ ls ≠ ms ∧
      Specialization.render "w" flags ls = Specialization.render "w" flags' ms ∧
      ∀ transform target, Merge.merge "w" transform flags target ls =
        Merge.merge "w" transform flags' target ms := by
  intro ls ms flags flags'
  have hlines : ∀ k < ls.length, ls[k]? = ms[k]? ∨ ForOthers "w" (Area.extract ls) (k + 1) ∧
      ms[k]?.all (!Marker.isBoundary ·) = true := by
    unfold ForOthers
    decide +kernel
  have hagree : AgreeFor "w" ls ms := by
    refine ⟨rfl, fun n l m ⟨hpos, hl⟩ ⟨_, hm⟩ ↦ ?_⟩
    obtain ⟨hlt, -⟩ := List.getElem?_eq_some_iff.1 hl
    have hn := hlines (n - 1) hlt
    rw [hl, hm, Nat.sub_add_cancel hpos] at hn
    simpa using hn
  have hflags : FlagsAgreeFor "w" ls flags flags' := by
    unfold FlagsAgreeFor
    decide +kernel
  exact ⟨hagree, hflags, by decide, hagree.render_eq_and_merge_eq hflags⟩

end WorkflowAreas
