import WorkflowAreas.Proofs.Merge.Acceptance
import WorkflowAreas.Proofs.Rendering
import WorkflowAreas.Sync

/-!
# The life of a generated file

A generated file starts as the first rendering of its template. After that merges and hand edits go on in
any order: merges for any workflow with any flags and any transform that makes no markers, and edits that
put in or take out a line that is no marker.

`Descends` is the invariant that carries all of it. It is a statement on marker lines, so edits keep it at
once; a rendering and a merge keep it because each is a rewriting of segments. What `Reachable.consistent`
says of every such file follows from it alone.
-/

namespace WorkflowAreas

open Segment

/-- The first rendering of a template, its lines transformed outside of markers. -/
def firstRendering (workflow : String) (transform : String → String) (flags : Flags)
    (template : List String) : List String :=
  (Specialization.render workflow flags template).map fun l ↦
    if Marker.isBoundary l then l else transform l

/-- This is what a file that does not exist is made from. -/
theorem Entry.firstLines_eq_firstRendering (e : Entry) (s : Substitution) (template : List String) :
    e.firstLines s template = firstRendering e.workflow s.apply e.flags template :=
  rfl

/-- The files that a template can grow into. -/
inductive Reachable (template : List String) : List String → Prop
  | rendered (workflow : String) (flags : Flags) {transform : String → String}
      (hsafe : MarkerSafe transform) :
      Reachable template (firstRendering workflow transform flags template)
  | merged (workflow : String) (flags : Flags) {transform : String → String}
      (hsafe : MarkerSafe transform) {target : List String} (h : Reachable template target) :
      Reachable template (Merge.merge workflow transform flags target template).lines
  /-- A line is written into the file by hand. -/
  | inserted {front back : List String} {l : String} (hl : Marker.isBoundary l = false)
      (h : Reachable template (front ++ back)) : Reachable template (front ++ l :: back)
  /-- A line is taken out of the file by hand. -/
  | deleted {front back : List String} {l : String} (hl : Marker.isBoundary l = false)
      (h : Reachable template (front ++ l :: back)) : Reachable template (front ++ back)

variable {template target : List String} {p q : String}

namespace Descends

/-! ### What follows from the invariant -/

/-- An area of the file has the frame of the one area of the template with its opening line. -/
theorem closingLinesAgree (h : Descends template target)
    (hself : (Consistency.check template template p q).passed = true) (workflow : String) :
    ClosingLinesAgree workflow template target := by
  intro a ha _ b hb heq
  obtain ⟨c, hc, hframe⟩ := h.exists_frame hb
  have hd := (tidy_cut_of_passed hself).distinct
  rw [areas_cut] at hd
  have hca : c = a := List.inj_on_of_nodup_map hd hc ha (by
    rw [heq, Area.header_eq_of_frame_eq hframe])
  rw [← hca, Area.endLine_eq_of_frame_eq hframe]

/-- No area but a `ONCE` area can be without a place. -/
theorem skipped_merge (h : Descends template target)
    (hself : (Consistency.check template template p q).passed = true) (workflow : String)
    {transform : String → String} (hsafe : MarkerSafe transform) (flags : Flags) :
    (Merge.merge workflow transform flags target template).skipped = [] := by
  have hpass := Consistency.passed_check_of_descends hself h p q
  have hskip := Merge.skipped_merge hsafe flags (tidy_cut_of_passed hpass)
    (fits_of_passed hpass (h.closingLinesAgree hself workflow))
  rw [flatten_cut] at hskip
  rw [hskip, List.map_eq_nil_iff, List.filter_eq_nil_iff]
  -- an area of the template that is not marked `ONCE` has kept its frame, so it has a place
  intro a ha hu
  obtain ⟨hon, hno⟩ := of_decide_eq_true hu
  have hframe : a.frame ∈ frames template := List.mem_map_of_mem (Area.mem_applicable.1 ha).1
  obtain ⟨b, hb, hba⟩ := List.mem_map.1 (h.kept a.frame hframe hon)
  rw [areas_cut] at hno
  exact hno b hb (by rw [Area.header_eq_of_frame_eq hba])

/-! ### The invariant lasts -/

theorem rendered (hclosed : ∀ a ∈ Area.extract template, a.isTerminated = true)
    (workflow : String) {transform : String → String} (hsafe : MarkerSafe transform)
    (flags : Flags) :
    Descends template (firstRendering workflow transform flags template) := by
  have hframes : frames (firstRendering workflow transform flags template) =
      (frames template).filter fun f ↦ !(f.1.appliesTo workflow && f.1.once) := by
    rw [firstRendering, frames_map (fun l hl ↦ if_pos hl), frames_render hclosed]
    intro l hl
    rw [hl, if_neg Bool.false_ne_true]
    exact hsafe l hl
  refine ⟨hframes ▸ List.filter_sublist, fun f hf hon ↦ ?_⟩
  rw [hframes, List.mem_filter]
  exact ⟨hf, by rw [hon, Bool.and_false, Bool.not_false]⟩

theorem merged (h : Descends template target)
    (hself : (Consistency.check template template p q).passed = true) (workflow : String)
    {transform : String → String} (hsafe : MarkerSafe transform) (flags : Flags) :
    Descends template (Merge.merge workflow transform flags target template).lines := by
  have hpass := Consistency.passed_check_of_descends hself h p q
  have hends := h.closingLinesAgree hself workflow
  exact h.trans (Merge.descends_merge hsafe flags hpass (.of_closingLinesAgree hends))

end Descends

/-- **Every file that a template grows into descends from it**, step by step. -/
theorem Reachable.descends (h : Reachable template target)
    (hself : (Consistency.check template template p q).passed = true) :
    Descends template target := by
  induction h with
  | rendered workflow flags hsafe =>
    exact Descends.rendered (Consistency.passed_check_iff.1 hself).closed_template workflow
      hsafe flags
  | merged workflow flags hsafe _ ih => exact ih.merged hself workflow hsafe flags
  | inserted hl _ ih => exact ih.trans (Descends.of_frames_eq (frames_insert hl _ _))
  | deleted hl _ ih => exact ih.trans (Descends.of_frames_eq (frames_insert hl _ _).symm)

/-- **The invariant of generated files.** Whatever has been done to it, a generated file passes the check
against its template, its markers are markers of the template in the same order, and no merge of the
template skips an area. -/
theorem Reachable.consistent (hself : (Consistency.check template template p q).passed = true)
    (h : Reachable template target) :
    (∀ p' q', (Consistency.check template target p' q').passed = true) ∧
      ((Area.extract target).map fun b ↦ (b.header.beginLine, b.endLine)).Sublist
        ((Area.extract template).map fun a ↦ (a.header.beginLine, a.endLine)) ∧
      ∀ workflow flags transform, MarkerSafe transform →
        (Merge.merge workflow transform flags target template).skipped = [] := by
  have hdesc := h.descends hself
  refine ⟨Consistency.passed_check_of_descends hself hdesc, ?_,
    fun workflow flags _ hsafe ↦ hdesc.skipped_merge hself workflow hsafe flags⟩
  have hmap : ∀ ls, (Area.extract ls).map (fun a ↦ (a.header.beginLine, a.endLine)) =
      (frames ls).map fun f ↦ (f.1.beginLine, f.2) := fun ls ↦ by
    rw [frames, List.map_map]
    rfl
  rw [hmap, hmap]
  exact hdesc.sublist.map _

/-- A file that was rendered for one workflow, has been worked on, and was then merged for another one. -/
theorem Reachable.consistent_sample :
    let grown := (Merge.merge "w" id ∅
      ("mine" :: firstRendering "v" id ∅ Sample.template) Sample.template).lines
    (Consistency.check Sample.template Sample.template "template" "template").passed = true ∧
      Reachable Sample.template grown ∧
      (∀ p' q', (Consistency.check Sample.template grown p' q').passed = true) ∧
      ((Area.extract grown).map fun b ↦ (b.header.beginLine, b.endLine)).Sublist
        ((Area.extract Sample.template).map fun a ↦ (a.header.beginLine, a.endLine)) ∧
      ∀ workflow flags transform, MarkerSafe transform →
        (Merge.merge workflow transform flags grown Sample.template).skipped = [] := by
  intro grown
  have hself : (Consistency.check Sample.template Sample.template "template"
      "template").passed = true := Consistency.passed_check_iff.2 (by decide +kernel)
  have hgrown : Reachable Sample.template grown :=
    .merged "w" ∅ (fun _ h ↦ h)
      (@Reachable.inserted _ [] _ "mine" (by decide +kernel) (.rendered "v" ∅ fun _ h ↦ h))
  exact ⟨hself, hgrown, Reachable.consistent hself hgrown⟩

end WorkflowAreas
