import WorkflowAreas.Proofs.Merge.Splice
import WorkflowAreas.Proofs.Text.Order

/-!
# Sorted sets of lines

An area that is marked `SORTED` holds a set of lines, written in ascending order. Merging content into it
is taking a union: what the lines are is determined by which lines there are, so neither the order of
contents nor their number counts.

* `union_eq_union_iff`: unions are the same if they have the same lines;
* `union_union_append`, `union_append_comm`: content in two parts, and in either order;
* `apply_unite`: what the strategy does to a list of lines, in full.
-/

namespace WorkflowAreas.Merge

variable {interior interior' content content' : List String}

/-- **A sorted set is determined by its lines.** -/
theorem union_eq_union_iff :
    union interior content = union interior' content' ↔
      ∀ l, (l ∈ content ∨ l ∈ interior ∧ Text.isBlankLine l = false) ↔
        l ∈ content' ∨ l ∈ interior' ∧ Text.isBlankLine l = false := by
  constructor
  · intro h l
    rw [← mem_union, ← mem_union, h]
  · intro h
    refine (pairwise_union _ _).eq_of_mem_iff (pairwise_union _ _) fun l ↦ ?_
    rw [mem_union, mem_union, h]

/-- **Content in two parts** may come in turn. The blank lines of the first part would be lost when the
second one comes, so it takes that there are none. -/
theorem union_union_append (hcontent : ∀ l ∈ content, Text.isBlankLine l = false) :
    union (union interior content) content' = union interior (content ++ content') := by
  refine union_eq_union_iff.2 fun l ↦ ?_
  rw [mem_union, List.mem_append, or_and_right, or_assoc, or_left_comm, and_assoc, and_self,
    and_iff_left_of_imp (hcontent l)]

/-- The order of contents does not count. -/
theorem union_append_comm : union interior (content ++ content') = union interior (content' ++ content) :=
  union_eq_union_iff.2 fun l ↦ by rw [List.mem_append, List.mem_append, or_comm (a := l ∈ content)]

/-- **A sorted area is a sorted set**: its lines ascend, by their characters as by their bytes, and they
are the content and those lines of the area before that are not blank. Nothing else in the file changes,
and a change is reported exactly if there is one. Contents without blank lines may come in any order or
all at once. -/
theorem apply_unite {lines : List String} {r : Region} (hr : r.Within lines) :
    (∀ content,
      let merged := Strategy.unite.apply lines r content
      let interior := (r.shift lines merged.1).interior merged.1
      r.Keeps lines merged.1 ∧
        interior.Pairwise (fun l m ↦ Text.codePoints l < Text.codePoints m) ∧
        interior.Pairwise (fun l m ↦ Text.bytes l < Text.bytes m) ∧ interior.Nodup ∧
        (∀ l, l ∈ interior ↔
          l ∈ content ∨ l ∈ r.interior lines ∧ Text.isBlankLine l = false) ∧
        (merged.2 = true ↔ merged.1 ≠ lines)) ∧
    ∀ c d, (∀ l ∈ c, Text.isBlankLine l = false) → (∀ l ∈ d, Text.isBlankLine l = false) →
      (Strategy.unite.inTurn lines r c d).1 = (Strategy.unite.apply lines r (c ++ d)).1 ∧
        (Strategy.unite.inTurn lines r d c).1 = (Strategy.unite.apply lines r (c ++ d)).1 := by
  have hs : Strategy.unite ≠ .replace := nofun
  refine ⟨fun content ↦ ?_, fun c d hc hd ↦ ?_⟩
  · intro merged interior
    have hinterior : interior = union (r.interior lines) content := hr.interior_apply hs content
    have hasc : interior.Pairwise (· < ·) := hinterior ▸ pairwise_union _ _
    refine ⟨hr.keeps_apply hs content, hasc.imp Text.codePoints_lt_codePoints.2,
      hasc.imp Text.bytes_lt_bytes.2, hasc.imp ne_of_lt, fun l ↦ ?_, hr.snd_apply_iff hs content⟩
    rw [hinterior, mem_union]
  · rw [hr.fst_inTurn hs, hr.fst_inTurn hs, hr.fst_apply hs]
    simp only [Strategy.fill]
    rw [union_union_append hc, union_union_append hd, union_append_comm]
    exact ⟨rfl, rfl⟩

/-- A set with a blank line and one line twice, and contents that have a line in common with it. -/
theorem apply_unite_sample :
    let lines := ["head", "# BEGIN SORTED WORKFLOW AREA a FOR w", "b", " ", "a", "b",
      "# END WORKFLOW AREA", "tail"]
    let r : Region := ⟨1, 6⟩
    let merged := Strategy.unite.apply lines r ["c", "a", "é"]
    r.Within lines ∧ (∀ l ∈ ["c"], Text.isBlankLine l = false) ∧
      (∀ l ∈ ["a", "é"], Text.isBlankLine l = false) ∧
      merged.1 = ["head", "# BEGIN SORTED WORKFLOW AREA a FOR w", "a", "b", "c", "é",
        "# END WORKFLOW AREA", "tail"] ∧
      r.Keeps lines merged.1 ∧ (Strategy.unite.inTurn lines r ["c"] ["a", "é"]).1 = merged.1 ∧
      (Strategy.unite.inTurn lines r ["a", "é"] ["c"]).1 = merged.1 := by
  intro lines r merged
  have hr : r.Within lines := by decide
  have hc : ∀ l ∈ ["c"], Text.isBlankLine l = false := by decide
  have hd : ∀ l ∈ ["a", "é"], Text.isBlankLine l = false := by decide
  obtain ⟨hone, htwo⟩ := apply_unite hr
  exact ⟨hr, hc, hd, by decide, (hone ["c", "a", "é"]).1, htwo ["c"] ["a", "é"] hc hd⟩

end WorkflowAreas.Merge
