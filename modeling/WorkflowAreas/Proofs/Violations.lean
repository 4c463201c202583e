import Mathlib.Data.List.Sort
import WorkflowAreas.Failure
import WorkflowAreas.Proofs.Agreement
import WorkflowAreas.Proofs.Header.Key
import WorkflowAreas.Proofs.Numbering

/-!
# What a check reports

`Agree` says what a passed check means. This module says what is in the report of any check.

The check builds an index of either file, in which the areas are in the order of their keys, and sorts
what it takes from there by lines. Told without that, an area is `Repeated` if an area on an earlier line
has its key, and every area is judged by itself.

* `repeats_eq_filter`, `only_eq_filter`, `find?_key_eq_some_iff_not_repeated` say so of the three ways in
  which a check uses an index: the areas left out of it, the areas that only one index has, and the area
  found under a key. The areas on earlier lines are those before it in the list
  (`repeated_append_cons_iff`);
* `difference?_of_key_eq`: opening lines with one key can differ in the flag only;
* `mismatched`: the pairs of areas that are reported as a mismatch, a pair for a key;
* `check_report`: **the report of a check, violation by violation**;
* `key_collision`: two keys are equal without a difference to report, or by a flag that reads as two ids.
-/

namespace WorkflowAreas.Consistency

/-! ### Headers with one key -/

/-- Two headers say the same in all that a check compares. -/
structure SaysSame (g h : Header) : Prop where
  name : g.name = h.name
  sorted : g.sorted = h.sorted
  once : g.once = h.once
  flag : g.flag = h.flag
  sortedWorkflows : g.sortedWorkflows = h.sortedWorkflows

theorem difference?_eq_none_iff {g h : Header} : difference? g h = none ↔ SaysSame g h := by
  constructor
  · intro hd
    simp only [difference?] at hd
    split_ifs at hd with hname hsorted honce hflag hids
    exact ⟨not_not.1 hname, not_not.1 hsorted, not_not.1 honce, not_not.1 hflag, not_not.1 hids⟩
  · rintro ⟨hname, hsorted, honce, hflag, hids⟩
    simp only [difference?, hname, hsorted, honce, hflag, hids, ne_eq, not_true_eq_false, if_false]

section OneKey

variable {l m : String} {g h : Header}

/-- **Headers with one key differ in the flag or not at all.** -/
theorem difference?_of_key_eq (hg : Header.parse? l = some g) (hh : Header.parse? m = some h)
    (hkey : g.key = h.key) :
    difference? g h = if g.flag = h.flag then none
      else some ("IF " ++ g.flag.getD "-" ++ " vs " ++ h.flag.getD "-") := by
  obtain ⟨-, hname, honce, hsorted, hwords⟩ := (Header.key_eq_key_iff hg hh).1 hkey
  by_cases hflag : g.flag = h.flag
  · have hids : g.sortedWorkflows = h.sortedWorkflows := by
      rcases hwords with ⟨-, hids⟩ | ⟨flag, hsome, hnone, -⟩ | ⟨flag, hsome, hnone, -⟩
      · exact hids
      · rw [hflag, hnone] at hsome
        cases hsome
      · rw [← hflag, hnone] at hsome
        cases hsome
    rw [if_pos hflag]
    exact difference?_eq_none_iff.2 ⟨hname, hsorted, honce, hflag, hids⟩
  · simp only [difference?, hname, hsorted, honce, hflag, ne_eq, not_true_eq_false, if_false,
      not_false_eq_true, if_true]

/-- If the flags differ, one of them is taken for two ids. -/
theorem flagAsIds_of_key_eq (hg : Header.parse? l = some g) (hh : Header.parse? m = some h)
    (hkey : g.key = h.key) (hflag : g.flag ≠ h.flag) :
    Header.FlagAsIds g h ∨ Header.FlagAsIds h g :=
  ((Header.key_eq_key_iff hg hh).1 hkey).2.2.2.2.resolve_left fun h' ↦ hflag h'.1

end OneKey

/-! ### The first area with a key -/

/-- An area of the file that opens on an earlier line has the key of this one. -/
def Repeated (areas : List Area) (a : Area) : Prop :=
  ∃ b ∈ areas, b.line < a.line ∧ b.key = a.key

instance (areas : List Area) : DecidablePred (Repeated areas) := fun a ↦
  inferInstanceAs (Decidable (∃ b ∈ areas, b.line < a.line ∧ b.key = a.key))

section InOrder

variable {areas before rest : List Area} {a b : Area}

/-- **What is on an earlier line is before it in the list.** -/
theorem repeated_append_cons_iff (h : (before ++ a :: rest).Pairwise (·.line < ·.line)) :
    Repeated (before ++ a :: rest) a ↔ ∃ b ∈ before, b.key = a.key := by
  obtain ⟨-, hrest, hbefore⟩ := List.pairwise_append.1 h
  constructor
  · rintro ⟨b, hb, hline, hkey⟩
    rcases List.mem_append.1 hb with hb | hb
    · exact ⟨b, hb, hkey⟩
    · have hle : a.line ≤ b.line := by
        rcases List.mem_cons.1 hb with rfl | hb
        · exact Nat.le_refl _
        · exact Nat.le_of_lt (List.rel_of_pairwise_cons hrest hb)
      omega
  · rintro ⟨b, hb, hkey⟩
    exact ⟨b, List.mem_append_left _ hb, hbefore b hb a List.mem_cons_self, hkey⟩

/-- An area at the end of a file does not matter to those before it. -/
theorem repeated_concat_iff_of_mem (h : (areas ++ [a]).Pairwise (·.line < ·.line)) (hb : b ∈ areas) :
    Repeated (areas ++ [a]) b ↔ Repeated areas b := by
  have hlt : b.line < a.line := (List.pairwise_append.1 h).2.2 b hb a List.mem_cons_self
  constructor
  · rintro ⟨c, hc, hline, hkey⟩
    rcases List.mem_append.1 hc with hc | hc
    · exact ⟨c, hc, hline, hkey⟩
    · obtain rfl := List.mem_singleton.1 hc
      omega
  · rintro ⟨c, hc, hline, hkey⟩
    exact ⟨c, List.mem_append_left _ hc, hline, hkey⟩

/-- **The areas that repeat a key**, in the order of the file. -/
theorem repeats_eq_filter (h : areas.Pairwise (·.line < ·.line)) :
    (Index.ofAreas areas).repeats = areas.filter (Repeated areas ·) := by
  induction areas using List.reverseRecOn with
  | nil => rfl
  | append_singleton areas a ih =>
    have hsame : areas.filter (Repeated (areas ++ [a]) ·) = areas.filter (Repeated areas ·) :=
      List.filter_congr fun b hb ↦ by rw [decide_eq_decide, repeated_concat_iff_of_mem h hb]
    rw [Index.repeats_ofAreas_concat, ih (List.pairwise_append.1 h).1, List.filter_append, hsame]
    simp only [List.filter_cons, List.filter_nil, repeated_append_cons_iff h, decide_eq_true_eq]

/-- **Looking for a key finds the first area that has it.** -/
theorem find?_key_eq_some_iff_not_repeated (h : areas.Pairwise (·.line < ·.line)) {key : String} :
    areas.find? (·.key == key) = some b ↔ b ∈ areas ∧ ¬Repeated areas b ∧ b.key = key := by
  constructor
  · intro hfind
    obtain ⟨hkey, before, rest, rfl, hbefore⟩ := List.find?_eq_some_iff_append.1 hfind
    obtain rfl : b.key = key := by simpa using hkey
    refine ⟨by simp, ?_, rfl⟩
    rw [repeated_append_cons_iff h]
    rintro ⟨c, hc, hkey⟩
    simpa [hkey] using hbefore c hc
  · rintro ⟨hb, hfirst, rfl⟩
    obtain ⟨before, rest, rfl⟩ := List.append_of_mem hb
    rw [repeated_append_cons_iff h] at hfirst
    refine List.find?_eq_some_iff_append.2 ⟨beq_self_eq_true _, before, rest, rfl, fun c hc ↦ ?_⟩
    simpa using fun hkey : c.key = b.key ↦ hfirst ⟨c, hc, hkey⟩

/-- Sorted by their lines, the areas of an index ascend strictly: different keys are on different lines. -/
theorem pairwise_line_only (h : areas.Pairwise (·.line < ·.line)) (target : List Area)
    (counts : Area → Bool) :
    ((Index.ofAreas areas).only (Index.ofAreas target) counts).Pairwise (·.line < ·.line) := by
  have hinj : (areas.map Area.line).Nodup := (List.pairwise_map.2 h).imp Nat.ne_of_lt
  have hentries : (Index.ofAreas areas).areas.entries.Pairwise (·.2.line ≠ ·.2.line) :=
    (Index.pairwise_key_entries areas).imp_of_mem fun he he' hlt hline ↦ by
      rw [List.inj_on_of_nodup_map hinj (Index.key_of_mem_entries he).1
        (Index.key_of_mem_entries he').1 hline] at hlt
      exact String.lt_irrefl _ hlt
  have hle : ((Index.ofAreas areas).only (Index.ofAreas target) counts).Pairwise
      fun a b ↦ a.line ≤ b.line := by
    refine (List.pairwise_mergeSort (fun a b c hab hbc ↦ ?_) (fun a b ↦ ?_) _).imp of_decide_eq_true
    · exact decide_eq_true ((of_decide_eq_true hab).trans (of_decide_eq_true hbc))
    · simpa using Nat.le_total a.line b.line
  have hne : ((Index.ofAreas areas).only (Index.ofAreas target) counts).Pairwise (·.line ≠ ·.line) :=
    ((List.mergeSort_perm _ _).pairwise_iff fun h ↦ h.symm).2
      (List.pairwise_map.2 (hentries.filter _))
  exact (hle.and hne).imp fun ⟨hle, hne⟩ ↦ Nat.lt_of_le_of_ne hle hne

/-- **The areas that the other file does not have**, in the order of the file. -/
theorem only_eq_filter (h : areas.Pairwise (·.line < ·.line)) (target : List Area)
    {counts : Area → Bool} {P : Area → Prop} [DecidablePred P]
    (hcounts : ∀ a, (∀ b ∈ target, b.key ≠ a.key) ∧ counts a = true ↔ P a) :
    (Index.ofAreas areas).only (Index.ofAreas target) counts =
      areas.filter fun a ↦ ¬Repeated areas a ∧ P a := by
  have hmem : ∀ a, a ∈ (Index.ofAreas areas).only (Index.ofAreas target) counts ↔
      a ∈ areas ∧ ¬Repeated areas a ∧ P a := fun a ↦ by
    rw [Index.mem_only_iff, find?_key_eq_some_iff_not_repeated h, hcounts]
    tauto
  -- both lists ascend, so it is enough that they have the same areas
  exact (pairwise_line_only h target counts).eq_of_mem_iff (h.filter _) fun a ↦ by
    rw [hmem, List.mem_filter, decide_eq_true_iff]

end InOrder

/-! ### Mismatches -/

/-- The pairs of areas that are the first ones with their key in either file and do not say the same, in
the order of keys. -/
def mismatched (template target : List Area) : List (Area × Area) :=
  (Index.ofAreas template).areas.entries.filterMap fun (key, a) ↦
    (((Index.ofAreas target).areas.get? key).filter fun b ↦
      (difference? a.header b.header).isSome).map fun b ↦ (a, b)

/-- The violation of a pair of areas that do not say the same. -/
def mismatchAt (file : String) (pair : Area × Area) : Violation :=
  ⟨.mismatch, pair.1.name, file, pair.2.line, difference? pair.1.header pair.2.header⟩

section Mismatches

variable {template target : List Area}

theorem mismatches_eq_map (template target : List Area) (path : String) :
    mismatches path (Index.ofAreas template) (Index.ofAreas target) =
      (mismatched template target).map (mismatchAt path) := by
  rw [mismatches, mismatched, List.map_filterMap]
  refine List.filterMap_congr fun entry _ ↦ ?_
  obtain ⟨key, a⟩ := entry
  dsimp only
  cases (Index.ofAreas target).areas.get? key with
  | none => rfl
  | some b =>
    cases hd : difference? a.header b.header with
    | none => simp [hd]
    | some detail => simp [hd, mismatchAt]

theorem mem_mismatched_iff (hs : template.Pairwise (·.line < ·.line))
    (ht : target.Pairwise (·.line < ·.line)) {a b : Area} :
    (a, b) ∈ mismatched template target ↔
      (a ∈ template ∧ ¬Repeated template a) ∧ (b ∈ target ∧ ¬Repeated target b) ∧
        a.key = b.key ∧ ¬SaysSame a.header b.header := by
  rw [mismatched, List.mem_filterMap]
  simp only [Prod.exists, Index.mem_entries_ofAreas_iff, find?_key_eq_some_iff_not_repeated hs,
    Option.map_eq_some_iff, Option.filter_eq_some_iff, Index.get?_ofAreas,
    find?_key_eq_some_iff_not_repeated ht, Prod.mk.injEq, ← difference?_eq_none_iff,
    Option.isSome_iff_ne_none]
  constructor
  · rintro ⟨_, _, ⟨ha, hfirst, rfl⟩, _, ⟨⟨hb, hfirst', hkey⟩, hd⟩, rfl, rfl⟩
    exact ⟨⟨ha, hfirst⟩, ⟨hb, hfirst'⟩, hkey.symm, hd⟩
  · rintro ⟨⟨ha, hfirst⟩, ⟨hb, hfirst'⟩, hkey, hd⟩
    exact ⟨a.key, a, ⟨ha, hfirst, rfl⟩, b, ⟨⟨hb, hfirst', hkey.symm⟩, hd⟩, rfl, rfl⟩

/-- **There is one pair for a key**, and the keys ascend. -/
theorem pairwise_mismatched (template target : List Area) :
    (mismatched template target).Pairwise (·.1.key < ·.1.key) := by
  refine (Index.pairwise_key_entries template).filterMap _ fun e e' hlt p hp p' hp' ↦ ?_
  obtain ⟨b, -, rfl⟩ := Option.map_eq_some_iff.1 hp
  obtain ⟨b', -, rfl⟩ := Option.map_eq_some_iff.1 hp'
  exact hlt

end Mismatches

/-! ### The report -/

/-- What there is to report of two files, told by what is at each area. -/
def findings (template target : List Area) (templatePath targetPath : String) : List Violation :=
  (template.filter (!·.isTerminated)).map (violationAt .unterminated templatePath) ++
    (target.filter (!·.isTerminated)).map (violationAt .unterminated targetPath) ++
    (template.filter (Repeated template ·)).map (violationAt .duplicate templatePath) ++
    (target.filter (Repeated target ·)).map (violationAt .duplicate targetPath) ++
    (template.filter fun a ↦ ¬Repeated template a ∧ a.header.once = false ∧
      ∀ b ∈ target, b.key ≠ a.key).map (violationAt .missing templatePath) ++
    (target.filter fun b ↦ ¬Repeated target b ∧ ∀ a ∈ template, a.key ≠ b.key).map
      (violationAt .unexpected targetPath) ++
    (mismatched template target).map (mismatchAt targetPath)

/-- Apart from mismatches, a finding is about one area of one file. -/
theorem exists_of_mem_findings {template target : List Area} {p q : String} {v : Violation}
    (hv : v ∈ findings template target p q) :
    (∃ defect, ∃ a ∈ template, defect ≠ .mismatch ∧ v = violationAt defect p a) ∨
      (∃ defect, ∃ b ∈ target, defect ≠ .mismatch ∧ v = violationAt defect q b) ∨
      ∃ a b, (a, b) ∈ mismatched template target ∧ v = mismatchAt q (a, b) := by
  simp only [findings, List.mem_append, List.mem_map, List.mem_filter] at hv
  rcases hv with (((((⟨a, ⟨ha, -⟩, rfl⟩ | ⟨b, ⟨hb, -⟩, rfl⟩) | ⟨a, ⟨ha, -⟩, rfl⟩) |
    ⟨b, ⟨hb, -⟩, rfl⟩) | ⟨a, ⟨ha, -⟩, rfl⟩) | ⟨b, ⟨hb, -⟩, rfl⟩) | ⟨⟨a, b⟩, hab, rfl⟩
  · exact Or.inl ⟨.unterminated, a, ha, by decide, rfl⟩
  · exact Or.inr (Or.inl ⟨.unterminated, b, hb, by decide, rfl⟩)
  · exact Or.inl ⟨.duplicate, a, ha, by decide, rfl⟩
  · exact Or.inr (Or.inl ⟨.duplicate, b, hb, by decide, rfl⟩)
  · exact Or.inl ⟨.missing, a, ha, by decide, rfl⟩
  · exact Or.inr (Or.inl ⟨.unexpected, b, hb, by decide, rfl⟩)
  · exact Or.inr (Or.inr ⟨a, b, hab, rfl⟩)

theorem violations_ofViolations (p q : String) (vs : List Violation) :
    (Report.ofViolations p q vs).violations = vs := by
  rw [Report.ofViolations]
  split_ifs with hempty
  · exact (List.isEmpty_iff.1 hempty).symm
  · rfl

/-- The violation is at the opening line of an area of the file. -/
def Violation.PointsTo (v : Violation) (file : String) (lines : List String) : Prop :=
  v.file = file ∧ ∃ a ∈ Area.extract lines, v.area = a.name ∧ v.line = a.line ∧ 1 ≤ v.line ∧
    lines[v.line - 1]? = some a.header.beginLine ∧
      Header.parse? a.header.beginLine = some a.header

section Report

variable {lines template target : List String} {p q : String}

theorem pointsTo_of_mem_extract {v : Violation} {a : Area} (ha : a ∈ Area.extract lines)
    (hfile : v.file = p) (harea : v.area = a.name) (hline : v.line = a.line) :
    v.PointsTo p lines := by
  obtain ⟨hpos, hget⟩ := Area.getElem?_line ha
  exact ⟨hfile, a, ha, harea, hline, hline ▸ hpos, hline ▸ hget,
    (Area.sound_of_mem_extract ha).parse?_beginLine⟩

/-- A check reports what there is to report. -/
theorem violations_check (template target : List String) (p q : String) :
    (check template target p q).violations =
      findings (Area.extract template) (Area.extract target) p q := by
  have hs := Area.pairwise_line_extract template
  have ht := Area.pairwise_line_extract target
  rw [check, violations_ofViolations, findings]
  simp only [violations]
  rw [repeats_eq_filter hs, repeats_eq_filter ht, mismatches_eq_map,
    only_eq_filter hs _ fun a ↦ by rw [Bool.not_eq_true', and_comm],
    only_eq_filter ht _ fun b ↦ by rw [and_iff_left rfl]]

/-- Every violation is at an area of one of the files. -/
theorem pointsTo_of_mem_violations {v : Violation}
    (hv : v ∈ (check template target p q).violations) :
    v.PointsTo p template ∨ v.PointsTo q target := by
  rw [violations_check] at hv
  rcases exists_of_mem_findings hv with
    ⟨defect, a, ha, -, rfl⟩ | ⟨defect, b, hb, -, rfl⟩ | ⟨a, b, hab, rfl⟩
  · exact Or.inl (pointsTo_of_mem_extract ha rfl rfl rfl)
  · exact Or.inr (pointsTo_of_mem_extract hb rfl rfl rfl)
  · -- a mismatch has the name of the one area and the number of the other
    obtain ⟨⟨ha, -⟩, ⟨hb, -⟩, hkey, -⟩ := (mem_mismatched_iff
      (Area.pairwise_line_extract template) (Area.pairwise_line_extract target)).1 hab
    have hname := ((Header.key_eq_key_iff (Area.sound_of_mem_extract ha).parse?_beginLine
      (Area.sound_of_mem_extract hb).parse?_beginLine).1 hkey).2.1
    exact Or.inr (pointsTo_of_mem_extract hb rfl hname rfl)

theorem toExcept_eq_ok_iff {r : Report} : r.toExcept = .ok () ↔ r.passed = true := by
  rw [Report.toExcept]
  split_ifs with h
  · exact iff_of_true rfl h
  · exact iff_of_false (fun h' ↦ by cases h') h

theorem toExcept_eq_error_iff {r : Report} {f : Failure} :
    r.toExcept = .error f ↔ r.passed = false ∧ f = .drift r := by
  rw [Report.toExcept]
  split_ifs with h
  · exact iff_of_false (fun h' ↦ by cases h') fun h' ↦ by rw [h] at h'; cases h'.1
  · rw [Except.error.injEq, eq_comm]
    exact (and_iff_right (Bool.eq_false_of_not_eq_true h)).symm

/-- **What a check reports.** It passes exactly when the areas of the two files agree, and else the report
is a failure. The violations are, in this order: areas that are not closed; areas with the key of an
earlier one of their file; areas of the template whose key is not in the generated file, unless they are
marked `ONCE`, and areas of the generated file whose key is not in the template, each told at the first
area with its key; last, by ascending keys, the first areas with one key that do not say the same. Each is
told at a line that opens an area. -/
theorem check_report (template target : List String) (p q : String) :
    ((check template target p q).passed = true ↔
      ((∀ a ∈ Area.extract template, a.isTerminated = true) ∧
        ∀ b ∈ Area.extract target, b.isTerminated = true) ∧
      (((Area.extract template).map Area.key).Nodup ∧
        ((Area.extract target).map Area.key).Nodup) ∧
      (∀ a ∈ Area.extract template, (∀ b ∈ Area.extract target, b.key ≠ a.key) →
        a.header.once = true) ∧
      (∀ b ∈ Area.extract target, ∃ a ∈ Area.extract template, a.key = b.key) ∧
      ∀ a ∈ Area.extract template, ∀ b ∈ Area.extract target, a.key = b.key →
        SaysSame a.header b.header) ∧
    ((check template target p q).passed = true ↔ (check template target p q).violations = []) ∧
    (check template target p q).violations =
      findings (Area.extract template) (Area.extract target) p q ∧
    (mismatched (Area.extract template) (Area.extract target)).Pairwise (·.1.key < ·.1.key) ∧
    (∀ a b, (a, b) ∈ mismatched (Area.extract template) (Area.extract target) ↔
      (a ∈ Area.extract template ∧ ¬Repeated (Area.extract template) a) ∧
      (b ∈ Area.extract target ∧ ¬Repeated (Area.extract target) b) ∧
        a.key = b.key ∧ ¬SaysSame a.header b.header) ∧
    (∀ v ∈ (check template target p q).violations,
      v.PointsTo p template ∨ v.PointsTo q target) ∧
    ((check template target p q).toExcept = .ok () ↔
      (check template target p q).passed = true) ∧
    ∀ f, (check template target p q).toExcept = .error f ↔
      (check template target p q).passed = false ∧ f = .drift (check template target p q) := by
  have hs := Area.pairwise_line_extract template
  have ht := Area.pairwise_line_extract target
  refine ⟨?_, ?_, violations_check template target p q, pairwise_mismatched _ _,
    fun a b ↦ mem_mismatched_iff hs ht, fun v ↦ pointsTo_of_mem_violations, toExcept_eq_ok_iff,
    fun f ↦ toExcept_eq_error_iff⟩
  · rw [passed_check_iff]
    simp only [← difference?_eq_none_iff]
    exact ⟨fun h ↦ ⟨⟨h.closed_template, h.closed_target⟩, ⟨h.nodup_template, h.nodup_target⟩,
        h.once_of_missing, h.exists_template, h.same⟩,
      fun ⟨⟨hcs, hct⟩, ⟨hns, hnt⟩, honce, hexists, hsame⟩ ↦
        ⟨hcs, hct, hns, hnt, honce, hexists, hsame⟩⟩
  · rw [check, passed_ofViolations_iff, violations_ofViolations]

end Report

/-! ### Different headers with one key -/

/-- **When two keys are equal.** The headers say the same in normal form, or one of them has a flag where
the other has two more ids. So the only mismatch that a check can report is one of flags, of two areas
that collide in this way. -/
theorem key_collision :
    (∀ {l m : String} {g h : Header}, Header.parse? l = some g → Header.parse? m = some h →
      (g.key = h.key ↔ g.lead = h.lead ∧ g.name = h.name ∧ g.once = h.once ∧ g.sorted = h.sorted ∧
        (g.flag = h.flag ∧ g.sortedWorkflows = h.sortedWorkflows ∨
          Header.FlagAsIds g h ∨ Header.FlagAsIds h g))) ∧
    ∀ template target p q,
      (∀ a ∈ Area.extract template, ∀ b ∈ Area.extract target, a.key = b.key →
        difference? a.header b.header = if a.header.flag = b.header.flag then none
          else some ("IF " ++ a.header.flag.getD "-" ++ " vs " ++ b.header.flag.getD "-")) ∧
      ∀ v ∈ (check template target p q).violations, v.defect = .mismatch →
        ∃ a ∈ Area.extract template, ∃ b ∈ Area.extract target, a.key = b.key ∧
          (Header.FlagAsIds a.header b.header ∨ Header.FlagAsIds b.header a.header) ∧
          v = ⟨.mismatch, a.name, q, b.line,
            some ("IF " ++ a.header.flag.getD "-" ++ " vs " ++ b.header.flag.getD "-")⟩ := by
  refine ⟨Header.key_eq_key_iff, fun template target p q ↦ ?_⟩
  have hdifference : ∀ a ∈ Area.extract template, ∀ b ∈ Area.extract target, a.key = b.key →
      difference? a.header b.header = if a.header.flag = b.header.flag then none
        else some ("IF " ++ a.header.flag.getD "-" ++ " vs " ++ b.header.flag.getD "-") :=
    fun a ha b hb ↦ difference?_of_key_eq (Area.sound_of_mem_extract ha).parse?_beginLine
      (Area.sound_of_mem_extract hb).parse?_beginLine
  refine ⟨hdifference, fun v hv hdefect ↦ ?_⟩
  rw [violations_check] at hv
  obtain ⟨a, b, hab, rfl⟩ : ∃ a b, (a, b) ∈ mismatched (Area.extract template)
      (Area.extract target) ∧ v = mismatchAt q (a, b) := by
    rcases exists_of_mem_findings hv with
      ⟨defect, a, -, hne, rfl⟩ | ⟨defect, b, -, hne, rfl⟩ | hpair
    · exact absurd hdefect hne
    · exact absurd hdefect hne
    · exact hpair
  obtain ⟨⟨ha, -⟩, ⟨hb, -⟩, hkey, hdiff⟩ := (mem_mismatched_iff
    (Area.pairwise_line_extract template) (Area.pairwise_line_extract target)).1 hab
  have hflag : a.header.flag ≠ b.header.flag := fun hflag ↦ hdiff <| by
    rw [← difference?_eq_none_iff, hdifference a ha b hb hkey, if_pos hflag]
  refine ⟨a, ha, b, hb, hkey, flagAsIds_of_key_eq (Area.sound_of_mem_extract ha).parse?_beginLine
    (Area.sound_of_mem_extract hb).parse?_beginLine hkey hflag, ?_⟩
  rw [mismatchAt, hdifference a ha b hb hkey, if_neg hflag]

namespace Sample

/-- An area for `A` with the flag `z`. -/
def flagged : Header where
  lead := "// "
  name := "a"
  workflows := ["A"]
  once := false
  sorted := false
  flag := some "z"
  beginLine := "// BEGIN WORKFLOW AREA a FOR A IF z"

/-- An area for `IF`, `A` and `z`, without a flag. -/
def unflagged : Header :=
  { flagged with
    workflows := ["IF", "A", "z"], flag := none, beginLine := "// BEGIN WORKFLOW AREA a FOR IF A z" }

end Sample

theorem key_collision_sample :
    Header.parse? "// BEGIN WORKFLOW AREA a FOR A IF z" = some Sample.flagged ∧
      Header.parse? "// BEGIN WORKFLOW AREA a FOR IF A z" = some Sample.unflagged ∧
      Sample.flagged.key = Sample.unflagged.key := by
  have hflagged : Header.parse? "// BEGIN WORKFLOW AREA a FOR A IF z" = some Sample.flagged := by
    decide +kernel
  have hunflagged : Header.parse? "// BEGIN WORKFLOW AREA a FOR IF A z" = some Sample.unflagged := by
    decide +kernel
  refine ⟨hflagged, hunflagged, (key_collision.1 hflagged hunflagged).2
    ⟨rfl, rfl, rfl, rfl, Or.inr (Or.inl ⟨"z", rfl, rfl, ?_⟩)⟩⟩
  simp [Header.sortedWorkflows, Sample.flagged, Sample.unflagged, List.mergeSort,
    List.MergeSort.Internal.splitInTwo]

example : difference? Sample.flagged Sample.unflagged = some "IF z vs -" := by
  decide

end WorkflowAreas.Consistency
