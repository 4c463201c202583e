import Mathlib.Data.List.Induction
import Mathlib.Data.List.Nodup
import WorkflowAreas.Consistency.Check
import WorkflowAreas.Proofs.Frame

/-!
# What a passed check means

`Consistency.check` collects violations. `Agree` says without them what it looks for, so that a passed
check is a hypothesis with parts (`passed_check_iff`) and a check can be shown to pass. What an index of
areas holds is said by looking through the areas themselves (`Index.get?_ofAreas`).

`Agree.iff_of_headers` is the form in which agreement is carried along: once a template agrees with a
file, it agrees with every file that has no headers but those of the first one, each once, **exactly
when** all areas are closed and none is lost that is not marked `ONCE`. Everything that changes a
generated file is judged by these two conditions.
-/

namespace WorkflowAreas.Consistency

/-- The areas of a template and of a generated file agree. -/
structure Agree (template target : List Area) : Prop where
  closed_template : ∀ a ∈ template, a.isTerminated = true
  closed_target : ∀ b ∈ target, b.isTerminated = true
  nodup_template : (template.map Area.key).Nodup
  nodup_target : (target.map Area.key).Nodup
  /-- Only `ONCE` areas may be missing. -/
  once_of_missing : ∀ a ∈ template, (∀ b ∈ target, b.key ≠ a.key) → a.header.once = true
  /-- No area is in the generated file alone. -/
  exists_template : ∀ b ∈ target, ∃ a ∈ template, a.key = b.key
  same : ∀ a ∈ template, ∀ b ∈ target, a.key = b.key → difference? a.header b.header = none

instance (template target : List Area) : Decidable (Agree template target) :=
  decidable_of_iff
    ((∀ a ∈ template, a.isTerminated = true) ∧ (∀ b ∈ target, b.isTerminated = true) ∧
      (template.map Area.key).Nodup ∧ (target.map Area.key).Nodup ∧
      (∀ a ∈ template, (∀ b ∈ target, b.key ≠ a.key) → a.header.once = true) ∧
      (∀ b ∈ target, ∃ a ∈ template, a.key = b.key) ∧
      ∀ a ∈ template, ∀ b ∈ target, a.key = b.key → difference? a.header b.header = none)
    ⟨fun ⟨h₁, h₂, h₃, h₄, h₅, h₆, h₇⟩ ↦ ⟨h₁, h₂, h₃, h₄, h₅, h₆, h₇⟩,
      fun ⟨h₁, h₂, h₃, h₄, h₅, h₆, h₇⟩ ↦ ⟨h₁, h₂, h₃, h₄, h₅, h₆, h₇⟩⟩

/-! ### The parts of the check -/

namespace Index

variable {areas : List Area} {a : Area} {key : String}

theorem ofAreas_concat (areas : List Area) (a : Area) :
    ofAreas (areas ++ [a]) = (ofAreas areas).add a := by
  rw [ofAreas, List.foldl_append]
  rfl

/-- **The index has the first area with a key.** -/
theorem get?_ofAreas (areas : List Area) (key : String) :
    (ofAreas areas).areas.get? key = areas.find? (·.key == key) := by
  -- an index grows at the end of the list
  induction areas using List.reverseRecOn with
  | nil => rfl
  | append_singleton areas a ih =>
    rw [ofAreas_concat, add, List.find?_append]
    by_cases hkey : a.key = key
    · subst hkey
      cases hfind : areas.find? (·.key == a.key) with
      | some b => simp only [ih, hfind, Option.some_or]
      | none => simp [ih, hfind, Table.get?_insert]
    · have hother : ¬key = a.key := Ne.symm hkey
      split <;> simp [ih, hkey, Table.get?_insert, hother]

theorem mem_entries_ofAreas_iff :
    (key, a) ∈ (ofAreas areas).areas.entries ↔ areas.find? (·.key == key) = some a := by
  rw [Table.mem_entries_iff, get?_ofAreas]

theorem key_of_mem_entries (h : (key, a) ∈ (ofAreas areas).areas.entries) :
    a ∈ areas ∧ a.key = key := by
  rw [mem_entries_ofAreas_iff] at h
  exact ⟨List.mem_of_find?_eq_some h, by simpa using List.find?_some h⟩

/-- The areas of an index are in the order of their keys. -/
theorem pairwise_key_entries (areas : List Area) :
    (ofAreas areas).areas.entries.Pairwise (·.2.key < ·.2.key) :=
  (ofAreas areas).areas.ascending.imp_of_mem fun {e e'} he he' hlt ↦ by
    rwa [(key_of_mem_entries he).2, (key_of_mem_entries he').2]

theorem repeats_ofAreas_concat (areas : List Area) (a : Area) :
    (ofAreas (areas ++ [a])).repeats =
      (ofAreas areas).repeats ++ if ∃ b ∈ areas, b.key = a.key then [a] else [] := by
  rw [ofAreas_concat, add, get?_ofAreas]
  cases hfind : areas.find? (·.key == a.key) with
  | some b =>
    rw [if_pos ⟨b, List.mem_of_find?_eq_some hfind, by simpa using List.find?_some hfind⟩]
  | none =>
    have hnone : ∀ b ∈ areas, ¬b.key = a.key := by simpa using hfind
    rw [if_neg fun ⟨b, hb, hkey⟩ ↦ hnone b hb hkey, List.append_nil]

/-- No area repeats a key exactly when the keys are distinct. -/
theorem repeats_ofAreas_eq_nil_iff :
    (ofAreas areas).repeats = [] ↔ (areas.map Area.key).Nodup := by
  induction areas using List.reverseRecOn with
  | nil => simp [ofAreas]
  | append_singleton areas a ih =>
    rw [repeats_ofAreas_concat, List.append_eq_nil_iff, ih, List.map_append, List.nodup_append]
    simp

theorem mem_only_iff {target : List Area} {counts : Area → Bool} :
    a ∈ (ofAreas areas).only (ofAreas target) counts ↔
      areas.find? (·.key == a.key) = some a ∧ (∀ b ∈ target, b.key ≠ a.key) ∧ counts a = true := by
  simp only [only, List.mem_mergeSort, List.mem_map, List.mem_filter, Prod.exists, get?_ofAreas,
    mem_entries_ofAreas_iff, exists_eq_right, Bool.and_eq_true, Option.isNone_iff_eq_none]
  constructor
  · rintro ⟨key, hfind, hnone, hcounts⟩
    obtain rfl : a.key = key := by simpa using List.find?_some hfind
    exact ⟨hfind, by simpa using hnone, hcounts⟩
  · rintro ⟨hfind, hnone, hcounts⟩
    exact ⟨a.key, hfind, by simpa using hnone, hcounts⟩

end Index

/-- Headers without a difference are both marked `ONCE` or both not. -/
theorem once_eq_of_difference? {g h : Header} (hd : difference? g h = none) : g.once = h.once := by
  by_contra hne
  simp only [difference?, hne, ne_eq, not_false_eq_true, if_true] at hd
  split at hd
  · cases hd
  · split at hd <;> cases hd

/-- Where keys are distinct, looking for a key finds the area that has it. -/
theorem find?_key_eq_some_iff {areas : List Area} (hnodup : (areas.map Area.key).Nodup)
    {key : String} {b : Area} :
    areas.find? (·.key == key) = some b ↔ b ∈ areas ∧ b.key = key := by
  constructor
  · exact fun h ↦ ⟨List.mem_of_find?_eq_some h, by simpa using List.find?_some h⟩
  · rintro ⟨hb, rfl⟩
    cases hf : areas.find? (·.key == b.key) with
    | none => simpa using List.find?_eq_none.1 hf b hb
    | some c =>
      have hc : c.key = b.key := by simpa using List.find?_some hf
      rw [List.inj_on_of_nodup_map hnodup (List.mem_of_find?_eq_some hf) hb hc]

section DistinctKeys

variable {template target : List Area}

theorem only_eq_nil_iff (hnodup : (template.map Area.key).Nodup) {counts : Area → Bool} :
    (Index.ofAreas template).only (Index.ofAreas target) counts = [] ↔
      ∀ a ∈ template, (∀ b ∈ target, b.key ≠ a.key) → counts a = false := by
  rw [List.eq_nil_iff_forall_not_mem]
  simp only [Index.mem_only_iff, find?_key_eq_some_iff hnodup, and_true, not_and,
    Bool.not_eq_true]

theorem mismatches_eq_nil_iff (hs : (template.map Area.key).Nodup)
    (ht : (target.map Area.key).Nodup) {path : String} :
    mismatches path (Index.ofAreas template) (Index.ofAreas target) = [] ↔
      ∀ a ∈ template, ∀ b ∈ target, a.key = b.key → difference? a.header b.header = none := by
  simp only [mismatches, List.filterMap_eq_nil_iff, Prod.forall, Index.mem_entries_ofAreas_iff,
    Index.get?_ofAreas, find?_key_eq_some_iff hs, Option.bind_eq_bind, Option.bind_eq_none_iff,
    find?_key_eq_some_iff ht, reduceCtorEq, imp_false, ← Option.eq_none_iff_forall_ne_some, and_imp]
  exact ⟨fun h a ha b hb hkey ↦ h a.key a ha rfl b hb hkey.symm,
    fun h _ a ha hakey b hb hbkey ↦ h a ha b hb (hakey.trans hbkey.symm)⟩

end DistinctKeys

theorem passed_ofViolations_iff {p q : String} {vs : List Violation} :
    (Report.ofViolations p q vs).passed = true ↔ vs = [] := by
  rw [Report.ofViolations, ← List.isEmpty_iff]
  split
  · simp_all [Report.pass]
  · simp_all [Report.fail]

theorem violations_eq_nil_iff {template target : List Area} {p q : String} :
    violations template target p q = [] ↔ Agree template target := by
  simp only [violations, List.append_eq_nil_iff, List.map_eq_nil_iff,
    Index.repeats_ofAreas_eq_nil_iff, List.filter_eq_nil_iff, Bool.not_eq_true', Bool.not_eq_false]
  constructor
  · rintro ⟨⟨⟨⟨⟨⟨hcs, hct⟩, hns⟩, hnt⟩, hmissing⟩, hunexpected⟩, hmismatch⟩
    refine ⟨hcs, hct, hns, hnt, fun a ha hnone ↦ ?_, fun b hb ↦ ?_,
      (mismatches_eq_nil_iff hns hnt).1 hmismatch⟩
    · simpa using (only_eq_nil_iff hns).1 hmissing a ha hnone
    · by_contra hnone
      simpa using (only_eq_nil_iff hnt).1 hunexpected b hb fun a ha hkey ↦ hnone ⟨a, ha, hkey⟩
  · intro h
    refine ⟨⟨⟨⟨⟨⟨h.closed_template, h.closed_target⟩, h.nodup_template⟩, h.nodup_target⟩, ?_⟩, ?_⟩,
      (mismatches_eq_nil_iff h.nodup_template h.nodup_target).2 h.same⟩
    · exact (only_eq_nil_iff h.nodup_template).2 fun a ha hnone ↦ by
        simpa using h.once_of_missing a ha hnone
    · refine (only_eq_nil_iff h.nodup_target).2 fun b hb hnone ↦ ?_
      obtain ⟨a, ha, hkey⟩ := h.exists_template b hb
      exact absurd hkey (hnone a ha)

/-- **A check passes exactly when the areas of the two files agree.** -/
theorem passed_check_iff {template target : List String} {p q : String} :
    (check template target p q).passed = true ↔
      Agree (Area.extract template) (Area.extract target) := by
  rw [check, passed_ofViolations_iff, violations_eq_nil_iff]

/-! ### Agreement carried along -/

namespace Agree

variable {template target : List Area}

/-- Areas that agree with others have different headers. -/
theorem nodup_headers (h : Agree template target) : (target.map Area.header).Nodup := by
  refine List.Nodup.of_map Header.key ?_
  rw [List.map_map]
  exact h.nodup_target

theorem once_eq (h : Agree template target) {a b : Area} (ha : a ∈ template) (hb : b ∈ target)
    (hkey : a.key = b.key) : a.header.once = b.header.once :=
  once_eq_of_difference? (h.same a ha b hb hkey)

/-- **Agreement after a change.** The file has no headers but old ones, each once. Then only two things
can be wrong with it: an area that is not closed, and the loss of one that is not marked `ONCE`. -/
theorem iff_of_headers (h : Agree template target) {changed : List Area}
    (hold : ∀ c ∈ changed, ∃ b ∈ target, b.header = c.header)
    (hnodup : (changed.map Area.header).Nodup) :
    Agree template changed ↔
      (∀ c ∈ changed, c.isTerminated = true) ∧
        ∀ b ∈ target, b.header.once = false → ∃ c ∈ changed, c.header = b.header := by
  constructor
  · intro h'
    refine ⟨h'.closed_target, fun b hb hnot ↦ ?_⟩
    obtain ⟨a, ha, hkey⟩ := h.exists_template b hb
    by_contra hlost
    -- an area of the template that is missing now, although it was not before
    have honce : a.header.once = true := h'.once_of_missing a ha fun c hc hca ↦ by
      obtain ⟨b', hb', hhead⟩ := hold c hc
      have hbb : b' = b := List.inj_on_of_nodup_map h.nodup_target hb' hb (by
        rw [← hkey, ← hca, Area.key, Area.key, hhead])
      exact hlost ⟨c, hc, by rw [← hhead, hbb]⟩
    rw [h.once_eq ha hb hkey, hnot] at honce
    cases honce
  · rintro ⟨hclosed, hkept⟩
    refine ⟨h.closed_template, hclosed, h.nodup_template, ?_, fun a ha hmissing ↦ ?_,
      fun c hc ↦ ?_, fun a ha c hc hkey ↦ ?_⟩
    · -- different headers of the file have different keys, since its areas had
      have hmap : changed.map Area.key = (changed.map Area.header).map Header.key := by
        rw [List.map_map]
        rfl
      rw [hmap]
      refine hnodup.map_on fun g hg g' hg' hkey ↦ ?_
      obtain ⟨c, hc, rfl⟩ := List.mem_map.1 hg
      obtain ⟨c', hc', rfl⟩ := List.mem_map.1 hg'
      obtain ⟨b, hb, hhead⟩ := hold c hc
      obtain ⟨b', hb', hhead'⟩ := hold c' hc'
      rw [← hhead, ← hhead'] at hkey ⊢
      rw [List.inj_on_of_nodup_map h.nodup_target hb hb' hkey]
    · -- if it was missing before, it is a `ONCE` area; if not, it was lost and has to be one
      by_contra hnot
      refine hnot (h.once_of_missing a ha fun b hb hkey ↦ hnot ?_)
      have hb' : ¬b.header.once = false := fun hf ↦ by
        obtain ⟨c, hc, hhead⟩ := hkept b hb hf
        exact hmissing c hc (by rw [← hkey, Area.key, hhead, Area.key])
      rw [h.once_eq ha hb hkey.symm]
      simpa using hb'
    · obtain ⟨b, hb, hhead⟩ := hold c hc
      obtain ⟨a, ha, hkey⟩ := h.exists_template b hb
      exact ⟨a, ha, by rw [hkey, Area.key, hhead, Area.key]⟩
    · obtain ⟨b, hb, hhead⟩ := hold c hc
      rw [← hhead]
      exact h.same a ha b hb (by rw [hkey, Area.key, ← hhead, Area.key])

/-- Told by the headers that are gone: all of them have to be marked `ONCE`. -/
theorem iff_of_perm (h : Agree template target) {changed : List Area} {gone : List Header}
    (hperm : (target.map Area.header).Perm (gone ++ changed.map Area.header)) :
    Agree template changed ↔
      (∀ c ∈ changed, c.isTerminated = true) ∧ ∀ g ∈ gone, g.once = true := by
  have hnodup := hperm.nodup_iff.1 h.nodup_headers
  have hold : ∀ c ∈ changed, ∃ b ∈ target, b.header = c.header := fun c hc ↦
    List.mem_map.1 (hperm.mem_iff.2 (List.mem_append_right gone (List.mem_map_of_mem hc)))
  rw [h.iff_of_headers hold hnodup.of_append_right]
  refine and_congr_right fun _ ↦ ⟨fun hkept g hg ↦ ?_, fun hgone b hb hnot ↦ ?_⟩
  · obtain ⟨b, hb, rfl⟩ := List.mem_map.1 (hperm.mem_iff.2 (List.mem_append_left _ hg))
    by_contra hon
    obtain ⟨c, hc, hhead⟩ := hkept b hb (by simpa using hon)
    exact List.disjoint_of_nodup_append hnodup hg (hhead ▸ List.mem_map_of_mem hc)
  · rcases List.mem_append.1 (hperm.mem_iff.1 (List.mem_map_of_mem hb)) with hg | hc
    · rw [hgone b.header hg] at hnot
      cases hnot
    · exact List.mem_map.1 hc

/-- **What comes from a file that agrees with the template agrees with it too.** -/
theorem of_descends {ls ms : List String} (h : Agree template (Area.extract ls))
    (hd : Descends ls ms) : Agree template (Area.extract ms) := by
  refine (h.iff_of_headers (fun c hc ↦ ?_) ?_).2 ⟨fun c hc ↦ ?_, fun b hb hnot ↦ ?_⟩
  · obtain ⟨b, hb, hframe⟩ := hd.exists_frame hc
    exact ⟨b, hb, Area.header_eq_of_frame_eq hframe⟩
  · have hnodup := h.nodup_headers
    rw [map_header_extract, ← map_fst_frames] at hnodup ⊢
    exact hnodup.sublist (hd.sublist.map Prod.fst)
  · exact Area.isTerminated_of_subset hd.sublist.subset h.closed_target c hc
  · obtain ⟨c, hc, hframe⟩ := List.mem_map.1 (hd.kept b.frame (List.mem_map_of_mem hb) hnot)
    exact ⟨c, hc, Area.header_eq_of_frame_eq hframe⟩

end Agree

/-- So a file passes the check if it comes from one that does. -/
theorem passed_check_of_descends {template ls ms : List String} {p q : String}
    (h : (check template ls p q).passed = true) (hd : Descends ls ms) (p' q' : String) :
    (check template ms p' q').passed = true :=
  passed_check_iff.2 ((passed_check_iff.1 h).of_descends hd)

end WorkflowAreas.Consistency
