import Mathlib.Data.List.Sort
import WorkflowAreas.Merge.Outcome
import WorkflowAreas.Proofs.Segment

/-!
# Regions of a file

A region is given by two positions. Here it is the lines around it that count: a file with a region is
`front ++ b :: (interior ++ e :: back)`, where `b` and `e` are the opening and the closing line.

* `locate?_eq_some_iff`: the region that is found is the one whose opening line does not occur before
  it and whose closing line does not occur in its interior;
* `fst_apply_replace`, `fst_apply_of_ne_replace`: what a strategy makes of a file with a region;
* `Strategy.fill_fill`: filling an interior twice is filling it once.
-/

namespace WorkflowAreas.Merge

/-- The region with these lines before it and these between its markers. -/
def Region.between (front interior : List String) : Region :=
  ⟨front.length, front.length + 1 + interior.length⟩

theorem Region.start_between (front interior : List String) :
    (between front interior).start = front.length :=
  rfl

theorem Region.stop_between (front interior : List String) :
    (between front interior).stop = front.length + (interior.length + 1) := by
  rw [between, Nat.add_assoc, Nat.add_comm 1]

section Split

variable {front interior back : List String} {b e : String}

/-! ### The lines of a region -/

theorem before_between :
    (Region.between front interior).before (front ++ b :: (interior ++ e :: back)) = front :=
  List.take_left

theorem interior_between :
    (Region.between front interior).interior (front ++ b :: (interior ++ e :: back)) = interior := by
  rw [Region.interior, Region.start_between, Region.stop_between, List.take_length_add_append,
    List.take_succ_cons, List.take_left, List.drop_length_add_append, List.drop_one, List.tail_cons]

theorem after_between :
    (Region.between front interior).after (front ++ b :: (interior ++ e :: back)) = back := by
  rw [Region.after, Region.stop_between, Nat.add_assoc, List.drop_length_add_append,
    List.drop_succ_cons, List.drop_length_add_append, List.drop_one, List.tail_cons]

theorem withInterior_between (filled : List String) :
    (Region.between front interior).withInterior (front ++ b :: (interior ++ e :: back)) filled =
      front ++ b :: (filled ++ e :: back) := by
  rw [Region.withInterior, Region.start_between, Region.stop_between, List.take_length_add_append,
    List.drop_length_add_append, List.drop_succ_cons, List.drop_left, List.take_succ_cons,
    List.take_zero, List.append_assoc, List.append_assoc, List.singleton_append]

/-! ### Finding a region -/

theorem findIdx?_beq_append_cons (hb : b ∉ front) (rest : List String) :
    (front ++ b :: rest).findIdx? (· == b) = some front.length := by
  have hfront : front.findIdx? (· == b) = none :=
    List.findIdx?_eq_none_iff.2 fun l hl ↦ beq_false_of_ne fun heq ↦ hb (heq ▸ hl)
  rw [List.findIdx?_append, hfront, Option.none_or, List.findIdx?_cons, beq_self_eq_true, if_pos rfl]
  simp

theorem locate?_eq_none {lines : List String} (hb : b ∉ lines) : locate? lines b e = none := by
  have hnone : lines.findIdx? (· == b) = none :=
    List.findIdx?_eq_none_iff.2 fun l hl ↦ beq_false_of_ne fun heq ↦ hb (heq ▸ hl)
  rw [locate?, hnone]
  rfl

theorem locate?_append_cons (hb : b ∉ front) (rest : List String) :
    locate? (front ++ b :: rest) b e =
      (rest.findIdx? (· == e)).map fun offset ↦ ⟨front.length, front.length + 1 + offset⟩ := by
  rw [locate?, findIdx?_beq_append_cons hb]
  simp only [Option.bind_eq_bind, Option.bind_some, List.drop_length_add_append,
    List.drop_succ_cons, List.drop_zero]
  cases rest.findIdx? (· == e) <;> rfl

/-- **The region that is found**: the first opening line, and the first closing line after it. -/
theorem locate?_eq_some_iff {lines : List String} {r : Region} :
    locate? lines b e = some r ↔
      ∃ front interior back, lines = front ++ b :: (interior ++ e :: back) ∧ b ∉ front ∧
        e ∉ interior ∧ r = Region.between front interior := by
  constructor
  · intro h
    have hb : b ∈ lines := by
      by_contra hb
      rw [locate?_eq_none hb] at h
      cases h
    obtain ⟨front, rest, rfl, hfront⟩ := List.eq_append_cons_of_mem hb
    rw [locate?_append_cons hfront, Option.map_eq_some_iff] at h
    obtain ⟨offset, hoffset, rfl⟩ := h
    have he : e ∈ rest := by
      by_contra he
      have hnone : rest.findIdx? (· == e) = none :=
        List.findIdx?_eq_none_iff.2 fun l hl ↦ beq_false_of_ne fun heq ↦ he (heq ▸ hl)
      rw [hnone] at hoffset
      cases hoffset
    obtain ⟨interior, back, rfl, hinterior⟩ := List.eq_append_cons_of_mem he
    rw [findIdx?_beq_append_cons hinterior, Option.some.injEq] at hoffset
    exact ⟨front, interior, back, rfl, hfront, hinterior, by rw [Region.between, hoffset]⟩
  · -- both searches stop at the first hit, which is where the decomposition has it
    rintro ⟨front, interior, back, rfl, hfront, hinterior, rfl⟩
    rw [locate?_append_cons hfront, findIdx?_beq_append_cons hinterior]
    rfl

/-! ### Filling an interior -/

/-- The lines that a strategy puts in the place of an interior. -/
def Strategy.fill (s : Strategy) (interior content : List String) : List String :=
  match s with
  | .replace => content
  | .unite => union interior content
  | .append => if Run.occurs content interior then interior else interior ++ content

/-- Content that is appended leaves the interior exactly if it is there already. -/
theorem Strategy.fill_append_eq_self_iff {interior content : List String} :
    append.fill interior content = interior ↔ Run.occurs content interior = true := by
  rw [fill]
  split
  · exact iff_of_true rfl ‹_›
  · rename_i hocc
    refine iff_of_false (fun hfill ↦ hocc ?_) hocc
    -- nothing was added, and the empty run occurs everywhere
    rw [List.append_right_eq_self] at hfill
    exact Run.occurs_iff.2 ⟨[], interior, by rw [hfill, List.nil_append, List.nil_append]⟩

/-- An area that is replaced leaves its content and no markers. -/
theorem fst_apply_replace (content : List String) :
    (Strategy.replace.apply (front ++ b :: (interior ++ e :: back))
      (Region.between front interior) content).1 = front ++ content ++ back := by
  rw [Strategy.apply, before_between, after_between]

/-- Any other area keeps its markers, and all around it stays. -/
theorem fst_apply_of_ne_replace {s : Strategy} (hs : s ≠ .replace) (content : List String) :
    (s.apply (front ++ b :: (interior ++ e :: back)) (Region.between front interior) content).1 =
      front ++ b :: (s.fill interior content ++ e :: back) := by
  cases s with
  | replace => exact absurd rfl hs
  | unite =>
    simp only [Strategy.apply, Strategy.fill, interior_between, withInterior_between]
    split
    · rename_i h
      rw [← h]
    · rfl
  | append =>
    simp only [Strategy.apply, Strategy.fill, interior_between, withInterior_between]
    split <;> rfl

/-- It counts as changed exactly if the interior does not stay what it was. -/
theorem snd_apply_of_ne_replace {s : Strategy} (hs : s ≠ .replace) (content : List String) :
    (s.apply (front ++ b :: (interior ++ e :: back)) (Region.between front interior) content).2 =
      true ↔ s.fill interior content ≠ interior := by
  cases s with
  | replace => exact absurd rfl hs
  | unite =>
    simp only [Strategy.apply, Strategy.fill, interior_between]
    split
    · rename_i h
      exact iff_of_false Bool.false_ne_true fun hne ↦ hne h.symm
    · rename_i h
      exact iff_of_true rfl fun heq ↦ h heq.symm
  | append =>
    rw [Ne, Strategy.fill_append_eq_self_iff]
    simp only [Strategy.apply, interior_between]
    split
    · exact iff_of_false Bool.false_ne_true fun hne ↦ hne ‹_›
    · exact iff_of_true rfl ‹_›

end Split

/-! ### Filling twice -/

/-- **A sorted set is left alone** if it ascends, has the content, and has no blank line of its own. -/
theorem union_eq_self_iff {interior content : List String} :
    union interior content = interior ↔
      interior.Pairwise (· < ·) ∧ (∀ l ∈ content, l ∈ interior) ∧
        ∀ l ∈ interior, Text.isBlankLine l = true → l ∈ content := by
  constructor
  · intro h
    have hmem : ∀ l, l ∈ interior ↔ l ∈ content ∨ l ∈ interior ∧ Text.isBlankLine l = false := by
      intro l
      rw [← mem_union, h]
    refine ⟨h ▸ pairwise_union interior content, fun l hl ↦ (hmem l).2 (Or.inl hl),
      fun l hl hblank ↦ ?_⟩
    rcases (hmem l).1 hl with hc | ⟨-, hnot⟩
    · exact hc
    · rw [hblank] at hnot
      cases hnot
  · rintro ⟨hasc, hsub, hblank⟩
    refine (pairwise_union _ _).eq_of_mem_iff hasc fun l ↦ ?_
    rw [mem_union]
    constructor
    · rintro (hl | ⟨hl, -⟩)
      · exact hsub l hl
      · exact hl
    · intro hl
      cases hb : Text.isBlankLine l with
      | true => exact Or.inl (hblank l hl hb)
      | false => exact Or.inr ⟨hl, rfl⟩

/-- A sorted set of lines is determined by its lines. -/
theorem union_union (interior content : List String) :
    union (union interior content) content = union interior content := by
  refine union_eq_self_iff.2 ⟨pairwise_union interior content, fun l hl ↦ mem_union.2 (Or.inl hl),
    fun l hl hblank ↦ ?_⟩
  rcases mem_union.1 hl with hc | ⟨-, hnot⟩
  · exact hc
  · rw [hblank] at hnot
    cases hnot

theorem Strategy.fill_append_of_occurs {interior content : List String}
    (h : Run.occurs content interior = true) : append.fill interior content = interior :=
  if_pos h

theorem Strategy.fill_append_of_not_occurs {interior content : List String}
    (h : ¬Run.occurs content interior = true) : append.fill interior content = interior ++ content :=
  if_neg h

/-- **Filling is idempotent**, for each strategy for a reason of its own. -/
theorem Strategy.fill_fill (s : Strategy) (interior content : List String) :
    s.fill (s.fill interior content) content = s.fill interior content := by
  cases s with
  | replace => rfl
  | unite => exact union_union interior content
  | append =>
    by_cases hocc : Run.occurs content interior = true
    · rw [fill_append_of_occurs hocc, fill_append_of_occurs hocc]
    · rw [fill_append_of_not_occurs hocc,
        fill_append_of_occurs (Run.occurs_iff.2 ⟨interior, [], by rw [List.append_nil]⟩)]

/-- **What is there stays there.** Filling an interior with other content leaves nothing to do for the
content that it has already. In a sorted set this takes lines that are not blank, since blank ones are
cleared away whenever it is filled. -/
theorem Strategy.fill_fill_of_fill_eq_self {s : Strategy} (hs : s ≠ .replace)
    {interior content other : List String} (hfill : s.fill interior content = interior)
    (hc : s = .unite → ∀ l ∈ content, Text.isBlankLine l = false)
    (ho : s = .unite → ∀ l ∈ other, Text.isBlankLine l = false) :
    s.fill (s.fill interior other) content = s.fill interior other := by
  cases s with
  | replace => exact absurd rfl hs
  | unite =>
    obtain ⟨-, hsub, -⟩ := union_eq_self_iff.1 hfill
    refine union_eq_self_iff.2 ⟨pairwise_union interior other, fun l hl ↦ ?_, fun l hl hblank ↦ ?_⟩
    · exact mem_union.2 (Or.inr ⟨hsub l hl, hc rfl l hl⟩)
    · -- no line of the filled set is blank
      have hnot : Text.isBlankLine l = false := by
        rcases mem_union.1 hl with hl | ⟨-, hnot⟩
        · exact ho rfl l hl
        · exact hnot
      rw [hblank] at hnot
      cases hnot
  | append =>
    rw [fill_append_eq_self_iff] at hfill ⊢
    obtain ⟨front, back, hrun⟩ := Run.occurs_iff.1 hfill
    rw [fill]
    split
    · exact hfill
    · exact Run.occurs_iff.2 ⟨front, back ++ other, by rw [hrun, List.append_assoc]⟩

/-- What is in a filled interior was in it before or is content. -/
theorem Strategy.mem_of_mem_fill {s : Strategy} {interior content : List String} {l : String}
    (h : l ∈ s.fill interior content) : l ∈ interior ∨ l ∈ content := by
  cases s with
  | replace => exact Or.inr h
  | unite => exact (mem_union.1 h).symm.imp_left And.left
  | append =>
    rw [Strategy.fill] at h
    split at h
    · exact Or.inl h
    · exact List.mem_append.1 h

end WorkflowAreas.Merge
