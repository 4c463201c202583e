import WorkflowAreas.Proofs.Header.Matcher

/-!
# The pattern of an opening line

The form of an opening line can be written as a pattern, `Header.pattern`, whose parts are tried in order.
`Header.parse?` reads a line without trying anything twice. `parse?_eq_first_way` says that it finds **the
first way in which the pattern fits**: the lead is as short as it can be, the ids are as few as they can
be, and so the last two words are a clause with a flag wherever they can be one.

* `afterIds_othersText_cons`: a flag fits behind an id if the word `IF` and one last word are left;
* `head?_moreIds`, `idsAndFlag_eq_splitFlag`: so the fewest ids are those that `Clause.idsAndFlag` tells;
* `exists_othersText_of_moreIds`: what the pattern fits can be spelled;
* `head?_listing`, `head?_area`, `head?_opening`, `head?_pattern`: the parts put together.
-/

namespace WorkflowAreas

namespace Header

open Matcher

/-- What the pattern of an opening line captures. -/
structure Captures where
  lead : List Char
  once : Bool
  sorted : Bool
  name : List Char
  /-- The text of the list of ids. -/
  ids : List Char
  flag : Option (List Char)

/-- Spaces: ` +`. -/
def spaces : Matcher (List Char) :=
  many1 (· == ' ')

/-- Characters without a blank: `\S+`. -/
def word : Matcher (List Char) :=
  many1 (!Text.isBlank ·)

/-- Another word of a list, with the spaces before it: ` +\S+`. -/
def furtherWord : Matcher (List Char) := do
  let gap ← spaces
  let w ← word
  pure (gap ++ w)

/-- The flag that chooses between the branches of an area: ` +IF +(\S+)`. -/
def flagClause : Matcher (List Char) := do
  let _ ← spaces
  literal "IF"
  let _ ← spaces
  word

/-- What may follow the ids: `(?: +IF +(\S+))?\s*$`. -/
def afterIds : Matcher (Option (List Char)) := do
  let flag ← optional flagClause
  let _ ← many Text.isBlank
  ending
  pure flag

/-- The ids and what follows them. The ids are `\S+(?: +\S+)*?`. -/
def listing : Matcher (List Char × Option (List Char)) := do
  let first ← word
  let others ← fewTimes furtherWord
  let flag ← afterIds
  pure (first ++ others.flatten, flag)

/-- What follows the options: `WORKFLOW AREA (\S+) FOR `, and the list. -/
def area (lead : List Char) (once sorted : Option Unit) : Matcher Captures := do
  literal "WORKFLOW AREA "
  let name ← word
  literal " FOR "
  let (ids, flag) ← listing
  pure ⟨lead, once.isSome, sorted.isSome, name, ids, flag⟩

/-- An opening line from its `BEGIN` on: `BEGIN (ONCE )?(SORTED )?`, and the rest. -/
def opening (lead : List Char) : Matcher Captures := do
  literal "BEGIN "
  let once ← optional (literal "ONCE ")
  let sorted ← optional (literal "SORTED ")
  area lead once sorted

/-- An opening line: the lead is `^(.*?)`, so it stays on one line. -/
def pattern : Matcher Captures := do
  let lead ← few (· != '\n')
  opening lead

/-- The parts of a text between its blanks. -/
def splitBlanks (cs : List Char) : List (List Char) :=
  (cs.splitOnP Text.isBlank).filter (!·.isEmpty)

/-- The header of a line with these parts, if it is for a workflow at all. -/
def Captures.header? (c : Captures) (line : String) : Option Header :=
  let workflows := splitBlanks c.ids
  if workflows.isEmpty then none
  else some {
    lead := String.ofList c.lead
    name := String.ofList c.name
    workflows := workflows.map String.ofList
    once := c.once
    sorted := c.sorted
    flag := c.flag.map String.ofList
    beginLine := line }

/-! ### Ids and flag -/

variable {β : Type} {w trail cs : List Char} {others : List (Nat × List Char)} {k : Nat}

/-- Words with spaces before them, and blanks behind. -/
def othersText (others : List (Nat × List Char)) (trail : List Char) : List Char :=
  (others.flatMap fun p ↦ List.replicate p.1 ' ' ++ p.2) ++ trail

/-- What the words of a list are made of, apart from the first one. -/
structure AreOthers (others : List (Nat × List Char)) (trail : List Char) : Prop where
  isWord : ∀ p ∈ others, 0 < p.1 ∧ IsWord p.2
  isBlank : ∀ c ∈ trail, Text.isBlank c = true

theorem AreOthers.tail {p : Nat × List Char} (h : AreOthers (p :: others) trail) :
    AreOthers others trail :=
  ⟨fun q hq ↦ h.isWord q (List.mem_cons_of_mem p hq), h.isBlank⟩

theorem othersText_cons : othersText ((k, w) :: others) trail =
    List.replicate k ' ' ++ (w ++ othersText others trail) := by
  simp [othersText]

/-- Behind a word there is a blank, or nothing. -/
theorem isBlank_head?_othersText (h : AreOthers others trail) :
    ∀ c ∈ (othersText others trail).head?, Text.isBlank c = true := by
  intro c hc
  cases others with
  | nil => exact h.isBlank c (List.mem_of_mem_head? hc)
  | cons p others =>
    obtain ⟨k, hk⟩ := Nat.exists_eq_add_of_lt (h.isWord p List.mem_cons_self).1
    rw [othersText_cons, hk, Nat.zero_add, List.replicate_succ] at hc
    cases hc
    rfl

theorem beq_space_eq_false {c : Char} (hc : Text.isBlank c = false) : (c == ' ') = false := by
  rw [beq_eq_false_iff_ne]
  rintro rfl
  exact absurd hc (by decide)

/-- The spaces before a word end where it begins. -/
theorem span_othersText_cons (h : AreOthers ((k, w) :: others) trail) :
    (othersText ((k, w) :: others) trail).takeWhile (· == ' ') = List.replicate k ' ' ∧
      (othersText ((k, w) :: others) trail).dropWhile (· == ' ') =
        w ++ othersText others trail := by
  obtain ⟨c, w', rfl, hc⟩ := (h.isWord _ List.mem_cons_self).2.exists_cons
  have hne : ¬(c == ' ') = true := by simp [beq_space_eq_false hc]
  have hspaces : ∀ d ∈ List.replicate k ' ', (d == ' ') = true := fun d hd ↦ by
    simpa using List.eq_of_mem_replicate hd
  rw [othersText_cons, List.takeWhile_append_of_pos hspaces, List.dropWhile_append_of_pos hspaces,
    List.cons_append, List.takeWhile_cons_of_neg (p := (· == ' ')) hne,
    List.dropWhile_cons_of_neg (p := (· == ' ')) hne, List.append_nil]
  exact ⟨rfl, rfl⟩

/-- Spaces are taken up at once if no space is to follow. -/
theorem spaces_bind {f : List Char → Matcher β} (hf : ∀ gap rest, f gap (' ' :: rest) = []) :
    (spaces >>= f) cs =
      if (cs.takeWhile (· == ' ')).isEmpty then []
      else f (cs.takeWhile (· == ' ')) (cs.dropWhile (· == ' ')) :=
  many1_bind fun gap c rest hc ↦ by rw [beq_iff_eq.1 hc, hf]

/-- A word is taken up at once if a blank is to follow, or nothing. -/
theorem word_bind {f : List Char → Matcher β}
    (hf : ∀ w c rest, Text.isBlank c = false → f w (c :: rest) = []) :
    (word >>= f) cs =
      if (cs.takeWhile (!Text.isBlank ·)).isEmpty then []
      else f (cs.takeWhile (!Text.isBlank ·)) (cs.dropWhile (!Text.isBlank ·)) :=
  many1_bind fun w c rest hc ↦ hf w c rest (by simpa using hc)

/-- The word of a flag, with the spaces before it and blanks up to the end. -/
def flagWord : Matcher (Option (List Char)) := do
  let _ ← spaces
  let flag ← word
  let _ ← many Text.isBlank
  ending
  pure (some flag)

theorem flagWord_apply (cs : List Char) :
    flagWord cs =
      let rest := cs.dropWhile (· == ' ')
      if (cs.takeWhile (· == ' ')).isEmpty || (rest.takeWhile (!Text.isBlank ·)).isEmpty then []
      else if (rest.dropWhile (!Text.isBlank ·)).all Text.isBlank then
        [(some (rest.takeWhile (!Text.isBlank ·)), [])]
      else [] := by
  have hend : ∀ flag cs, (many Text.isBlank >>= fun _ ↦ ending >>= fun _ ↦ pure (some flag) :
      Matcher (Option (List Char))) cs = if cs.all Text.isBlank then [(some flag, [])] else [] :=
    fun flag _ ↦ blanks_ending_bind fun _ ↦ pure (some flag)
  have hword : ∀ cs, (word >>= fun flag ↦ many Text.isBlank >>= fun _ ↦ ending >>= fun _ ↦
      pure (some flag) : Matcher (Option (List Char))) cs =
        if (cs.takeWhile (!Text.isBlank ·)).isEmpty then []
        else if (cs.dropWhile (!Text.isBlank ·)).all Text.isBlank then
          [(some (cs.takeWhile (!Text.isBlank ·)), [])]
        else [] := fun cs ↦ by
    rw [word_bind fun w c rest hc ↦ by rw [hend, List.all_cons, hc]; rfl, hend]
  rw [flagWord, spaces_bind fun _ _ ↦ by rw [hword]; rfl, hword]
  cases (cs.takeWhile (· == ' ')).isEmpty <;> rfl

/-- A flag is tried before anything else, and without a flag the text has to end. -/
theorem afterIds_apply (cs : List Char) :
    afterIds cs =
      (if (cs.takeWhile (· == ' ')).isEmpty then []
      else (Clause.after? "IF" (cs.dropWhile (· == ' '))).elim [] fun rest ↦ flagWord rest) ++
      if cs.all Text.isBlank then [(none, [])] else [] := by
  have hflag : (flagClause >>= fun flag ↦ many Text.isBlank >>= fun _ ↦ ending >>= fun _ ↦
      pure (some flag)) = spaces >>= fun _ ↦ literal "IF" >>= fun _ ↦ flagWord := by
    simp only [flagClause, flagWord, bind_assoc]
  rw [afterIds, optional_bind, hflag, blanks_ending_bind fun _ ↦ pure none,
    spaces_bind fun _ _ ↦ by rw [literal_bind]; rfl, literal_bind]
  rfl

/-- Nothing of what may follow an id begins like a word. -/
theorem afterIds_cons {c : Char} (hc : Text.isBlank c = false) : afterIds (c :: cs) = [] := by
  rw [afterIds_apply,
    List.takeWhile_cons_of_neg (p := (· == ' ')) (by simp [beq_space_eq_false hc]), List.all_cons, hc]
  rfl

/-- Where blanks alone are left, there is no flag. -/
theorem afterIds_of_isBlank (h : ∀ c ∈ trail, Text.isBlank c = true) :
    afterIds trail = [(none, [])] := by
  have hnone : Clause.after? "IF" (trail.dropWhile (· == ' ')) = none := by
    refine Option.eq_none_iff_forall_ne_some.2 fun rest hrest ↦ ?_
    have hmem : 'I' ∈ trail.dropWhile (· == ' ') := by
      rw [Clause.after?_eq_some_iff.1 hrest]
      exact List.mem_cons_self
    exact absurd (h 'I' (List.dropWhile_sublist _ |>.subset hmem)) (by decide)
  rw [afterIds_apply, hnone, if_pos (List.all_eq_true.2 h)]
  split <;> rfl

/-- Blanks end a list, and a word goes on with it. -/
theorem all_isBlank_othersText (h : AreOthers others trail) :
    (othersText others trail).all Text.isBlank = others.isEmpty := by
  cases others with
  | nil => exact List.all_eq_true.2 h.isBlank
  | cons p others =>
    obtain ⟨c, w, hw, hc⟩ := (h.isWord p List.mem_cons_self).2.exists_cons
    rw [othersText_cons, hw, List.all_append, List.cons_append, List.all_cons, hc, Bool.false_and,
      Bool.and_false, List.isEmpty_cons]

/-- The word of a flag is the last one. -/
theorem flagWord_othersText (h : AreOthers others trail) :
    flagWord (othersText others trail) =
      if others.length = 1 then [(others.head?.map Prod.snd, [])] else [] := by
  rw [flagWord_apply]
  cases others with
  | nil =>
    have hno : ((othersText [] trail).dropWhile (· == ' ')).takeWhile (!Text.isBlank ·) = [] := by
      cases hrest : (othersText [] trail).dropWhile (· == ' ') with
      | nil => rfl
      | cons c rest =>
        have hmem : c ∈ trail := (List.dropWhile_sublist _).subset (hrest ▸ List.mem_cons_self)
        exact List.takeWhile_cons_of_neg (by simp [h.isBlank c hmem])
    simp only [hno, List.isEmpty_nil, Bool.or_true, if_true]
    rfl
  | cons p others =>
    obtain ⟨k, w⟩ := p
    obtain ⟨hk, hw⟩ := h.isWord (k, w) List.mem_cons_self
    have hbehind := isBlank_head?_othersText h.tail
    obtain ⟨htake, hdrop⟩ := span_othersText_cons h
    have hspaces : (List.replicate k ' ').isEmpty = false := by simp [hk.ne']
    have hne : w.isEmpty = false := by simpa using hw.1
    simp only [htake, hdrop, takeWhile_word_append hw hbehind, dropWhile_word_append hw hbehind,
      all_isBlank_othersText h.tail, hspaces, hne, Bool.or_self]
    cases others <;> rfl

/-- Before a word there is a flag if the word is `IF` and one word is left behind it. -/
theorem afterIds_othersText_cons (h : AreOthers ((k, w) :: others) trail) :
    afterIds (othersText ((k, w) :: others) trail) =
      if w = "IF".toList then flagWord (othersText others trail) else [] := by
  have hk : 0 < k := (h.isWord _ List.mem_cons_self).1
  have hw : IsWord w := (h.isWord _ List.mem_cons_self).2
  obtain ⟨htake, hdrop⟩ := span_othersText_cons h
  have hspaces : (List.replicate k ' ').isEmpty = false := by simp [hk.ne']
  rw [afterIds_apply, htake, hdrop, hspaces, if_neg Bool.false_ne_true, all_isBlank_othersText h,
    List.isEmpty_cons, if_neg Bool.false_ne_true, List.append_nil]
  split
  · rename_i hif
    rw [hif, Clause.after?_append]
    rfl
  · rename_i hif
    cases hafter : Clause.after? "IF" (w ++ othersText others trail) with
    | none => rfl
    | some rest =>
      -- the word goes on behind these letters, so no space follows them
      have hrest : rest.takeWhile (· == ' ') = [] := by
        cases rest with
        | nil => rfl
        | cons c rest =>
          refine List.takeWhile_cons_of_neg fun hc ↦ hif ?_
          have htext := Clause.after?_eq_some_iff.1 hafter
          rw [beq_iff_eq.1 hc] at htext
          rw [← takeWhile_word_append hw (isBlank_head?_othersText h.tail), htext]
          rfl
      show flagWord rest = []
      rw [flagWord_apply, hrest]
      rfl

/-- The ids after the first one, and what follows them. -/
def moreIds (first : List Char) (n : Nat) : Matcher (List Char × Option (List Char)) := do
  let others ← fewUpTo furtherWord n
  let flag ← afterIds
  pure (first ++ others.flatten, flag)

theorem afterIds_bind_pure {γ : Type} (f : Option (List Char) → γ) :
    (afterIds >>= fun flag ↦ pure (f flag)) cs =
      (afterIds cs).map fun way ↦ (f way.1, way.2) :=
  List.flatMap_pure_eq_map _ _

theorem moreIds_zero (first cs : List Char) :
    moreIds first 0 cs = (afterIds cs).map fun way ↦ ((first, way.1), way.2) := by
  rw [moreIds, fewUpTo, pure_bind, afterIds_bind_pure, List.flatten_nil, List.append_nil]

/-- The ids end here, or there is another one. -/
theorem moreIds_succ (first : List Char) (n : Nat) (cs : List Char) :
    moreIds first (n + 1) cs = (afterIds cs).map (fun way ↦ ((first, way.1), way.2)) ++
      (furtherWord >>= fun w ↦ moreIds (first ++ w) n) cs := by
  rw [moreIds, fewUpTo_succ_bind, afterIds_bind_pure, List.flatten_nil, List.append_nil]
  simp only [moreIds, List.flatten_cons, List.append_assoc]

/-- More ids do not begin like a word. -/
theorem moreIds_cons {c : Char} (hc : Text.isBlank c = false) (first : List Char) (n : Nat) :
    moreIds first n (c :: cs) = [] := by
  cases n with
  | zero => rw [moreIds_zero, afterIds_cons hc, List.map_nil]
  | succ n =>
    have hfurther : furtherWord (c :: cs) = [] := by
      rw [furtherWord, bind_apply, spaces, many1, beq_space_eq_false hc]
      rfl
    rw [moreIds_succ, afterIds_cons hc, bind_apply, hfurther]
    rfl

theorem furtherWord_bind {f : List Char → Matcher β}
    (hf : ∀ w c rest, Text.isBlank c = false → f w (c :: rest) = []) :
    (furtherWord >>= f) cs =
      let rest := cs.dropWhile (· == ' ')
      if (cs.takeWhile (· == ' ')).isEmpty || (rest.takeWhile (!Text.isBlank ·)).isEmpty then []
      else f (cs.takeWhile (· == ' ') ++ rest.takeWhile (!Text.isBlank ·))
        (rest.dropWhile (!Text.isBlank ·)) := by
  have hword : ∀ gap cs, (word >>= fun w ↦ pure (gap ++ w) >>= f) cs =
      if (cs.takeWhile (!Text.isBlank ·)).isEmpty then []
      else f (gap ++ cs.takeWhile (!Text.isBlank ·)) (cs.dropWhile (!Text.isBlank ·)) := by
    intro gap cs
    simp only [pure_bind]
    exact word_bind fun w c rest hc ↦ hf (gap ++ w) c rest hc
  rw [furtherWord, bind_assoc]
  simp only [bind_assoc]
  rw [spaces_bind fun _ _ ↦ by rw [hword]; rfl, hword]
  cases (cs.takeWhile (· == ' ')).isEmpty <;> rfl

/-- Another word is taken up together with the spaces before it. -/
theorem furtherWord_bind_othersText (h : AreOthers ((k, w) :: others) trail)
    {f : List Char → Matcher β}
    (hf : ∀ w c rest, Text.isBlank c = false → f w (c :: rest) = []) :
    (furtherWord >>= f) (othersText ((k, w) :: others) trail) =
      f (List.replicate k ' ' ++ w) (othersText others trail) := by
  have hk : 0 < k := (h.isWord _ List.mem_cons_self).1
  have hw : IsWord w := (h.isWord _ List.mem_cons_self).2
  have hbehind := isBlank_head?_othersText h.tail
  obtain ⟨htake, hdrop⟩ := span_othersText_cons h
  have hspaces : (List.replicate k ' ').isEmpty = false := by simp [hk.ne']
  have hne : w.isEmpty = false := by simpa using hw.1
  rw [furtherWord_bind hf]
  simp only [htake, hdrop, takeWhile_word_append hw hbehind, dropWhile_word_append hw hbehind,
    hspaces, hne, Bool.or_self, Bool.false_eq_true, if_false]

/-- The words that are ids, and the flag: a word is an id unless it is `IF` in front of one last word. -/
def splitFlag : List (Nat × List Char) → List (Nat × List Char) × Option (List Char)
  | [] => ([], none)
  | p :: others =>
    if p.2 = "IF".toList ∧ others.length = 1 then ([], others.head?.map Prod.snd)
    else (p :: (splitFlag others).1, (splitFlag others).2)

/-- **As few words as possible are ids.** -/
theorem head?_moreIds (h : AreOthers others trail) {n : Nat} (hn : others.length ≤ n)
    (first : List Char) :
    (moreIds first n (othersText others trail)).head? =
      some ((first ++ othersText (splitFlag others).1 [], (splitFlag others).2), []) := by
  induction others generalizing n first with
  | nil =>
    have hafter : afterIds (othersText [] trail) = [(none, [])] := afterIds_of_isBlank h.isBlank
    have htext : othersText (splitFlag []).1 [] = [] := rfl
    cases n with
    | zero =>
      rw [moreIds_zero, hafter, htext, List.append_nil]
      rfl
    | succ n =>
      rw [moreIds_succ, hafter, htext, List.append_nil]
      rfl
  | cons p others ih =>
    obtain ⟨k, w⟩ := p
    obtain ⟨m, rfl⟩ : ∃ m, n = m + 1 := ⟨n - 1, by rw [List.length_cons] at hn; omega⟩
    have hle : others.length ≤ m := Nat.le_of_succ_le_succ hn
    rw [moreIds_succ, afterIds_othersText_cons h, flagWord_othersText h.tail, ← ite_and, splitFlag]
    by_cases hflag : w = "IF".toList ∧ others.length = 1
    · rw [if_pos hflag, if_pos hflag, List.map_singleton, List.singleton_append, List.head?_cons]
      simp [othersText]
    · -- no flag fits here, so the word is an id and the rest is split
      rw [if_neg hflag, if_neg hflag, List.map_nil, List.nil_append,
        furtherWord_bind_othersText h fun w c rest hc ↦ moreIds_cons hc _ _, ih h.tail hle,
        othersText_cons]
      simp only [List.append_assoc]

theorem idsAndFlag_cons_cons {first w : List Char} {ws : List (List Char)}
    (h : ¬(w = "IF".toList ∧ ws.length = 1)) :
    Clause.idsAndFlag (first :: w :: ws) =
      (first :: (Clause.idsAndFlag (w :: ws)).1, (Clause.idsAndFlag (w :: ws)).2) := by
  have hflag : Clause.HasFlag (first :: w :: ws) ↔ Clause.HasFlag (w :: ws) := by
    rcases ws with _ | ⟨u, _ | ⟨v, ws⟩⟩
    · simp [Clause.HasFlag]
    · simpa [Clause.HasFlag] using h
    · simp [Clause.HasFlag]
  rw [Clause.idsAndFlag_eq, Clause.idsAndFlag_eq, Clause.ids, Clause.ids, Clause.flag?, Clause.flag?]
  by_cases hw : Clause.HasFlag (w :: ws)
  · obtain ⟨u, v, ws, rfl⟩ : ∃ u v ws', ws = u :: v :: ws' := by
      rcases ws with _ | ⟨u, _ | ⟨v, ws⟩⟩
      · exact absurd hw.1 (by simp)
      · exact absurd hw.1 (by simp)
      · exact ⟨u, v, ws, rfl⟩
    rw [if_pos (hflag.2 hw), if_pos hw, if_pos (hflag.2 hw), if_pos hw]
    rfl
  · rw [if_neg (hflag.not.2 hw), if_neg hw, if_neg (hflag.not.2 hw), if_neg hw]

/-- The words are split as `Clause.idsAndFlag` splits them. -/
theorem idsAndFlag_eq_splitFlag (first : List Char) (others : List (Nat × List Char)) :
    Clause.idsAndFlag (first :: others.map Prod.snd) =
      (first :: (splitFlag others).1.map Prod.snd, (splitFlag others).2) := by
  induction others generalizing first with
  | nil => rfl
  | cons p others ih =>
    rw [splitFlag]
    split
    · rename_i hflag
      obtain ⟨hif, hlast⟩ := hflag
      obtain ⟨q, rfl⟩ := List.length_eq_one_iff.1 hlast
      rw [List.map_cons, hif]
      rfl
    · rename_i hflag
      rw [List.map_cons, idsAndFlag_cons_cons (by rwa [List.length_map]), ih]
      rfl

/-! ### Lists that can be read -/

/-- A word with spaces before it in front of other words. -/
theorem exists_othersText_cons (hgap : (cs.takeWhile (· == ' ')).isEmpty = false)
    (hword : ((cs.dropWhile (· == ' ')).takeWhile (!Text.isBlank ·)).isEmpty = false)
    (h : ∃ others trail, AreOthers others trail ∧
      othersText others trail = (cs.dropWhile (· == ' ')).dropWhile (!Text.isBlank ·)) :
    ∃ others trail, AreOthers others trail ∧ othersText others trail = cs := by
  obtain ⟨others, trail, hothers, htext⟩ := h
  have hspaces : cs.takeWhile (· == ' ') =
      List.replicate (cs.takeWhile (· == ' ')).length ' ' :=
    List.eq_replicate_of_mem fun c hc ↦ by simpa using List.mem_takeWhile_imp hc
  have hw : IsWord ((cs.dropWhile (· == ' ')).takeWhile (!Text.isBlank ·)) :=
    ⟨by simpa using hword, fun c hc ↦ by simpa using List.mem_takeWhile_imp hc⟩
  refine ⟨((cs.takeWhile (· == ' ')).length, (cs.dropWhile (· == ' ')).takeWhile (!Text.isBlank ·)) ::
    others, trail, ⟨fun p hp ↦ ?_, hothers.isBlank⟩, ?_⟩
  · rcases List.mem_cons.1 hp with rfl | hp
    · exact ⟨List.length_pos_iff.2 (by simpa using hgap), hw⟩
    · exact hothers.isWord p hp
  · rw [othersText_cons, htext, List.takeWhile_append_dropWhile, ← hspaces,
      List.takeWhile_append_dropWhile]

theorem exists_othersText_of_flagWord (h : flagWord cs ≠ []) :
    ∃ others trail, AreOthers others trail ∧ othersText others trail = cs := by
  rw [flagWord_apply] at h
  dsimp only at h
  split at h
  · exact absurd rfl h
  · rename_i hnot
    obtain ⟨hgap, hword⟩ : _ ∧ _ := by
      simpa only [Bool.or_eq_true, not_or, Bool.not_eq_true] using hnot
    split at h
    · rename_i hblank
      exact exists_othersText_cons hgap hword
        ⟨[], _, ⟨by simp, List.all_eq_true.1 hblank⟩, rfl⟩
    · exact absurd rfl h

theorem exists_othersText_of_afterIds (h : afterIds cs ≠ []) :
    ∃ others trail, AreOthers others trail ∧ othersText others trail = cs := by
  rw [afterIds_apply] at h
  by_cases hblank : cs.all Text.isBlank = true
  · exact ⟨[], cs, ⟨by simp, List.all_eq_true.1 hblank⟩, rfl⟩
  · rw [if_neg hblank, List.append_nil] at h
    split at h
    · exact absurd rfl h
    · rename_i hgap
      cases hafter : Clause.after? "IF" (cs.dropWhile (· == ' ')) with
      | none => exact absurd (by rw [hafter]; rfl) h
      | some rest =>
        rw [hafter] at h
        -- the word `IF` ends here, since a space follows
        have hrest : ∀ c ∈ rest.head?, Text.isBlank c = true := by
          intro c hc
          by_contra hword
          obtain ⟨cs', rfl⟩ := List.head?_eq_some_iff.1 hc
          refine h ?_
          show flagWord (c :: cs') = []
          rw [flagWord_apply, List.takeWhile_cons_of_neg (p := (· == ' '))
            (by simp [beq_space_eq_false (eq_false_of_ne_true hword)])]
          rfl
        have hif : IsWord "IF".toList := ⟨List.cons_ne_nil _ _,
          List.forall_mem_cons.2 ⟨by decide, List.forall_mem_singleton.2 (by decide)⟩⟩
        have htext := Clause.after?_eq_some_iff.1 hafter
        refine exists_othersText_cons (eq_false_of_ne_true hgap) ?_ ?_
        · rw [htext, takeWhile_word_append hif hrest]
          rfl
        · rw [htext, dropWhile_word_append hif hrest]
          exact exists_othersText_of_flagWord h

/-- What the pattern takes for more ids can be spelled. -/
theorem exists_othersText_of_moreIds {first : List Char} {n : Nat} (h : moreIds first n cs ≠ []) :
    ∃ others trail, AreOthers others trail ∧ othersText others trail = cs := by
  induction n generalizing first cs with
  | zero =>
    rw [moreIds_zero, ne_eq, List.map_eq_nil_iff] at h
    exact exists_othersText_of_afterIds h
  | succ n ih =>
    rw [moreIds_succ, ne_eq, List.append_eq_nil_iff, List.map_eq_nil_iff] at h
    by_cases hafter : afterIds cs = []
    · have hmore := fun h' ↦ h ⟨hafter, h'⟩
      rw [furtherWord_bind fun w c rest hc ↦ moreIds_cons hc _ _] at hmore
      dsimp only at hmore
      split at hmore
      · exact absurd rfl hmore
      · rename_i hnot
        obtain ⟨hgap, hword⟩ : _ ∧ _ := by
          simpa only [Bool.or_eq_true, not_or, Bool.not_eq_true] using hnot
        exact exists_othersText_cons hgap hword (ih hmore)
    · exact exists_othersText_of_afterIds hafter

/-! ### The ids as words -/

theorem splitBlanks_word (hw : IsWord w) : splitBlanks w = [w] := by
  rw [splitBlanks, List.splitOnP_eq_singleton hw.2, List.filter_cons_of_pos (by simpa using hw.1),
    List.filter_nil]

theorem splitBlanks_replicate_append (k : Nat) (cs : List Char) :
    splitBlanks (List.replicate k ' ' ++ cs) = splitBlanks cs := by
  induction k with
  | zero => rfl
  | succ k ih =>
    rw [List.replicate_succ, List.cons_append, splitBlanks, List.splitOnP_cons_eq_if_modifyHead,
      if_pos (by decide : Text.isBlank ' ' = true),
      List.filter_cons_of_neg (by simp), ← splitBlanks, ih]

theorem splitBlanks_word_append (hw : IsWord w) (hk : 0 < k) (cs : List Char) :
    splitBlanks (w ++ (List.replicate k ' ' ++ cs)) = w :: splitBlanks cs := by
  obtain ⟨k, rfl⟩ := Nat.exists_eq_add_of_lt hk
  rw [Nat.zero_add, List.replicate_succ, List.cons_append, splitBlanks,
    List.splitOnP_append_cons_of_forall_mem hw.2 ' ' rfl,
    List.filter_cons_of_pos (by simpa using hw.1), ← splitBlanks, splitBlanks_replicate_append]

/-- The words of a list are the parts between its spaces. -/
theorem splitBlanks_append_othersText (hw : IsWord w) (h : AreOthers others []) :
    splitBlanks (w ++ othersText others []) = w :: others.map Prod.snd := by
  induction others generalizing w with
  | nil => rw [othersText, List.flatMap_nil, List.append_nil, List.append_nil, splitBlanks_word hw,
      List.map_nil]
  | cons p others ih =>
    obtain ⟨k, v⟩ := p
    obtain ⟨hk, hv⟩ := h.isWord (k, v) List.mem_cons_self
    rw [othersText_cons, splitBlanks_word_append hw hk, ih hv h.tail, List.map_cons]

theorem AreOthers.splitFlag (h : AreOthers others trail) : AreOthers (splitFlag others).1 [] := by
  refine ⟨fun p hp ↦ h.isWord p ?_, by simp⟩
  clear h
  induction others with
  | nil => exact hp
  | cons q others ih =>
    rw [Header.splitFlag] at hp
    split at hp
    · cases hp
    · exact (List.mem_cons.1 hp).elim (· ▸ List.mem_cons_self)
        fun hp ↦ List.mem_cons_of_mem q (ih hp)

theorem length_le_length_othersText (h : AreOthers others trail) :
    others.length ≤ (othersText others trail).length := by
  induction others with
  | nil => exact Nat.zero_le _
  | cons p others ih =>
    have hk := (h.isWord p List.mem_cons_self).1
    have hle := ih h.tail
    rw [othersText_cons, List.length_append, List.length_replicate, List.length_append,
      List.length_cons]
    omega

theorem listing_apply (cs : List Char) :
    listing cs =
      if (cs.takeWhile (!Text.isBlank ·)).isEmpty then []
      else moreIds (cs.takeWhile (!Text.isBlank ·)) (cs.dropWhile (!Text.isBlank ·)).length
        (cs.dropWhile (!Text.isBlank ·)) :=
  word_bind (f := fun first cs ↦ moreIds first cs.length cs) fun first _ _ hc ↦ moreIds_cons hc first _

/-- **How the words after `FOR` are told apart**: the list of a line is read as far as it can be read at
all, and the first way in which the pattern fits has the ids and the flag. -/
theorem head?_listing (cs : List Char) :
    (listing cs).head?.map (fun way ↦ (splitBlanks way.1.1, way.1.2)) =
      (Clause.words? cs).map Clause.idsAndFlag := by
  rw [listing_apply]
  cases hwords : Clause.words? cs with
  | some ws =>
    obtain ⟨⟨first, others, trail, hfirst, hothers, htrail⟩, rfl, rfl⟩ :=
      Clause.words?_eq_some_iff.1 hwords
    have h : AreOthers others trail := ⟨hothers, htrail⟩
    have htext : Listing.text ⟨first, others, trail, hfirst, hothers, htrail⟩ =
        first ++ othersText others trail := by
      rw [Listing.text, othersText, List.append_assoc]
    have hbehind := isBlank_head?_othersText h
    have hne : first.isEmpty = false := by simpa using hfirst.1
    rw [htext, takeWhile_word_append hfirst hbehind, dropWhile_word_append hfirst hbehind, hne,
      if_neg Bool.false_ne_true, head?_moreIds h (length_le_length_othersText h), Option.map_some,
      Option.map_some, splitBlanks_append_othersText hfirst h.splitFlag]
    exact congrArg some (idsAndFlag_eq_splitFlag first others).symm
  | none =>
    -- a way in which the pattern fits would spell the list
    rw [Option.map_none, Option.map_eq_none_iff, List.head?_eq_none_iff]
    split
    · rfl
    · rename_i hfirst
      by_contra hways
      obtain ⟨others, trail, h, htext⟩ := exists_othersText_of_moreIds hways
      have hw : IsWord (cs.takeWhile (!Text.isBlank ·)) :=
        ⟨by simpa using hfirst, fun c hc ↦ by simpa using List.mem_takeWhile_imp hc⟩
      have hspelled := Listing.words?_text ⟨_, others, trail, hw, h.isWord, h.isBlank⟩
      rw [Listing.text, List.append_assoc, ← othersText, htext, List.takeWhile_append_dropWhile,
        hwords] at hspelled
      cases hspelled

/-! ### The whole line -/

/-- What a header is made of: the lead, the options, the name, the ids and the flag. -/
def Parts : Type :=
  List Char × Bool × Bool × List Char × List (List Char) × Option (List Char)

def Captures.parts (c : Captures) : Parts :=
  (c.lead, c.once, c.sorted, c.name, splitBlanks c.ids, c.flag)

def partsOf (lead : List Char) (c : Clause) : Parts :=
  (lead, c.once, c.sorted, c.name, Clause.idsAndFlag c.words)

theorem after?_for_cons {c : Char} (hc : Text.isBlank c = false) (cs : List Char) :
    Clause.after? " FOR " (c :: cs) = none := by
  refine Option.eq_none_iff_forall_ne_some.2 fun rest hrest ↦ ?_
  obtain rfl : c = ' ' := (List.cons.inj (Clause.after?_eq_some_iff.1 hrest)).1
  exact absurd hc (by decide)

theorem area_apply (lead : List Char) (once sorted : Option Unit) (cs : List Char) :
    area lead once sorted cs =
      (Clause.after? "WORKFLOW AREA " cs).elim [] fun rest ↦
        if (rest.takeWhile (!Text.isBlank ·)).isEmpty then []
        else (Clause.after? " FOR " (rest.dropWhile (!Text.isBlank ·))).elim [] fun list ↦
          (listing list).map fun way ↦ (⟨lead, once.isSome, sorted.isSome,
            rest.takeWhile (!Text.isBlank ·), way.1.1, way.1.2⟩, way.2) := by
  have hlisting : ∀ name, (listing >>= fun way ↦ pure (⟨lead, once.isSome, sorted.isSome, name,
      way.1, way.2⟩ : Captures)) = fun cs ↦ (listing cs).map fun way ↦ (⟨lead, once.isSome,
        sorted.isSome, name, way.1.1, way.1.2⟩, way.2) :=
    fun _ ↦ funext fun _ ↦ List.flatMap_pure_eq_map _ _
  rw [area, literal_bind]
  congr 1
  funext rest
  rw [word_bind fun _ _ _ hc ↦ by rw [literal_bind, after?_for_cons hc]; rfl, literal_bind]
  simp only [hlisting]

/-- Behind the options the pattern and `Clause.parse?` read the same. -/
theorem head?_area (lead : List Char) (once sorted : Option Unit) (cs : List Char) :
    (area lead once sorted cs).head?.map (·.1.parts) =
      (Clause.parseArea? once.isSome sorted.isSome cs).map (partsOf lead) := by
  rw [area_apply, Clause.parseArea?]
  cases Clause.after? "WORKFLOW AREA " cs with
  | none => rfl
  | some rest =>
    rw [Option.elim_some, Option.bind_some]
    cases hname : (rest.takeWhile (!Text.isBlank ·)).isEmpty with
    | true => simp
    | false =>
      cases Clause.after? " FOR " (rest.dropWhile (!Text.isBlank ·)) with
      | none => rfl
      | some list =>
        have hlist := head?_listing list
        rw [if_neg Bool.false_ne_true, Option.elim_some, Option.bind_some, List.head?_map]
        cases hwords : Clause.words? list with
        | none =>
          rw [hwords, Option.map_none, Option.map_eq_none_iff] at hlist
          rw [hlist]
          rfl
        | some words =>
          rw [hwords, Option.map_some, Option.map_eq_some_iff] at hlist
          obtain ⟨way, hway, hids⟩ := hlist
          rw [hway]
          exact congrArg (fun ids ↦ some (lead, once.isSome, sorted.isSome,
            rest.takeWhile (!Text.isBlank ·), ids)) hids

/-- Wherever a lead ends, the pattern and `Clause.parse?` read the same. -/
theorem head?_opening (lead cs : List Char) :
    (opening lead cs).head?.map (·.1.parts) = (Clause.parse? cs).map (partsOf lead) := by
  rw [opening, literal_bind, Clause.parse?_eq]
  cases Clause.after? "BEGIN " cs with
  | none => rfl
  | some rest =>
    rw [Option.elim_some, Option.bind_some]
    -- a word that is read as an option cannot be what follows the options
    have hsorted : ∀ once rest, area lead once none ("SORTED ".toList ++ rest) = [] := by
      intro once rest
      rw [area_apply]
      rfl
    have honce : ∀ rest, (optional (literal "SORTED ") >>= area lead none)
        ("ONCE ".toList ++ rest) = [] := by
      intro rest
      rw [optional_literal_bind (hsorted none), area_apply]
      rfl
    have htaken : ∀ taken : Bool, (if taken then some () else none).isSome = taken := by
      decide
    rw [optional_literal_bind honce, optional_literal_bind (hsorted _), head?_area, htaken, htaken]

/-- **The pattern and `Clause.find?` stop at the same place**: the lead is as short as it can be. -/
theorem head?_pattern (cs : List Char) :
    (pattern cs).head?.map (·.1.parts) =
      (Clause.find? cs).map fun found ↦ partsOf found.1 found.2 := by
  suffices h : ∀ front, ((few (· != '\n') >>= fun lead ↦ opening (front ++ lead)) cs).head?.map
      (·.1.parts) = (Clause.find? cs).map fun found ↦ partsOf (front ++ found.1) found.2 from h []
  induction cs with
  | nil => exact fun _ ↦ rfl
  | cons c cs ih =>
    intro front
    have hlonger := ih (front ++ [c])
    simp only [List.append_assoc, List.singleton_append] at hlonger
    rw [few_bind_cons, List.head?_append, Option.map_or, List.append_nil, head?_opening, Clause.find?]
    cases Clause.parse? (c :: cs) with
    | some clause => simp
    | none =>
      rw [Option.map_none, Option.none_or]
      by_cases hc : c = '\n'
      · rw [if_neg (by simp [hc]), if_pos hc]
        rfl
      · rw [if_pos (by simpa using hc), if_neg hc, hlonger, Option.map_map]
        rfl

/-- **A header is read in the first way in which the pattern fits.** -/
theorem parse?_eq_first_way (line : String) :
    parse? line = (pattern line.toList).head?.bind fun way ↦ way.1.header? line := by
  have hpattern := head?_pattern line.toList
  rw [parse?]
  cases hfind : Clause.find? line.toList with
  | none =>
    rw [hfind, Option.map_none, Option.map_eq_none_iff] at hpattern
    rw [hpattern]
    rfl
  | some found =>
    rw [hfind, Option.map_some, Option.map_eq_some_iff] at hpattern
    obtain ⟨way, hway, hparts⟩ := hpattern
    obtain ⟨lead, clause⟩ := found
    -- a clause that is found has words, so there is an id among them
    obtain ⟨-, rest, -, hrest⟩ := Clause.exists_of_find?_eq_some hfind
    obtain ⟨-, list, -, hlist⟩ := Clause.exists_of_parse?_eq_some hrest
    obtain ⟨l, -, hwords⟩ := Clause.words?_eq_some_iff.1 hlist
    have hids : (Clause.idsAndFlag clause.words).1 ≠ [] := by
      rw [Clause.idsAndFlag_eq, ← hwords]
      exact Clause.ids_ne_nil (List.cons_ne_nil _ _)
    obtain ⟨hlead, honce, hsorted, hname, hsplit, hflag⟩ : way.1.lead = lead ∧
        way.1.once = clause.once ∧ way.1.sorted = clause.sorted ∧ way.1.name = clause.name ∧
        splitBlanks way.1.ids = (Clause.idsAndFlag clause.words).1 ∧
        way.1.flag = (Clause.idsAndFlag clause.words).2 := by
      simpa only [Captures.parts, partsOf, Parts, Prod.mk.injEq, Prod.ext_iff] using hparts
    rw [hway, Option.bind_some, Captures.header?, hsplit, if_neg (by simpa using hids), hlead, honce,
      hsorted, hname, hflag]
    rfl

end Header

end WorkflowAreas
