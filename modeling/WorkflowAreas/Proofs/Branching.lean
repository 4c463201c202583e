import WorkflowAreas.Branch
import WorkflowAreas.Proofs.Header.Listing

/-!
# Lines between branches

The line between the two branches of an area is the word `ELSE`, bare or as a comment. It is taken apart in
stages, from the outside to the word, and each stage takes the first sign of a list that fits. `Divider` has
the parts of such a line from which it can be written down again, whatever the order of reading.

Signs that come off in front and signs that come off behind are the same thing seen from the two ends of a
line. So `withoutSign` is what the lemmas are about, and the signs behind are its case for the text read
backwards.

* `Apart.eq_of_prefix_of_prefix`: no two of the signs fit, so the first one that fits is the only one;
* `Apart.withoutSign_trimStart_eq_iff`: what stands in front of a word that is left;
* `Apart.withoutSign_trimEnd`: what happens at one end does not matter at the other;
* `Marker.isElse_iff_divider`: exactly the dividers are read as `ELSE` lines;
* `Branch.split_at_divider`: how a body is cut, and which branch is chosen.
-/

namespace WorkflowAreas

/-- Whether a text is a word is told by a look at its characters. -/
instance (w : List Char) : Decidable (IsWord w) :=
  decidable_of_iff (w ≠ [] ∧ w.all (!Text.isBlank ·) = true) (by simp [IsWord])

namespace Text

/-- Text that holds nothing but blanks. -/
abbrev Blanks :=
  { cs : List Char // ∀ c ∈ cs, isBlank c = true }

/-- The same blanks read backwards. -/
def Blanks.reverse (bs : Blanks) : Blanks :=
  ⟨bs.1.reverse, fun c hc ↦ bs.2 c (List.mem_reverse.1 hc)⟩

theorem trimEnd_eq (cs : List Char) : trimEnd cs = (trimStart cs.reverse).reverse :=
  rfl

theorem trimStart_word_append {w : List Char} (hw : IsWord w) (cs : List Char) :
    trimStart (w ++ cs) = w ++ cs := by
  obtain ⟨c, w, rfl, hc⟩ := hw.exists_cons
  rw [trimStart, List.cons_append, List.dropWhile_cons_of_neg (by simp [hc])]

theorem trimEnd_word_append {w : List Char} (hw : IsWord w) (cs : List Char) :
    trimEnd (w ++ cs) = w ++ trimEnd cs := by
  by_cases hcs : trimEnd cs = []
  · obtain ⟨bs, hbs, happ⟩ := exists_trimEnd cs
    rw [hcs, List.nil_append] at happ
    subst happ
    rw [trimEnd_append hbs, trimEnd_word hw, hcs, List.append_nil]
  · exact trimEnd_append_of_trimEnd_ne_nil hcs w

/-- The two ends of a text are trimmed in any order. -/
theorem trimStart_trimEnd (cs : List Char) : trimStart (trimEnd cs) = trimEnd (trimStart cs) := by
  obtain ⟨bs, hbs, happ⟩ := exists_trimStart cs
  cases hcs : trimStart cs with
  | nil =>
    rw [hcs, List.append_nil] at happ
    have hnil : trimEnd bs = [] := @trimEnd_append bs [] hbs
    rw [← happ, hnil]
    rfl
  | cons c ds =>
    have hc : isBlank c = false := by
      have hnot := List.head?_dropWhile_not isBlank cs
      rwa [← trimStart, hcs] at hnot
    have hend : trimEnd (c :: ds) = c :: trimEnd ds := trimEnd_word_append (.singleton hc) ds
    have hne : trimEnd (c :: ds) ≠ [] := hend ▸ List.cons_ne_nil c _
    rw [← happ, hcs, trimEnd_append_of_trimEnd_ne_nil hne, trimStart_append hbs, hend]
    exact trimStart_word_append (.singleton hc) _

end Text

namespace Marker

/-! ### Signs at one end -/

/-- The text without the first of some signs that it begins with, if any, and the blanks behind that. -/
def withoutSign (signs : List (List Char)) (cs : List Char) : List Char :=
  match signs.findSome? (·.isPrefixOf? cs) with
  | some rest => Text.trimStart rest
  | none => cs

theorem withoutOpener_eq (cs : List Char) :
    withoutOpener cs = withoutSign (openers.map String.toList) cs := by
  rw [withoutOpener, withoutSign, List.findSome?_map]
  rfl

/-- Closers are openers of the text read backwards. -/
theorem withoutCloser_eq (cs : List Char) :
    withoutCloser cs = (withoutSign (closers.map (·.toList.reverse)) cs.reverse).reverse := by
  have hfind : closers.findSome? (·.toList.isSuffixOf? cs) =
      ((closers.map (·.toList.reverse)).findSome? (·.isPrefixOf? cs.reverse)).map List.reverse := by
    rw [List.map_findSome?, List.findSome?_map]
    rfl
  rw [withoutCloser, withoutSign, hfind]
  cases (closers.map (·.toList.reverse)).findSome? (·.isPrefixOf? cs.reverse) with
  | none => rw [Option.map_none, List.reverse_reverse]
  | some rest =>
    have hback : Text.trimEnd rest.reverse = (Text.trimStart rest).reverse := by
      rw [Text.trimEnd_eq, List.reverse_reverse]
    exact hback

/-- Signs that are told apart: each is a word, none begins another one, and none begins as a word with the
first letter `c` does. -/
structure Apart (signs : List (List Char)) (c : Char) : Prop where
  isWord : ∀ s ∈ signs, IsWord s
  eq_of_prefix : ∀ s ∈ signs, ∀ t ∈ signs, s <+: t → s = t
  head?_ne : ∀ s ∈ signs, s.head? ≠ some c
  not_blank : Text.isBlank c = false

theorem withoutSign_eq_self {signs : List (List Char)} {cs : List Char}
    (h : ∀ s ∈ signs, ¬ s <+: cs) : withoutSign signs cs = cs := by
  have hnone : signs.findSome? (·.isPrefixOf? cs) = none := by
    rw [List.findSome?_eq_none_iff]
    intro s hs
    rw [Option.eq_none_iff_forall_ne_some]
    exact fun rest hrest ↦ h s hs ⟨rest, List.isPrefixOf?_eq_some_iff_append_eq.1 hrest⟩
  rw [withoutSign, hnone]

namespace Apart

variable {signs : List (List Char)} {c : Char} {s t : List Char}

/-- **One sign fits at most**, so the order of the signs does not matter. -/
theorem eq_of_prefix_of_prefix (h : Apart signs c) (hs : s ∈ signs) (ht : t ∈ signs)
    {cs : List Char} (hscs : s <+: cs) (htcs : t <+: cs) : s = t := by
  rcases List.prefix_or_prefix_of_prefix hscs htcs with hp | hp
  · exact h.eq_of_prefix s hs t ht hp
  · exact (h.eq_of_prefix t ht s hs hp).symm

/-- A sign is taken off wherever it stands. -/
theorem withoutSign_append (h : Apart signs c) (hs : s ∈ signs) (cs : List Char) :
    withoutSign signs (s ++ cs) = Text.trimStart cs := by
  have hsome : signs.findSome? (·.isPrefixOf? (s ++ cs)) = some cs := by
    cases hfind : signs.findSome? (·.isPrefixOf? (s ++ cs)) with
    | none =>
      have hfits := List.findSome?_eq_none_iff.1 hfind s hs
      rw [List.isPrefixOf?_eq_some_iff_append_eq.2 rfl] at hfits
      cases hfits
    | some rest =>
      obtain ⟨t, ht, hrest⟩ := List.exists_of_findSome?_eq_some hfind
      have happ : t ++ rest = s ++ cs := List.isPrefixOf?_eq_some_iff_append_eq.1 hrest
      have hts : t = s := h.eq_of_prefix_of_prefix ht hs ⟨rest, happ⟩ (List.prefix_append s cs)
      rw [hts] at happ
      rw [List.append_cancel_left happ]
  rw [withoutSign, hsome]

/-- No sign is taken off a word. -/
theorem withoutSign_cons (h : Apart signs c) (cs : List Char) :
    withoutSign signs (c :: cs) = c :: cs := by
  refine withoutSign_eq_self fun s hs hp ↦ ?_
  obtain ⟨d, w, rfl, -⟩ := (h.isWord s hs).exists_cons
  exact h.head?_ne _ hs (congrArg some (List.cons_prefix_cons.1 hp).1)

/-- What is trimmed behind is trimmed behind the sign, too. -/
theorem withoutSign_trimEnd (h : Apart signs c) (cs : List Char) :
    withoutSign signs (Text.trimEnd cs) = Text.trimEnd (withoutSign signs cs) := by
  by_cases hp : ∃ s ∈ signs, s <+: cs
  · obtain ⟨s, hs, rest, rfl⟩ := hp
    rw [Text.trimEnd_word_append (h.isWord s hs), h.withoutSign_append hs, h.withoutSign_append hs,
      Text.trimStart_trimEnd]
  · have hnot : ∀ s ∈ signs, ¬ s <+: cs := fun s hs hsp ↦ hp ⟨s, hs, hsp⟩
    obtain ⟨bs, -, happ⟩ := Text.exists_trimEnd cs
    have hprefix : Text.trimEnd cs <+: cs := ⟨bs, happ⟩
    rw [withoutSign_eq_self hnot,
      withoutSign_eq_self fun s hs hsp ↦ hnot s hs (hsp.trans hprefix)]

/-- **A word is left exactly if nothing but a sign stands in front of it**, or no sign, and blanks. -/
theorem withoutSign_trimStart_eq_iff (h : Apart signs c) {cs rest : List Char} :
    withoutSign signs (Text.trimStart cs) = c :: rest ↔
      ∃ indent gap : Text.Blanks, ∃ s ∈ [] :: signs, indent.1 ++ (s ++ (gap.1 ++ c :: rest)) = cs := by
  have hword : Text.trimStart (c :: rest) = c :: rest :=
    Text.trimStart_word_append (.singleton h.not_blank) rest
  constructor
  · intro heq
    obtain ⟨indent, hindent, happ⟩ := Text.exists_trimStart cs
    by_cases hp : ∃ s ∈ signs, s <+: Text.trimStart cs
    · obtain ⟨s, hs, rest', hrest⟩ := hp
      obtain ⟨gap, hgap, happ'⟩ := Text.exists_trimStart rest'
      rw [← hrest, h.withoutSign_append hs] at heq
      refine ⟨⟨indent, hindent⟩, ⟨gap, hgap⟩, s, List.mem_cons_of_mem _ hs, ?_⟩
      rw [← heq, happ', hrest, happ]
    · rw [withoutSign_eq_self fun s hs hsp ↦ hp ⟨s, hs, hsp⟩] at heq
      exact ⟨⟨indent, hindent⟩, ⟨[], by simp⟩, [], List.mem_cons_self, by rw [← happ, heq]; rfl⟩
  · rintro ⟨indent, gap, s, hs, rfl⟩
    rw [Text.trimStart_append indent.2]
    rcases List.mem_cons.1 hs with rfl | hs
    · rw [List.nil_append, Text.trimStart_append gap.2, hword, h.withoutSign_cons]
    · rw [Text.trimStart_word_append (h.isWord s hs), h.withoutSign_append hs,
        Text.trimStart_append gap.2, hword]

end Apart

/-! ### The signs of comments -/

theorem apart_openers : Apart (openers.map String.toList) 'E' where
  isWord := by decide
  eq_of_prefix := by decide
  head?_ne := by decide
  not_blank := by decide

theorem apart_closers : Apart (closers.map (·.toList.reverse)) 'E' where
  isWord := by decide
  eq_of_prefix := by decide
  head?_ne := by decide
  not_blank := by decide

theorem withoutOpener_trimStart_eq_iff {cs rest : List Char} :
    withoutOpener (Text.trimStart cs) = 'E' :: rest ↔
      ∃ indent gap : Text.Blanks, ∃ opener ∈ "" :: openers,
        indent.1 ++ (opener.toList ++ (gap.1 ++ 'E' :: rest)) = cs := by
  have hsigns : [] :: openers.map String.toList = ("" :: openers).map String.toList := rfl
  rw [withoutOpener_eq, apart_openers.withoutSign_trimStart_eq_iff, hsigns]
  simp only [List.mem_map, exists_exists_and_eq_and]

theorem withoutCloser_trimEnd_eq_iff {cs front : List Char} :
    withoutCloser (Text.trimEnd cs) = front ++ ['E'] ↔
      ∃ gap trail : Text.Blanks, ∃ closer ∈ "" :: closers,
        front ++ 'E' :: (gap.1 ++ (closer.toList ++ trail.1)) = cs := by
  have hsigns : [] :: closers.map (·.toList.reverse) =
      ("" :: closers).map (·.toList.reverse) := rfl
  rw [withoutCloser_eq, Text.trimEnd_eq, List.reverse_reverse, List.reverse_eq_iff,
    List.reverse_append, List.reverse_singleton, List.singleton_append,
    apart_closers.withoutSign_trimStart_eq_iff, hsigns]
  simp only [List.mem_map, exists_exists_and_eq_and]
  constructor
  · rintro ⟨trail, gap, closer, hcloser, heq⟩
    refine ⟨gap.reverse, trail.reverse, closer, hcloser, ?_⟩
    rw [← List.reverse_inj, ← heq]
    simp [Text.Blanks.reverse]
  · rintro ⟨gap, trail, closer, hcloser, rfl⟩
    refine ⟨trail.reverse, gap.reverse, closer, hcloser, ?_⟩
    simp [Text.Blanks.reverse]

/-! ### Dividers -/

/-- A line between two branches, in parts: the word `ELSE`, a comment sign on each side of it or none, and
blanks around them. The two signs need not belong together. -/
structure Divider where
  indent : Text.Blanks
  opener : String
  before : Text.Blanks
  after : Text.Blanks
  closer : String
  trail : Text.Blanks
  opener_mem : opener ∈ "" :: openers
  closer_mem : closer ∈ "" :: closers

/-- The line that is written. -/
def Divider.text (d : Divider) : List Char :=
  d.indent.1 ++ (d.opener.toList ++ (d.before.1 ++ ("ELSE".toList ++
    (d.after.1 ++ (d.closer.toList ++ d.trail.1)))))

/-- **Exactly the dividers are read as `ELSE` lines.** -/
theorem isElse_iff_divider {line : String} :
    isElse line = true ↔ ∃ d : Divider, d.text = line.toList := by
  -- the line is trimmed at both ends before a sign is taken off, but each end has its stages for itself
  have hstages : isElse line = true ↔
      withoutCloser (Text.trimEnd (withoutOpener (Text.trimStart line.toList))) =
        "ELS".toList ++ ['E'] := by
    rw [isElse, beq_iff_eq, Text.trim, withoutOpener_eq, withoutOpener_eq,
      apart_openers.withoutSign_trimEnd]
    rfl
  rw [hstages, withoutCloser_trimEnd_eq_iff]
  constructor
  · rintro ⟨after, trail, closer, hcloser, hrest⟩
    obtain ⟨indent, before, opener, hopener, htext⟩ := withoutOpener_trimStart_eq_iff.1 hrest.symm
    exact ⟨⟨indent, opener, before, after, closer, trail, hopener, hcloser⟩, htext⟩
  · rintro ⟨d, htext⟩
    refine ⟨d.after, d.trail, d.closer, d.closer_mem, Eq.symm ?_⟩
    exact withoutOpener_trimStart_eq_iff.2 ⟨d.indent, d.before, d.opener, d.opener_mem, htext⟩

-- the signs may belong to two kinds of comment, but what opens a comment does not close one
example : isElse "\t<!--ELSE */ " = true ∧ isElse "// ELSE //" = false := by decide

end Marker

/-- A flag is on exactly if it is set to be so. -/
theorem Flags.isOn_iff {flags : Flags} {flag : String} :
    flags.isOn flag = true ↔ flags.get? flag = some true := by
  rw [isOn]
  cases flags.get? flag with
  | none => simp
  | some on => simp

namespace Branch

/-- A body has no `ELSE` line and stays whole, or it is cut at its first one. -/
theorem split_cases (body : List String) :
    (∀ l ∈ body, Marker.isElse l = false) ∧ split body = (body, []) ∨
      ∃ first l second, body = first ++ l :: second ∧ (∀ k ∈ first, Marker.isElse k = false) ∧
        Marker.isElse l = true ∧ split body = (first, second) := by
  cases hfind : body.find? Marker.isElse with
  | none =>
    have hnone : ∀ l ∈ body, Marker.isElse l = false := fun l hl ↦
      Bool.eq_false_iff.2 (List.find?_eq_none.1 hfind l hl)
    exact .inl ⟨hnone, split_eq_self hnone⟩
  | some l =>
    obtain ⟨hl, first, second, rfl, hbefore⟩ := List.find?_eq_some_iff_append.1 hfind
    have hfirst : ∀ k ∈ first, Marker.isElse k = false := fun k hk ↦ by simpa using hbefore k hk
    exact .inr ⟨first, l, second, rfl, hfirst, hl, split_append hfirst hl⟩

theorem choose_none (body : List String) (flags : Flags) :
    choose body none flags = (split body).1 := by
  rw [choose, Option.all_none, if_pos rfl]

theorem choose_some (body : List String) (flag : String) (flags : Flags) :
    choose body (some flag) flags =
      if flags.get? flag = some true then (split body).1 else (split body).2 := by
  rw [choose, Option.all_some]
  exact if_congr Flags.isOn_iff rfl rfl

/-- **Lines between branches, and the branch that is chosen.** A line parts two branches if and only if it
can be written as a divider. A body is cut at the first such line, which belongs to neither branch, and a
body without one is a first branch. The first branch is chosen without a flag or if the flag is on, and the
second one otherwise. -/
theorem split_at_divider (line : String) (body : List String) (flags : Flags) :
    (Marker.isElse line = true ↔ ∃ d : Marker.Divider, d.text = line.toList) ∧
      ((∀ l ∈ body, Marker.isElse l = false) ∧ split body = (body, []) ∨
        ∃ first l second, body = first ++ l :: second ∧ (∀ k ∈ first, Marker.isElse k = false) ∧
          Marker.isElse l = true ∧ split body = (first, second)) ∧
      choose body none flags = (split body).1 ∧
      ∀ flag, choose body (some flag) flags =
        if flags.get? flag = some true then (split body).1 else (split body).2 :=
  ⟨Marker.isElse_iff_divider, split_cases body, choose_none body flags,
    fun flag ↦ choose_some body flag flags⟩

end Branch

end WorkflowAreas
