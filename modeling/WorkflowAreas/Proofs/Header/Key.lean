import WorkflowAreas.Proofs.Header.Spelling
import WorkflowAreas.Proofs.Text.Lines

/-!
# Keys of headers

A key is an opening line in normal form, put together without any quoting. This module shows what can be
told from it.

The step is `Spelling.IsShortest.withList`: which lead is the shortest does not depend on the words after
`FOR`. Another opening that begins further to the left would have to end before the lead does
(`Spelling.exists_of_lead_lt`), and then it takes in whatever words follow. So a key has the lead of its
header as its own shortest one (`Spelling.exists_key`), and all parts of it are determined but one: a flag
clause looks like two more ids. `Header.key_eq_key_iff` says **exactly when two keys are equal**.
-/

namespace WorkflowAreas

/-! ### Words with spaces behind them -/

/-- Two texts that begin with a word and a space, one of them behind other text: either the words end at
the same place, or the first one ends within that text. -/
theorem append_space_eq_cases {w z v x y : List Char} (hw : ' ' ∉ w) (hz : ' ' ∉ z)
    (h : w ++ ' ' :: x = v ++ (z ++ ' ' :: y)) :
    w = v ++ z ∧ x = y ∨ ∃ v', v = w ++ ' ' :: v' ∧ x = v' ++ (z ++ ' ' :: y) := by
  by_cases hv : ' ' ∈ v
  · obtain ⟨u, v', rfl, hu⟩ := List.eq_append_cons_of_mem hv
    rw [List.append_assoc, List.cons_append] at h
    obtain ⟨rfl, hx⟩ := (Text.append_cons_inj hw hu).1 h
    exact Or.inr ⟨v', rfl, hx⟩
  · rw [← List.append_assoc] at h
    exact Or.inl ((Text.append_cons_inj hw (by simp [hv, hz])).1 h)

namespace Clause

/-- The fixed words of a clause after its first. -/
def fixedWords (once sorted : Bool) : List (List Char) :=
  (if once then ["ONCE".toList] else []) ++ (if sorted then ["SORTED".toList] else []) ++
    ["WORKFLOW".toList, "AREA".toList]

/-- An opening word by word. -/
theorem opening_append_eq (once sorted : Bool) (name rest : List Char) :
    opening once sorted name ++ rest = "BEGIN".toList ++ ' ' ::
      ((fixedWords once sorted).flatMap (· ++ [' ']) ++
        (name ++ ' ' :: ("FOR".toList ++ ' ' :: rest))) := by
  rw [opening_append]
  cases once <;> cases sorted <;> simp [optional, fixedWords]

theorem opening_ne_nil (once sorted : Bool) (name : List Char) : opening once sorted name ≠ [] := by
  rw [← List.append_nil (opening once sorted name), opening_append_eq]
  exact List.append_ne_nil_of_right_ne_nil _ (List.cons_ne_nil _ _)

/-- No fixed word but the first has a space, or looks like the first from some place on. -/
theorem of_mem_fixedWords {once sorted : Bool} :
    ∀ w ∈ fixedWords once sorted, ' ' ∉ w ∧ ¬"BEGIN".toList <:+ w := by
  cases once <;> cases sorted <;> decide

/-- Words that do not look like the first one end where another opening has not begun. -/
theorem exists_of_flatMap_append {ws : List (List Char)} {v x y : List Char}
    (hws : ∀ w ∈ ws, ' ' ∉ w ∧ ¬"BEGIN".toList <:+ w)
    (h : ws.flatMap (· ++ [' ']) ++ x = v ++ ("BEGIN".toList ++ ' ' :: y)) :
    ∃ v', v = ws.flatMap (· ++ [' ']) ++ v' ∧ x = v' ++ ("BEGIN".toList ++ ' ' :: y) := by
  induction ws generalizing v with
  | nil => exact ⟨v, rfl, h⟩
  | cons w ws ih =>
    obtain ⟨hw, hbegin⟩ := hws w List.mem_cons_self
    have h' : w ++ ' ' :: (ws.flatMap (· ++ [' ']) ++ x) = v ++ ("BEGIN".toList ++ ' ' :: y) := by
      simpa using h
    rcases append_space_eq_cases hw (by decide) h' with ⟨rfl, -⟩ | ⟨v₁, rfl, h₁⟩
    · exact absurd (List.suffix_append v _) hbegin
    · obtain ⟨v', rfl, hx⟩ := ih (fun w hm ↦ hws w (List.mem_cons_of_mem _ hm)) h₁
      exact ⟨v', by simp, hx⟩

/-- **Openings do not overlap**: of two openings in a line, the first one ends before the second begins. -/
theorem exists_of_opening_append {once sorted once' sorted' : Bool} {name name' v x y : List Char}
    (hn : IsWord name) (hv : v ≠ [])
    (h : opening once sorted name ++ x = v ++ (opening once' sorted' name' ++ y)) :
    ∃ v', v = opening once sorted name ++ v' ∧ x = v' ++ (opening once' sorted' name' ++ y) := by
  rw [opening_append_eq, opening_append_eq once'] at h
  rcases append_space_eq_cases (by decide) (by decide) h with ⟨hb, -⟩ | ⟨v₁, rfl, h₁⟩
  · exact absurd (List.self_eq_append_left.1 hb) hv
  obtain ⟨v₂, rfl, h₂⟩ := exists_of_flatMap_append of_mem_fixedWords h₁
  rcases append_space_eq_cases hn.space_not_mem (by decide) h₂ with ⟨-, hrest⟩ | ⟨v₃, rfl, h₃⟩
  · -- a name may end in the first word, but what follows the name does not go on as an opening does
    cases once' <;> cases sorted' <;> simp [fixedWords] at hrest
  rcases append_space_eq_cases (by decide) (by decide) h₃ with ⟨hfor, -⟩ | ⟨v₄, rfl, h₄⟩
  · exact absurd ⟨v₃, hfor.symm⟩ (by decide : ¬"BEGIN".toList <:+ "FOR".toList)
  · refine ⟨v₄, ?_, by rw [h₄, opening_append_eq once']⟩
    rw [opening_append_eq]

end Clause

namespace Spelling

/-- The line with another list of words. -/
def withList (s : Spelling) (l : Listing) : Spelling :=
  { s with list := l }

theorem text_withList (s : Spelling) (l : Listing) :
    (s.withList l).text = s.lead ++ (Clause.opening s.once s.sorted s.name ++ l.text) :=
  rfl

/-- A spelling with a shorter lead takes the opening of the other one for words. -/
theorem exists_of_lead_lt {s t : Spelling} (h : t.text = s.text)
    (hlt : t.lead.length < s.lead.length) :
    ∃ v, s.lead = t.lead ++ (Clause.opening t.once t.sorted t.name ++ v) ∧
      t.list.text = v ++ (Clause.opening s.once s.sorted s.name ++ s.list.text) := by
  have hprefix : t.lead <+: s.lead :=
    List.prefix_of_prefix_length_le ⟨_, h⟩ ⟨_, rfl⟩ (Nat.le_of_lt hlt)
  obtain ⟨v₀, hv₀⟩ := hprefix
  have hne : v₀ ≠ [] := by
    rintro rfl
    rw [← hv₀, List.append_nil] at hlt
    exact Nat.lt_irrefl _ hlt
  rw [text, text, ← hv₀, List.append_assoc] at h
  obtain ⟨v, rfl, hlist⟩ :=
    Clause.exists_of_opening_append t.isWord_name hne (List.append_cancel_left h)
  exact ⟨v, hv₀.symm, hlist⟩

/-- **Which lead is the shortest does not depend on the words.** -/
theorem IsShortest.withList {s : Spelling} (hs : s.IsShortest) (l : Listing) :
    (s.withList l).IsShortest := by
  intro t ht
  by_contra hlt
  obtain ⟨v, hlead, hlist⟩ := exists_of_lead_lt ht (Nat.lt_of_not_le hlt)
  -- the list of `t` goes on with the opening and the words; with other words it is a list as well
  have hsome : (Clause.words? (v ++ Clause.opening s.once s.sorted s.name ++ l.text)).isSome = true := by
    have htext : v ++ (Clause.opening s.once s.sorted s.name ++ l.text) = t.list.text := hlist.symm
    rw [List.append_assoc, htext, t.list.words?_text]
    rfl
  have hne : v ++ Clause.opening s.once s.sorted s.name ≠ [] :=
    List.append_ne_nil_of_right_ne_nil v (Clause.opening_ne_nil _ _ _)
  rw [Clause.isSome_words?_append_iff (by rw [l.words?_text]; rfl) hne,
    ← Clause.isSome_words?_append_iff (by rw [s.list.words?_text]; rfl) hne] at hsome
  obtain ⟨ws, hws⟩ := Option.isSome_iff_exists.1 hsome
  obtain ⟨l', hl', -⟩ := Clause.words?_eq_some_iff.1 hws
  have htext : (t.withList l').text = s.text := by
    rw [text_withList, hl', text, show s.lead = _ from hlead]
    simp only [List.append_assoc]
  exact hlt (hs (t.withList l') htext)

end Spelling

/-! ### The text of a key -/

namespace Listing

/-- Words with one space between them are a list. -/
theorem exists_text_eq_intercalate {ws : List (List Char)} (hne : ws ≠ [])
    (hw : ∀ w ∈ ws, IsWord w) :
    ∃ l : Listing, l.words = ws ∧ l.text = [' '].intercalate ws := by
  induction ws with
  | nil => exact absurd rfl hne
  | cons w ws ih =>
    have hword : IsWord w := hw w List.mem_cons_self
    cases ws with
    | nil => exact ⟨single w [] hword (by simp), rfl, by simp [text, single]⟩
    | cons w' ws =>
      obtain ⟨l, hwords, htext⟩ := ih (List.cons_ne_nil w' ws) fun u hu ↦
        hw u (List.mem_cons_of_mem w hu)
      refine ⟨push w 1 l hword Nat.one_pos, by rw [words_push, hwords], ?_⟩
      rw [text_push, htext, List.intercalate_cons_cons]
      rfl

end Listing

namespace Header

/-- The words after `FOR` in the key of a header. -/
def keyWords (h : Header) : List String :=
  h.sortedWorkflows ++ h.flag.toList.flatMap fun flag ↦ ["IF", flag]

theorem perm_sortedWorkflows (h : Header) : h.sortedWorkflows.Perm h.workflows :=
  List.mergeSort_perm h.workflows _

/-- Lists of words joined are the joined lists, with the separator between them. -/
theorem intercalate_append {α : Type} (sep : List α) {xs ys : List (List α)} (hx : xs ≠ [])
    (hy : ys ≠ []) :
    sep.intercalate (xs ++ ys) = sep.intercalate xs ++ (sep ++ sep.intercalate ys) := by
  induction xs with
  | nil => exact absurd rfl hx
  | cons x xs ih =>
    by_cases hnil : xs = []
    · subst hnil
      rw [List.singleton_append, List.intercalate_cons_of_ne_nil hy, List.intercalate_singleton,
        List.append_assoc]
    · rw [List.cons_append, List.intercalate_cons_of_ne_nil (List.append_ne_nil_of_left_ne_nil hnil ys),
        List.intercalate_cons_of_ne_nil hnil, ih hnil]
      simp only [List.append_assoc]

/-- **A key is an opening line** with the lead, the options and the name of its header, its ids in
ascending order, and its flag clause as two more words. -/
theorem toList_key {h : Header} (hne : h.workflows ≠ []) :
    h.key.toList = h.lead.toList ++ (Clause.opening h.once h.sorted h.name.toList ++
      [' '].intercalate (h.keyWords.map String.toList)) := by
  have hids : h.sortedWorkflows.map String.toList ≠ [] := fun h0 ↦
    hne ((List.map_eq_nil_iff.1 h0) ▸ h.perm_sortedWorkflows).nil_eq.symm
  have hwords : [' '].intercalate (h.keyWords.map String.toList) =
      [' '].intercalate (h.sortedWorkflows.map String.toList) ++
        h.flag.toList.flatMap (fun flag ↦ " IF ".toList ++ flag.toList) := by
    rw [keyWords]
    cases h.flag with
    | none => simp
    | some flag =>
      rw [Option.toList_some, List.flatMap_singleton, List.map_append,
        intercalate_append _ hids (by simp)]
      simp [List.intercalate_cons_cons]
  rw [hwords, Clause.opening_append, key]
  simp only [String.toList_append, String.toList_intercalate, List.append_assoc]
  cases h.once <;> cases h.sorted <;> cases h.flag <;> simp [Clause.optional]

end Header

namespace Spelling

theorem perm_keyWords_header (s : Spelling) :
    (s.header.keyWords.map String.toList).Perm s.list.words := by
  have hsorted := (s.header.perm_sortedWorkflows.map String.toList).append_right
    ((Clause.flag? s.list.words).toList.flatMap fun flag ↦ ["IF".toList, flag])
  have hids : s.header.workflows.map String.toList = Clause.ids s.list.words := by
    simp [header, Function.comp_def]
  rw [hids, Clause.ids_append_flag?] at hsorted
  refine List.Perm.trans (List.Perm.of_eq ?_) hsorted
  rw [Header.keyWords, List.map_append, header]
  cases Clause.flag? s.list.words <;> simp

theorem workflows_header_ne_nil (s : Spelling) : s.header.workflows ≠ [] := fun h0 ↦
  Clause.ids_ne_nil (List.cons_ne_nil s.list.first _) (List.map_eq_nil_iff.1 h0)

/-- **A key is spelled** with the parts of its header, and the lead of the header is the shortest one for
it. -/
theorem exists_key {s : Spelling} (hs : s.IsShortest) :
    ∃ t : Spelling, t.IsShortest ∧ t.text = s.header.key.toList ∧ t.lead = s.lead ∧
      t.clause = ⟨s.once, s.sorted, s.name, s.header.keyWords.map String.toList⟩ := by
  have hperm := s.perm_keyWords_header
  have hne : s.header.keyWords.map String.toList ≠ [] := fun h0 ↦
    List.cons_ne_nil _ _ (h0 ▸ hperm).nil_eq.symm
  obtain ⟨l, hl, htext⟩ := Listing.exists_text_eq_intercalate hne fun w hw ↦
    s.list.isWord_of_mem_words w (hperm.mem_iff.1 hw)
  refine ⟨s.withList l, hs.withList l, ?_, rfl, by rw [clause, ← hl]; rfl⟩
  rw [Header.toList_key s.workflows_header_ne_nil, text_withList, htext]
  simp [header]

end Spelling

namespace Header

variable {g h : Header} {l m : String}

/-- Equal keys have the same parts, as far as they are written into them. -/
theorem key_eq_key_iff_keyWords (hg : parse? l = some g) (hh : parse? m = some h) :
    g.key = h.key ↔ g.lead = h.lead ∧ g.name = h.name ∧ g.once = h.once ∧ g.sorted = h.sorted ∧
      g.keyWords = h.keyWords := by
  obtain ⟨s, -, hs, rfl⟩ := parse?_eq_some_iff_spelling.1 hg
  obtain ⟨t, -, ht, rfl⟩ := parse?_eq_some_iff_spelling.1 hh
  constructor
  · intro hkey
    obtain ⟨s', hs', hstext, hslead, hsclause⟩ := Spelling.exists_key hs
    obtain ⟨t', ht', httext, htlead, htclause⟩ := Spelling.exists_key ht
    have htext : s'.text = t'.text := by rw [hstext, hkey, httext]
    -- both leads are the shortest ones of one line
    obtain rfl := Spelling.eq_of_length_lead_eq htext
      (Nat.le_antisymm (hs' t' htext.symm) (ht' s' htext))
    obtain ⟨honce, hsorted, hname, hwords⟩ := Clause.mk.inj (hsclause.symm.trans htclause)
    exact ⟨congrArg String.ofList (hslead.symm.trans htlead), congrArg String.ofList hname, honce,
      hsorted, List.map_injective_iff.2 (fun _ _ ↦ String.toList_inj.1) hwords⟩
  · rintro ⟨hlead, hname, honce, hsorted, hwords⟩
    rw [← String.toList_inj, toList_key s.workflows_header_ne_nil,
      toList_key t.workflows_header_ne_nil, hlead, hname, honce, hsorted, hwords]

/-- The flag clause of `g` stands in place of the last two ids of `h`, which has no flag. -/
def FlagAsIds (g h : Header) : Prop :=
  ∃ flag, g.flag = some flag ∧ h.flag = none ∧
    h.sortedWorkflows = g.sortedWorkflows ++ ["IF", flag]

theorem keyWords_eq_iff : g.keyWords = h.keyWords ↔
    g.flag = h.flag ∧ g.sortedWorkflows = h.sortedWorkflows ∨ FlagAsIds g h ∨ FlagAsIds h g := by
  rw [keyWords, keyWords, FlagAsIds, FlagAsIds]
  cases hg : g.flag with
  | none =>
    cases hh : h.flag with
    | none => simp
    | some flag => simp
  | some flag =>
    cases hh : h.flag with
    | none => simp [eq_comm]
    | some flag' =>
      have hinj : g.sortedWorkflows ++ ["IF", flag] = h.sortedWorkflows ++ ["IF", flag'] ↔
          g.sortedWorkflows = h.sortedWorkflows ∧ ["IF", flag] = ["IF", flag'] :=
        ⟨fun heq ↦ List.append_inj' heq rfl, fun ⟨h₁, h₂⟩ ↦ by rw [h₁, h₂]⟩
      simp [hinj, and_comm]

/-- **When two keys are equal**: the headers say the same, or one has a flag where the other has two more
ids. -/
theorem key_eq_key_iff (hg : parse? l = some g) (hh : parse? m = some h) :
    g.key = h.key ↔ g.lead = h.lead ∧ g.name = h.name ∧ g.once = h.once ∧ g.sorted = h.sorted ∧
      (g.flag = h.flag ∧ g.sortedWorkflows = h.sortedWorkflows ∨ FlagAsIds g h ∨ FlagAsIds h g) := by
  rw [key_eq_key_iff_keyWords hg hh, keyWords_eq_iff]

end Header

end WorkflowAreas
