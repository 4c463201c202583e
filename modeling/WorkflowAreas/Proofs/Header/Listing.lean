import Mathlib.Data.List.Basic
import WorkflowAreas.Header

/-!
# Lists of words

The words after `FOR` stand in a list: one or more spaces go between two words, and blanks of any kind may
follow the last one. `Listing` is such a list with all its gaps, so it can be written down again.

`Clause.words?_eq_some_iff` says that reading words and writing listings are two sides of one relation,
and `Listing.text_injective` that a text is the text of one listing at most: the words of a text and the
gaps between them are determined.

`Clause.isSome_words?_append_iff` tells which text may go in front of a listing. It speaks of characters and
not of words, since text in front can run into the first word.
-/

namespace WorkflowAreas

/-- Some text without a blank in it. -/
def IsWord (w : List Char) : Prop :=
  w ≠ [] ∧ ∀ c ∈ w, Text.isBlank c = false

namespace IsWord

variable {w : List Char}

theorem space_not_mem (h : IsWord w) : ' ' ∉ w := fun hm ↦
  absurd (h.2 ' ' hm) (by decide)

theorem exists_cons (h : IsWord w) : ∃ c cs, w = c :: cs ∧ Text.isBlank c = false := by
  obtain ⟨c, cs, rfl⟩ := List.exists_cons_of_ne_nil h.1
  exact ⟨c, cs, rfl, h.2 c List.mem_cons_self⟩

theorem singleton {c : Char} (h : Text.isBlank c = false) : IsWord [c] :=
  ⟨List.cons_ne_nil c [], fun d hd ↦ by rwa [List.mem_singleton.1 hd]⟩

theorem cons {c : Char} (hc : Text.isBlank c = false) (h : IsWord w) : IsWord (c :: w) :=
  ⟨List.cons_ne_nil c w, fun d hd ↦ by
    rcases List.mem_cons.1 hd with rfl | hd
    · exact hc
    · exact h.2 d hd⟩

end IsWord

/-- A word in front of text that begins with a blank, or of none, is what stands before the first blank. -/
theorem takeWhile_word_append {w cs : List Char} (hw : IsWord w)
    (hcs : ∀ c ∈ cs.head?, Text.isBlank c = true) :
    (w ++ cs).takeWhile (!Text.isBlank ·) = w := by
  rw [List.takeWhile_append_of_pos fun c hc ↦ by simp [hw.2 c hc]]
  cases cs with
  | nil => rw [List.takeWhile_nil, List.append_nil]
  | cons c cs => rw [List.takeWhile_cons_of_neg (by simp [hcs c rfl]), List.append_nil]

theorem dropWhile_word_append {w cs : List Char} (hw : IsWord w)
    (hcs : ∀ c ∈ cs.head?, Text.isBlank c = true) :
    (w ++ cs).dropWhile (!Text.isBlank ·) = cs := by
  rw [List.dropWhile_append_of_pos fun c hc ↦ by simp [hw.2 c hc]]
  cases cs with
  | nil => rfl
  | cons c cs => rw [List.dropWhile_cons_of_neg (by simp [hcs c rfl])]

namespace Text

/-- Trimming stops at the last character that is no blank. -/
theorem trimEnd_append_of_trimEnd_ne_nil {cs : List Char} (h : trimEnd cs ≠ []) (ds : List Char) :
    trimEnd (ds ++ cs) = ds ++ trimEnd cs := by
  rw [trimEnd, ne_eq, List.reverse_eq_nil_iff] at h
  rw [trimEnd, List.reverse_append, List.dropWhile_append, if_neg (by simpa using h),
    List.reverse_append, List.reverse_reverse, trimEnd]

theorem trimEnd_word {w : List Char} (hw : IsWord w) : trimEnd w = w := by
  have hr : IsWord w.reverse :=
    ⟨by simpa using hw.1, fun c hc ↦ hw.2 c (List.mem_reverse.1 hc)⟩
  obtain ⟨c, cs, hcs, hc⟩ := hr.exists_cons
  rw [trimEnd, hcs, List.dropWhile_cons_of_neg (by simp [hc]), ← hcs, List.reverse_reverse]

/-- What is left after trimming ends in a character that is no blank. -/
theorem isBlank_getLast?_trimEnd (cs : List Char) :
    ∀ c ∈ (trimEnd cs).getLast?, isBlank c = false := by
  intro c hc
  rw [trimEnd, List.getLast?_reverse] at hc
  have hnot := List.head?_dropWhile_not isBlank cs.reverse
  rw [Option.mem_def.1 hc] at hnot
  simpa using hnot

end Text

/-! ### Reading words -/

namespace Clause

/-- Text that a list of words is made of: it begins with a word and has no blank but the space. -/
def IsListable (cs : List Char) : Prop :=
  (∃ c ∈ cs.head?, Text.isBlank c = false) ∧ ∀ c ∈ cs, Text.isBlank c = false ∨ c = ' '

/-- The words of a listable text. -/
def wordsOf (cs : List Char) : List (List Char) :=
  (cs.splitOn ' ').filter (!·.isEmpty)

theorem words?_eq_some_iff_isListable {cs : List Char} {ws : List (List Char)} :
    words? cs = some ws ↔ IsListable (Text.trimEnd cs) ∧ wordsOf (Text.trimEnd cs) = ws := by
  simp only [words?, IsListable, wordsOf]
  split
  · rename_i h
    simpa [Option.any_eq_true] using fun _ ↦ h
  · rename_i h
    simp only [reduceCtorEq, false_iff]
    rintro ⟨hl, -⟩
    exact h (by simpa [Option.any_eq_true] using hl)

theorem wordsOf_word {w : List Char} (hw : IsWord w) : wordsOf w = [w] := by
  rw [wordsOf, List.splitOn_eq_singleton hw.space_not_mem, List.filter_cons_of_pos (by simpa using hw.1),
    List.filter_nil]

theorem wordsOf_replicate_append (n : Nat) (cs : List Char) :
    wordsOf (List.replicate n ' ' ++ cs) = wordsOf cs := by
  induction n with
  | zero => rfl
  | succ n ih =>
    have hsplit := List.splitOn_append_cons_self_of_not_mem (List.not_mem_nil (a := ' '))
      (List.replicate n ' ' ++ cs)
    rw [List.nil_append] at hsplit
    rw [List.replicate_succ, List.cons_append, wordsOf, hsplit, List.filter_cons_of_neg (by simp),
      ← wordsOf, ih]

theorem wordsOf_word_append {w : List Char} (hw : IsWord w) {n : Nat} (hn : 0 < n) (cs : List Char) :
    wordsOf (w ++ List.replicate n ' ' ++ cs) = w :: wordsOf cs := by
  obtain ⟨m, rfl⟩ := Nat.exists_eq_succ_of_ne_zero (Nat.pos_iff_ne_zero.1 hn)
  rw [List.replicate_succ, List.append_assoc, List.cons_append, wordsOf,
    List.splitOn_append_cons_self_of_not_mem hw.space_not_mem,
    List.filter_cons_of_pos (by simpa using hw.1), ← wordsOf, wordsOf_replicate_append]

/-- One word with blanks behind it is a list. -/
theorem words?_word_append {w trail : List Char} (hw : IsWord w)
    (ht : ∀ c ∈ trail, Text.isBlank c = true) : words? (w ++ trail) = some [w] := by
  obtain ⟨c, cs, rfl, hc⟩ := hw.exists_cons
  rw [words?_eq_some_iff_isListable, Text.trimEnd_append ht, Text.trimEnd_word hw]
  exact ⟨⟨⟨c, rfl, hc⟩, fun d hd ↦ Or.inl (hw.2 d hd)⟩, wordsOf_word hw⟩

/-- A word and spaces go in front of a list. -/
theorem words?_word_append_replicate {w cs : List Char} {ws : List (List Char)} (hw : IsWord w)
    {n : Nat} (hn : 0 < n) (h : words? cs = some ws) :
    words? (w ++ List.replicate n ' ' ++ cs) = some (w :: ws) := by
  rw [words?_eq_some_iff_isListable] at h ⊢
  obtain ⟨⟨⟨d, hd, -⟩, hall⟩, rfl⟩ := h
  obtain ⟨c, w', rfl, hc⟩ := hw.exists_cons
  have hne : Text.trimEnd cs ≠ [] := fun h0 ↦ by rw [h0] at hd; cases hd
  rw [Text.trimEnd_append_of_trimEnd_ne_nil hne]
  refine ⟨⟨⟨c, rfl, hc⟩, fun e he ↦ ?_⟩, wordsOf_word_append hw hn _⟩
  rcases List.mem_append.1 he with he | he
  · rcases List.mem_append.1 he with he | he
    · exact Or.inl (hw.2 e he)
    · exact Or.inr (List.eq_of_mem_replicate he)
  · exact hall e he

/-! ### Text in front of a list -/

theorem isListable_of_isSome_words? {cs : List Char} (h : (words? cs).isSome = true) :
    IsListable (Text.trimEnd cs) := by
  obtain ⟨ws, hws⟩ := Option.isSome_iff_exists.1 h
  exact (words?_eq_some_iff_isListable.1 hws).1

theorem IsListable.ne_nil {cs : List Char} (h : IsListable cs) : cs ≠ [] := by
  obtain ⟨⟨c, hc, -⟩, -⟩ := h
  rintro rfl
  cases hc

/-- Whether a list begins further to the left depends on the characters there alone. -/
theorem isSome_words?_append_iff {cs : List Char} (h : (words? cs).isSome = true)
    {front : List Char} (hne : front ≠ []) :
    (words? (front ++ cs)).isSome = true ↔ IsListable front := by
  have hcs := isListable_of_isSome_words? h
  have htrim := Text.trimEnd_append_of_trimEnd_ne_nil hcs.ne_nil front
  obtain ⟨c, front, rfl⟩ := List.exists_cons_of_ne_nil hne
  constructor
  · intro hs
    have hl := isListable_of_isSome_words? hs
    rw [htrim] at hl
    exact ⟨hl.1, fun d hd ↦ hl.2 d (List.mem_append_left _ hd)⟩
  · intro hf
    have hl : IsListable (Text.trimEnd (c :: front ++ cs)) := by
      rw [htrim]
      exact ⟨hf.1, fun d hd ↦ (List.mem_append.1 hd).elim (hf.2 d) (hcs.2 d)⟩
    exact Option.isSome_iff_exists.2 ⟨_, words?_eq_some_iff_isListable.2 ⟨hl, rfl⟩⟩

end Clause

/-! ### Listings -/

/-- A list of words with the gaps between them. -/
structure Listing where
  first : List Char
  /-- The other words, each with the number of spaces before it. -/
  others : List (Nat × List Char)
  /-- The blanks after the last word. -/
  trail : List Char
  isWord_first : IsWord first
  isWord_others : ∀ p ∈ others, 0 < p.1 ∧ IsWord p.2
  isBlank_trail : ∀ c ∈ trail, Text.isBlank c = true

namespace Listing

/-- The words of a list. -/
def words (l : Listing) : List (List Char) :=
  l.first :: l.others.map Prod.snd

theorem isWord_of_mem_words (l : Listing) : ∀ w ∈ l.words, IsWord w := by
  intro w hw
  rcases List.mem_cons.1 hw with rfl | hw
  · exact l.isWord_first
  · obtain ⟨p, hp, rfl⟩ := List.mem_map.1 hw
    exact (l.isWord_others p hp).2

/-- The list as it is written. -/
def text (l : Listing) : List Char :=
  l.first ++ (l.others.flatMap fun p ↦ List.replicate p.1 ' ' ++ p.2) ++ l.trail

/-- One word, with blanks behind it. -/
def single (w trail : List Char) (hw : IsWord w) (ht : ∀ c ∈ trail, Text.isBlank c = true) :
    Listing :=
  ⟨w, [], trail, hw, by simp, ht⟩

/-- A list with another word in front of it. -/
def push (w : List Char) (n : Nat) (l : Listing) (hw : IsWord w) (hn : 0 < n) : Listing where
  first := w
  others := (n, l.first) :: l.others
  trail := l.trail
  isWord_first := hw
  isWord_others p hp := by
    rcases List.mem_cons.1 hp with rfl | hp
    · exact ⟨hn, l.isWord_first⟩
    · exact l.isWord_others p hp
  isBlank_trail := l.isBlank_trail

/-- The list with a longer first word. -/
def lengthen (c : Char) (l : Listing) (hc : Text.isBlank c = false) : Listing :=
  { l with first := c :: l.first, isWord_first := l.isWord_first.cons hc }

theorem text_push (w : List Char) (n : Nat) (l : Listing) (hw : IsWord w) (hn : 0 < n) :
    (push w n l hw hn).text = w ++ List.replicate n ' ' ++ l.text := by
  simp [text, push]

theorem words_push (w : List Char) (n : Nat) (l : Listing) (hw : IsWord w) (hn : 0 < n) :
    (push w n l hw hn).words = w :: l.words :=
  rfl

/-- Every list is built word by word from the back. -/
theorem induction {motive : Listing → Prop}
    (single : ∀ w trail hw ht, motive (single w trail hw ht))
    (push : ∀ w n l hw hn, motive l → motive (push w n l hw hn)) (l : Listing) : motive l := by
  obtain ⟨first, others, trail, hf, ho, ht⟩ := l
  induction others generalizing first with
  | nil => exact single first trail hf ht
  | cons p others ih =>
    have hp := ho p List.mem_cons_self
    exact push first p.1 ⟨p.2, others, trail, hp.2, fun q hq ↦ ho q (List.mem_cons_of_mem p hq), ht⟩
      hf hp.1 (ih p.2 _ _)

/-- **What is written is read.** -/
theorem words?_text (l : Listing) : Clause.words? l.text = some l.words := by
  induction l using Listing.induction with
  | single w trail hw ht => simpa [text, single, words] using Clause.words?_word_append hw ht
  | push w n l hw hn ih => rw [text_push, words_push, Clause.words?_word_append_replicate hw hn ih]

theorem exists_text_eq_cons (l : Listing) :
    ∃ c cs, l.text = c :: cs ∧ Text.isBlank c = false := by
  obtain ⟨c, cs, hcs, hc⟩ := l.isWord_first.exists_cons
  exact ⟨c, _, by rw [text, hcs, List.cons_append, List.cons_append], hc⟩

/-- Spaces, and text without other blanks that does not end in one: that is a list behind spaces. -/
theorem exists_replicate_append_text {cs trail : List Char} (hne : cs ≠ [])
    (hcs : ∀ c ∈ cs, Text.isBlank c = false ∨ c = ' ')
    (hlast : ∀ c ∈ cs.getLast?, Text.isBlank c = false)
    (ht : ∀ c ∈ trail, Text.isBlank c = true) :
    ∃ (n : Nat) (l : Listing), List.replicate n ' ' ++ l.text = cs ++ trail := by
  induction cs with
  | nil => exact absurd rfl hne
  | cons c cs ih =>
    by_cases hnil : cs = []
    · subst hnil
      have hc : Text.isBlank c = false := hlast c rfl
      exact ⟨0, single [c] trail (.singleton hc) ht, by simp [text, single]⟩
    · have hlast' : ∀ d ∈ cs.getLast?, Text.isBlank d = false := fun d hd ↦
        hlast d (by rw [List.getLast?_cons_of_ne_nil hnil]; exact hd)
      obtain ⟨n, l, hl⟩ := ih hnil (fun d hd ↦ hcs d (List.mem_cons_of_mem c hd)) hlast'
      rcases hcs c List.mem_cons_self with hc | rfl
      · -- a character right before a word makes it longer, one before spaces is a word of its own
        rcases Nat.eq_zero_or_pos n with rfl | hn
        · exact ⟨0, l.lengthen c hc, by simpa [text, lengthen] using hl⟩
        · exact ⟨0, push [c] n l (.singleton hc) hn, by simpa [text_push] using hl⟩
      · exact ⟨n + 1, l, by rw [List.replicate_succ, List.cons_append, hl, List.cons_append]⟩

end Listing

/-- **Exactly the listings are read**, with the words that they have. -/
theorem Clause.words?_eq_some_iff {cs : List Char} {ws : List (List Char)} :
    words? cs = some ws ↔ ∃ l : Listing, l.text = cs ∧ l.words = ws := by
  constructor
  · intro h
    obtain ⟨hl, -⟩ := words?_eq_some_iff_isListable.1 h
    obtain ⟨trail, ht, htrim⟩ := Text.exists_trimEnd cs
    obtain ⟨n, l, htext⟩ := Listing.exists_replicate_append_text hl.ne_nil hl.2
      (Text.isBlank_getLast?_trimEnd cs) ht
    -- the text begins with a word, so no space stands before the list
    have hn : n = 0 := by
      obtain ⟨c, hc, hblank⟩ := hl.1
      rcases Nat.eq_zero_or_pos n with hn | hn
      · exact hn
      · obtain ⟨m, rfl⟩ := Nat.exists_eq_succ_of_ne_zero (Nat.pos_iff_ne_zero.1 hn)
        have hhead := congrArg List.head? htext
        rw [List.head?_append, List.head?_append, Option.mem_def.1 hc] at hhead
        obtain rfl : ' ' = c := by simpa [List.replicate_succ] using hhead
        exact absurd hblank (by decide)
    subst hn
    have hcs : l.text = cs := by rw [← htrim, ← htext]; rfl
    refine ⟨l, hcs, ?_⟩
    rw [← hcs, l.words?_text] at h
    exact Option.some.inj h
  · rintro ⟨l, rfl, rfl⟩
    exact l.words?_text

namespace Listing

theorem dropWhile_replicate_append_text (n : Nat) (l : Listing) :
    (List.replicate n ' ' ++ l.text).dropWhile (· == ' ') = l.text := by
  obtain ⟨c, cs, hcs, hc⟩ := l.exists_text_eq_cons
  have hne : c ≠ ' ' := by
    rintro rfl
    exact absurd hc (by decide)
  rw [List.dropWhile_append_of_pos fun d hd ↦ by simpa using List.eq_of_mem_replicate hd, hcs,
    List.dropWhile_cons_of_neg (by simpa using hne)]

theorem words_eq_of_text_eq {l m : Listing} (h : l.text = m.text) : l.words = m.words := by
  have hl := l.words?_text
  rw [h, m.words?_text] at hl
  exact (Option.some.inj hl).symm

/-- **A text is the text of one listing at most.** -/
theorem text_injective : Function.Injective text := by
  intro l m h
  induction l using Listing.induction generalizing m with
  | single w trail hw ht =>
    have hwords := words_eq_of_text_eq h
    cases m using Listing.induction with
    | single w' trail' hw' ht' =>
      obtain rfl : w = w' := List.singleton_inj.1 hwords
      obtain rfl : trail = trail' := by simpa [text, single] using h
      rfl
    | push w' n m hw' hn _ => simp [words, single, push] at hwords
  | push w n l hw hn ih =>
    have hwords := words_eq_of_text_eq h
    cases m using Listing.induction with
    | single w' trail' hw' ht' => simp [words, single, push] at hwords
    | push w' k m hw' hk _ =>
      rw [words_push, words_push] at hwords
      obtain rfl : w = w' := (List.cons.inj hwords).1
      -- behind the first word the spaces and the rest of the list are told apart
      have hgap : List.replicate n ' ' ++ l.text = List.replicate k ' ' ++ m.text := by
        simpa [text_push] using h
      have hrest : l.text = m.text := by
        rw [← dropWhile_replicate_append_text n l, hgap, dropWhile_replicate_append_text]
      obtain rfl : n = k := by simpa [hrest] using hgap
      obtain rfl := ih hrest
      rfl

end Listing

end WorkflowAreas
