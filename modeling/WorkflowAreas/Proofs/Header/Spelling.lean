import WorkflowAreas.Proofs.Header.Listing

/-!
# How opening lines are spelled

`Spelling` has the parts of an opening line from which it can be written down again: what leads to it, the
options, the name, and the words after `FOR` with the gaps between them. A line can be spelled in several
ways, since a lead may hold the beginning of another opening line.

* `Clause.exists_of_parse?_eq_some` and `Clause.parse?_opening_append`: at a place a clause is read exactly
  if it is written there;
* `Clause.exists_find?` and `Clause.exists_of_find?_eq_some`: the search stops at the first place where
  one is written, and nowhere else;
* `Spelling.eq_of_length_lead_eq`: the length of the lead decides the rest of a spelling.

So a line opens an area if and only if it can be spelled, and `Header.parse?` tells the parts of the
spelling with the shortest lead (`Header.parse?_grammar`).
-/

namespace WorkflowAreas

namespace Clause

/-! ### Words that have to stand at a place -/

theorem after?_eq_some_iff {word : String} {cs rest : List Char} :
    after? word cs = some rest ↔ cs = word.toList ++ rest := by
  rw [after?, List.isPrefixOf?_eq_some_iff_append_eq, eq_comm]

theorem after?_append (word : String) (rest : List Char) :
    after? word (word.toList ++ rest) = some rest :=
  after?_eq_some_iff.2 rfl

/-- The word of an option, if the option is taken. -/
def optional (word : String) (taken : Bool) : List Char :=
  if taken then word.toList else []

/-- What an option leaves has the word in front again if it was there. -/
theorem optional_append_option (word : String) (cs : List Char) :
    optional word (option word cs).1 ++ (option word cs).2 = cs := by
  rw [option]
  cases h : after? word cs with
  | none => rfl
  | some rest => exact (after?_eq_some_iff.1 h).symm

/-- An option is read as it is written, unless text that goes on with the same letter follows. -/
theorem option_optional_append {word : String} (taken : Bool) {cs : List Char}
    (hcs : cs.head? ≠ word.toList.head?) (hw : word.toList ≠ []) :
    option word (optional word taken ++ cs) = (taken, cs) := by
  cases taken with
  | true => rw [option, optional, if_pos rfl, after?_append]
  | false =>
    rw [option, optional, if_neg Bool.false_ne_true, List.nil_append]
    cases h : after? word cs with
    | none => rfl
    | some rest =>
      obtain ⟨c, w, hcw⟩ := List.exists_cons_of_ne_nil hw
      rw [after?_eq_some_iff.1 h, hcw] at hcs
      exact absurd rfl hcs

/-! ### Clauses at a place -/

/-- A clause up to the words after `FOR`. -/
def opening (once sorted : Bool) (name : List Char) : List Char :=
  "BEGIN ".toList ++ optional "ONCE " once ++ optional "SORTED " sorted ++ "WORKFLOW AREA ".toList ++
    name ++ " FOR ".toList

theorem opening_append (once sorted : Bool) (name rest : List Char) :
    opening once sorted name ++ rest = "BEGIN ".toList ++ (optional "ONCE " once ++
      (optional "SORTED " sorted ++ ("WORKFLOW AREA ".toList ++ (name ++ (" FOR ".toList ++ rest))))) := by
  -- the definition is unfolded as it stands, since an equation for it would spell out its letters
  unfold opening
  simp only [List.append_assoc]

/-- Reads the part of a clause that follows the options. -/
def parseArea? (once sorted : Bool) (cs : List Char) : Option Clause :=
  (after? "WORKFLOW AREA " cs).bind fun rest ↦
    (after? " FOR " (rest.dropWhile (!Text.isBlank ·))).bind fun list ↦
      (words? list).bind fun words ↦
        if (rest.takeWhile (!Text.isBlank ·)).isEmpty then none
        else some ⟨once, sorted, rest.takeWhile (!Text.isBlank ·), words⟩

theorem parse?_eq (cs : List Char) :
    parse? cs = (after? "BEGIN " cs).bind fun rest ↦
      parseArea? (option "ONCE " rest).1 (option "SORTED " (option "ONCE " rest).2).1
        (option "SORTED " (option "ONCE " rest).2).2 :=
  rfl

theorem parseArea?_eq_some_iff {once sorted : Bool} {cs : List Char} {clause : Clause} :
    parseArea? once sorted cs = some clause ↔
      clause.once = once ∧ clause.sorted = sorted ∧ IsWord clause.name ∧
        ∃ list, cs = "WORKFLOW AREA ".toList ++ (clause.name ++ (" FOR ".toList ++ list)) ∧
          words? list = some clause.words := by
  simp only [parseArea?, Option.bind_eq_some_iff, after?_eq_some_iff, Option.ite_none_left_eq_some,
    List.isEmpty_iff, Option.some.injEq]
  constructor
  · rintro ⟨rest, rfl, list, hlist, words, hwords, hne, rfl⟩
    refine ⟨rfl, rfl, ⟨hne, fun c hc ↦ ?_⟩, list, ?_, hwords⟩
    · simpa using List.all_eq_true.1 List.all_takeWhile c hc
    · rw [← hlist, List.takeWhile_append_dropWhile]
  · rintro ⟨rfl, rfl, hn, list, rfl, hwords⟩
    have hblank : ∀ c ∈ (" FOR ".toList ++ list).head?, Text.isBlank c = true := by
      simp [Text.isBlank]
    exact ⟨_, rfl, list, dropWhile_word_append hn hblank, clause.words, hwords, by
      rw [takeWhile_word_append hn hblank]
      exact ⟨hn.1, rfl⟩⟩

/-- What is read at a place is written there. -/
theorem exists_of_parse?_eq_some {cs : List Char} {clause : Clause} (h : parse? cs = some clause) :
    IsWord clause.name ∧ ∃ list, cs = opening clause.once clause.sorted clause.name ++ list ∧
      words? list = some clause.words := by
  rw [parse?_eq, Option.bind_eq_some_iff] at h
  obtain ⟨rest, hrest, h⟩ := h
  obtain ⟨honce, hsorted, hn, list, hlist, hwords⟩ := parseArea?_eq_some_iff.1 h
  have h₁ := optional_append_option "ONCE " rest
  have h₂ := optional_append_option "SORTED " (option "ONCE " rest).2
  rw [← hsorted, hlist] at h₂
  rw [← honce, ← h₂] at h₁
  exact ⟨hn, list, by rw [after?_eq_some_iff.1 hrest, ← h₁, opening_append], hwords⟩

/-- What is written is read: no option is taken for another word. -/
theorem parse?_opening_append {clause : Clause} {list : List Char} (hn : IsWord clause.name)
    (hwords : words? list = some clause.words) :
    parse? (opening clause.once clause.sorted clause.name ++ list) = some clause := by
  have hsorted : option "SORTED " (optional "SORTED " clause.sorted ++
      ("WORKFLOW AREA ".toList ++ (clause.name ++ (" FOR ".toList ++ list)))) =
        (clause.sorted, "WORKFLOW AREA ".toList ++ (clause.name ++ (" FOR ".toList ++ list))) :=
    option_optional_append _ (by simp) (by simp)
  have honce : option "ONCE " (optional "ONCE " clause.once ++ (optional "SORTED " clause.sorted ++
      ("WORKFLOW AREA ".toList ++ (clause.name ++ (" FOR ".toList ++ list))))) =
        (clause.once, optional "SORTED " clause.sorted ++
          ("WORKFLOW AREA ".toList ++ (clause.name ++ (" FOR ".toList ++ list)))) :=
    option_optional_append _ (by cases clause.sorted <;> simp [optional]) (by simp)
  rw [parse?_eq, opening_append, after?_append, Option.bind_some, honce, hsorted]
  exact parseArea?_eq_some_iff.2 ⟨rfl, rfl, hn, list, rfl, hwords⟩

/-! ### The first clause of a line -/

/-- A clause that is found is written there, and what leads to it stays on one line. -/
theorem exists_of_find?_eq_some {cs lead : List Char} {clause : Clause}
    (h : find? cs = some (lead, clause)) :
    '\n' ∉ lead ∧ ∃ rest, cs = lead ++ rest ∧ parse? rest = some clause := by
  induction cs generalizing lead with
  | nil => cases h
  | cons c cs ih =>
    rw [find?] at h
    cases hp : parse? (c :: cs) with
    | some found =>
      simp only [hp] at h
      cases h
      exact ⟨List.not_mem_nil, c :: cs, rfl, hp⟩
    | none =>
      simp only [hp] at h
      split at h
      · cases h
      · rename_i hc
        obtain ⟨⟨lead', clause'⟩, hfind, hsame⟩ := Option.map_eq_some_iff.1 h
        cases hsame
        obtain ⟨hn, rest, hcs, hrest⟩ := ih hfind
        refine ⟨?_, rest, by rw [List.cons_append, ← hcs], hrest⟩
        exact fun hm ↦ (List.mem_cons.1 hm).elim (fun heq ↦ hc heq.symm) hn

/-- Where a clause is written, the search stops there or before. -/
theorem exists_find? {lead rest : List Char} {clause : Clause} (hn : '\n' ∉ lead)
    (hp : parse? rest = some clause) :
    ∃ lead' clause', find? (lead ++ rest) = some (lead', clause') ∧ lead'.length ≤ lead.length := by
  induction lead with
  | nil =>
    cases rest with
    | nil => cases hp
    | cons c cs => exact ⟨[], clause, by rw [List.nil_append, find?, hp], Nat.le_refl 0⟩
  | cons c lead ih =>
    rw [List.cons_append, find?]
    cases hp' : parse? (c :: (lead ++ rest)) with
    | some found => exact ⟨[], found, rfl, Nat.zero_le _⟩
    | none =>
      have hc : c ≠ '\n' := fun heq ↦ hn (heq ▸ List.mem_cons_self)
      obtain ⟨lead', clause', hfind, hle⟩ := ih fun hm ↦ hn (List.mem_cons_of_mem c hm)
      exact ⟨c :: lead', clause', by simp [hc, hfind], Nat.succ_le_succ hle⟩

/-! ### Ids and flag -/

/-- The last word is a flag: `IF` stands before it, and an id before that. -/
def HasFlag (words : List (List Char)) : Prop :=
  3 ≤ words.length ∧ words[words.length - 2]? = some "IF".toList

instance (words : List (List Char)) : Decidable (HasFlag words) :=
  inferInstanceAs (Decidable (_ ∧ _))

/-- The words that are workflow ids. -/
def ids (words : List (List Char)) : List (List Char) :=
  if HasFlag words then words.take (words.length - 2) else words

/-- The word that is a flag, if there is one. -/
def flag? (words : List (List Char)) : Option (List Char) :=
  if HasFlag words then words.getLast? else none

theorem idsAndFlag_eq (words : List (List Char)) : idsAndFlag words = (ids words, flag? words) := by
  obtain ⟨ws, rfl⟩ := List.reverse_surjective words
  rw [idsAndFlag, List.reverse_reverse]
  -- a flag needs three words, so that is how far the words have to be looked at from the end
  rcases ws with _ | ⟨flag, _ | ⟨mark, _ | ⟨id, ws⟩⟩⟩
  · rfl
  · simp [ids, flag?, HasFlag]
  · simp [ids, flag?, HasFlag]
  · have hflag : HasFlag (flag :: mark :: id :: ws).reverse ↔ mark = ['I', 'F'] := by
      simp [HasFlag]
    by_cases hm : mark = ['I', 'F']
    · subst hm
      have hsplit : (flag :: ['I', 'F'] :: id :: ws).reverse =
          (id :: ws).reverse ++ [['I', 'F'], flag] := by simp
      rw [ids, flag?, if_pos (hflag.2 rfl), if_pos (hflag.2 rfl), hsplit,
        List.take_left' (by simp)]
      simp
    · rw [ids, flag?, if_neg (hflag.not.2 hm), if_neg (hflag.not.2 hm)]
      split
      · rename_i heq
        simp_all
      · rfl

/-- The ids and the flag are all the words there are, but for the `IF` between them. -/
theorem ids_append_flag? (words : List (List Char)) :
    ids words ++ (flag? words).toList.flatMap (fun flag ↦ ["IF".toList, flag]) = words := by
  rw [ids, flag?]
  split
  · rename_i h
    obtain ⟨hlen, hmark⟩ := h
    have hlast : words.length - 1 < words.length := by omega
    have hdrop : words.drop (words.length - 2) = ["IF".toList, words[words.length - 1]] := by
      rw [List.drop_eq_getElem_cons (by omega), (List.getElem?_eq_some_iff.1 hmark).2,
        show words.length - 2 + 1 = words.length - 1 by omega, List.drop_eq_getElem_cons hlast,
        show words.length - 1 + 1 = words.length by omega, List.drop_length]
    rw [List.getLast?_eq_getElem?, List.getElem?_eq_getElem hlast, Option.toList_some,
      List.flatMap_singleton, ← hdrop, List.take_append_drop]
  · rw [Option.toList_none, List.flatMap_nil, List.append_nil]

theorem ids_ne_nil {words : List (List Char)} (hne : words ≠ []) : ids words ≠ [] := by
  rw [ids]
  split
  · rename_i h
    have hlen := h.1
    rw [← List.length_pos_iff, List.length_take]
    omega
  · exact hne

end Clause

/-! ### Spellings -/

/-- An opening line in parts. -/
@[ext]
structure Spelling where
  lead : List Char
  once : Bool
  sorted : Bool
  name : List Char
  /-- The words after `FOR`. -/
  list : Listing
  newline_not_mem_lead : '\n' ∉ lead
  isWord_name : IsWord name

namespace Spelling

/-- The line that is spelled. -/
def text (s : Spelling) : List Char :=
  s.lead ++ (Clause.opening s.once s.sorted s.name ++ s.list.text)

/-- The line from its `BEGIN` on, in parts. -/
def clause (s : Spelling) : Clause :=
  ⟨s.once, s.sorted, s.name, s.list.words⟩

/-- No other spelling of the line has a shorter lead. -/
def IsShortest (s : Spelling) : Prop :=
  ∀ t : Spelling, t.text = s.text → s.lead.length ≤ t.lead.length

theorem parse?_clause (s : Spelling) :
    Clause.parse? (Clause.opening s.once s.sorted s.name ++ s.list.text) = some s.clause :=
  @Clause.parse?_opening_append s.clause s.list.text s.isWord_name s.list.words?_text

/-- **The length of the lead decides the rest of a spelling.** -/
theorem eq_of_length_lead_eq {s t : Spelling} (h : s.text = t.text)
    (hlen : s.lead.length = t.lead.length) : s = t := by
  obtain ⟨hlead, hrest⟩ := List.append_inj h hlen
  have hclause : s.clause = t.clause := Option.some.inj (by
    rw [← s.parse?_clause, ← t.parse?_clause, hrest])
  have honce : s.once = t.once := congrArg Clause.once hclause
  have hsorted : s.sorted = t.sorted := congrArg Clause.sorted hclause
  have hname : s.name = t.name := congrArg Clause.name hclause
  rw [honce, hsorted, hname] at hrest
  exact Spelling.ext hlead honce hsorted hname
    (Listing.text_injective (List.append_cancel_left hrest))

/-- What the search finds is a spelling of the line, and the shortest one. -/
theorem exists_of_find?_eq_some {cs lead : List Char} {clause : Clause}
    (h : Clause.find? cs = some (lead, clause)) :
    ∃ s : Spelling, s.text = cs ∧ s.IsShortest ∧ s.lead = lead ∧ s.clause = clause := by
  obtain ⟨hn, rest, hcs, hp⟩ := Clause.exists_of_find?_eq_some h
  obtain ⟨hword, list, rfl, hwords⟩ := Clause.exists_of_parse?_eq_some hp
  obtain ⟨l, rfl, hl⟩ := Clause.words?_eq_some_iff.1 hwords
  refine ⟨⟨lead, clause.once, clause.sorted, clause.name, l, hn, hword⟩, hcs.symm, fun t ht ↦ ?_, rfl,
    by rw [Spelling.clause, hl]⟩
  obtain ⟨lead', clause', hfind, hle⟩ := Clause.exists_find? t.newline_not_mem_lead t.parse?_clause
  have htext : t.lead ++ (Clause.opening t.once t.sorted t.name ++ t.list.text) = cs :=
    ht.trans hcs.symm
  rw [htext, h] at hfind
  cases hfind
  exact hle

/-- **The search finds the shortest spelling.** -/
theorem find?_text {s : Spelling} (hs : s.IsShortest) :
    Clause.find? s.text = some (s.lead, s.clause) := by
  obtain ⟨lead, clause, hfind, hle⟩ :=
    Clause.exists_find? s.newline_not_mem_lead s.parse?_clause
  obtain ⟨t, ht, -, rfl, rfl⟩ := exists_of_find?_eq_some hfind
  have hst := eq_of_length_lead_eq ht (Nat.le_antisymm hle (hs t ht))
  rw [← hst]
  rw [hst] at hfind ⊢
  exact hfind

/-- What the line says. -/
def header (s : Spelling) : Header where
  lead := String.ofList s.lead
  name := String.ofList s.name
  workflows := (Clause.ids s.list.words).map String.ofList
  once := s.once
  sorted := s.sorted
  flag := (Clause.flag? s.list.words).map String.ofList
  beginLine := String.ofList s.text

end Spelling

namespace Header

theorem parse?_eq_some_iff_spelling {line : String} {h : Header} :
    parse? line = some h ↔
      ∃ s : Spelling, s.text = line.toList ∧ s.IsShortest ∧ s.header = h := by
  rw [parse?, Option.map_eq_some_iff]
  constructor
  · rintro ⟨⟨lead, clause⟩, hfind, rfl⟩
    obtain ⟨s, hs, hshort, rfl, rfl⟩ := Spelling.exists_of_find?_eq_some hfind
    refine ⟨s, hs, hshort, ?_⟩
    simp only [Clause.idsAndFlag_eq]
    rw [Spelling.header, hs, String.ofList_toList]
    rfl
  · rintro ⟨s, hs, hshort, rfl⟩
    refine ⟨(s.lead, s.clause), by rw [← hs, Spelling.find?_text hshort], ?_⟩
    simp only [Clause.idsAndFlag_eq]
    rw [Spelling.header, hs, String.ofList_toList]
    rfl

/-- **Opening lines are exactly the lines that can be spelled**, and a header has the parts of the one
spelling with the shortest lead. -/
theorem parse?_grammar (line : String) :
    ((parse? line).isSome = true ↔ ∃ s : Spelling, s.text = line.toList) ∧
      ∀ h, parse? line = some h ↔
        ∃ s : Spelling, s.text = line.toList ∧ s.header = h ∧
          ∀ t : Spelling, t.text = line.toList → t ≠ s → s.lead.length < t.lead.length := by
  refine ⟨⟨fun h ↦ ?_, fun ⟨s, hs⟩ ↦ ?_⟩, fun h ↦ ?_⟩
  · obtain ⟨g, hg⟩ := Option.isSome_iff_exists.1 h
    obtain ⟨s, hs, -⟩ := parse?_eq_some_iff_spelling.1 hg
    exact ⟨s, hs⟩
  · obtain ⟨lead, clause, hfind, -⟩ := Clause.exists_find? s.newline_not_mem_lead s.parse?_clause
    have htext : s.lead ++ (Clause.opening s.once s.sorted s.name ++ s.list.text) = line.toList := hs
    rw [htext] at hfind
    rw [parse?, hfind]
    rfl
  · rw [parse?_eq_some_iff_spelling]
    refine exists_congr fun s ↦ ⟨fun ⟨hs, hshort, hh⟩ ↦ ⟨hs, hh, fun t ht hne ↦ ?_⟩,
      fun ⟨hs, hh, hmin⟩ ↦ ⟨hs, fun t ht ↦ ?_, hh⟩⟩
    · refine Nat.lt_of_le_of_ne (hshort t (ht.trans hs.symm)) fun hlen ↦ hne ?_
      exact (Spelling.eq_of_length_lead_eq (hs.trans ht.symm) hlen).symm
    · by_cases hts : t = s
      · exact Nat.le_of_eq (by rw [hts])
      · exact Nat.le_of_lt (hmin t (ht.trans hs) hts)

-- an opening behind another one is taken for ids
example : (parse? "BEGIN WORKFLOW AREA a FOR BEGIN WORKFLOW AREA b FOR c").map
    (fun h ↦ (h.lead, h.name, h.workflows)) =
      some ("", "a", ["BEGIN", "WORKFLOW", "AREA", "b", "FOR", "c"]) := by
  decide +kernel

end Header

end WorkflowAreas
