import Mathlib.Data.List.Infix
import WorkflowAreas.Substitution

/-!
# The tokens of a substitution and the pattern that finds them

A substitution writes its tokens into the text of a pattern and searches for the pattern. Two things have
to be known of that detour.

* `Alternation.read?_write`: escaped and divided by `|`, literals are **read back as they were**, so no
  character of a token means anything in the pattern;
* `firstAt?_tokens_eq_some_iff`: the first alternative that fits at a place is **the longest token** there,
  because the tokens stand in the order of their lengths (`tokens_ofTable`).

`apply_eq_replaceFrom` puts both together: a line is gone through with the tokens themselves.
-/

namespace WorkflowAreas

/-! ### Reading a pattern of literals -/

namespace Alternation

variable {c : Char} {cs rest : List Char} {literals : List (List Char)}

/-- A character that means nothing in a pattern stands for itself. -/
theorem read?_cons (h : isSpecial c = false) :
    read? (c :: cs) = (read? cs).map (·.modifyHead (c :: ·)) := by
  have hbar : c ≠ '|' := by
    rintro rfl
    exact absurd h (by decide)
  have hslash : c ≠ '\\' := by
    rintro rfl
    exact absurd h (by decide)
  rw [read?.eq_4 c cs hbar fun d ds hc _ ↦ hslash hc, h, if_neg Bool.false_ne_true]

/-- A character after a backslash stands for itself. -/
theorem read?_backslash_cons (h : isSpecial c = true) :
    read? ('\\' :: c :: cs) = (read? cs).map (·.modifyHead (c :: ·)) := by
  rw [read?, if_pos h]

/-- An escaped literal stands for itself, in front of the literal that the text goes on with. -/
theorem read?_escape_append (w : List Char) {first : List Char}
    (h : read? rest = some (first :: literals)) :
    read? (escape w ++ rest) = some ((w ++ first) :: literals) := by
  induction w with
  | nil => exact h
  | cons c w ih =>
    rw [escape, List.flatMap_cons, List.append_assoc]
    cases hc : isSpecial c with
    | true =>
      rw [if_pos rfl, List.cons_append, List.cons_append, List.nil_append, read?_backslash_cons hc]
      exact congrArg (Option.map _) ih
    | false =>
      rw [if_neg Bool.false_ne_true, List.cons_append, List.nil_append, read?_cons hc]
      exact congrArg (Option.map _) ih

/-- **The text of a pattern of literals is read as the literals.** -/
theorem read?_write (h : literals ≠ []) : read? (write literals) = some literals := by
  induction literals with
  | nil => exact absurd rfl h
  | cons w literals ih =>
    cases literals with
    | nil =>
      rw [write, List.map_singleton, List.intercalate_singleton, ← List.append_nil (escape w),
        read?_escape_append w rfl, List.append_nil]
    | cons v literals =>
      have hrest : read? ('|' :: write (v :: literals)) = some ([] :: v :: literals) := by
        rw [read?, ih (List.cons_ne_nil v literals), Option.map_some]
      rw [write, List.map_cons, List.map_cons, List.intercalate_cons_cons, ← List.map_cons,
        List.append_assoc, List.singleton_append]
      exact (read?_escape_append w hrest).trans (by rw [List.append_nil])

end Alternation

namespace Substitution

open Alternation

variable {t : Table String} {w z cs : List Char}

/-! ### Tokens -/

/-- A token is a name of the table that is not empty. -/
def IsToken (t : Table String) (w : List Char) : Prop :=
  w ≠ [] ∧ (t.get? (String.ofList w)).isSome

instance : Decidable (IsToken t w) :=
  inferInstanceAs (Decidable (_ ∧ _))

/-- The value of a token. -/
def valueOf (t : Table String) (w : List Char) : List Char :=
  ((t.get? (String.ofList w)).getD "").toList

/-- A text that begins with a token. -/
def BeginsWithToken (t : Table String) (cs : List Char) : Prop :=
  ∃ w, IsToken t w ∧ w <+: cs

/-- The longest of the tokens that a text begins with. -/
@[mk_iff]
structure LongestAt (t : Table String) (cs w : List Char) : Prop where
  isToken : IsToken t w
  isPrefix : w <+: cs
  longest : ∀ z, IsToken t z → z <+: cs → z.length ≤ w.length

/-- There is one longest token at a place. -/
theorem LongestAt.eq (hw : LongestAt t cs w) (hz : LongestAt t cs z) : w = z := by
  have hle : w.length ≤ z.length := hz.longest w hw.isToken hw.isPrefix
  have hge : z.length ≤ w.length := hw.longest z hz.isToken hz.isPrefix
  exact (List.prefix_of_prefix_length_le hw.isPrefix hz.isPrefix hle).eq_of_length
    (Nat.le_antisymm hle hge)

theorem LongestAt.beginsWithToken (h : LongestAt t cs w) : BeginsWithToken t cs :=
  ⟨w, h.isToken, h.isPrefix⟩

/-- What is found has the value that the table gives to it. -/
theorem value_ofTable (h : IsToken t w) : (ofTable t).value w = valueOf t w := by
  have hne : String.ofList w ≠ "" := by simpa using h.1
  rw [value, ofTable, Table.get?_filter, if_pos (by simpa using hne), valueOf]

/-! ### The order of the tokens -/

/-- Whether a token goes in front of another one: if it is not shorter. -/
def precedes (token other : String) : Bool :=
  other.utf8ByteSize ≤ token.utf8ByteSize

theorem precedes_trans (a b c : String) (hab : precedes a b) (hbc : precedes b c) :
    precedes a c := by
  simp only [precedes, decide_eq_true_eq] at *
  omega

theorem precedes_total (a b : String) : precedes a b || precedes b a := by
  simp only [precedes, Bool.or_eq_true, decide_eq_true_eq]
  omega

/-- A token is put behind those that it does not precede. -/
theorem insertToken_append {token : String} {front rest : List String}
    (hfront : ∀ other ∈ front, !precedes token other)
    (hrest : ∀ other ∈ rest, precedes token other) :
    insertToken token (front ++ rest) = front ++ token :: rest := by
  simp only [precedes, Bool.not_eq_true', decide_eq_true_eq, decide_eq_false_iff_not, Nat.not_le]
    at hfront hrest
  induction front with
  | nil =>
    cases rest with
    | nil => rfl
    | cons other rest =>
      rw [List.nil_append, insertToken,
        if_neg (Nat.not_lt.2 (hrest other List.mem_cons_self)), List.nil_append]
  | cons other front ih =>
    rw [List.forall_mem_cons] at hfront
    rw [List.cons_append, insertToken, if_pos hfront.1, ih hfront.2, List.cons_append]

/-- Tokens that are put in one after the other are **sorted by their lengths**, and those of one length
stay in order. -/
theorem foldr_insertToken (names : List String) :
    names.foldr insertToken [] = names.mergeSort precedes := by
  induction names with
  | nil => exact List.mergeSort_nil.symm
  | cons token names ih =>
    obtain ⟨front, rest, hcons, hsorted, hfront⟩ :=
      List.mergeSort_cons precedes_trans precedes_total token names
    have hpairwise := List.pairwise_mergeSort precedes_trans precedes_total (token :: names)
    rw [hcons, List.pairwise_append, List.pairwise_cons] at hpairwise
    rw [List.foldr_cons, ih, hsorted, hcons]
    exact insertToken_append hfront hpairwise.2.1.1

/-- **The tokens are the names of the table that are not empty, stably sorted by descending length.** -/
theorem tokens_ofTable :
    (ofTable t).tokens = ((t.entries.map (·.1)).filter (· ≠ "")).mergeSort precedes := by
  rw [tokens, foldr_insertToken, List.filter_map]
  rfl

theorem mem_tokens_ofTable : String.ofList w ∈ (ofTable t).tokens ↔ IsToken t w := by
  rw [tokens_ofTable, List.mem_mergeSort, List.mem_filter, List.mem_map, IsToken]
  simp only [Prod.exists, exists_and_right, exists_eq_right, Table.mem_entries_iff,
    Option.isSome_iff_exists]
  rw [and_comm]
  simp

theorem mem_map_toList_tokens_ofTable :
    w ∈ (ofTable t).tokens.map String.toList ↔ IsToken t w := by
  rw [← mem_tokens_ofTable, List.mem_map]
  constructor
  · rintro ⟨name, hname, rfl⟩
    rwa [String.ofList_toList]
  · exact fun h ↦ ⟨_, h, String.toList_ofList⟩

instance {P : List Char → Prop} [DecidablePred P] : Decidable (∀ w, IsToken t w → P w) :=
  decidable_of_iff (∀ w ∈ (ofTable t).tokens.map String.toList, P w) <| by
    simp only [mem_map_toList_tokens_ofTable]

/-! ### The alternative at a place -/

/-- Of two texts that begin another one, the one with fewer characters has fewer bytes. -/
theorem utf8ByteSize_lt_of_prefix (h : w <+: z) (hlt : w.length < z.length) :
    (String.ofList w).utf8ByteSize < (String.ofList z).utf8ByteSize := by
  obtain ⟨d, rfl⟩ := h
  have hd : String.ofList d ≠ "" := by
    rintro hd
    have hnil : d = [] := by simpa using hd
    simp [hnil] at hlt
  rw [String.ofList_append, String.utf8ByteSize_append]
  have hpos : (String.ofList d).utf8ByteSize ≠ 0 := by
    rwa [ne_eq, String.utf8ByteSize_eq_zero_iff]
  omega

/-- No alternative fits where no token begins. -/
theorem firstAt?_tokens_eq_none_iff :
    firstAt? ((ofTable t).tokens.map String.toList) cs = none ↔ ¬BeginsWithToken t cs := by
  simp only [firstAt?, List.find?_eq_none, mem_map_toList_tokens_ofTable, BeginsWithToken,
    List.isPrefixOf_iff_prefix, not_exists, not_and]

/-- **The first alternative that fits at a place is the longest token there.** -/
theorem firstAt?_tokens_eq_some_iff :
    firstAt? ((ofTable t).tokens.map String.toList) cs = some w ↔ LongestAt t cs w := by
  -- an alternative that is taken is the longest token, of which there is one
  have hfound : ∀ {w}, firstAt? ((ofTable t).tokens.map String.toList) cs = some w →
      LongestAt t cs w := by
    intro w h
    obtain ⟨hw, front, rest, hsplit, hfront⟩ := List.find?_eq_some_iff_append.1 h
    have hbegin : w <+: cs := List.isPrefixOf_iff_prefix.1 hw
    refine ⟨mem_map_toList_tokens_ofTable.1 (hsplit ▸ List.mem_append_right _ List.mem_cons_self),
      hbegin, fun z hz hzcs ↦ Nat.not_lt.1 fun hlt ↦ ?_⟩
    have hsorted : ((ofTable t).tokens.map String.toList).Pairwise fun v z ↦
        precedes (String.ofList v) (String.ofList z) := by
      rw [tokens_ofTable, List.pairwise_map]
      simpa only [String.ofList_toList] using
        List.pairwise_mergeSort precedes_trans precedes_total _
    have hmem := mem_map_toList_tokens_ofTable.2 hz
    rw [hsplit, List.mem_append, List.mem_cons] at hmem
    rcases hmem with hmem | rfl | hmem
    · have hno := hfront z hmem
      rw [List.isPrefixOf_iff_prefix.2 hzcs] at hno
      exact absurd hno Bool.false_ne_true
    · exact Nat.lt_irrefl _ hlt
    · rw [hsplit, List.pairwise_append, List.pairwise_cons] at hsorted
      have hle := of_decide_eq_true (hsorted.2.1.1 z hmem)
      have hlonger := utf8ByteSize_lt_of_prefix
        (List.prefix_of_prefix_length_le hbegin hzcs hlt.le) hlt
      omega
  refine ⟨hfound, fun hw ↦ ?_⟩
  cases hr : firstAt? ((ofTable t).tokens.map String.toList) cs with
  | none => exact absurd hw.beginsWithToken (firstAt?_tokens_eq_none_iff.1 hr)
  | some z => rw [hw.eq (hfound hr)]

theorem exists_longestAt (h : BeginsWithToken t cs) : ∃ w, LongestAt t cs w := by
  cases hr : firstAt? ((ofTable t).tokens.map String.toList) cs with
  | none => exact absurd h (firstAt?_tokens_eq_none_iff.1 hr)
  | some w => exact ⟨w, firstAt?_tokens_eq_some_iff.1 hr⟩

instance : Decidable (BeginsWithToken t cs) :=
  decidable_of_iff (firstAt? ((ofTable t).tokens.map String.toList) cs ≠ none)
    (by rw [ne_eq, firstAt?_tokens_eq_none_iff, not_not])

instance : Decidable (LongestAt t cs w) :=
  decidable_of_iff (firstAt? ((ofTable t).tokens.map String.toList) cs = some w)
    firstAt?_tokens_eq_some_iff

/-! ### The pattern -/

/-- **The pattern of a table means its tokens**, and there is one if there is a token. -/
theorem read?_pattern_ofTable :
    (ofTable t).pattern.bind (read? ·.toList) =
      if (ofTable t).isEmpty then none else some ((ofTable t).tokens.map String.toList) := by
  rw [pattern]
  split
  · rfl
  · rename_i hne
    have htokens : (ofTable t).tokens.map String.toList ≠ [] := by
      rw [ne_eq, List.map_eq_nil_iff, tokens, foldr_insertToken, ← List.length_eq_zero_iff,
        List.length_mergeSort, List.length_map, List.length_eq_zero_iff]
      exact fun h ↦ hne (List.isEmpty_iff.2 h)
    rw [Option.bind_some, String.toList_ofList, read?_write htokens]

/-- What goes through a line without alternatives leaves it as it is. -/
theorem replaceFrom_nil {value : List Char → List Char} (cs : List Char) :
    replaceFrom [] value 0 cs = cs := by
  induction cs with
  | nil => rfl
  | cons c cs ih =>
    rw [replaceFrom, firstAt?, List.find?_nil, ih]

/-- **A substitution goes through a line with its tokens**, each of them standing for itself. -/
theorem apply_eq_replaceFrom (line : String) :
    (ofTable t).apply line = String.ofList
      (replaceFrom ((ofTable t).tokens.map String.toList) (ofTable t).value 0 line.toList) := by
  rw [apply, read?_pattern_ofTable]
  by_cases hempty : (ofTable t).isEmpty
  · have htokens : (ofTable t).tokens = [] := by
      rw [tokens, List.isEmpty_iff.1 hempty, List.map_nil, List.foldr_nil]
    rw [if_pos hempty, htokens, List.map_nil, replaceFrom_nil, String.ofList_toList]
  · rw [if_neg hempty]

end Substitution

end WorkflowAreas
