import WorkflowAreas.Proofs.Substitution.Tokens

/-!
# Where a substitution cuts a line

`Substitution.apply` searches a line for a pattern, once and from left to right. This module says without
pattern and pass where the tokens are that it replaces: a line is cut into gaps and tokens in turns, no
token begins in a gap, and each token that is cut out is the longest one at its place
(`Cutting.IsLeftmostLongest`).

* `Cutting.exists_isLeftmostLongest` and `Cutting.IsLeftmostLongest.eq`: **there is exactly one such cutting**
  of a text;
* `replaceTokens_text`: a substitution puts the values in place of its tokens and keeps the gaps;
* `Cutting.IsLeftmostLongest.append`: the cuttings of two texts make up one of both in a row, if no token
  lies across the boundary (`Straddles`);
* `apply_leftmostLongest`: what follows for `Substitution.apply`.

Nothing in a cutting depends on the values, so what a value brings in is not looked at again.
-/

namespace WorkflowAreas

namespace Substitution

open Alternation

variable {t u : Table String} {w z cs gap rest : List Char}

/-! ### Gaps -/

/-- No token begins in the gap, given the text after it. -/
def NoneBeginsIn (t : Table String) (gap rest : List Char) : Prop :=
  ∀ u v, gap = u ++ v → v ≠ [] → ¬BeginsWithToken t (v ++ rest)

theorem noneBeginsIn_nil : NoneBeginsIn t [] rest := fun _ _ h hv ↦
  absurd (List.append_eq_nil_iff.1 h.symm).2 hv

theorem noneBeginsIn_append {gap' : List Char} :
    NoneBeginsIn t (gap ++ gap') rest ↔
      NoneBeginsIn t gap (gap' ++ rest) ∧ NoneBeginsIn t gap' rest := by
  constructor
  · refine fun h ↦ ⟨fun u v heq hv ↦ ?_, fun u v heq hv ↦ ?_⟩
    · rw [← List.append_assoc]
      exact h u (v ++ gap') (by rw [heq, List.append_assoc]) (List.append_ne_nil_of_left_ne_nil hv _)
    · exact h (gap ++ u) v (by rw [heq, List.append_assoc]) hv
  · rintro ⟨h, h'⟩ u v heq hv
    rcases List.append_eq_append_iff.1 heq with ⟨u', rfl, rfl⟩ | ⟨v', rfl, rfl⟩
    · exact h' u' v rfl hv
    · by_cases hv' : v' = []
      · subst hv'
        exact h' [] gap' rfl hv
      · rw [List.append_assoc]
        exact h u v' rfl hv'

theorem noneBeginsIn_singleton {c : Char} :
    NoneBeginsIn t [c] rest ↔ ¬BeginsWithToken t (c :: rest) := by
  refine ⟨fun h ↦ h [] [c] rfl (List.cons_ne_nil c []), fun h u v heq hv ↦ ?_⟩
  cases u with
  | nil =>
    obtain rfl : [c] = v := heq
    exact h
  | cons d u =>
    exact absurd (List.append_eq_nil_iff.1 (List.cons.inj heq).2.symm).2 hv

theorem noneBeginsIn_cons {c : Char} :
    NoneBeginsIn t (c :: gap) rest ↔
      ¬BeginsWithToken t (c :: (gap ++ rest)) ∧ NoneBeginsIn t gap rest := by
  rw [← List.singleton_append, noneBeginsIn_append, noneBeginsIn_singleton]

instance decidableNoneBeginsIn : (gap rest : List Char) → Decidable (NoneBeginsIn t gap rest)
  | [], _ => isTrue noneBeginsIn_nil
  | _ :: gap, rest =>
    have := decidableNoneBeginsIn gap rest
    decidable_of_iff _ noneBeginsIn_cons.symm

/-- A gap ends where a token begins, or where the text ends. -/
theorem NoneBeginsIn.eq_nil {v : List Char} (h : NoneBeginsIn t (gap ++ v) rest)
    (hend : v ++ rest = [] ∨ BeginsWithToken t (v ++ rest)) : v = [] := by
  by_contra hv
  rcases hend with hend | hend
  · exact hv (List.append_eq_nil_iff.1 hend).1
  · exact h gap v rfl hv hend

/-- **A gap is determined by the text.** -/
theorem NoneBeginsIn.eq {gap' rest' : List Char} (h : NoneBeginsIn t gap rest)
    (h' : NoneBeginsIn t gap' rest') (hend : rest = [] ∨ BeginsWithToken t rest)
    (hend' : rest' = [] ∨ BeginsWithToken t rest') (heq : gap ++ rest = gap' ++ rest') :
    gap = gap' := by
  rcases List.append_eq_append_iff.1 heq with ⟨v, rfl, rfl⟩ | ⟨v, rfl, rfl⟩
  · rw [h'.eq_nil hend, List.append_nil]
  · rw [h.eq_nil hend', List.append_nil]

/-! ### Cuttings -/

/-- A text cut at tokens: gaps and tokens in turns, with a gap at either end. -/
inductive Cutting
  | last (gap : List Char)
  | token (gap token : List Char) (rest : Cutting)

namespace Cutting

/-- The text that has been cut. -/
def text : Cutting → List Char
  | last gap => gap
  | token gap w rest => gap ++ (w ++ rest.text)

/-- The text with the values in place of the tokens. -/
def replaced (t : Table String) : Cutting → List Char
  | last gap => gap
  | token gap w rest => gap ++ (valueOf t w ++ rest.replaced t)

/-- No token begins in a gap, and each token that is cut out is the longest one at its place. -/
def IsLeftmostLongest (t : Table String) : Cutting → Prop
  | last gap => NoneBeginsIn t gap []
  | token gap w rest =>
    NoneBeginsIn t gap (w ++ rest.text) ∧ LongestAt t (w ++ rest.text) w ∧ rest.IsLeftmostLongest t

instance decidableIsLeftmostLongest : (c : Cutting) → Decidable (c.IsLeftmostLongest t)
  | last gap => inferInstanceAs (Decidable (NoneBeginsIn t gap []))
  | token _ _ rest =>
    have := decidableIsLeftmostLongest rest
    inferInstanceAs (Decidable (_ ∧ _ ∧ _))

/-- The cutting with more text in front that no token begins in. -/
def widen (gap : List Char) : Cutting → Cutting
  | last gap' => last (gap ++ gap')
  | token gap' w rest => token (gap ++ gap') w rest

/-- Two cuttings in a row. The gaps at the boundary become one. -/
def append : Cutting → Cutting → Cutting
  | last gap, d => d.widen gap
  | token gap w rest, d => token gap w (rest.append d)

variable {c d : Cutting}

theorem text_widen (gap : List Char) (c : Cutting) : (c.widen gap).text = gap ++ c.text := by
  cases c with
  | last gap' => rfl
  | token gap' w rest => rw [widen, text, text, List.append_assoc]

theorem replaced_widen (gap : List Char) (c : Cutting) :
    (c.widen gap).replaced t = gap ++ c.replaced t := by
  cases c with
  | last gap' => rfl
  | token gap' w rest => rw [widen, replaced, replaced, List.append_assoc]

theorem text_append (c d : Cutting) : (c.append d).text = c.text ++ d.text := by
  induction c with
  | last gap => exact text_widen gap d
  | token gap w rest ih => simp only [append, text, ih, List.append_assoc]

theorem replaced_append (c d : Cutting) :
    (c.append d).replaced t = c.replaced t ++ d.replaced t := by
  induction c with
  | last gap => exact replaced_widen gap d
  | token gap w rest ih => simp only [append, replaced, ih, List.append_assoc]

/-- **Where a text is cut does not depend on the values.** -/
theorem isLeftmostLongest_congr (h : ∀ w, IsToken t w ↔ IsToken u w) (c : Cutting) :
    c.IsLeftmostLongest t ↔ c.IsLeftmostLongest u := by
  have hbegins (cs : List Char) : BeginsWithToken t cs ↔ BeginsWithToken u cs := by
    simp only [BeginsWithToken, h]
  have hgap (gap rest : List Char) : NoneBeginsIn t gap rest ↔ NoneBeginsIn u gap rest := by
    simp only [NoneBeginsIn, hbegins]
  have hlongest (cs w : List Char) : LongestAt t cs w ↔ LongestAt u cs w := by
    simp only [longestAt_iff, h]
  induction c with
  | last gap => exact hgap gap []
  | token gap w rest ih => simp only [IsLeftmostLongest, hgap, hlongest, ih]

namespace IsLeftmostLongest

theorem widen (hc : c.IsLeftmostLongest t) (hgap : NoneBeginsIn t gap c.text) :
    (c.widen gap).IsLeftmostLongest t := by
  cases c with
  | last gap' =>
    refine noneBeginsIn_append.2 ⟨?_, hc⟩
    rw [List.append_nil]
    exact hgap
  | token gap' w rest => exact ⟨noneBeginsIn_append.2 ⟨hgap, hc.1⟩, hc.2⟩

/-- **A text is cut in one way.** -/
theorem eq (hc : c.IsLeftmostLongest t) (hd : d.IsLeftmostLongest t) (h : c.text = d.text) :
    c = d := by
  induction c generalizing d with
  | last gap =>
    cases d with
    | last gap' => exact congrArg last h
    | token gap' z rest' =>
      obtain ⟨hgap', hz, -⟩ := hd
      have hsplit : gap ++ [] = gap' ++ (z ++ rest'.text) := (List.append_nil gap).trans h
      obtain rfl := hc.eq hgap' (Or.inl rfl) (Or.inr hz.beginsWithToken) hsplit
      exact absurd (List.append_eq_nil_iff.1 (List.append_cancel_left hsplit).symm).1 hz.isToken.1
  | token gap w rest ih =>
    obtain ⟨hgap, hw, hrest⟩ := hc
    cases d with
    | last gap' =>
      have hsplit : gap ++ (w ++ rest.text) = gap' ++ [] := h.trans (List.append_nil gap').symm
      obtain rfl := hgap.eq hd (Or.inr hw.beginsWithToken) (Or.inl rfl) hsplit
      exact absurd (List.append_eq_nil_iff.1 (List.append_cancel_left hsplit)).1 hw.isToken.1
    | token gap' z rest' =>
      obtain ⟨hgap', hz, hrest'⟩ := hd
      obtain rfl := hgap.eq hgap' (Or.inr hw.beginsWithToken) (Or.inr hz.beginsWithToken) h
      have htail : w ++ rest.text = z ++ rest'.text := List.append_cancel_left h
      obtain rfl := hw.eq (htail ▸ hz)
      rw [ih hrest hrest' (List.append_cancel_left htail)]

end IsLeftmostLongest

/-- **A text can be cut.** -/
theorem exists_isLeftmostLongest (t : Table String) (cs : List Char) :
    ∃ c : Cutting, c.text = cs ∧ c.IsLeftmostLongest t := by
  -- the text behind a character or a token is shorter
  induction hn : cs.length using Nat.strong_induction_on generalizing cs with
  | _ n ih =>
    cases cs with
    | nil => exact ⟨last [], rfl, noneBeginsIn_nil⟩
    | cons a cs =>
      by_cases hbegins : BeginsWithToken t (a :: cs)
      · obtain ⟨w, hw⟩ := exists_longestAt hbegins
        obtain ⟨rest, hrest⟩ := hw.isPrefix
        have hlength : rest.length < n := by
          rw [← hn, ← hrest, List.length_append]
          exact Nat.lt_add_of_pos_left (List.length_pos_of_ne_nil hw.isToken.1)
        obtain ⟨c, rfl, hc⟩ := ih rest.length hlength rest rfl
        rw [← hrest] at hw
        exact ⟨token [] w c, hrest, noneBeginsIn_nil, hw, hc⟩
      · obtain ⟨c, rfl, hc⟩ := ih cs.length (hn ▸ Nat.lt_succ_self _) cs rfl
        exact ⟨c.widen [a], text_widen [a] c, hc.widen (noneBeginsIn_singleton.2 hbegins)⟩

end Cutting

/-! ### The pass over a line -/

theorem replaceFrom_length_append (alternatives : List (List Char)) (value : List Char → List Char)
    (w rest : List Char) :
    replaceFrom alternatives value w.length (w ++ rest) = replaceFrom alternatives value 0 rest := by
  induction w with
  | nil => rfl
  | cons c w ih => exact ih

/-- What the tokens of a table make of a text. -/
def replaceTokens (t : Table String) (cs : List Char) : List Char :=
  replaceFrom ((ofTable t).tokens.map String.toList) (ofTable t).value 0 cs

@[simp] theorem replaceTokens_nil : replaceTokens t [] = [] :=
  rfl

/-- A gap stays. -/
theorem replaceTokens_gap (h : NoneBeginsIn t gap rest) :
    replaceTokens t (gap ++ rest) = gap ++ replaceTokens t rest := by
  induction gap with
  | nil => rfl
  | cons c gap ih =>
    obtain ⟨hc, hgap⟩ := noneBeginsIn_cons.1 h
    rw [List.cons_append, replaceTokens, replaceFrom, firstAt?_tokens_eq_none_iff.2 hc,
      List.cons_append, ← ih hgap, replaceTokens]

/-- A token gives way to its value, and the pass goes on behind it. -/
theorem replaceTokens_token (h : LongestAt t (w ++ rest) w) :
    replaceTokens t (w ++ rest) = valueOf t w ++ replaceTokens t rest := by
  have hfound := firstAt?_tokens_eq_some_iff.2 h
  rw [← value_ofTable h.isToken]
  cases w with
  | nil => exact absurd rfl h.isToken.1
  | cons c w =>
    rw [List.cons_append] at hfound ⊢
    simp only [replaceTokens, replaceFrom, hfound, List.length_cons, Nat.add_sub_cancel,
      replaceFrom_length_append]

/-- **The pass puts the values in place of the tokens that are cut out.** -/
theorem replaceTokens_text {c : Cutting} (hc : c.IsLeftmostLongest t) :
    replaceTokens t c.text = c.replaced t := by
  induction c with
  | last gap =>
    have h := replaceTokens_gap hc
    rwa [List.append_nil, replaceTokens_nil, List.append_nil] at h
  | token gap w rest ih =>
    obtain ⟨hgap, hw, hrest⟩ := hc
    rw [Cutting.text, replaceTokens_gap hgap, replaceTokens_token hw, ih hrest, Cutting.replaced]

/-! ### Two texts in a row -/

/-- A token lies across the boundary of two texts. -/
def Straddles (t : Table String) (a b : List Char) : Prop :=
  ∃ x y, x ≠ [] ∧ y ≠ [] ∧ x <:+ a ∧ y <+: b ∧ IsToken t (x ++ y)

instance {a b : List Char} : Decidable (Straddles t a b) :=
  decidable_of_iff (∃ x ∈ a.tails, ∃ y ∈ b.inits, x ≠ [] ∧ y ≠ [] ∧ IsToken t (x ++ y)) <| by
    simp only [List.mem_tails, List.mem_inits, Straddles]
    exact ⟨fun ⟨x, hx, y, hy, hxne, hyne, h⟩ ↦ ⟨x, y, hxne, hyne, hx, hy, h⟩,
      fun ⟨x, y, hxne, hyne, hx, hy, h⟩ ↦ ⟨x, hx, y, hy, hxne, hyne, h⟩⟩

section Boundary

variable {a b : List Char} (h : ¬Straddles t a b)

include h

/-- A token that begins before the boundary ends before it. -/
theorem isPrefix_of_not_straddles (hcs : cs <:+ a) (hne : cs ≠ []) (hz : IsToken t z)
    (hbegin : z <+: cs ++ b) : z <+: cs := by
  rcases List.prefix_or_prefix_of_prefix hbegin (List.prefix_append cs b) with hzcs | ⟨y, rfl⟩
  · exact hzcs
  · by_cases hy : y = []
    · rw [hy, List.append_nil]
    · exact absurd ⟨cs, y, hne, hy, hcs, (List.prefix_append_right_inj cs).1 hbegin, hz⟩ h

theorem NoneBeginsIn.append_right (hgap : NoneBeginsIn t gap rest) (hsuffix : gap ++ rest <:+ a) :
    NoneBeginsIn t gap (rest ++ b) := by
  rintro u v rfl hv ⟨z, hz, hbegin⟩
  rw [← List.append_assoc] at hbegin
  have hcs : v ++ rest <:+ a := by
    rw [List.append_assoc] at hsuffix
    exact (List.suffix_append u (v ++ rest)).trans hsuffix
  exact hgap u v rfl hv ⟨z, hz, isPrefix_of_not_straddles h hcs
    (List.append_ne_nil_of_left_ne_nil hv rest) hz hbegin⟩

theorem LongestAt.append_right (hw : LongestAt t cs w) (hsuffix : cs <:+ a) :
    LongestAt t (cs ++ b) w where
  isToken := hw.isToken
  isPrefix := hw.isPrefix.trans (List.prefix_append cs b)
  longest z hz hbegin := by
    have hne : cs ≠ [] := by
      rintro rfl
      exact hw.isToken.1 (List.prefix_nil.1 hw.isPrefix)
    exact hw.longest z hz (isPrefix_of_not_straddles h hsuffix hne hz hbegin)

/-- **The cuttings of two texts in a row** make up one, if no token lies across the boundary. -/
theorem Cutting.IsLeftmostLongest.append {c d : Cutting} (hc : c.IsLeftmostLongest t)
    (hd : d.IsLeftmostLongest t) (hca : c.text <:+ a) (hdb : d.text = b) :
    (c.append d).IsLeftmostLongest t := by
  induction c with
  | last gap =>
    refine hd.widen ?_
    rw [hdb]
    exact NoneBeginsIn.append_right h hc (by rwa [List.append_nil])
  | token gap w rest ih =>
    obtain ⟨hgap, hw, hrest⟩ := hc
    have hwa : w ++ rest.text <:+ a := (List.suffix_append gap _).trans hca
    rw [Cutting.append, Cutting.IsLeftmostLongest, text_append, hdb, ← List.append_assoc]
    exact ⟨hgap.append_right h hca, hw.append_right h hwa,
      ih hrest ((List.suffix_append w _).trans hwa)⟩

end Boundary

/-! ### Lines -/

/-- A line with its one cutting, each token replaced. -/
theorem apply_eq_replaced {line : String} {c : Cutting} (htext : c.text = line.toList)
    (hc : c.IsLeftmostLongest t) : (ofTable t).apply line = String.ofList (c.replaced t) := by
  rw [apply_eq_replaceFrom, ← htext, ← replaceTokens, replaceTokens_text hc]

/-- A line that is a token is replaced as a whole: no longer token fits into it. -/
theorem apply_eq_value {name value : String} (hne : name ≠ "") (hvalue : t.get? name = some value) :
    (ofTable t).apply name = value := by
  have hname : IsToken t name.toList :=
    ⟨by simpa using hne, by rw [String.ofList_toList, hvalue, Option.isSome_some]⟩
  have hlongest : LongestAt t (name.toList ++ []) name.toList :=
    ⟨hname, List.prefix_append _ _, fun z _ hz ↦ by simpa using hz.length_le⟩
  have hc : (Cutting.token [] name.toList (.last [])).IsLeftmostLongest t :=
    ⟨noneBeginsIn_nil, hlongest, noneBeginsIn_nil⟩
  rw [apply_eq_replaced (List.append_nil _) hc]
  simp [Cutting.replaced, valueOf, hvalue]

/-- A line that no token lies in is one gap. -/
theorem apply_eq_self {line : String} (hnone : ∀ w, IsToken t w → ¬w <:+: line.toList) :
    (ofTable t).apply line = line := by
  have hgap : (Cutting.last line.toList).IsLeftmostLongest t := by
    rintro u v heq - ⟨w, hw, hbegin⟩
    rw [List.append_nil] at hbegin
    exact hnone w hw (hbegin.isInfix.trans (heq ▸ (List.suffix_append u v).isInfix))
  rw [apply_eq_replaced rfl hgap, Cutting.replaced, String.ofList_toList]

/-- Two texts in a row are replaced each by itself, if no token lies across the boundary. -/
theorem apply_append_of_not_straddles {a b : String} (h : ¬Straddles t a.toList b.toList) :
    (ofTable t).apply (a ++ b) = (ofTable t).apply a ++ (ofTable t).apply b := by
  obtain ⟨c, hca, hc⟩ := Cutting.exists_isLeftmostLongest t a.toList
  obtain ⟨d, hdb, hd⟩ := Cutting.exists_isLeftmostLongest t b.toList
  have hboth := hc.append h hd (hca ▸ List.suffix_rfl) hdb
  have htext : (c.append d).text = (a ++ b).toList := by
    rw [Cutting.text_append, hca, hdb, String.toList_append]
  rw [apply_eq_replaced hca hc, apply_eq_replaced hdb hd, apply_eq_replaced htext hboth,
    Cutting.replaced_append, String.ofList_append]

/-- **A substitution goes by the one cutting of a line** that takes the longest token wherever one begins.
The tokens, sorted by descending length, are the alternatives of its pattern, each of them standing for
itself, and the first alternative that fits at a place is the longest token there. The line is cut in the
same way whatever the values are. A token is found wherever it is written and nowhere else. Two texts in a
row are handled each by itself, if no token lies across the boundary. -/
theorem apply_leftmostLongest :
    (∀ t : Table String,
      (ofTable t).tokens = ((t.entries.map (·.1)).filter (· ≠ "")).mergeSort precedes ∧
        (ofTable t).pattern.bind (read? ·.toList) =
          (if (ofTable t).isEmpty then none else some ((ofTable t).tokens.map String.toList)) ∧
        ∀ cs w, firstAt? ((ofTable t).tokens.map String.toList) cs = some w ↔ LongestAt t cs w) ∧
    (∀ (t : Table String) (line : String),
      (∃! c : Cutting, c.text = line.toList ∧ c.IsLeftmostLongest t) ∧
        ∀ c : Cutting, c.text = line.toList → c.IsLeftmostLongest t →
          (ofTable t).apply line = String.ofList (c.replaced t)) ∧
    (∀ {t u : Table String}, (∀ w, IsToken t w ↔ IsToken u w) →
      ∀ c : Cutting, c.IsLeftmostLongest t ↔ c.IsLeftmostLongest u) ∧
    (∀ {t : Table String} {name value : String}, name ≠ "" → t.get? name = some value →
      (ofTable t).apply name = value) ∧
    (∀ {t : Table String} {line : String}, (∀ w, IsToken t w → ¬w <:+: line.toList) →
      (ofTable t).apply line = line) ∧
    ∀ {t : Table String} {a b : String}, ¬Straddles t a.toList b.toList →
      (ofTable t).apply (a ++ b) = (ofTable t).apply a ++ (ofTable t).apply b := by
  refine ⟨fun t ↦ ⟨tokens_ofTable, read?_pattern_ofTable, fun cs w ↦ firstAt?_tokens_eq_some_iff⟩,
    fun t line ↦ ⟨?_, fun c ↦ apply_eq_replaced⟩, Cutting.isLeftmostLongest_congr, apply_eq_value,
    apply_eq_self, apply_append_of_not_straddles⟩
  obtain ⟨c, htext, hc⟩ := Cutting.exists_isLeftmostLongest t line.toList
  exact ⟨c, ⟨htext, hc⟩, fun d hd ↦ hd.2.eq hc (hd.1.trans htext.symm)⟩

/-- A token that begins another one, and one with characters that could stand for others. -/
theorem apply_leftmostLongest_sample :
    let t : Table String := .ofList [("@tpl", "@tpl/app"), ("@tpl/app", "web"), ("a.b", "x")]
    let u : Table String := .ofList [("@tpl", ""), ("@tpl/app", ""), ("a.b", "")]
    let c : Cutting := .token "'".toList "@tpl/app".toList (.token "' ".toList "@tpl".toList
      (.last " aXb".toList))
    (ofTable t).pattern = some "@tpl/app|@tpl|a\\.b" ∧
      firstAt? ((ofTable t).tokens.map String.toList) "@tpl/apps".toList = some "@tpl/app".toList ∧
      c.text = "'@tpl/app' @tpl aXb".toList ∧ c.IsLeftmostLongest t ∧
      (ofTable t).apply "'@tpl/app' @tpl aXb" = "'web' @tpl/app aXb" ∧
      (∀ w, IsToken t w ↔ IsToken u w) ∧ c.IsLeftmostLongest u ∧
      (t.get? "a.b" = some "x" ∧ (ofTable t).apply "a.b" = "x") ∧
      ((∀ w, IsToken t w → ¬w <:+: "aXb".toList) ∧ (ofTable t).apply "aXb" = "aXb") ∧
      ¬Straddles t "@tpl".toList "a.b".toList ∧
      (ofTable t).apply ("@tpl" ++ "a.b") = "@tpl/app" ++ "x" := by
  intro t u c
  obtain ⟨hpattern, hcutting, hcongr, htoken, hnone, hboundary⟩ := apply_leftmostLongest
  have hc : c.IsLeftmostLongest t := by decide +kernel
  have hsame : ∀ w, IsToken t w ↔ IsToken u w := fun w ↦
    ⟨(by decide +kernel : ∀ w, IsToken t w → IsToken u w) w,
      (by decide +kernel : ∀ w, IsToken u w → IsToken t w) w⟩
  have hvalue : t.get? "a.b" = some "x" := by decide +kernel
  have hfree : ∀ w, IsToken t w → ¬w <:+: "aXb".toList := by decide +kernel
  have hapart : ¬Straddles t "@tpl".toList "a.b".toList := by decide +kernel
  have hlongest : LongestAt t "@tpl/apps".toList "@tpl/app".toList := by decide +kernel
  refine ⟨by decide +kernel, ((hpattern t).2.2 _ _).2 hlongest, rfl, hc, ?_, hsame,
    (hcongr hsame c).1 hc, ⟨hvalue, htoken (by decide) hvalue⟩, ⟨hfree, hnone hfree⟩, hapart, ?_⟩
  · rw [(hcutting t _).2 c rfl hc]
    decide +kernel
  · rw [hboundary hapart, htoken (by decide) hvalue,
      htoken (by decide) (by decide +kernel : t.get? "@tpl" = some "@tpl/app")]

end Substitution

end WorkflowAreas
