import Mathlib.Data.List.TakeWhile
import WorkflowAreas.Proofs.Header.Spelling

/-!
# Patterns that are tried in order

A pattern fits a text in some ways or in none, and the ways are tried in a certain order. `Matcher` is a
part of a pattern: it lists **the ways in which it fits** at the beginning of a text, the way that is tried
first in front. A greedy repetition tries more before less, and a lazy one less before more. One part
after another is the monad of such lists, so all ways of the second part are tried before the first one
is tried in another way.

Where a part is greedy and what comes next cannot begin with what it repeats, there is nothing to try:
`many_bind`, `many1_bind` and `optional_literal_bind` say so.
-/

namespace WorkflowAreas

/-- The ways in which a part of a pattern fits at the beginning of a text, in the order in which they are
tried. Each has what is captured and the text behind it. -/
def Matcher (α : Type) : Type :=
  List Char → List (α × List Char)

namespace Matcher

variable {α β : Type}

/-- One part after another: the second part is tried in all its ways before the first one is tried in its
next way. -/
instance : Monad Matcher where
  pure a cs := [(a, cs)]
  bind p f cs := (p cs).flatMap fun way ↦ f way.1 way.2

/-- A word that has to stand there. -/
def literal (word : String) : Matcher Unit := fun cs ↦
  (Clause.after? word cs).toList.map ((), ·)

/-- A part that may be left out, which is tried last. -/
def optional (p : Matcher α) : Matcher (Option α) := fun cs ↦
  (p cs).map (fun way ↦ (some way.1, way.2)) ++ [(none, cs)]

/-- Characters of one kind, as many as possible first. -/
def many (p : Char → Bool) : Matcher (List Char)
  | [] => [([], [])]
  | c :: cs =>
    (if p c then (many p cs).map fun way ↦ (c :: way.1, way.2) else []) ++ [([], c :: cs)]

/-- The same with one character at least. -/
def many1 (p : Char → Bool) : Matcher (List Char)
  | [] => []
  | c :: cs => if p c then (many p cs).map fun way ↦ (c :: way.1, way.2) else []

/-- Characters of one kind, as few as possible first. -/
def few (p : Char → Bool) : Matcher (List Char)
  | [] => [([], [])]
  | c :: cs => ([], c :: cs) :: if p c then (few p cs).map fun way ↦ (c :: way.1, way.2) else []

/-- A part as often as needed, up to `n` times. -/
def fewUpTo (p : Matcher α) : Nat → Matcher (List α)
  | 0 => pure []
  | n + 1 => fun cs ↦ ([], cs) :: (do let a ← p; let as ← fewUpTo p n; pure (a :: as) : Matcher _) cs

/-- A part as few times as possible first. It takes up a character each time, so there are no more times
than characters. -/
def fewTimes (p : Matcher α) : Matcher (List α) := fun cs ↦
  fewUpTo p cs.length cs

/-- The end of the text. -/
def ending : Matcher Unit
  | [] => [((), [])]
  | _ :: _ => []

/-! ### Parts that fit in one way -/

variable {p : Char → Bool} {cs : List Char}

theorem bind_apply (m : Matcher α) (f : α → Matcher β) (cs : List Char) :
    (m >>= f) cs = (m cs).flatMap fun way ↦ f way.1 way.2 :=
  rfl

theorem literal_bind (word : String) (f : Unit → Matcher β) (cs : List Char) :
    (literal word >>= f) cs = (Clause.after? word cs).elim [] fun rest ↦ f () rest := by
  rw [bind_apply, literal]
  cases Clause.after? word cs with
  | none => rfl
  | some rest => exact List.append_nil _

/-- A greedy repetition in front of something that does not begin with what is repeated. -/
theorem flatMap_many {f : List Char × List Char → List β}
    (hf : ∀ w c rest, p c = true → f (w, c :: rest) = []) :
    (many p cs).flatMap f = f (cs.takeWhile p, cs.dropWhile p) := by
  induction cs generalizing f with
  | nil => simp [many]
  | cons c cs ih =>
    rw [many]
    cases hc : p c with
    | true =>
      rw [if_pos rfl, List.flatMap_append, List.flatMap_map, List.flatMap_singleton, hf [] c cs hc,
        List.append_nil, ih fun w d rest hd ↦ hf (c :: w) d rest hd,
        List.takeWhile_cons_of_pos hc, List.dropWhile_cons_of_pos hc]
    | false =>
      rw [if_neg Bool.false_ne_true, List.nil_append, List.flatMap_singleton,
        List.takeWhile_cons_of_neg (by simp [hc]), List.dropWhile_cons_of_neg (by simp [hc])]

theorem many_bind {f : List Char → Matcher β}
    (hf : ∀ w c rest, p c = true → f w (c :: rest) = []) :
    (many p >>= f) cs = f (cs.takeWhile p) (cs.dropWhile p) :=
  flatMap_many (f := fun way ↦ f way.1 way.2) hf

theorem many1_bind {f : List Char → Matcher β}
    (hf : ∀ w c rest, p c = true → f w (c :: rest) = []) :
    (many1 p >>= f) cs =
      if (cs.takeWhile p).isEmpty then [] else f (cs.takeWhile p) (cs.dropWhile p) := by
  cases cs with
  | nil => rfl
  | cons c cs =>
    rw [bind_apply, many1]
    cases hc : p c with
    | true =>
      rw [if_pos rfl, List.flatMap_map, flatMap_many fun w d rest hd ↦ hf (c :: w) d rest hd,
        List.takeWhile_cons_of_pos hc, List.dropWhile_cons_of_pos hc]
      rfl
    | false =>
      rw [if_neg Bool.false_ne_true, List.takeWhile_cons_of_neg (by simp [hc])]
      rfl

/-- Of a lazy repetition a shorter one is tried before a longer one. -/
theorem few_bind_cons {f : List Char → Matcher β} (c : Char) (cs : List Char) :
    (few p >>= f) (c :: cs) =
      f [] (c :: cs) ++ if p c then (few p >>= fun w ↦ f (c :: w)) cs else [] := by
  rw [bind_apply, few, List.flatMap_cons]
  congr 1
  split
  · rw [List.flatMap_map]
    rfl
  · rfl

/-- A part that may be left out is tried before it is left out. -/
theorem optional_bind (m : Matcher α) (f : Option α → Matcher β) :
    (optional m >>= f) cs = (m >>= fun a ↦ f (some a)) cs ++ f none cs := by
  have happend : (optional m >>= f) cs = _ ++ [(none, cs)].flatMap fun way ↦ f way.1 way.2 :=
    List.flatMap_append
  rw [happend, List.flatMap_map, List.flatMap_singleton]
  rfl

/-- A word that may be left out is taken where it stands, if the rest of the pattern needs it so. -/
theorem optional_literal_bind {word : String} {f : Option Unit → Matcher β}
    (hf : ∀ rest, f none (word.toList ++ rest) = []) :
    (optional (literal word) >>= f) cs =
      f (if (Clause.option word cs).1 then some () else none) (Clause.option word cs).2 := by
  rw [optional_bind, literal_bind, Clause.option]
  cases h : Clause.after? word cs with
  | none => rfl
  | some rest =>
    have hnone := hf rest
    rw [← Clause.after?_eq_some_iff.1 h] at hnone
    rw [hnone, List.append_nil]
    rfl

theorem bind_assoc {γ : Type} (m : Matcher α) (f : α → Matcher β) (g : β → Matcher γ) :
    (m >>= f) >>= g = m >>= fun a ↦ f a >>= g :=
  funext fun _ ↦ List.flatMap_assoc

theorem pure_bind (a : α) (f : α → Matcher β) : (pure a : Matcher α) >>= f = f a :=
  funext fun _ ↦ List.append_nil _

/-- A repetition ends here, or the part fits once more. -/
theorem fewUpTo_succ_bind (m : Matcher α) (n : Nat) (f : List α → Matcher β) :
    (fewUpTo m (n + 1) >>= f) cs =
      f [] cs ++ (m >>= fun a ↦ fewUpTo m n >>= fun as ↦ f (a :: as)) cs := by
  have hrest : ((m >>= fun a ↦ fewUpTo m n >>= fun as ↦ pure (a :: as)) >>= f) =
      m >>= fun a ↦ fewUpTo m n >>= fun as ↦ f (a :: as) := by
    simp only [bind_assoc, pure_bind]
  rw [← hrest]
  rfl

/-- Blanks up to the end of the text. -/
theorem blanks_ending_bind (f : Unit → Matcher β) :
    (many Text.isBlank >>= fun _ ↦ ending >>= f) cs =
      if cs.all Text.isBlank then f () [] else [] := by
  rw [many_bind fun _ _ _ _ ↦ rfl]
  cases hrest : cs.dropWhile Text.isBlank with
  | nil =>
    rw [if_pos (List.all_eq_true.2 (List.dropWhile_eq_nil_iff.1 hrest))]
    exact List.append_nil _
  | cons c rest =>
    rw [if_neg fun hall ↦ List.cons_ne_nil c rest <| by
      rw [← hrest, List.dropWhile_eq_nil_iff.2 (List.all_eq_true.1 hall)]]
    rfl

end Matcher

end WorkflowAreas
