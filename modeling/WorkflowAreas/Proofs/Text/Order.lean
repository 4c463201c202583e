import Mathlib.Data.List.Lex
import Mathlib.Data.String.Basic
import Mathlib.Order.Monotone.Basic

/-!
# The order of lines

Lines are sorted by comparing them character by character, `<` of `String`. That order is the order of
their code points, and it is also the order of the bytes that they are stored as: in UTF-8 a character
with a larger code point has larger bytes, compared from the first one on.

* `strictMono_flatMap`: writing out an ascending list of symbols, each by a word of its own, keeps the
  order of texts if it keeps the order of symbols whatever follows them;
* `codePoints_lt_codePoints`, `bytes_lt_bytes`: the two cases of it.
-/

namespace WorkflowAreas.Text

/-- The code points of the characters of a line. -/
def codePoints (line : String) : List Nat :=
  line.toList.map Char.toNat

/-- The bytes of a line in UTF-8. -/
def bytes (line : String) : List Nat :=
  line.toUTF8.data.toList.map UInt8.toNat

/-! ### Writing out symbols -/

/-- **An encoding keeps the lexicographic order** if no symbol is written as nothing, and of two symbols
the smaller one is written smaller, whatever comes after it. -/
theorem strictMono_flatMap {α β : Type} [LinearOrder α] [LinearOrder β] {word : α → List β}
    (hne : ∀ a, word a ≠ [])
    (hlt : ∀ a b, a < b → ∀ xs ys, word a ++ xs < word b ++ ys) :
    StrictMono fun l : List α ↦ l.flatMap word := by
  suffices h : ∀ l m : List α, l < m → l.flatMap word < m.flatMap word from fun l m ↦ h l m
  intro l m hlm
  induction l generalizing m with
  | nil =>
    cases m with
    | nil => exact absurd hlm (lt_irrefl _)
    | cons b m =>
      obtain ⟨x, xs, hword⟩ := List.exists_cons_of_ne_nil (hne b)
      rw [List.flatMap_nil, List.flatMap_cons, hword, List.cons_append]
      exact List.nil_lt_cons _ _
  | cons a l ih =>
    cases m with
    | nil => exact absurd hlm (List.not_lt_nil _)
    | cons b m =>
      rw [List.flatMap_cons, List.flatMap_cons]
      rcases List.cons_lt_cons_iff.1 hlm with hab | ⟨rfl, hrest⟩
      · exact hlt a b hab _ _
      · exact List.append_left_lt (ih m hrest)

/-! ### Code points -/

theorem strictMono_map_toNat : StrictMono fun l : List Char ↦ l.map Char.toNat := by
  have h : StrictMono fun l : List Char ↦ l.flatMap fun c ↦ [c.toNat] := by
    refine strictMono_flatMap (fun c ↦ List.cons_ne_nil _ _) fun c d hcd xs ys ↦ ?_
    exact List.cons_lt_cons_iff.2 (Or.inl (Char.lt_def.1 hcd))
  simpa only [List.map_eq_flatMap] using h

theorem codePoints_lt_codePoints {l m : String} : codePoints l < codePoints m ↔ l < m := by
  rw [String.lt_iff_toList_lt]
  exact strictMono_map_toNat.lt_iff_lt

/-! ### UTF-8 -/

/-- The bytes of a character with this code point. -/
def utf8 (v : Nat) : List Nat :=
  if v ≤ 127 then [v]
  else if v ≤ 2047 then [v / 64 + 192, v % 64 + 128]
  else if v ≤ 65535 then [v / 4096 + 224, v / 64 % 64 + 128, v % 64 + 128]
  else [v / 262144 + 240, v / 4096 % 64 + 128, v / 64 % 64 + 128, v % 64 + 128]

theorem toNat_lt (c : Char) : c.toNat < 1114112 := by
  rcases c.valid with h | h
  · exact Nat.lt_of_lt_of_le h (by omega)
  · exact h.2

theorem map_toNat_utf8EncodeChar (c : Char) :
    (String.utf8EncodeChar c).map UInt8.toNat = utf8 c.toNat := by
  have hc := toNat_lt c
  simp only [String.utf8EncodeChar, Char.toNat_val, utf8]
  split_ifs <;>
    simp only [List.map_cons, List.map_nil, UInt8.toNat_ofNat', List.cons.injEq, and_true] <;> omega

theorem utf8_lt {v w : Nat} (hvw : v < w) (hw : w < 1114112) (xs ys : List Nat) :
    utf8 v ++ xs < utf8 w ++ ys := by
  unfold utf8
  split_ifs <;> simp only [List.cons_append, List.cons_lt_cons_iff, List.nil_append] <;> omega

theorem strictMono_flatMap_utf8 : StrictMono fun l : List Char ↦ l.flatMap fun c ↦ utf8 c.toNat := by
  refine strictMono_flatMap (fun c ↦ ?_) fun c d hcd ↦ utf8_lt (Char.lt_def.1 hcd) (toNat_lt d)
  unfold utf8
  split_ifs <;> exact List.cons_ne_nil _ _

theorem bytes_eq (line : String) : bytes line = line.toList.flatMap fun c ↦ utf8 c.toNat := by
  rw [bytes, String.toUTF8_eq_toByteArray, ← String.utf8Encode_toList, List.utf8Encode,
    List.toList_data_toByteArray, List.map_flatMap]
  simp only [map_toNat_utf8EncodeChar]

/-- **Lines are ordered as their bytes are.** -/
theorem bytes_lt_bytes {l m : String} : bytes l < bytes m ↔ l < m := by
  rw [String.lt_iff_toList_lt, bytes_eq, bytes_eq]
  exact strictMono_flatMap_utf8.lt_iff_lt

end WorkflowAreas.Text
