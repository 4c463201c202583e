/-!
# Tables

A table gives values to names. Its entries stand in ascending order of the names, so that two tables
with the same content are equal and are written in one way.

`get?_insert` is the law of the table: an insertion decides the value of its own name and of no other.
-/

namespace WorkflowAreas

/-- Values by name, the names ascending and therefore distinct. -/
structure Table (α : Type) where
  /-- The names with their values, in ascending order of the names. -/
  entries : List (String × α)
  ascending : entries.Pairwise (·.1 < ·.1)

namespace Table

variable {α : Type}

/-- Puts a name and its value into an ascending list, in place of what the name had before. -/
def insertEntry (name : String) (value : α) : List (String × α) → List (String × α)
  | [] => [(name, value)]
  | (n, v) :: rest =>
    if name < n then (name, value) :: (n, v) :: rest
    else if n < name then (n, v) :: insertEntry name value rest
    else (name, value) :: rest

theorem mem_insertEntry {name : String} {value : α} {es : List (String × α)} {e : String × α}
    (h : e ∈ insertEntry name value es) : e = (name, value) ∨ e ∈ es := by
  induction es with
  | nil => simpa [insertEntry] using h
  | cons d rest ih => grind [insertEntry]

theorem pairwise_insertEntry {name : String} {value : α} {es : List (String × α)}
    (h : es.Pairwise (·.1 < ·.1)) : (insertEntry name value es).Pairwise (·.1 < ·.1) := by
  induction es with
  | nil => simp [insertEntry]
  | cons d rest ih =>
    obtain ⟨n, v⟩ := d
    rw [List.pairwise_cons] at h
    unfold insertEntry
    split
    · rename_i lt
      refine List.pairwise_cons.2 ⟨fun e he ↦ ?_, List.pairwise_cons.2 h⟩
      rcases List.mem_cons.1 he with rfl | he
      · exact lt
      · exact String.lt_trans lt (h.1 e he)
    · split
      · rename_i lt
        refine List.pairwise_cons.2 ⟨fun e he ↦ ?_, ih h.2⟩
        rcases mem_insertEntry he with rfl | he
        · exact lt
        · exact h.1 e he
      · rename_i nlt nlt'
        have same : name = n := String.le_antisymm (String.not_lt.1 nlt') (String.not_lt.1 nlt)
        exact List.pairwise_cons.2 ⟨fun e he ↦ same ▸ h.1 e he, h.2⟩

/-- The table without names. -/
def empty : Table α :=
  ⟨[], List.Pairwise.nil⟩

instance : EmptyCollection (Table α) := ⟨empty⟩
instance : Inhabited (Table α) := ⟨empty⟩

/-- Gives `name` the value `value`, in place of what it had before. -/
def insert (t : Table α) (name : String) (value : α) : Table α :=
  ⟨insertEntry name value t.entries, pairwise_insertEntry t.ascending⟩

/-- The table of a list in which the last value of a name holds. -/
def ofList (es : List (String × α)) : Table α :=
  es.foldl (fun t e ↦ t.insert e.1 e.2) empty

/-- The value of a name, if it has one. -/
def get? (t : Table α) (name : String) : Option α :=
  t.entries.lookup name

/-- The part of the table that has the names for which `p` holds. -/
def filter (p : String → Bool) (t : Table α) : Table α :=
  ⟨t.entries.filter (p ·.1), t.ascending.filter _⟩

/-- A table without names. -/
def isEmpty (t : Table α) : Bool :=
  t.entries.isEmpty

theorem ext {t u : Table α} (h : t.entries = u.entries) : t = u := by
  cases t
  cases u
  congr

instance [DecidableEq α] : DecidableEq (Table α) := fun t u ↦
  decidable_of_iff (t.entries = u.entries) ⟨ext, fun h ↦ h ▸ rfl⟩

theorem lookup_insertEntry {name other : String} {value : α} {es : List (String × α)} :
    (insertEntry name value es).lookup other =
      if other = name then some value else es.lookup other := by
  induction es with
  | nil => grind [insertEntry]
  | cons d rest ih =>
    obtain ⟨n, v⟩ := d
    unfold insertEntry
    split
    · grind
    · split
      · have distinct : n ≠ name := fun h ↦ String.lt_irrefl name (h ▸ ‹n < name›)
        grind
      · have same : name = n :=
          String.le_antisymm (String.not_lt.1 ‹¬n < name›) (String.not_lt.1 ‹¬name < n›)
        grind

/-- An insertion decides the value of its own name and of no other. -/
theorem get?_insert {t : Table α} {name other : String} {value : α} :
    (t.insert name value).get? other = if other = name then some value else t.get? other :=
  lookup_insertEntry

@[simp] theorem get?_empty {name : String} : (empty : Table α).get? name = none := rfl

/-- Every entry is found under its name. -/
theorem mem_entries_iff {t : Table α} {name : String} {value : α} :
    (name, value) ∈ t.entries ↔ t.get? name = some value := by
  rw [get?, List.lookup_eq_some_iff]
  constructor
  · intro h
    obtain ⟨before, rest, heq⟩ := List.append_of_mem h
    refine ⟨before, rest, heq, fun e he ↦ ?_⟩
    have hlt : e.1 < name := by
      have hpairwise := t.ascending
      rw [heq, List.pairwise_append] at hpairwise
      exact hpairwise.2.2 e he _ List.mem_cons_self
    rw [bne_iff_ne]
    exact fun heq ↦ String.lt_irrefl name (heq ▸ hlt)
  · rintro ⟨before, rest, heq, -⟩
    rw [heq]
    exact List.mem_append_right before List.mem_cons_self

theorem get?_filter {p : String → Bool} {t : Table α} {name : String} :
    (t.filter p).get? name = if p name then t.get? name else none := by
  refine Option.ext fun value ↦ ?_
  rw [← mem_entries_iff, filter, List.mem_filter, mem_entries_iff]
  split <;> simp [*]

end Table

end WorkflowAreas
