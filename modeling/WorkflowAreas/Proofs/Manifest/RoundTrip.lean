import WorkflowAreas.Failure
import WorkflowAreas.Proofs.Yaml.Showing
import Mathlib.Data.List.Nodup

/-!
# Manifests that are written and read again

A document whose root shows the value of a manifest is read as that manifest (`ofDocument_of_shows`): no
field that is read is missing or repeated, what is left out when it is empty is read as empty, and
texts are taken as they are, whatever else they could stand for. So a manifest that is written as YAML is
read as itself, with whatever library that reads back what it writes, and its defect is reported if it
has one (`ofYaml_toYaml`).

A document that shows a value has no aliases where the value is read, so nothing counts against the limit
of aliases: each reading is `pure`. Lists of nodes are read item by item, and `exists_mapM_eq_pure`
carries what holds of the items to the lists.
-/

namespace WorkflowAreas

open Yaml (Node Value)

/-! ### Lists and tables -/

/-- If all items are read without effect, so is the list, and item by item to the same result. -/
theorem exists_mapM_eq_pure {m : Type → Type} [Monad m] [LawfulMonad m] {α β γ : Type}
    {f : α → m β} {R : α → γ → Prop} {S : β → γ → Prop} {as : List α} {cs : List γ}
    (h : List.Forall₂ R as cs) (hitem : ∀ a c, R a c → ∃ b, f a = pure b ∧ S b c) :
    ∃ bs, as.mapM f = pure bs ∧ List.Forall₂ S bs cs := by
  induction h with
  | nil => exact ⟨[], List.mapM_nil, .nil⟩
  | @cons a c as cs hac _ ih =>
    obtain ⟨b, hb, hbc⟩ := hitem a c hac
    obtain ⟨bs, hbs, hbcs⟩ := ih
    exact ⟨b :: bs, by simp [List.mapM_cons, hb, hbs], .cons hbc hbcs⟩

/-- `exists_mapM_eq_pure` with the results given. -/
theorem mapM_eq_pure {m : Type → Type} [Monad m] [LawfulMonad m] {α β : Type} {f : α → m β}
    {R : α → β → Prop} {as : List α} {bs : List β} (h : List.Forall₂ R as bs)
    (hitem : ∀ a b, R a b → f a = pure b) : as.mapM f = pure bs := by
  obtain ⟨bs', hbs', heq⟩ := exists_mapM_eq_pure (S := Eq) h fun a b hab ↦ ⟨b, hitem a b hab, rfl⟩
  rw [List.forall₂_eq_eq_eq] at heq
  rw [hbs', heq]

namespace Table

variable {α : Type}

/-- An entry behind all others goes to the end. -/
theorem insertEntry_of_forall_lt {name : String} {value : α} {es : List (String × α)}
    (h : ∀ e ∈ es, e.1 < name) : insertEntry name value es = es ++ [(name, value)] := by
  induction es with
  | nil => rfl
  | cons e rest ih =>
    have hlt : e.1 < name := h e List.mem_cons_self
    have hnlt : ¬name < e.1 := String.not_lt.2 (Std.le_of_lt hlt)
    rw [insertEntry, if_neg hnlt, if_pos hlt, ih fun e he ↦ h e (List.mem_cons_of_mem _ he)]
    rfl

theorem entries_foldl_insert {es : List (String × α)} {t : Table α}
    (h : (t.entries ++ es).Pairwise (·.1 < ·.1)) :
    (es.foldl (fun t e ↦ t.insert e.1 e.2) t).entries = t.entries ++ es := by
  induction es generalizing t with
  | nil => simp
  | cons e rest ih =>
    have hlast : (t.insert e.1 e.2).entries = t.entries ++ [e] :=
      insertEntry_of_forall_lt fun d hd ↦ (List.pairwise_append.1 h).2.2 d hd e List.mem_cons_self
    rw [List.foldl_cons, ih (by simpa [hlast] using h), hlast, List.append_assoc, List.singleton_append]

/-- A table is the table of its entries. -/
theorem ofList_entries (t : Table α) : ofList t.entries = t :=
  ext (entries_foldl_insert (t := empty) t.ascending)

end Table

namespace Manifest

variable {d : Yaml.Document} {node : Node}

/-! ### Scalars and collections -/

theorem readText_of_shows {s : String} (h : node.Shows (.text s)) : readText d node = pure s := by
  obtain ⟨style, rfl⟩ := Node.shows_text_iff.1 h
  rfl

theorem readBoolean_of_shows {b : Bool} (h : node.Shows (.boolean b)) :
    readBoolean d node = pure b := by
  rw [Node.shows_boolean_iff.1 h]
  cases b <;> rfl

theorem readItems_of_shows {values : List Value} (h : node.Shows (.sequence values)) :
    ∃ nodes, readItems d node = pure nodes ∧ List.Forall₂ Node.Shows nodes values := by
  obtain ⟨nodes, rfl, hnodes⟩ := Node.shows_sequence_iff.1 h
  exact ⟨nodes, rfl, hnodes⟩

theorem readEntries_of_shows {entries : List (String × Value)} (h : node.Shows (.mapping entries)) :
    ∃ nodes, readEntries d node = pure nodes ∧ List.Forall₂ Node.ShowsEntry nodes entries := by
  obtain ⟨nodes, rfl, hnodes⟩ := Node.shows_mapping_iff.1 h
  exact ⟨nodes, rfl, hnodes⟩

/-- A table whose values are read as they were is read as it was. -/
theorem readTable_of_shows {α : Type} {readValue : Node → Reading α} {value : α → Value}
    {t : Table α} (hvalue : ∀ {node a}, node.Shows (value a) → readValue node = pure a)
    (h : node.Shows (.mapping (t.entries.map fun e ↦ (e.1, value e.2)))) :
    readTable d readValue node = pure t := by
  obtain ⟨nodes, hnodes, hshows⟩ := readEntries_of_shows (d := d) h
  have hpairs : nodes.mapM (fun (n : Node × Node) ↦ do
      return (← readText d n.1, ← readValue n.2)) = pure t.entries := by
    refine mapM_eq_pure (List.forall₂_map_right_iff.1 hshows) fun n e hne ↦ ?_
    simp [readText_of_shows hne.1, hvalue hne.2]
  rw [readTable, hnodes, pure_bind, hpairs, pure_bind, Table.ofList_entries]

/-! ### Records -/

/-- A field has a name and shows a value. -/
def ShowsField (field : String × Node) (entry : String × Value) : Prop :=
  field.1 = entry.1 ∧ field.2.Shows entry.2

theorem map_fst_of_showsField {fields : List (String × Node)} {entries : List (String × Value)}
    (h : List.Forall₂ ShowsField fields entries) : fields.map Prod.fst = entries.map Prod.fst := by
  induction h with
  | nil => rfl
  | cons hfield _ ih => rw [List.map_cons, List.map_cons, hfield.1, ih]

/-- A record whose fields are known and have different names is read field by field. -/
theorem readFields_of_shows (known : List String) {entries : List (String × Value)}
    (h : node.Shows (.mapping entries)) (hknown : ∀ e ∈ entries, e.1 ∈ known)
    (hnodup : (entries.map Prod.fst).Nodup) :
    ∃ fields, readFields d known node = pure fields ∧ List.Forall₂ ShowsField fields entries := by
  obtain ⟨nodes, hnodes, hshows⟩ := readEntries_of_shows (d := d) h
  obtain ⟨fields, hnamed, hfields⟩ := exists_mapM_eq_pure (S := ShowsField)
    (f := fun (n : Node × Node) ↦ do return (← readText d n.1, n.2)) hshows
    fun n e hne ↦ ⟨(e.1, n.2), by simp [readText_of_shows hne.1], rfl, hne.2⟩
  have hnames := map_fst_of_showsField hfields
  have hall : fields.filter (fun f ↦ known.contains f.1) = fields := by
    refine List.filter_eq_self.2 fun f hf ↦ ?_
    obtain ⟨e, he, hname⟩ := List.mem_map.1 (hnames ▸ List.mem_map_of_mem (f := Prod.fst) hf)
    simpa [← hname] using hknown e he
  have hsingle : (known.find? fun name ↦ decide (1 < (fields.filter (·.1 == name)).length)) = none := by
    refine List.find?_eq_none.2 fun name _ ↦ ?_
    have hcount := List.nodup_iff_count_le_one.1 (hnames ▸ hnodup) name
    rw [List.count_eq_countP, List.countP_map, List.countP_eq_length_filter] at hcount
    simpa [Function.comp_def] using hcount
  refine ⟨fields, ?_, hfields⟩
  rw [readFields, hnodes, pure_bind, hnamed, pure_bind]
  simp only [hall, hsingle]

/-- A name has a field where it has a value, and the field shows the value. -/
theorem lookup_of_showsField {fields : List (String × Node)} {entries : List (String × Value)}
    (h : List.Forall₂ ShowsField fields entries) (name : String) :
    Option.Rel Node.Shows (fields.lookup name) (entries.lookup name) := by
  induction h with
  | nil => exact .none
  | @cons field entry _ _ hfield _ ih =>
    rw [List.lookup_cons, List.lookup_cons, hfield.1]
    cases name == entry.1 with
    | true => exact .some hfield.2
    | false => exact ih

section Fields

variable {fields : List (String × Node)} {entries : List (String × Value)} {name : String}
  (h : List.Forall₂ ShowsField fields entries)
include h

theorem exists_lookup_of_showsField {value : Value} (hname : entries.lookup name = some value) :
    ∃ node, fields.lookup name = some node ∧ node.Shows value := by
  have hfound := lookup_of_showsField h name
  rw [hname] at hfound
  generalize fields.lookup name = found at hfound ⊢
  cases hfound with
  | some hshows => exact ⟨_, rfl, hshows⟩

theorem lookup_eq_none_of_showsField (hname : entries.lookup name = none) :
    fields.lookup name = none := by
  have hfound := lookup_of_showsField h name
  rw [hname] at hfound
  generalize fields.lookup name = found at hfound ⊢
  cases hfound with
  | none => rfl

/-- A text that is there is read. -/
theorem readRequired_of_showsField {s : String} (hname : entries.lookup name = some (.text s)) :
    readRequired d fields name = pure s := by
  obtain ⟨node, hnode, hshows⟩ := exists_lookup_of_showsField h hname
  rw [readRequired, hnode]
  exact readText_of_shows hshows

/-- A value that is there is read. -/
theorem readOptional_of_showsField {α : Type} {standard a : α} {readValue : Node → Reading α}
    {value : Value} (hname : entries.lookup name = some value)
    (hvalue : ∀ {node : Node}, node.Shows value → readValue node = pure a) :
    readOptional fields name standard readValue = pure a := by
  obtain ⟨node, hnode, hshows⟩ := exists_lookup_of_showsField h hname
  rw [readOptional, hnode]
  exact hvalue hshows

/-- For a value that is not there stands the standard one. -/
theorem readOptional_of_lookup_eq_none {α : Type} {standard : α} {readValue : Node → Reading α}
    (hname : entries.lookup name = none) :
    readOptional fields name standard readValue = pure standard := by
  rw [readOptional, lookup_eq_none_of_showsField h hname]

end Fields

/-! ### Entries and manifests -/

theorem readEntry_of_shows {e : Entry} (h : node.Shows e.value) : readEntry d node = pure e := by
  obtain ⟨fields, hfields, hshows⟩ := readFields_of_shows (d := d)
    ["template", "target", "workflow", "flags"] h
    (by cases e.flags.isEmpty <;> simp) (by cases e.flags.isEmpty <;> simp)
  -- The flags are not written if there are none, and then read as none.
  have hflags : readOptional fields "flags" .empty (readTable d (readBoolean d)) = pure e.flags := by
    cases hempty : e.flags.isEmpty with
    | true =>
      rw [readOptional_of_lookup_eq_none hshows (by rw [hempty]; rfl)]
      exact congrArg pure (Table.ext (List.isEmpty_iff.1 hempty).symm)
    | false =>
      exact readOptional_of_showsField hshows (by rw [hempty]; rfl)
        (readTable_of_shows readBoolean_of_shows)
  rw [readEntry, hfields, pure_bind, readRequired_of_showsField hshows rfl, pure_bind,
    readRequired_of_showsField hshows rfl, pure_bind, readRequired_of_showsField hshows rfl, pure_bind,
    hflags, pure_bind]

theorem readNode_of_shows {m : Manifest} (h : node.Shows m.value) : readNode d node = pure m := by
  obtain ⟨fields, hfields, hshows⟩ := readFields_of_shows (d := d)
    ["validate_before_merge", "replacements", "entries"] h (by simp) (by simp)
  have hvalidate : readOptional fields "validate_before_merge" true (readBoolean d) =
      pure m.validateBeforeMerge :=
    readOptional_of_showsField hshows rfl readBoolean_of_shows
  have hreplacements : readOptional fields "replacements" .empty (readTable d (readText d)) =
      pure m.replacements :=
    readOptional_of_showsField hshows rfl (readTable_of_shows readText_of_shows)
  have hentries : readOptional fields "entries" [] (fun node ↦ do
      (← readItems d node).mapM (readEntry d)) = pure m.entries := by
    refine readOptional_of_showsField hshows rfl fun hnode ↦ ?_
    obtain ⟨nodes, hitems, hnodes⟩ := readItems_of_shows (d := d) hnode
    rw [hitems, pure_bind]
    exact mapM_eq_pure (List.forall₂_map_right_iff.1 hnodes) fun n e ↦ readEntry_of_shows
  rw [readNode, hfields, pure_bind, hvalidate, pure_bind, hreplacements, pure_bind, hentries, pure_bind]

/-- **A document that shows a manifest is read as that manifest.** -/
theorem ofDocument_of_shows {m : Manifest} (hroot : d.root = some node) (h : node.Shows m.value) :
    ofDocument d = .ok m := by
  rw [ofDocument, hroot]
  dsimp only
  rw [readNode_of_shows h]
  rfl

/-- **A manifest survives being written and read.** If a library reads back what it writes of the value of
a manifest, reading what is written of it gives the manifest, with all its replacements and all its
entries in order, or its defect if it has one. -/
theorem ofYaml_toYaml (yaml : Yaml.Library) (m : Manifest) (h : yaml.ReadsBack m.value) :
    ofYaml yaml (m.toYaml yaml) = m.validated := by
  obtain ⟨d, node, hread, hroot, hshows⟩ := h
  have hm : ofYaml? yaml (m.toYaml yaml) = .ok m := by
    rw [ofYaml?, toYaml, hread]
    exact ofDocument_of_shows hroot hshows
  rw [ofYaml, hm]

/-- Texts with a space in front, a quote, line breaks and a character that is not printable, and texts
and names that read as something else. -/
theorem ofYaml_toYaml_sample :
    let m : Manifest :=
      { validateBeforeMerge := false
        replacements := ⟨[("\x00", " \"\n\n")], by decide +kernel⟩
        entries := [⟨"- t", "~", "12", ⟨[("true", false)], by decide +kernel⟩⟩] }
    Yaml.library.ReadsBack m.value ∧ ofYaml Yaml.library (m.toYaml Yaml.library) = m.validated := by
  intro m
  have h : Yaml.library.ReadsBack m.value := by decide +kernel
  exact ⟨h, ofYaml_toYaml Yaml.library m h⟩

end Manifest

end WorkflowAreas
