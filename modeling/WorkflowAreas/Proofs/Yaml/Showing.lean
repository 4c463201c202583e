import WorkflowAreas.Manifest.Yaml
import Mathlib.Data.List.Forall2

/-!
# Nodes that show values

`Node.Shows` gives away the shape of the node: what the node of a text, of a truth value or of a
collection looks like is said by one equivalence each. Collections are shown item by item, in order,
which is `List.Forall₂`.

A library reads a value back (`Library.ReadsBack`) if the text that it writes of the value is read as a
document whose root shows the value again. Both notions can be decided, `Shows` by comparing the node
with the value from the root down.
-/

namespace WorkflowAreas.Yaml

namespace Node

/-! ### The shapes of nodes -/

/-- An entry of a mapping shows a name with a value. -/
def ShowsEntry (node : Node × Node) (entry : String × Value) : Prop :=
  node.1.Shows (.text entry.1) ∧ node.2.Shows entry.2

theorem shows_text_iff {node : Node} {s : String} :
    node.Shows (.text s) ↔ ∃ style, node = .scalar s style none := by
  constructor
  · intro h
    cases h with
    | text s style => exact ⟨style, rfl⟩
  · rintro ⟨style, rfl⟩
    exact .text s style

theorem shows_boolean_iff {node : Node} {b : Bool} :
    node.Shows (.boolean b) ↔ node = .scalar (booleanText b) .plain none := by
  constructor
  · intro h
    cases h with
    | boolean b => rfl
  · rintro rfl
    exact .boolean b

theorem shows_sequence_iff {node : Node} {values : List Value} :
    node.Shows (.sequence values) ↔ ∃ nodes, node = .sequence nodes ∧ List.Forall₂ Shows nodes values := by
  constructor
  · intro h
    cases h with
    | sequence nodes values length_eq shows =>
      exact ⟨nodes, rfl, List.forall₂_iff_zip.2 ⟨length_eq, fun {n v} ↦ shows n v⟩⟩
  · rintro ⟨nodes, rfl, h⟩
    obtain ⟨length_eq, shows⟩ := List.forall₂_iff_zip.1 h
    exact .sequence nodes values length_eq fun n v ↦ shows

theorem shows_mapping_iff {node : Node} {entries : List (String × Value)} :
    node.Shows (.mapping entries) ↔
      ∃ nodes, node = .mapping nodes ∧ List.Forall₂ ShowsEntry nodes entries := by
  constructor
  · intro h
    cases h with
    | mapping nodes entries length_eq shows_key shows_value =>
      exact ⟨nodes, rfl, List.forall₂_iff_zip.2
        ⟨length_eq, fun {n v} hmem ↦ ⟨shows_key n v hmem, shows_value n v hmem⟩⟩⟩
  · rintro ⟨nodes, rfl, h⟩
    obtain ⟨length_eq, shows⟩ := List.forall₂_iff_zip.1 h
    exact .mapping nodes entries length_eq (fun n v hmem ↦ (shows hmem).1) fun n v hmem ↦
      (shows hmem).2

/-! ### Deciding what a node shows -/

mutual

/-- Whether a node shows a value. -/
def shows : Node → Value → Bool
  | .scalar text _ tag, .text s => text == s && tag == none
  | .scalar text style tag, .boolean b => text == booleanText b && style == .plain && tag == none
  | .sequence nodes, .sequence values => showsItems nodes values
  | .mapping nodes, .mapping entries => showsEntries nodes entries
  | _, _ => false

/-- Whether the items of a sequence show values, one each. -/
def showsItems : List Node → List Value → Bool
  | [], [] => true
  | node :: nodes, value :: values => node.shows value && showsItems nodes values
  | _, _ => false

/-- Whether the entries of a mapping show names with values, one each. -/
def showsEntries : List (Node × Node) → List (String × Value) → Bool
  | [], [] => true
  | (key, node) :: nodes, (name, value) :: entries =>
    key.shows (.text name) && node.shows value && showsEntries nodes entries
  | _, _ => false

end

mutual

theorem shows_eq_true_iff : ∀ (node : Node) (value : Value), node.shows value = true ↔ node.Shows value
  | node, .text s => by cases node <;> grind [shows, shows_text_iff]
  | node, .boolean b => by cases node <;> grind [shows, shows_boolean_iff]
  | node, .sequence values => by
    cases node with
    | sequence nodes => grind [shows, shows_sequence_iff, showsItems_eq_true_iff nodes values]
    | _ => grind [shows, shows_sequence_iff]
  | node, .mapping entries => by
    cases node with
    | mapping nodes => grind [shows, shows_mapping_iff, showsEntries_eq_true_iff nodes entries]
    | _ => grind [shows, shows_mapping_iff]

theorem showsItems_eq_true_iff : ∀ (nodes : List Node) (values : List Value),
    showsItems nodes values = true ↔ List.Forall₂ Shows nodes values
  | [], values => by cases values <;> simp [showsItems]
  | node :: nodes, values => by
    cases values with
    | nil => simp [showsItems]
    | cons value values =>
      rw [showsItems, Bool.and_eq_true, List.forall₂_cons, node.shows_eq_true_iff,
        showsItems_eq_true_iff nodes]

theorem showsEntries_eq_true_iff : ∀ (nodes : List (Node × Node)) (entries : List (String × Value)),
    showsEntries nodes entries = true ↔ List.Forall₂ ShowsEntry nodes entries
  | [], entries => by cases entries <;> simp [showsEntries]
  | (key, node) :: nodes, entries => by
    cases entries with
    | nil => simp [showsEntries]
    | cons entry entries =>
      rw [showsEntries, Bool.and_eq_true, Bool.and_eq_true, List.forall₂_cons, ShowsEntry,
        key.shows_eq_true_iff, node.shows_eq_true_iff, showsEntries_eq_true_iff nodes]

end

instance (node : Node) (value : Value) : Decidable (node.Shows value) :=
  decidable_of_iff (node.shows value = true) (node.shows_eq_true_iff value)

end Node

/-! ### Values that read back -/

namespace Library

variable {yaml : Library} {v : Value}

/-- What is written of a value is read as a document that shows the value. -/
def ReadsBack (yaml : Library) (v : Value) : Prop :=
  ∃ d node, yaml.read (yaml.write v) = .ok d ∧ d.root = some node ∧ node.Shows v

/-- Whether what is written of a value reads back. -/
def readsBack (yaml : Library) (v : Value) : Bool :=
  match yaml.read (yaml.write v) with
  | .ok d => d.root.any (·.shows v)
  | .error _ => false

theorem readsBack_eq_true_iff : yaml.readsBack v = true ↔ yaml.ReadsBack v := by
  unfold readsBack ReadsBack
  cases yaml.read (yaml.write v) with
  | error problem => simp
  | ok d => simp [Option.any_eq_true, Node.shows_eq_true_iff]

instance (yaml : Library) (v : Value) : Decidable (yaml.ReadsBack v) :=
  decidable_of_iff (yaml.readsBack v = true) readsBack_eq_true_iff

end Library

end WorkflowAreas.Yaml
