import WorkflowAreas.Manifest
import WorkflowAreas.Yaml.Node.Reading
import WorkflowAreas.Yaml.Value

/-!
# Manifests in YAML

A manifest is written with all its fields, an entry without its flags if there are none.

A manifest is a mapping, and so are its entries, its replacements and its flags. A field that a manifest
does not know is passed over, but one that it knows may not come twice; in tables of replacements or
flags the last of several equal names holds. An empty plain scalar stands for an empty collection.

Every alias that is followed counts against the limit of the document. What is passed over is not
looked into, so aliases there do not count.

How a text is read as a document and a value is written as a text is up to a library for YAML
(`Yaml.Library`). `Yaml.library` is the one that comes with these modules.
-/

namespace WorkflowAreas

/-- A library for YAML. -/
structure Yaml.Library where
  /-- The document of a text. -/
  read : String → Except Problem Document
  /-- A text for a value. -/
  write : Value → String

/-- The library of these modules. -/
def Yaml.library : Library :=
  ⟨read, Value.write⟩

/-! ### Writing -/

/-- The value of a table of texts. -/
def Table.textValue (t : Table String) : Yaml.Value :=
  .mapping (t.entries.map fun (name, text) ↦ (name, .text text))

/-- The value of a table of flags. -/
def Flags.value (flags : Flags) : Yaml.Value :=
  .mapping (flags.entries.map fun (flag, setting) ↦ (flag, .boolean setting))

/-- The value of an entry. -/
def Entry.value (e : Entry) : Yaml.Value :=
  .mapping ([("template", .text e.template), ("target", .text e.target),
    ("workflow", .text e.workflow)] ++ if e.flags.isEmpty then [] else [("flags", e.flags.value)])

namespace Manifest

/-- The value of a manifest. -/
def value (m : Manifest) : Yaml.Value :=
  .mapping [("validate_before_merge", .boolean m.validateBeforeMerge),
    ("replacements", m.replacements.textValue), ("entries", .sequence (m.entries.map Entry.value))]

/-- The manifest as YAML. -/
def toYaml (yaml : Yaml.Library) (m : Manifest) : String :=
  yaml.write m.value

/-! ### Reading -/

/-- What a value should have been. -/
inductive Kind
  | text
  | boolean
  | sequence
  | mapping
deriving DecidableEq

/-- Why a text is no manifest. -/
inductive Malformed
  | yaml (problem : Yaml.Problem)
  | wrongKind (expected : Kind)
  | missingField (name : String)
  | repeatedField (name : String)
  | tooManyAliases
deriving DecidableEq

/-- The kind in words. -/
def Kind.name : Kind → String
  | text => "a string"
  | boolean => "a boolean"
  | sequence => "a sequence"
  | mapping => "a map"

/-- The reason in words. -/
def Malformed.message : Malformed → String
  | yaml problem => problem.message
  | wrongKind expected => "invalid type: expected " ++ expected.name
  | missingField name => "missing field `" ++ name ++ "`"
  | repeatedField name => "duplicate field `" ++ name ++ "`"
  | tooManyAliases => "repetition limit exceeded"

/-- Reading from a document. The state is the number of aliases that may still be followed. -/
abbrev Reading := StateT Nat (Except Malformed)

/-- Whether a scalar is what stands where a node is left out. -/
def isLeftOut (text : String) (style : Yaml.Style) : Bool :=
  text.isEmpty && style == .plain

variable (d : Yaml.Document)

/-- The node that a node stands for. -/
def follow (node : Yaml.Node) : Reading Yaml.Node := do
  if let .alias _ := node then
    let left ← get
    if left = 0 then throw .tooManyAliases
    set (left - 1)
  return d.follow node

/-- The text of a scalar, of whatever style. -/
def readText (node : Yaml.Node) : Reading String := do
  match ← follow d node with
  | .scalar text _ _ => return text
  | _ => throw (.wrongKind .text)

/-- The spellings of the two truth values. -/
def boolean? (text : String) : Option Bool :=
  if ["true", "True", "TRUE"].contains text then some true
  else if ["false", "False", "FALSE"].contains text then some false
  else none

/-- A truth value: a plain scalar, or a literal one that has the tag of truth values. -/
def readBoolean (node : Yaml.Node) : Reading Bool := do
  match ← follow d node with
  | .scalar text style tag =>
    if style == .plain || style == .literal && tag == some Yaml.Tag.boolean then
      if let some b := boolean? text then return b
    throw (.wrongKind .boolean)
  | _ => throw (.wrongKind .boolean)

/-- The entries of a mapping. -/
def readEntries (node : Yaml.Node) : Reading (List (Yaml.Node × Yaml.Node)) := do
  match ← follow d node with
  | .mapping entries => return entries
  | .scalar text style _ => if isLeftOut text style then return [] else throw (.wrongKind .mapping)
  | _ => throw (.wrongKind .mapping)

/-- The items of a sequence. -/
def readItems (node : Yaml.Node) : Reading (List Yaml.Node) := do
  match ← follow d node with
  | .sequence items => return items
  | .scalar text style _ => if isLeftOut text style then return [] else throw (.wrongKind .sequence)
  | _ => throw (.wrongKind .sequence)

/-- A table, its values read by `readValue`. -/
def readTable {α : Type} (readValue : Yaml.Node → Reading α) (node : Yaml.Node) :
    Reading (Table α) := do
  let entries ← readEntries d node
  let pairs ← entries.mapM fun (key, value) ↦ do
    return (← readText d key, ← readValue value)
  return Table.ofList pairs

/-- The fields of a record, by the names that are known. -/
def readFields (known : List String) (node : Yaml.Node) : Reading (List (String × Yaml.Node)) := do
  let entries ← readEntries d node
  let named ← entries.mapM fun (key, value) ↦ do
    return (← readText d key, value)
  let fields := named.filter fun f ↦ known.contains f.1
  match known.find? fun name ↦ 1 < (fields.filter (·.1 == name)).length with
  | some name => throw (.repeatedField name)
  | none => return fields

/-- The value of a field that may be missing. -/
def readOptional {α : Type} (fields : List (String × Yaml.Node)) (name : String) (standard : α)
    (readValue : Yaml.Node → Reading α) : Reading α :=
  match fields.lookup name with
  | some node => readValue node
  | none => return standard

/-- The text of a field that must be there. -/
def readRequired (fields : List (String × Yaml.Node)) (name : String) : Reading String :=
  match fields.lookup name with
  | some node => readText d node
  | none => throw (.missingField name)

/-- An entry of a manifest. -/
def readEntry (node : Yaml.Node) : Reading Entry := do
  let fields ← readFields d ["template", "target", "workflow", "flags"] node
  return {
    template := ← readRequired d fields "template"
    target := ← readRequired d fields "target"
    workflow := ← readRequired d fields "workflow"
    flags := ← readOptional fields "flags" .empty (readTable d (readBoolean d)) }

/-- A manifest. -/
def readNode (node : Yaml.Node) : Reading Manifest := do
  let fields ← readFields d ["validate_before_merge", "replacements", "entries"] node
  return {
    validateBeforeMerge := ← readOptional fields "validate_before_merge" true (readBoolean d)
    replacements := ← readOptional fields "replacements" .empty (readTable d (readText d))
    entries := ← readOptional fields "entries" [] fun node ↦ do
      (← readItems d node).mapM (readEntry d) }

/-- The manifest of a document. An empty document is the manifest that says nothing. -/
def ofDocument : Except Malformed Manifest :=
  match d.root with
  | some node => (readNode d node).run' d.aliasLimit
  | none => .ok default

/-- The manifest that a text shows. -/
def ofYaml? (yaml : Yaml.Library) (text : String) : Except Malformed Manifest :=
  match yaml.read text with
  | .ok d => ofDocument d
  | .error problem => .error (.yaml problem)

end Manifest

end WorkflowAreas
