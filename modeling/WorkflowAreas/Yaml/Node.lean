import WorkflowAreas.Yaml.Scalar.Gap
import WorkflowAreas.Yaml.Tag

/-!
# Nodes of a YAML document

A document is a tree of scalars, sequences and mappings, in which an alias stands for a node that has an
anchor. `Document.follow` puts that node in its place.

Aliases in nodes that aliases stand for make a short document as large as one likes, so there is a limit
to how many aliases are followed, which grows with the length of the document.
-/

namespace WorkflowAreas.Yaml

/-- A node. An alias names the slot of its anchor. -/
inductive Node
  | scalar (text : String) (style : Style) (tag : Option Tag)
  | sequence (items : List Node)
  | mapping (entries : List (Node × Node))
  | alias (slot : Nat)

mutual

/-- The length of a node as a sequence of scalars, aliases, and signs for the beginning and the end of
each collection. -/
def Node.size : Node → Nat
  | .scalar _ _ _ => 1
  | .alias _ => 1
  | .sequence items => Node.itemsSize items + 2
  | .mapping entries => Node.entriesSize entries + 2

/-- The length of the items of a sequence. -/
def Node.itemsSize : List Node → Nat
  | [] => 0
  | node :: nodes => node.size + Node.itemsSize nodes

/-- The length of the entries of a mapping. -/
def Node.entriesSize : List (Node × Node) → Nat
  | [] => 0
  | (key, value) :: entries => key.size + value.size + Node.entriesSize entries

end

/-- The anchors of a document. Each anchor has a slot, which is the number of names declared before it,
and a node that declares it owns that slot until another one takes it. -/
structure Anchors where
  /-- The slots of the names. -/
  slots : List (String × Nat)
  /-- How many nodes have an anchor. -/
  count : Nat
  /-- The number of the node that owns a slot, the latest first. -/
  owners : List (Nat × Nat)
  /-- The nodes by their number. -/
  nodes : List (Nat × Node)

namespace Anchors

/-- No anchors. -/
def empty : Anchors :=
  ⟨[], 0, [], []⟩

/-- Declares a name for a node that begins here, and numbers the node. -/
def declare (a : Anchors) (name : String) : Nat × Anchors :=
  let slot := a.slots.length
  (a.count,
    { a with
      slots := (name, slot) :: a.slots.filter (·.1 != name)
      count := a.count + 1
      owners := (slot, a.count) :: a.owners })

/-- Enters the node of a number. -/
def enter (a : Anchors) (number : Nat) (node : Node) : Anchors :=
  { a with nodes := (number, node) :: a.nodes }

end Anchors

/-- A document: a node, if there is one, and the anchors in it. -/
structure Document where
  root : Option Node
  anchors : Anchors

namespace Document

/-- The node that an alias stands for. Other nodes stand for themselves. -/
def follow (d : Document) : Node → Node
  | .alias slot =>
    ((d.anchors.owners.lookup slot).bind fun n ↦ d.anchors.nodes.lookup n).getD (.alias slot)
  | node => node

/-- How many aliases of the document may be followed. -/
def aliasLimit (d : Document) : Nat :=
  100 * d.root.elim 0 Node.size

end Document

end WorkflowAreas.Yaml
