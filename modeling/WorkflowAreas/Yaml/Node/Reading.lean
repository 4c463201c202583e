import WorkflowAreas.Yaml.Node
import WorkflowAreas.Yaml.Token.Stream

/-!
# Documents read from tokens

The grammar of YAML over its tokens. A text holds one document at most. Where the grammar leaves a node
out, an empty plain scalar stands for it.
-/

namespace WorkflowAreas.Yaml

/-- Tokens still to be read, with what the ones before them declared. -/
structure NodeReader where
  tokens : List Token
  /-- What the handles of tags stand for. -/
  handles : List (String × Tag)
  anchors : Anchors

namespace NodeReader

/-- The reader after the next token. -/
def next (r : NodeReader) : NodeReader :=
  { r with tokens := r.tokens.tail }

/-- The next token. -/
def peek (r : NodeReader) : Option Token :=
  r.tokens.head?

/-- Whether the next token is one of these. -/
def atAny (r : NodeReader) (ts : List Token) : Bool :=
  r.peek.any ts.contains

/-- Whether the next token is this one. -/
def atToken (r : NodeReader) (t : Token) : Bool :=
  r.peek == some t

/-- The meaning of a tag. -/
def resolveTag (r : NodeReader) (handle : String) (suffix : Tag) : Except Problem Tag :=
  if handle.isEmpty then .ok suffix
  else match r.handles.lookup handle with
    | some meaning => .ok (meaning ++ suffix)
    | none => .error .undefinedTagHandle

/-- The anchor and the tag of a node, in either order. -/
structure Properties where
  anchor : Option String
  tag : Option (String × Tag)

/-- Reads the properties of a node. -/
def readProperties (r : NodeReader) : Properties × NodeReader :=
  match r.tokens with
  | .anchor name :: .tag handle suffix :: rest =>
    (⟨some name, some (handle, suffix)⟩, { r with tokens := rest })
  | .anchor name :: rest => (⟨some name, none⟩, { r with tokens := rest })
  | .tag handle suffix :: .anchor name :: rest =>
    (⟨some name, some (handle, suffix)⟩, { r with tokens := rest })
  | .tag handle suffix :: rest => (⟨none, some (handle, suffix)⟩, { r with tokens := rest })
  | _ => (⟨none, none⟩, r)

/-- The node that is left out. -/
def absent : Node :=
  .scalar "" .plain none

/-- The kinds of collection, by what holds them together. -/
inductive Collection
  | blockSequence
  /-- A block sequence that is no deeper than the mapping around it. -/
  | indentlessSequence
  | blockMapping
  | flowSequence
  | flowMapping

/-- The collection that begins at the next token, and the reader inside it. -/
def collection? (r : NodeReader) (block indentless : Bool) : Option (Collection × NodeReader) :=
  match r.peek with
  | some .blockEntry => if indentless then some (.indentlessSequence, r) else none
  | some .flowSequenceStart => some (.flowSequence, r.next)
  | some .flowMappingStart => some (.flowMapping, r.next)
  | some .blockSequenceStart => if block then some (.blockSequence, r.next) else none
  | some .blockMappingStart => if block then some (.blockMapping, r.next) else none
  | _ => none

/-- A sequence of what was read. -/
def asSequence (read : List Node × NodeReader) : Node × NodeReader :=
  (.sequence read.1, read.2)

/-- A mapping of what was read. -/
def asMapping (read : List (Node × Node) × NodeReader) : Node × NodeReader :=
  (.mapping read.1, read.2)

mutual

/-- Reads a node. Block collections count only if `block`, and sequences without depth of their own only
if `indentless`. -/
def readNode (block indentless : Bool) : Nat → NodeReader → Except Problem (Node × NodeReader)
  | 0, _ => .error .expectedNode
  | fuel + 1, r => do
    if let some (.alias name) := r.peek then
      let some slot := r.anchors.slots.lookup name | throw .undefinedAlias
      return (.alias slot, r.next)
    let (properties, r) := r.readProperties
    let tag ← properties.tag.mapM fun (handle, suffix) ↦ r.resolveTag handle suffix
    let (number, r) := match properties.anchor with
      | some name =>
        let (number, anchors) := r.anchors.declare name
        (some number, { r with anchors := anchors })
      | none => (none, r)
    let (node, r) ←
      match r.peek, r.collection? block indentless with
      | some (.scalar text style), _ => pure (.scalar text style tag, r.next)
      | _, some (.blockSequence, r) => asSequence <$> readBlockSequence fuel r
      | _, some (.indentlessSequence, r) => asSequence <$> readIndentlessSequence fuel r
      | _, some (.blockMapping, r) => asMapping <$> readBlockMapping fuel r
      | _, some (.flowSequence, r) => asSequence <$> readFlowSequence true fuel r
      | _, some (.flowMapping, r) => asMapping <$> readFlowMapping true fuel r
      | _, none =>
        if properties.anchor.isSome || properties.tag.isSome then
          pure (.scalar "" .plain tag, r)
        else throw .expectedNode
    return (node, match number with
      | some number => { r with anchors := r.anchors.enter number node }
      | none => r)

/-- Reads a node unless one of the tokens `ends` stands in its place. -/
def readNodeUnless (ends : List Token) (block indentless : Bool) :
    Nat → NodeReader → Except Problem (Node × NodeReader)
  | 0, _ => .error .expectedNode
  | fuel + 1, r => if r.atAny ends then .ok (absent, r) else readNode block indentless fuel r

/-- Reads the rest of a block sequence, up to its end. -/
def readBlockSequence : Nat → NodeReader → Except Problem (List Node × NodeReader)
  | 0, _ => .error .expectedEntry
  | fuel + 1, r => do
    if r.atToken .blockEnd then return ([], r.next)
    if !r.atToken .blockEntry then throw .expectedEntry
    let (item, r) ← readNodeUnless [.blockEntry, .blockEnd] true false fuel r.next
    let (items, r) ← readBlockSequence fuel r
    return (item :: items, r)

/-- Reads the rest of a block sequence without depth of its own. -/
def readIndentlessSequence : Nat → NodeReader → Except Problem (List Node × NodeReader)
  | 0, _ => .error .expectedEntry
  | fuel + 1, r => do
    if !r.atToken .blockEntry then return ([], r)
    let (item, r) ← readNodeUnless [.blockEntry, .key, .value, .blockEnd] true false fuel r.next
    let (items, r) ← readIndentlessSequence fuel r
    return (item :: items, r)

/-- Reads the value of a block mapping, if there is one. -/
def readBlockValue : Nat → NodeReader → Except Problem (Node × NodeReader)
  | 0, _ => .error .expectedNode
  | fuel + 1, r =>
    if r.atToken .value then readNodeUnless [.key, .value, .blockEnd] true true fuel r.next
    else .ok (absent, r)

/-- Reads the rest of a block mapping, up to its end. -/
def readBlockMapping : Nat → NodeReader → Except Problem (List (Node × Node) × NodeReader)
  | 0, _ => .error .expectedKey
  | fuel + 1, r => do
    if r.atToken .blockEnd then return ([], r.next)
    if !r.atToken .key then throw .expectedKey
    let (key, r) ← readNodeUnless [.key, .value, .blockEnd] true true fuel r.next
    let (value, r) ← readBlockValue fuel r
    let (entries, r) ← readBlockMapping fuel r
    return ((key, value) :: entries, r)

/-- Reads the value of an entry of a flow collection, if there is one. -/
def readFlowValue (close : Token) : Nat → NodeReader → Except Problem (Node × NodeReader)
  | 0, _ => .error .expectedNode
  | fuel + 1, r =>
    if r.atToken .value then readNodeUnless [.flowEntry, close] false false fuel r.next
    else .ok (absent, r)

/-- Reads the key of a pair in a flow sequence. Where the key is left out, so is the token after it. -/
def readPairKey : Nat → NodeReader → Except Problem (Node × NodeReader)
  | 0, _ => .error .expectedNode
  | fuel + 1, r =>
    if r.atAny [.value, .flowEntry, .flowSequenceEnd] then .ok (absent, r.next)
    else readNode false false fuel r

/-- Reads the rest of a flow sequence. An entry that begins with a key is a mapping of one pair. -/
def readFlowSequence (first : Bool) : Nat → NodeReader → Except Problem (List Node × NodeReader)
  | 0, _ => .error .expectedFlowSeparator
  | fuel + 1, r => do
    if r.atToken .flowSequenceEnd then return ([], r.next)
    let r ←
      if first then pure r
      else if r.atToken .flowEntry then pure r.next
      else throw .expectedFlowSeparator
    if r.atToken .flowSequenceEnd then return ([], r.next)
    let (item, r) ←
      if r.atToken .key then do
        let (key, r) ← readPairKey fuel r.next
        let (value, r) ← readFlowValue .flowSequenceEnd fuel r
        pure (.mapping [(key, value)], r)
      else readNode false false fuel r
    let (items, r) ← readFlowSequence false fuel r
    return (item :: items, r)

/-- Reads the rest of a flow mapping. An entry without a key sign has no value. -/
def readFlowMapping (first : Bool) :
    Nat → NodeReader → Except Problem (List (Node × Node) × NodeReader)
  | 0, _ => .error .expectedFlowSeparator
  | fuel + 1, r => do
    if r.atToken .flowMappingEnd then return ([], r.next)
    let r ←
      if first then pure r
      else if r.atToken .flowEntry then pure r.next
      else throw .expectedFlowSeparator
    if r.atToken .flowMappingEnd then return ([], r.next)
    let ((key, value), r) ←
      if r.atToken .key then do
        let (key, r) ←
          readNodeUnless [.value, .flowEntry, .flowMappingEnd] false false fuel r.next
        let (value, r) ← readFlowValue .flowMappingEnd fuel r
        pure ((key, value), r)
      else do
        let (key, r) ← readNode false false fuel r
        pure ((key, absent), r)
    let (entries, r) ← readFlowMapping false fuel r
    return ((key, value) :: entries, r)

end

/-- The handles of tags that need no directive. -/
def standardHandles : List (String × Tag) :=
  [("!", Tag.ofString "!"), ("!!", Tag.core)]

/-- Reads the directives before a document: the handles that they declare, and the tokens after them. -/
def readDirectives (hasVersion : Bool) (handles : List (String × Tag)) :
    List Token → Except Problem (List (String × Tag) × List Token)
  | .version major minor :: rest =>
    if hasVersion then .error .repeatedDirective
    else if major = 1 ∧ (minor = 1 ∨ minor = 2) then readDirectives true handles rest
    else .error .unsupportedVersion
  | .handle name meaning :: rest =>
    if (handles.lookup name).isSome then .error .repeatedDirective
    else readDirectives hasVersion (handles ++ [(name, meaning)]) rest
  | rest => .ok (handles, rest)

/-- Whether a token belongs to what stands between documents. -/
def isBetweenDocuments : Token → Bool
  | .version _ _ | .handle _ _ | .documentStart | .documentEnd => true
  | _ => false

/-- Reads the node of a document, which its start sign or its first token opened. -/
def readRoot (isExplicit : Bool) (r : NodeReader) : Except Problem (Node × NodeReader) :=
  if isExplicit && r.peek.all isBetweenDocuments then .ok (absent, r)
  else readNode true false (3 * r.tokens.length + 3) r

/-- Reads the only document of a list of tokens. -/
def readDocument (tokens : List Token) : Except Problem Document := do
  if tokens.isEmpty then return ⟨none, .empty⟩
  let (handles, rest) ← readDirectives false [] tokens
  let isExplicit := rest.head? == some .documentStart
  if !isExplicit && rest.length < tokens.length then throw .expectedDocumentStart
  let (root, r) ← readRoot isExplicit
    ⟨if isExplicit then rest.tail else rest, handles ++ standardHandles, .empty⟩
  match r.tokens.dropWhile (· == .documentEnd) with
  | [] => return ⟨some root, r.anchors⟩
  | .documentStart :: _ => throw .severalDocuments
  | _ => throw .expectedDocumentStart

end NodeReader

/-- Reads a text that holds one document at most. -/
def read (text : String) : Except Problem Document := do
  NodeReader.readDocument (← tokens text.toList)

end WorkflowAreas.Yaml
