import WorkflowAreas.Yaml.Scalar.Block
import WorkflowAreas.Yaml.Scalar.Plain
import WorkflowAreas.Yaml.Scalar.Quoted
import WorkflowAreas.Yaml.Token

/-!
# The tokens of a text

Tokens are read one after the other. Two things are known only later. The depth of a line tells whether
blocks begin or end before its first token, so the depths of the open blocks are kept. And only a colon
tells that the node before it is a key, so the place of every node that may turn out to be one is kept,
one for each open flow collection and one for the block around them; a key stays on one line and takes
at most 1024 bytes.
-/

namespace WorkflowAreas.Yaml

/-- A node that is a key if a colon follows it. -/
structure KeyCandidate where
  /-- A node at the depth of the block around it has to be a key. -/
  required : Bool
  /-- How many tokens come before the node. -/
  position : Nat
  line : Nat
  column : Nat
  /-- How many bytes of its line come before the node. -/
  offset : Nat

/-- The bytes that a key can take, with what stands between it and its colon. -/
def longestKey : Nat := 1024

/-- Tokens read so far, and what is kept for those to come. -/
structure TokenReader where
  cursor : Cursor
  /-- The tokens, the latest first. -/
  tokens : List Token
  /-- One more than the column of the innermost block; zero outside all blocks. -/
  level : Nat
  /-- The levels of the blocks around it, the innermost first. -/
  outerLevels : List Nat
  /-- A key may begin at the next token. -/
  keyAllowed : Bool
  /-- The candidate of the innermost flow collection, or of the block where there is none. -/
  candidate : Option KeyCandidate
  /-- The candidates around the open flow collections, the innermost first. -/
  outerCandidates : List (Option KeyCandidate)

namespace TokenReader

/-- The reader before the first token. -/
def start (c : Cursor) : TokenReader :=
  ⟨c, [], 0, [], true, none, []⟩

/-- Whether a flow collection is open. -/
def inFlow (r : TokenReader) : Bool :=
  !r.outerCandidates.isEmpty

/-- Adds a token that takes up characters. -/
def emit (r : TokenReader) (token : Token) (length : Nat) : TokenReader :=
  { r with tokens := token :: r.tokens, cursor := r.cursor.skip length }

/-- Adds tokens at an earlier place, the latest first. -/
def insertAt (r : TokenReader) (position : Nat) (added : List Token) : TokenReader :=
  let later := r.tokens.length - position
  { r with tokens := r.tokens.take later ++ added ++ r.tokens.drop later }

/-- Opens a block at a column that is deeper than the innermost one, with its token at `position`. -/
def openBlock (r : TokenReader) (column position : Nat) (token : Token) : TokenReader :=
  if !r.inFlow && r.level < column + 1 then
    { r.insertAt position [token] with level := column + 1, outerLevels := r.level :: r.outerLevels }
  else r

/-- Closes blocks deeper than `level`. -/
def closeBlocksTo (level : Nat) (tokens : List Token) (current : Nat) :
    List Nat → List Token × Nat × List Nat
  | [] => (tokens, current, [])
  | outer :: rest =>
    if level < current then closeBlocksTo level (.blockEnd :: tokens) outer rest
    else (tokens, current, outer :: rest)

/-- Closes blocks deeper than `level`, unless a flow collection is open. -/
def closeBlocks (r : TokenReader) (level : Nat) : TokenReader :=
  if r.inFlow then r
  else
    let (tokens, current, outer) := closeBlocksTo level r.tokens r.level r.outerLevels
    { r with tokens := tokens, level := current, outerLevels := outer }

/-- Gives up a candidate, which must not be required. -/
def dropCandidate : Option KeyCandidate → Except Problem (Option KeyCandidate)
  | some k => if k.required then .error .keyWithoutColon else .ok none
  | none => .ok none

/-- Gives up the candidate of the innermost collection. -/
def withoutCandidate (r : TokenReader) : Except Problem TokenReader := do
  return { r with candidate := ← dropCandidate r.candidate }

/-- Makes the next token a candidate, where a key may begin. -/
def saveCandidate (r : TokenReader) : Except Problem TokenReader := do
  if !r.keyAllowed then return r
  let r ← r.withoutCandidate
  let required := !r.inFlow && r.level == r.cursor.column + 1
  return { r with
    candidate := some ⟨required, r.tokens.length, r.cursor.line, r.cursor.column, r.cursor.offset⟩ }

/-- The candidate, unless it lies too far back. -/
def refreshed (c : Cursor) (k : Option KeyCandidate) : Except Problem (Option KeyCandidate) :=
  if k.any fun k ↦ k.line < c.line || k.offset + longestKey < c.offset then dropCandidate k else .ok k

/-- Gives up the candidates that lie too far back. -/
def refreshCandidates (r : TokenReader) : Except Problem TokenReader := do
  return { r with
    candidate := ← refreshed r.cursor r.candidate
    outerCandidates := ← r.outerCandidates.mapM (refreshed r.cursor) }

/-- Goes to the next token: over blanks, comments and line breaks. A byte order mark may begin a line,
and moves the line by a column. A tab may not stand where a block could begin. After a line break a key
may begin, unless a flow collection is open. -/
def skipSpace : Nat → TokenReader → TokenReader
  | 0, r => r
  | fuel + 1, r =>
    let tabs := r.inFlow || !r.keyAllowed
    let c := if r.cursor.column == 0 && r.cursor.atChar '\ufeff' then r.cursor.next else r.cursor
    let c := (c.skipWhile fun ch ↦ ch == ' ' || tabs && ch == '\t').skipComment
    if c.atBreak then
      skipSpace fuel { r with cursor := c.next, keyAllowed := r.keyAllowed || !r.inFlow }
    else { r with cursor := c }

/-- A token between documents. -/
def betweenDocuments (r : TokenReader) : Except Problem TokenReader := do
  let r ← (r.closeBlocks 0).withoutCandidate
  return { r with keyAllowed := false }

/-- The start of a flow collection. -/
def openFlow (r : TokenReader) (token : Token) : Except Problem TokenReader := do
  let r ← r.saveCandidate
  return { r.emit token 1 with
    keyAllowed := true
    candidate := none
    outerCandidates := r.candidate :: r.outerCandidates }

/-- The end of a flow collection. -/
def closeFlow (r : TokenReader) (token : Token) : Except Problem TokenReader := do
  let r ← r.withoutCandidate
  let (candidate, outer) :=
    match r.outerCandidates with
    | candidate :: outer => (candidate, outer)
    | [] => (none, [])
  return { r.emit token 1 with
    keyAllowed := false
    candidate := candidate
    outerCandidates := outer }

/-- The sign between the entries of a flow collection. -/
def flowEntry (r : TokenReader) : Except Problem TokenReader := do
  let r ← r.withoutCandidate
  return { r.emit .flowEntry 1 with keyAllowed := true }

/-- Opens a block for a sign that stands here, where a block may begin. -/
def openBlockHere (r : TokenReader) (token : Token) (problem : Problem) :
    Except Problem TokenReader :=
  if r.inFlow then .ok r
  else if r.keyAllowed then .ok (r.openBlock r.cursor.column r.tokens.length token)
  else .error problem

/-- The sign of an entry of a block sequence. -/
def blockEntry (r : TokenReader) : Except Problem TokenReader := do
  let r ← r.openBlockHere .blockSequenceStart .entryNotAllowed
  let r ← r.withoutCandidate
  return { r.emit .blockEntry 1 with keyAllowed := true }

/-- The sign of a key. -/
def key (r : TokenReader) : Except Problem TokenReader := do
  let r ← r.openBlockHere .blockMappingStart .keyNotAllowed
  let r ← r.withoutCandidate
  return { r.emit .key 1 with keyAllowed := !r.inFlow }

/-- The sign of a value. It makes the candidate a key, and is the value of an empty key otherwise. -/
def value (r : TokenReader) : Except Problem TokenReader := do
  match r.candidate with
  | some k =>
    let r := (r.insertAt k.position [.key]).openBlock k.column k.position .blockMappingStart
    return { r.emit .value 1 with keyAllowed := false, candidate := none }
  | none =>
    let r ← r.openBlockHere .blockMappingStart .valueNotAllowed
    return { r.emit .value 1 with keyAllowed := !r.inFlow }

/-- A token that a key may begin with. -/
def content (r : TokenReader) (read : Cursor → Except Problem (Token × Cursor)) :
    Except Problem TokenReader := do
  let r ← r.saveCandidate
  let (token, c) ← read r.cursor
  return { r with tokens := token :: r.tokens, cursor := c, keyAllowed := false }

/-- A block scalar. -/
def blockScalar (r : TokenReader) (style : Style) : Except Problem TokenReader := do
  let r ← r.withoutCandidate
  let (text, c) ← Block.read (style == .literal) r.level r.cursor.next
  return { r with
    tokens := .scalar (String.ofList text) style :: r.tokens
    cursor := c
    keyAllowed := true }

/-- A quoted scalar. -/
def quotedScalar (r : TokenReader) (style : Style) : Except Problem TokenReader :=
  r.content fun c ↦ do
    let (text, c) ← Quoted.read (style == .doubleQuoted) c
    return (.scalar (String.ofList text) style, c)

/-- A plain scalar. A key may begin after it if it ended with its line. -/
def plainScalar (r : TokenReader) : Except Problem TokenReader := do
  let r ← r.saveCandidate
  let (text, endsLine, c) ← Plain.read r.inFlow r.level r.cursor
  return { r with
    tokens := .scalar (String.ofList text) .plain :: r.tokens
    cursor := c
    keyAllowed := endsLine }

/-- An alias or an anchor. -/
def anchor (r : TokenReader) (token : String → Token) : Except Problem TokenReader :=
  r.content fun c ↦ do
    let (name, c) ← Property.readAnchorName c.next
    return (token name, c)

/-- Characters with which no plain scalar begins. -/
def indicators : List Char :=
  "-?:,[]\x7b\x7d#&*!|>'\"%@\x60".toList

/-- Whether a plain scalar begins here. -/
def startsPlain (inFlow : Bool) (c : Cursor) : Bool :=
  c.peek.any fun ch ↦
    !(isGap (some ch) || indicators.contains ch) ||
      ch == '-' && !(c.peekAt 1).any isBlank ||
      !inFlow && (ch == '?' || ch == ':') && !isGap (c.peekAt 1)

/-- Reads the token that stands here. -/
def readToken (r : TokenReader) (ch : Char) : Except Problem TokenReader := do
  let c := r.cursor
  let gapFollows := isGap (c.peekAt 1)
  if c.column == 0 && ch == '%' then
    let r ← r.betweenDocuments
    let (token, c) ← Property.readDirective r.cursor
    return { r with tokens := token :: r.tokens, cursor := c }
  if c.atSign "---" then return (← r.betweenDocuments).emit .documentStart 3
  if c.atSign "..." then return (← r.betweenDocuments).emit .documentEnd 3
  if ch == '[' then return ← r.openFlow .flowSequenceStart
  if ch == '\x7b' then return ← r.openFlow .flowMappingStart
  if ch == ']' then return ← r.closeFlow .flowSequenceEnd
  if ch == '\x7d' then return ← r.closeFlow .flowMappingEnd
  if ch == ',' then return ← r.flowEntry
  if ch == '-' && gapFollows then return ← r.blockEntry
  if ch == '?' && (r.inFlow || gapFollows) then return ← r.key
  if ch == ':' && (r.inFlow || gapFollows) then return ← r.value
  if ch == '*' then return ← r.anchor .alias
  if ch == '&' then return ← r.anchor .anchor
  if ch == '!' then return ← r.content (Property.readTag r.inFlow)
  if ch == '|' && !r.inFlow then return ← r.blockScalar .literal
  if ch == '>' && !r.inFlow then return ← r.blockScalar .folded
  if ch == '\'' then return ← r.quotedScalar .singleQuoted
  if ch == '"' then return ← r.quotedScalar .doubleQuoted
  if startsPlain r.inFlow c then return ← r.plainScalar
  throw .badStart

/-- Reads tokens to the end of the text. Every token takes up a character, so the length of the text
bounds their number. -/
def readTokens : Nat → TokenReader → Except Problem (List Token)
  | 0, _ => .error .badStart
  | fuel + 1, r => do
    let r ← (skipSpace (r.cursor.rest.length + 1) r).refreshCandidates
    let r := r.closeBlocks (r.cursor.column + 1)
    match r.cursor.peek with
    | some ch => readTokens fuel (← r.readToken ch)
    | none =>
      let r ← (r.closeBlocks 0).withoutCandidate
      return r.tokens.reverse

end TokenReader

/-- The tokens of a text. -/
def tokens (text : List Char) : Except Problem (List Token) := do
  if !text.all isAllowed then throw .forbiddenCharacter
  let text := normalizeBreaks text
  TokenReader.readTokens (text.length + 1) (TokenReader.start (Cursor.start text))

end WorkflowAreas.Yaml
