import WorkflowAreas.Yaml.Node
import WorkflowAreas.Yaml.Value.Scalar

/-!
# Values of YAML

What a document means once the ways of writing it are set aside: texts, truth values, sequences and
mappings. `Node.Shows` relates a node of a document to the value that it shows.

Values are written in block style. A mapping is two columns deeper than the one around it, a sequence
that is the value of a key is not; empty collections are written in flow style.
-/

namespace WorkflowAreas.Yaml

/-- A value. The entries of a mapping stand in an order. -/
inductive Value
  | text (s : String)
  | boolean (b : Bool)
  | sequence (items : List Value)
  | mapping (entries : List (String × Value))

/-- The plain spelling of a truth value. -/
def booleanText (b : Bool) : String :=
  if b then "true" else "false"

/-- A node shows a value if it has the shape of the value, with the same texts at the same places. A
truth value is shown by its plain spelling. -/
inductive Node.Shows : Node → Value → Prop
  | text (s : String) (style : Style) : Shows (.scalar s style none) (.text s)
  | boolean (b : Bool) : Shows (.scalar (booleanText b) .plain none) (.boolean b)
  | sequence (nodes : List Node) (values : List Value) (length_eq : nodes.length = values.length)
      (shows : ∀ n v, (n, v) ∈ nodes.zip values → Shows n v) :
      Shows (.sequence nodes) (.sequence values)
  | mapping (nodes : List (Node × Node)) (values : List (String × Value))
      (length_eq : nodes.length = values.length)
      (shows_key : ∀ n v, (n, v) ∈ nodes.zip values → Shows n.1 (.text v.1))
      (shows_value : ∀ n v, (n, v) ∈ nodes.zip values → Shows n.2 v.2) :
      Shows (.mapping nodes) (.mapping values)

namespace Value

/-! ### Written values -/

/-- The text up to a line end: a line break is added unless one is there. -/
def line (cs : List Char) : List Char :=
  if cs.getLast?.any isBreak then cs else cs ++ ['\n']

/-- A key with its colon, in a mapping that is indented by `indent`. -/
def keyText (indent : Nat) (key : String) : List Char :=
  if Scalar.isSimpleKey key then Scalar.write (indent + 2) key ++ [':']
  else ['?', ' '] ++ line (Scalar.write (indent + 2) key) ++ Scalar.spaces indent ++ [':']

mutual

/-- A value behind the sign of an entry of a sequence or of a complex key. What it holds is indented by
`indent`. -/
def inline (indent : Nat) : Value → List Char
  | text s => line (Scalar.write indent s)
  | boolean b => (booleanText b).toList ++ ['\n']
  | sequence [] => "[]\n".toList
  | mapping [] => "\x7b\x7d\n".toList
  | sequence (v :: vs) => '-' :: ' ' :: inline (indent + 2) v ++ items indent vs
  | mapping ((k, v) :: es) => keyText indent k ++ entry indent k v ++ entries indent es

/-- The value of a key in a mapping that is indented by `indent`. -/
def entry (indent : Nat) (key : String) : Value → List Char
  | sequence (v :: vs) =>
    if Scalar.isSimpleKey key then
      '\n' :: Scalar.spaces indent ++ '-' :: ' ' :: inline (indent + 2) v ++ items indent vs
    else
      ' ' :: '-' :: ' ' :: inline (indent + 4) v ++ items (indent + 2) vs
  | mapping ((k, v) :: es) =>
    (if Scalar.isSimpleKey key then '\n' :: Scalar.spaces (indent + 2) else [' ']) ++
      keyText (indent + 2) k ++ entry (indent + 2) k v ++ entries (indent + 2) es
  | text s => ' ' :: line (Scalar.write (indent + 2) s)
  | boolean b => ' ' :: (booleanText b).toList ++ ['\n']
  | sequence [] => " []\n".toList
  | mapping [] => " \x7b\x7d\n".toList

/-- Further items of a sequence that is indented by `indent`. -/
def items (indent : Nat) : List Value → List Char
  | [] => []
  | v :: vs => Scalar.spaces indent ++ '-' :: ' ' :: inline (indent + 2) v ++ items indent vs

/-- Further entries of a mapping that is indented by `indent`. -/
def entries (indent : Nat) : List (String × Value) → List Char
  | [] => []
  | (k, v) :: es =>
    Scalar.spaces indent ++ keyText indent k ++ entry indent k v ++ entries indent es

end

/-- The text of a document with this value. -/
def write (v : Value) : String :=
  String.ofList (inline 0 v)

end Value

end WorkflowAreas.Yaml
