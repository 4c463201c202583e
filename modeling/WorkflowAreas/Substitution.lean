import WorkflowAreas.Table

/-!
# Substitution of tokens

A substitution replaces tokens in a line by their values, all in one pass from left to right. The tokens
are written as the alternatives of one pattern, the longest first, and the pattern is searched for: at
each place the first alternative that fits there is taken, so where several tokens begin at one place it
is the longest. What a value brings in is not looked at again. The empty token never counts.
-/

namespace WorkflowAreas

/-! ### Alternations of literals -/

namespace Alternation

/-- Whether a character means something in a pattern. -/
def isSpecial (c : Char) : Bool :=
  "\\.+*?()|[]\x7b\x7d^$#&-~".toList.contains c

/-- The text of a pattern in which the characters of a literal stand for themselves. -/
def escape (literal : List Char) : List Char :=
  literal.flatMap fun c ↦ if isSpecial c then ['\\', c] else [c]

/-- The text of a pattern with the literals as its alternatives. -/
def write (literals : List (List Char)) : List Char :=
  ['|'].intercalate (literals.map escape)

/-- The alternatives of a pattern, if its text writes nothing but literals. -/
def read? : List Char → Option (List (List Char))
  | [] => some [[]]
  | '|' :: cs => (read? cs).map ([] :: ·)
  | '\\' :: c :: cs => if isSpecial c then (read? cs).map (·.modifyHead (c :: ·)) else none
  | c :: cs => if isSpecial c then none else (read? cs).map (·.modifyHead (c :: ·))

/-- The first of the alternatives that the text begins with. -/
def firstAt? (alternatives : List (List Char)) (cs : List Char) : Option (List Char) :=
  alternatives.find? (·.isPrefixOf cs)

/-- Replaces what the alternatives find in a text, the first `skip` characters of which belong to what
has been found. -/
def replaceFrom (alternatives : List (List Char)) (value : List Char → List Char) :
    Nat → List Char → List Char
  | _, [] => []
  | skip + 1, _ :: cs => replaceFrom alternatives value skip cs
  | 0, c :: cs =>
    match firstAt? alternatives (c :: cs) with
    | some found => value found ++ replaceFrom alternatives value (found.length - 1) cs
    | none => c :: replaceFrom alternatives value 0 cs

end Alternation

/-! ### Tokens and their values -/

/-- Tokens with the values that stand in for them. -/
structure Substitution where
  values : Table String
  token_ne_empty : values.get? "" = none

namespace Substitution

/-- The substitution of a table of tokens. -/
def ofTable (t : Table String) : Substitution where
  values := t.filter (· ≠ "")
  token_ne_empty := Table.get?_filter

/-- Whether there is nothing to replace. -/
def isEmpty (s : Substitution) : Bool :=
  s.values.isEmpty

/-- Puts a token in front of the first one that is not longer. -/
def insertToken (token : String) : List String → List String
  | [] => [token]
  | other :: rest =>
    if token.utf8ByteSize < other.utf8ByteSize then other :: insertToken token rest
    else token :: other :: rest

/-- The tokens, the longest first. Those of one length stay in the order of the table. -/
def tokens (s : Substitution) : List String :=
  (s.values.entries.map (·.1)).foldr insertToken []

/-- The text of the pattern that finds the tokens, if there are any. -/
def pattern (s : Substitution) : Option String :=
  if s.isEmpty then none
  else some (String.ofList (Alternation.write (s.tokens.map String.toList)))

/-- The value of a token that has been found. -/
def value (s : Substitution) (token : List Char) : List Char :=
  ((s.values.get? (String.ofList token)).getD "").toList

/-- The line with every token replaced by its value. -/
def apply (s : Substitution) (line : String) : String :=
  match s.pattern.bind (Alternation.read? ·.toList) with
  | some alternatives =>
    String.ofList (Alternation.replaceFrom alternatives s.value 0 line.toList)
  | none => line

end Substitution

end WorkflowAreas
