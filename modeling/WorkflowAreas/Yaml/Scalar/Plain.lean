import WorkflowAreas.Yaml.Scalar.Gap

/-!
# Plain scalars

A plain scalar goes on until a colon before a gap, a comment, a sign between documents or, in a flow
collection, one of the signs of the collection. Outside flow collections every further line has to be
indented more than the block around it.
-/

namespace WorkflowAreas.Yaml.Plain

/-- The signs that end a plain scalar in a flow collection. -/
def flowSigns : List Char :=
  [',', '[', ']', '\x7b', '\x7d']

/-- How many characters the next part of a plain scalar has. A colon right before a sign of a flow
collection is refused there. -/
def partLength (inFlow : Bool) : List Char → Except Problem Nat
  | [] => .ok 0
  | ch :: cs =>
    if isGap (some ch) then .ok 0
    else if inFlow && ch == ':' && cs.head?.any ('?' :: flowSigns).contains then
      .error .colonBeforeIndicator
    else if ch == ':' && isGap cs.head? then .ok 0
    else if inFlow && flowSigns.contains ch then .ok 0
    else (partLength inFlow cs).map (· + 1)

/-- Reads parts and the gaps between them, `fuel` of them at most. The gap that is still open at the
end is given back. -/
def readParts (inFlow : Bool) (indent : Nat) :
    Nat → List Char → Gap → Cursor → Except Problem (List Char × Gap × Cursor)
  | 0, text, gap, c => .ok (text, gap, c)
  | fuel + 1, text, gap, c => do
    if c.atDocumentSign || c.atChar '#' then return (text, gap, c)
    let length ← partLength inFlow c.rest
    let (text, gap) :=
      if length = 0 then (text, gap) else (text ++ gap.text ++ c.rest.take length, Gap.none)
    let c := c.skip length
    if !(c.atBlank || c.atBreak) then return (text, gap, c)
    let (gap, c) ← gap.read indent c
    if !inFlow && c.column < indent then return (text, gap, c)
    readParts inFlow indent fuel text gap c

/-- Reads a plain scalar, the lines of which are indented by `indent` at least. The answer tells
whether a line break came last. -/
def read (inFlow : Bool) (indent : Nat) (c : Cursor) :
    Except Problem (List Char × Bool × Cursor) := do
  let (text, gap, c) ← readParts inFlow indent (c.rest.length + 1) [] Gap.none c
  return (text, gap.isFolded, c)

end WorkflowAreas.Yaml.Plain
