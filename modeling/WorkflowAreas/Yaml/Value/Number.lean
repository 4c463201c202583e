/-!
# Texts that read as numbers

A text that YAML reads as a number has to be quoted when it is meant as text. These are decimal and
prefixed whole numbers of up to 128 bits, decimal fractions with or without exponent whose size a
double-precision number can hold, and the names of infinity and of what is no number.
-/

namespace WorkflowAreas.Yaml.Number

/-- Whether the text begins with a sign. -/
def isSigned (cs : List Char) : Bool :=
  cs.head?.any fun c ↦ c == '+' || c == '-'

/-- The text without this character in front. -/
def dropSign (sign : Char) (cs : List Char) : List Char :=
  if cs.head? == some sign then cs.tail else cs

/-- The value of a digit in some base up to sixteen. -/
def digit? (base : Nat) (c : Char) : Option Nat :=
  let n :=
    if c.isDigit then c.toNat - '0'.toNat
    else if 'a' ≤ c && c ≤ 'f' then c.toNat - 'a'.toNat + 10
    else if 'A' ≤ c && c ≤ 'F' then c.toNat - 'A'.toNat + 10
    else base
  if n < base then some n else none

/-- The number that digits show. There is at least one. -/
def digits? (base : Nat) (cs : List Char) : Option Nat :=
  if cs.isEmpty then none else cs.foldlM (fun n c ↦ (digit? base c).map (base * n + ·)) 0

/-- Digits that a leading zero keeps from being a number. -/
def isZeroPadded (cs : List Char) : Bool :=
  let cs := if isSigned cs then cs.tail else cs
  1 < cs.length && cs.head? == some '0' && cs.all Char.isDigit

/-- The signs of the bases that are written out. -/
def bases : List (String × Nat) :=
  [("0x", 16), ("0o", 8), ("0b", 2)]

/-- Whether the text shows a number of at most `bound` in a base that is written out. -/
def hasBase (bound : Nat) (cs : List Char) : Bool :=
  bases.any fun (sign, base) ↦
    ((sign.toList.isPrefixOf? cs).bind (digits? base)).any (· ≤ bound)

/-- Whether the text shows a whole number from `-2 ^ 127` to `2 ^ 128 - 1`. -/
def isWhole (cs : List Char) : Bool :=
  let unsigned := dropSign '+' cs
  let decimal (bound : Nat) (cs : List Char) := (digits? 10 cs).any (· ≤ bound)
  hasBase (Nat.pow 2 128 - 1) unsigned ||
    !isZeroPadded cs && decimal (Nat.pow 2 128 - 1) unsigned ||
    cs.head? == some '-' &&
      (hasBase (Nat.pow 2 127) cs.tail || !isZeroPadded cs && decimal (Nat.pow 2 127) cs.tail)

/-- The names of infinity, without sign. -/
def infinities : List String :=
  [".inf", ".Inf", ".INF"]

/-- The names of what is no number. -/
def notNumbers : List String :=
  [".nan", ".NaN", ".NAN"]

/-- The digits of a text with those after its point, and the text behind them. -/
def mantissa (cs : List Char) : List Char × List Char × List Char :=
  let whole := cs.takeWhile Char.isDigit
  match cs.dropWhile Char.isDigit with
  | '.' :: rest => (whole, rest.takeWhile Char.isDigit, rest.dropWhile Char.isDigit)
  | rest => (whole, [], rest)

/-- The exponent that a text shows, zero if it is empty. -/
def exponent? (cs : List Char) : Option Int :=
  match cs with
  | [] => some 0
  | e :: rest =>
    if e == 'e' || e == 'E' then
      match rest with
      | '-' :: ds => (digits? 10 ds).map fun n ↦ -Int.ofNat n
      | '+' :: ds => (digits? 10 ds).map Int.ofNat
      | ds => (digits? 10 ds).map Int.ofNat
    else none

/-- Whether `m * 10 ^ e` stays below the numbers that round to infinity in double precision. -/
def isFinite (m : Nat) (e : Int) : Bool :=
  let infinite := Nat.pow 2 1024 - Nat.pow 2 970
  if m = 0 then true
  else if 400 < e then false
  else if 0 ≤ e then m * Nat.pow 10 e.toNat < infinite
  else
    let places := (-e).toNat
    let digits := (Nat.toDigits 10 m).length
    if digits ≤ places then true else m < infinite * Nat.pow 10 places

/-- Whether the text shows a decimal fraction of finite size. -/
def isFraction (cs : List Char) : Bool :=
  let (whole, places, rest) := mantissa (dropSign '-' cs)
  match digits? 10 (whole ++ places), exponent? rest with
  | some m, some e => isFinite m (e - places.length)
  | _, _ => false

/-- Whether the text reads as a number that need not be whole. -/
def isFloating (cs : List Char) : Bool :=
  let isOf (names : List String) (cs : List Char) := names.contains (String.ofList cs)
  let unsigned := dropSign '+' cs
  !(cs.head? == some '+' && isSigned unsigned) &&
    (isOf infinities unsigned || cs.head? == some '-' && isOf infinities cs.tail ||
      isOf notNumbers cs || isFraction unsigned)

/-- Whether the text reads as a number, or as digits that only a leading zero keeps from being one. -/
def isNumeric (cs : List Char) : Bool :=
  isZeroPadded cs || isWhole cs || isFloating cs

end WorkflowAreas.Yaml.Number
