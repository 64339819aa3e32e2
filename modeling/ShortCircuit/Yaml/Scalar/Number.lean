import ShortCircuit.Decimal.Script
import ShortCircuit.Failure
import ShortCircuit.Text.LowerCase

/-!
# Scalars that stand for numbers

Underscores in a number do not count. An integer may be written in base two, eight, ten or sixteen,
and both kinds of number in base sixty, with colons between their digits.
-/

namespace ShortCircuit.Yaml.Number

/-- The code point of a character of ASCII. -/
def point (c : Char) : CodePoint := .ofChar c

/-- The text without underscores. -/
def ungrouped (t : Text) : Text := t.filter fun p ↦ p != point '_'

/-- Whether a number is negative, and its text without the sign. There must be a character. -/
def unsigned (t : Text) : Except Failure (Bool × Text) :=
  match t with
  | [] => .error .emptyNumber
  | p :: rest =>
    if p == point '-' then .ok (true, rest)
    else if p == point '+' then .ok (false, rest)
    else .ok (false, t)

/-- The parts between colons. -/
def colonParts (t : Text) : List Text := t.splitOn (point ':')

/-- Reads an integer in a base. -/
def integerOf (base : Nat) (t : Text) : Except Failure Int :=
  match Decimal.integer base t with
  | .ok n => .ok n
  | .error .malformed => .error (.noInteger base t)
  | .error (.tooLong digits) => .error (.literalTooLong digits)

/-- Reads an integer without its sign. How it starts decides on the base. -/
def magnitude (t : Text) : Except Failure Int :=
  let zero := point '0'
  match t with
  | [] => .error .emptyNumber
  | p :: rest =>
    if p == zero && rest.isEmpty then .ok 0
    else if p == zero && rest.head? == some (point 'b') then integerOf 2 rest.tail
    else if p == zero && rest.head? == some (point 'x') then integerOf 16 rest.tail
    else if p == zero then integerOf 8 t
    else if t.contains (point ':') then do
      return (← (colonParts t).mapM (integerOf 10)).foldl (fun n digit ↦ n * 60 + digit) 0
    else integerOf 10 t

/-- The integer that a scalar tagged as one stands for. -/
def integer (t : Text) : Except Failure Int := do
  let (negative, t) ← unsigned (ungrouped t)
  let n ← magnitude t
  return if negative then -n else n

/-- Reads a double. -/
def doubleOf (t : Text) : Except Failure Float :=
  match Decimal.double? t with
  | some x => .ok x
  | none => .error (.noDouble t)

/-- The number whose digits in base sixty are given, the last one first, the next of them having
the weight `60 ^ place`. It is added up from its end, each sum being rounded. -/
def sexagesimal (sum : Float) (place : Nat) : List Float → Except Failure Float
  | [] => .ok sum
  | digit :: rest =>
    let weight := Nat.pow 60 place
    if (Decimal.toFloat false weight 0).isInf then .error .weightTooGreat
    else sexagesimal (sum + digit * Decimal.toFloat false weight 0) (place + 1) rest

/-- The double that a scalar tagged as one stands for, and whether it is the one that is no number
and has a name. -/
def double (t : Text) : Except Failure (Float × Bool) := do
  let (negative, t) ← unsigned (ungrouped t).toLower
  let signed (x : Float) : Float := if negative then -x else x
  if t == Text.ofString ".inf" then return (signed (1.0 / 0.0), false)
  else if t == Text.ofString ".nan" then return (0.0 / 0.0, true)
  else if t.contains (point ':') then
    let digits ← (colonParts t).mapM doubleOf
    return (signed (← sexagesimal 0 0 digits.reverse), false)
  else return (signed (← doubleOf t), false)

end ShortCircuit.Yaml.Number
