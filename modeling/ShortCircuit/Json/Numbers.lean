import ShortCircuit.Decimal.Reading
import ShortCircuit.Json.Strings
import ShortCircuit.Value.Basic

/-!
# Numbers of JSON

A number is an integer, or a double if it has a fraction or an exponent. A fraction or an exponent
without digits is not part of the number.
-/

namespace ShortCircuit.Json

/-- How much a reader takes: the greatest number of digits of an integer, and how deep values may
be nested. -/
structure Limits where
  digits : Option Nat
  nesting : Nat

/-- The whole part of a number: a zero, or digits that start with another one. -/
def wholePart (cs : List Char) : List Char × List Char :=
  match cs with
  | '0' :: rest => (['0'], rest)
  | cs => (cs.takeWhile Char.isDigit, cs.dropWhile Char.isDigit)

/-- The fraction of a number without its point, or nothing if there is none. -/
def fractionPart (cs : List Char) : List Char × List Char :=
  match cs with
  | '.' :: rest =>
    if (rest.takeWhile Char.isDigit).isEmpty then ([], cs)
    else (rest.takeWhile Char.isDigit, rest.dropWhile Char.isDigit)
  | cs => ([], cs)

/-- The exponent of a number. -/
structure Exponent where
  negative : Bool
  digits : List Char
  /-- The number of characters that spell the exponent. -/
  width : Nat

/-- The exponent of a number, or nothing if there is none. -/
def exponentPart (cs : List Char) : Option Exponent × List Char :=
  match cs with
  | c :: rest =>
    if c == 'e' || c == 'E' then
      let (negative, signWidth, rest) := match rest with
        | '-' :: rest => (true, 1, rest)
        | '+' :: rest => (false, 1, rest)
        | rest => (false, 0, rest)
      let digits := rest.takeWhile Char.isDigit
      if digits.isEmpty then (none, cs)
      else (some ⟨negative, digits, 1 + signWidth + digits.length⟩, rest.dropWhile Char.isDigit)
    else (none, cs)
  | [] => (none, [])

/-- The exponent as an integer. -/
def Exponent.toInt (e : Exponent) : Int :=
  if e.negative then -(Decimal.ofDigits e.digits : Int) else Decimal.ofDigits e.digits

/-- Whether an integer has more digits than a reader takes. -/
def Limits.excludes (limits : Limits) (digits : Nat) : Bool :=
  match limits.digits with
  | some most => most < digits
  | none => false

/-- Reads a number. -/
def number (limits : Limits) (c : Cursor) : Reading Value :=
  let (negative, unsigned) := match c.rest with
    | '-' :: rest => (true, rest)
    | rest => (false, rest)
  let (whole, afterWhole) := wholePart unsigned
  if whole.isEmpty then .error (.fault .expectingValue c.offset)
  else
    let (fraction, afterFraction) := fractionPart afterWhole
    let (exponent, rest) := exponentPart afterFraction
    let fractionWidth := if fraction.isEmpty then 0 else 1 + fraction.length
    let width := negative.toNat + whole.length + fractionWidth + exponent.elim 0 (·.width)
    let next : Cursor := ⟨c.offset + width, rest⟩
    if fraction.isEmpty && exponent.isNone then
      if limits.excludes whole.length then .error (.literalTooLong whole.length)
      else
        let n : Int := Decimal.ofDigits whole
        .ok (.int (if negative then -n else n), next)
    else
      let x := Decimal.toFloat negative (Decimal.ofDigits (whole ++ fraction))
        (exponent.elim 0 Exponent.toInt - fraction.length)
      .ok (.float c.offset x, next)

end ShortCircuit.Json
