import ShortCircuit.Decimal.Reading
import ShortCircuit.Text.CodePoint

/-!
# Numbers in any script

The decimal digits of every script are digits, and every blank of Unicode may stand around a
number.
-/

namespace ShortCircuit.Decimal

/-- The code points of the digits zero. The other digits of a script follow its zero. -/
def zeros : List Nat :=
  [0x660, 0x6F0, 0x7C0, 0x966, 0x9E6, 0xA66, 0xAE6, 0xB66, 0xBE6, 0xC66, 0xCE6, 0xD66, 0xDE6, 0xE50,
    0xED0, 0xF20, 0x1040, 0x1090, 0x17E0, 0x1810, 0x1946, 0x19D0, 0x1A80, 0x1A90, 0x1B50, 0x1BB0,
    0x1C40, 0x1C50, 0xA620, 0xA8D0, 0xA900, 0xA9D0, 0xA9F0, 0xAA50, 0xABF0, 0xFF10, 0x104A0,
    0x10D30, 0x11066, 0x110F0, 0x11136, 0x111D0, 0x112F0, 0x11450, 0x114D0, 0x11650, 0x116C0,
    0x11730, 0x118E0, 0x11950, 0x11C50, 0x11D50, 0x11DA0, 0x16A60, 0x16AC0, 0x16B50, 0x1D7CE,
    0x1D7D8, 0x1D7E2, 0x1D7EC, 0x1D7F6, 0x1E140, 0x1E2F0, 0x1E950, 0x1FBF0]

/-- Whether a code point outside of ASCII is a blank. -/
def isWideBlank (n : Nat) : Bool :=
  n == 0x85 || n == 0xA0 || n == 0x1680 || (0x2000 ≤ n && n ≤ 0x200A) || n == 0x2028 ||
    n == 0x2029 || n == 0x202F || n == 0x205F || n == 0x3000

/-- The character of ASCII that a code point counts as in a number. -/
def plainChar (p : CodePoint) : Char :=
  if p.value < 0x7F then p.toChar
  else if isWideBlank p.value then ' '
  else match zeros.find? fun z ↦ z ≤ p.value && p.value < z + 10 with
    | some z => Char.ofNat ('0'.toNat + (p.value - z))
    | none => '?'

def isBlank (c : Char) : Bool :=
  c == ' ' || c == '\t' || c == '\n' || c == '\x0b' || c == '\x0c' || c == '\r'

/-- A text as the characters of a number, without the blanks around it. -/
def trimmed (t : Text) : List Char :=
  (((t.map plainChar).dropWhile isBlank).reverse.dropWhile isBlank).reverse

/-- Reads a text as a double. -/
def double? (t : Text) : Option Float := float? (trimmed t)

/-- Why a text is not read as an integer. -/
inductive IntegerFault where
  | malformed
  | tooLong (digits : Nat)
  deriving DecidableEq, Repr

/-- The letter behind a zero that announces a base. -/
def baseLetter? (base : Nat) : Option Char :=
  if base == 2 then some 'b' else if base == 8 then some 'o' else if base == 16 then some 'x' else none

/-- Removes what announces the base. -/
def withoutBase (base : Nat) : List Char → List Char
  | '0' :: c :: rest => if baseLetter? base == some c.toLower then rest else '0' :: c :: rest
  | cs => cs

def isDigitOf (base : Nat) (c : Char) : Bool := (baseDigit? c).any (· < base)

/-- The number that digits of a base stand for. -/
def ofBaseDigits (base : Nat) (cs : List Char) : Nat :=
  cs.foldl (fun n c ↦ base * n + (baseDigit? c).getD 0) 0

/-- Reads a text as an integer in a base. The number of digits is limited in base ten only. -/
def integer (base : Nat) (t : Text) : Except IntegerFault Int :=
  let (negative, unsigned) := signed (trimmed t)
  let cs := withoutBase base unsigned
  let digits := cs.takeWhile (isDigitOf base)
  if digits.isEmpty then .error .malformed
  else if base == 10 && digitLimit < digits.length then .error (.tooLong digits.length)
  else if digits.length < cs.length then .error .malformed
  else
    let n : Int := ofBaseDigits base digits
    .ok (if negative then -n else n)

end ShortCircuit.Decimal
