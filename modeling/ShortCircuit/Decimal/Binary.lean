/-!
# Binary floating-point numbers

A finite double is `± mantissa · 2 ^ exponent`. Everything that is exact about a double, its order
among the integers and its decimal notation, is computed from this form.
-/

namespace ShortCircuit

/-- A finite double: `mantissa · 2 ^ exponent`, with its sign. -/
structure Binary where
  negative : Bool
  mantissa : Nat
  exponent : Int
  /-- Whether the next double towards zero is nearer than the next one away from it. -/
  atBinade : Bool
  deriving Repr

/-- A double by kind. -/
inductive Double where
  | nan
  | infinity (negative : Bool)
  | finite (b : Binary)
  deriving Repr

/-- Reads the bits of a double. -/
def Double.ofFloat (x : Float) : Double :=
  let bits := x.toBits.toNat
  let negative := bits / Nat.pow 2 63 == 1
  let biased : Nat := bits / Nat.pow 2 52 % Nat.pow 2 11
  let fraction : Nat := bits % Nat.pow 2 52
  if biased == 2047 then
    if fraction == 0 then .infinity negative else .nan
  else if biased == 0 then
    .finite ⟨negative, fraction, -1074, false⟩
  else
    .finite ⟨negative, fraction + Nat.pow 2 52, (biased : Int) - 1075, fraction == 0 && biased > 1⟩

namespace Binary

/-- The magnitude as a quotient of two natural numbers. -/
def quotient (b : Binary) : Nat × Nat :=
  (b.mantissa * Nat.pow 2 b.exponent.toNat, Nat.pow 2 (-b.exponent).toNat)

/-- The value as an integer, if it is one. -/
def toInt? (b : Binary) : Option Int :=
  let (numerator, denominator) := b.quotient
  if numerator % denominator == 0 then
    let n : Int := numerator / denominator
    some (if b.negative then -n else n)
  else
    none

end Binary

end ShortCircuit
