import ShortCircuit.Decimal.Binary

/-!
# Shortest decimal notation of a double

A finite double is written with the fewest significant digits that read back as the same double,
and among those with the digits nearest to it. Notation is positional when the decimal exponent is
at least -4 and below 16, and scientific otherwise.
-/

namespace ShortCircuit

namespace Binary

/-- The number of decimal digits of a natural number; zero has one. -/
def digitCount (n : Nat) : Nat := (Nat.toDigits 10 n).length

/-- The exponent `k` with `10 ^ k ≤ numerator / denominator < 10 ^ (k + 1)`. -/
def decimalExponent (numerator denominator : Nat) : Int :=
  if denominator ≤ numerator then
    (digitCount (numerator / denominator) : Int) - 1
  else
    -(digitCount ((denominator - 1) / numerator) : Int)

/-- The bounds of the interval of numbers that round to the double, in quarters of the unit of its
mantissa, and whether the bounds themselves do. -/
def roundingInterval (b : Binary) : Nat × Nat × Bool :=
  (4 * b.mantissa - (if b.atBinade then 1 else 2), 4 * b.mantissa + 2, b.mantissa % 2 == 0)

/-- The multiple of `10 ^ unit` that is nearest to the double among those that round to it. Of two
that are equally near the even multiple is taken. -/
def nearestOnGrid? (b : Binary) (unit : Int) : Option Nat :=
  let (low, high, closed) := b.roundingInterval
  -- a multiple `d` is compared with `x` quarters of the mantissa's unit as `d * scale` with
  -- `x * weight`
  let scale := 4 * Nat.pow 10 unit.toNat * Nat.pow 2 (-b.exponent).toNat
  let weight := Nat.pow 10 (-unit).toNat * Nat.pow 2 b.exponent.toNat
  let inside (d : Nat) : Bool :=
    let x := d * scale
    (low * weight < x && x < high * weight) ||
      (closed && (x == low * weight || x == high * weight))
  let value := 4 * b.mantissa * weight
  let below := value / scale
  let above := below + 1
  match inside below, inside above with
  | false, false => none
  | true, false => some below
  | false, true => some above
  | true, true =>
    let short := value - below * scale
    let excess := above * scale - value
    if short < excess then some below
    else if excess < short then some above
    else if below % 2 == 0 then some below else some above

/-- The significant digits of the shortest notation and the exponent of the first of them, found
by trying `count` digits and more. Seventeen digits always suffice. -/
def shortestFrom (b : Binary) (leading : Int) (count : Nat) : (fuel : Nat) → Nat × Int
  | 0 => (b.mantissa, b.exponent)
  | fuel + 1 =>
    let unit := leading + 1 - count
    match b.nearestOnGrid? unit with
    | some d => (d, unit)
    | none => shortestFrom b leading (count + 1) fuel

/-- The shortest notation as digits and the power of ten of the last of them. -/
def shortest (b : Binary) : Nat × Int :=
  let (numerator, denominator) := b.quotient
  b.shortestFrom (decimalExponent numerator denominator) 1 17

end Binary

/-- Drops the zeros at the end of a list of digits. -/
def trimZeros (digits : List Char) : List Char :=
  (digits.reverse.dropWhile (· == '0')).reverse

/-- The notation of the digits `d₁d₂d₃…`, standing for `d₁.d₂d₃… · 10 ^ exponent`. -/
def positionalOrScientific (digits : List Char) (exponent : Int) : String :=
  if -4 ≤ exponent && exponent < 16 then
    if exponent < 0 then
      "0." ++ String.ofList (List.replicate (-exponent - 1).toNat '0' ++ digits)
    else
      let places := exponent.toNat + 1
      let whole := digits.take places ++ List.replicate (places - digits.length) '0'
      let fraction := digits.drop places
      String.ofList whole ++ "." ++ (if fraction.isEmpty then "0" else String.ofList fraction)
  else
    let mantissa := match digits with
      | d :: [] => String.ofList [d]
      | d :: rest => String.ofList (d :: '.' :: rest)
      | [] => "0"
    let size := toString exponent.natAbs
    let size := if size.length < 2 then "0" ++ size else size
    mantissa ++ "e" ++ (if exponent < 0 then "-" else "+") ++ size

namespace Binary

/-- The decimal notation of a finite double. -/
def decimal (b : Binary) : String :=
  let sign := if b.negative then "-" else ""
  if b.mantissa == 0 then sign ++ "0.0"
  else
    let (d, unit) := b.shortest
    let digits := Nat.toDigits 10 d
    sign ++ positionalOrScientific (trimZeros digits) (unit + digits.length - 1)

end Binary

/-- The decimal notation of a double. -/
def floatNotation (x : Float) : String :=
  match Double.ofFloat x with
  | .nan => "nan"
  | .infinity negative => if negative then "-inf" else "inf"
  | .finite b => b.decimal

end ShortCircuit
