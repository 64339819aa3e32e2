/-!
# Reading decimal notation

The notations of integers and doubles that a scalar of a configuration, or a number given as a
text, may use. Digits may be grouped by single underscores.
-/

namespace ShortCircuit.Decimal

/-- The number of decimal digits beyond which integers are neither read nor written. -/
def digitLimit : Nat := 4300

/-- The double nearest to `± digits · 10 ^ exponent`. -/
def toFloat (negative : Bool) (digits : Nat) (exponent : Int) : Float :=
  let size : Int := (Nat.toDigits 10 digits).length
  let magnitude : Float :=
    if digits == 0 then 0
    else if size + exponent > 400 then 1.0 / 0.0
    else if size + exponent < -400 then 0
    else Float.ofScientific digits (exponent < 0) exponent.natAbs
  if negative then -magnitude else magnitude

def digit? (c : Char) : Option Nat :=
  if '0' ≤ c && c ≤ '9' then some (c.toNat - '0'.toNat) else none

/-- The value of a digit in notation of any base up to 36. -/
def baseDigit? (c : Char) : Option Nat :=
  if '0' ≤ c && c ≤ '9' then some (c.toNat - '0'.toNat)
  else if 'a' ≤ c && c ≤ 'z' then some (c.toNat - 'a'.toNat + 10)
  else if 'A' ≤ c && c ≤ 'Z' then some (c.toNat - 'A'.toNat + 10)
  else none

/-- The value of a hexadecimal digit. -/
def hexDigit? (c : Char) : Option Nat := (baseDigit? c).filter (· < 16)

/-- The number that hexadecimal digits stand for. -/
def hexNumber? (cs : List Char) : Option Nat :=
  cs.foldlM (fun n c ↦ (hexDigit? c).map (16 * n + ·)) 0

/-- The number that plain decimal digits stand for; other characters count as zero. -/
def ofDigits (cs : List Char) : Nat :=
  cs.foldl (fun n c ↦ 10 * n + (digit? c).getD 0) 0

/-- Reads digits that may be grouped by single underscores, each between two digits. Gives the
digits and what follows them. -/
def grouped (cs : List Char) : List Char × List Char :=
  go [] cs
where
  /-- Continues after the digits `before`, given backwards. -/
  go (before : List Char) : List Char → List Char × List Char
    | [] => (before.reverse, [])
    | c :: rest =>
      if c.isDigit then go (c :: before) rest
      else match c, before, rest with
        | '_', _ :: _, d :: rest' =>
          if d.isDigit then go (d :: before) rest' else (before.reverse, c :: rest)
        | _, _, _ => (before.reverse, c :: rest)

/-- Reads a sign, if there is one. -/
def signed : List Char → Bool × List Char
  | '-' :: rest => (true, rest)
  | '+' :: rest => (false, rest)
  | cs => (false, cs)

/-- The exponent part at the end of a number. -/
def exponent? : List Char → Option Int
  | [] => some 0
  | c :: rest =>
    if c == 'e' || c == 'E' then
      let (negative, rest) := signed rest
      match grouped rest with
      | ([], _) => none
      | (digits, []) => some (if negative then -(ofDigits digits : Int) else ofDigits digits)
      | _ => none
    else none

/-- Reads a whole list of characters as a double, in the decimal notation or as one of the names
of the infinities and of no number at all, in either case. Blanks around it have been removed. -/
def float? (cs : List Char) : Option Float :=
  let (negative, unsigned) := signed cs
  let word := String.ofList (unsigned.map Char.toLower)
  if word == "inf" || word == "infinity" then
    some (if negative then -1.0 / 0.0 else 1.0 / 0.0)
  else if word == "nan" then some (0.0 / 0.0)
  else
    let (whole, rest) := grouped unsigned
    let (fraction, rest) := match rest with
      | '.' :: rest => grouped rest
      | rest => ([], rest)
    if whole.isEmpty && fraction.isEmpty then none
    else (exponent? rest).map fun e ↦
      toFloat negative (ofDigits (whole ++ fraction)) (e - fraction.length)

end ShortCircuit.Decimal
