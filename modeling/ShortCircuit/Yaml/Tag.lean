import ShortCircuit.Yaml.Scalar.Timestamp

/-!
# Tags

What a node stands for: either as its tag says, or as follows from its kind and, for a plain
scalar, from its text. A line end at the end of the text does not count.
-/

namespace ShortCircuit.Yaml

inductive Tag where
  | null
  | bool
  | int
  | float
  | binary
  | timestamp
  | text
  | sequence
  | mapping
  | set
  /-- A sequence of mappings with one entry each, as a list of pairs. -/
  | pairs
  /-- The key of entries that are merged into a mapping. -/
  | merge
  /-- The key of the value that a mapping has as a whole. -/
  | value
  | unknown
  deriving DecidableEq, Repr

namespace Tag

/-- What the names of the tags start with. -/
def stem : String := "tag:yaml.org,2002:"

/-- The tags by the rest of their names. -/
def names : List (String × Tag) :=
  [("null", .null), ("bool", .bool), ("int", .int), ("float", .float), ("binary", .binary),
    ("timestamp", .timestamp), ("str", .text), ("seq", .sequence), ("map", .mapping),
    ("set", .set), ("omap", .pairs), ("pairs", .pairs), ("merge", .merge), ("value", .value)]

/-- The tag of a name. -/
def ofName (name : String) : Tag :=
  match names.find? fun n ↦ stem ++ n.1 == name with
  | some n => n.2
  | none => .unknown

/-! ## Plain scalars -/

def nullWords : List String := ["~", "null", "Null", "NULL"]

def boolWords : List String :=
  ["yes", "Yes", "YES", "no", "No", "NO", "true", "True", "TRUE", "false", "False", "FALSE", "on",
    "On", "ON", "off", "Off", "OFF"]

/-- Whether there is a character and all are of a kind. -/
def isRun (p : Char → Bool) (cs : List Char) : Bool := !cs.isEmpty && cs.all p

/-- Whether a character may stand in a group of decimal digits. -/
def isGrouped (c : Char) : Bool := c.isDigit || c == '_'

/-- Whether characters are digits, which may be grouped by underscores behind the first one. -/
def isNumeral : List Char → Bool
  | [] => false
  | c :: rest => c.isDigit && rest.all isGrouped

/-- Whether a number below sixty is written with one or two digits. -/
def isSixtieth : List Char → Bool
  | [c] => c.isDigit
  | [c, d] => '0' ≤ c && c ≤ '5' && d.isDigit
  | _ => false

/-- The parts between colons. -/
def colonParts (cs : List Char) : List (List Char) := cs.splitOn ':'

/-- Whether a number in base sixty is written, its first part of a kind. -/
def isSexagesimal (first : List Char → Bool) (cs : List Char) : Bool :=
  match colonParts cs with
  | part :: next :: rest => first part && (next :: rest).all isSixtieth
  | _ => false

/-- Whether an integer without a sign is written. -/
def isUnsignedInt (cs : List Char) : Bool :=
  match cs with
  | ['0'] => true
  | '0' :: 'b' :: digits => isRun (fun c ↦ c == '0' || c == '1' || c == '_') digits
  | '0' :: 'x' :: digits => isRun (fun c ↦ (Decimal.hexDigit? c).isSome || c == '_') digits
  | '0' :: digits => isRun (fun c ↦ ('0' ≤ c && c ≤ '7') || c == '_') digits
  | cs => isNumeral cs || isSexagesimal isNumeral cs

/-- Whether an exponent, which must have a sign, or nothing is written. -/
def isExponent : List Char → Bool
  | [] => true
  | e :: sign :: digits => (e == 'e' || e == 'E') && (sign == '+' || sign == '-') &&
      isRun Char.isDigit digits
  | _ => false

/-- Whether a fraction without its point, and perhaps an exponent, is written. -/
def isFraction (cs : List Char) : Bool := isExponent (cs.dropWhile isGrouped)

/-- Whether a double without a sign, starting with a digit, is written. -/
def isUnsignedFloat (cs : List Char) : Bool :=
  match cs.span (· != '.') with
  | (whole, _ :: fraction) =>
    (isNumeral whole && isFraction fraction) ||
      (isSexagesimal isNumeral whole && fraction.all isGrouped)
  | _ => false

/-- The characters behind a sign, if there is one. -/
def unsigned (cs : List Char) : List Char := (Decimal.signed cs).2

/-- Whether a double is written. One that starts with its point has no sign. -/
def isFloat (cs : List Char) : Bool :=
  isUnsignedFloat (unsigned cs) || [".inf", ".Inf", ".INF"].contains (String.ofList (unsigned cs)) ||
    [".nan", ".NaN", ".NAN"].contains (String.ofList cs) ||
    match cs with
    | '.' :: d :: rest => d.isDigit && isFraction rest
    | _ => false

/-- The text without a line end at its end. -/
def withoutLineEnd (cs : List Char) : List Char :=
  if cs.getLast? == some '\n' then cs.dropLast else cs

/-- What a plain scalar of the given characters, at least one, stands for. -/
def ofChars (cs : List Char) : Tag :=
  let word := String.ofList cs
  if boolWords.contains word then .bool
  else if isFloat cs then .float
  else if isUnsignedInt (unsigned cs) then .int
  else if word == "<<" then .merge
  else if nullWords.contains word then .null
  else if (Timestamp.ofChars? cs).any Timestamp.isPlain then .timestamp
  else if word == "=" then .value
  else if ["!", "&", "*"].contains word then .unknown
  else .text

/-- What a plain scalar stands for. -/
def ofPlain (t : Text) : Tag :=
  if t.isEmpty then .null else ofChars (withoutLineEnd (t.map CodePoint.toChar))

end Tag

end ShortCircuit.Yaml
