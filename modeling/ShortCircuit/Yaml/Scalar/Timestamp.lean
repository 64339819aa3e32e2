import ShortCircuit.Decimal.Reading
import ShortCircuit.Failure

/-!
# Timestamps

A timestamp is a date, or a date with a time of day and perhaps an offset from universal time.
-/

namespace ShortCircuit.Yaml

/-- The offset at the end of a timestamp, in minutes. -/
inductive Zone where
  | unknown
  | universal
  | offset (minutes : Int)
  deriving DecidableEq, Repr

structure TimeOfDay where
  hour : Nat
  minute : Nat
  second : Nat
  microsecond : Nat
  zone : Zone
  deriving Repr

structure Timestamp where
  date : Date
  /-- Whether the month and the day have two digits. -/
  isPadded : Bool
  time : Option TimeOfDay
  deriving Repr

namespace Timestamp

/-- Reads the given number of digits. -/
def digits? (count : Nat) (cs : List Char) : Option (Nat × List Char) :=
  let digits := cs.take count
  if digits.length == count && digits.all Char.isDigit then
    some (Decimal.ofDigits digits, cs.drop count)
  else none

/-- Reads one digit, or two if there are two. -/
def upToTwo? (cs : List Char) : Option (Nat × List Char) :=
  match digits? 2 cs with
  | some r => some r
  | none => digits? 1 cs

/-- Reads the given character. -/
def expect? (c : Char) : List Char → Option (List Char)
  | d :: rest => if d == c then some rest else none
  | [] => none

/-- The digits of a fraction of a second as a number of microseconds. -/
def microseconds (digits : List Char) : Nat :=
  Decimal.ofDigits ((digits ++ List.replicate 6 '0').take 6)

/-- Reads the fraction of a second, if there is one. -/
def fraction (cs : List Char) : Nat × List Char :=
  match cs with
  | '.' :: rest => (microseconds (rest.takeWhile Char.isDigit), rest.dropWhile Char.isDigit)
  | cs => (0, cs)

/-- Reads the hours and minutes of an offset, up to the end. -/
def offset? (cs : List Char) : Option Nat := do
  let (hours, rest) ← upToTwo? cs
  if rest.isEmpty then return hours * 60
  let (minutes, rest) ← digits? 2 (← expect? ':' rest)
  guard rest.isEmpty
  return hours * 60 + minutes

/-- Reads the offset at the end of a timestamp, if there is one. -/
def zone? (cs : List Char) : Option Zone :=
  if cs.isEmpty then some .unknown
  else match cs.dropWhile fun c ↦ c == ' ' || c == '\t' with
    | ['Z'] => some .universal
    | '+' :: rest => (offset? rest).map fun n ↦ .offset n
    | '-' :: rest => (offset? rest).map fun n ↦ .offset (-n)
    | _ => none

/-- Reads a time of day, up to the end. -/
def timeOfDay? (cs : List Char) : Option TimeOfDay := do
  let (hour, rest) ← upToTwo? cs
  let (minute, rest) ← digits? 2 (← expect? ':' rest)
  let (second, rest) ← digits? 2 (← expect? ':' rest)
  let (microsecond, rest) := fraction rest
  return ⟨hour, minute, second, microsecond, ← zone? rest⟩

/-- Reads a time of day behind a letter or blanks. -/
def laterTime? (cs : List Char) : Option TimeOfDay :=
  match cs with
  | 'T' :: rest | 't' :: rest => timeOfDay? rest
  | c :: rest =>
    if c == ' ' || c == '\t' then timeOfDay? (rest.dropWhile fun c ↦ c == ' ' || c == '\t')
    else none
  | [] => none

/-- Reads a timestamp. -/
def ofChars? (cs : List Char) : Option Timestamp := do
  let (year, rest) ← digits? 4 cs
  let fromMonth ← expect? '-' rest
  let (month, rest) ← upToTwo? fromMonth
  let fromDay ← expect? '-' rest
  let (day, rest) ← upToTwo? fromDay
  let isPadded := (digits? 2 fromMonth).isSome && (digits? 2 fromDay).isSome
  if rest.isEmpty then return ⟨⟨year, month, day⟩, isPadded, none⟩
  return ⟨⟨year, month, day⟩, isPadded, some (← laterTime? rest)⟩

/-- Whether a plain scalar may be such a timestamp: a date alone must be padded. -/
def isPlain (t : Timestamp) : Bool := t.isPadded || t.time.isSome

/-- The offset of a moment. -/
def Zone.minutes? : Zone → Option Int
  | .unknown => none
  | .universal => some 0
  | .offset minutes => some minutes

/-- The date or moment of a timestamp, if there is such a one. -/
def toValue (t : Timestamp) : Except Failure Value :=
  match t.time with
  | none => match t.date.fault? with
    | some fault => .error (.impossibleDate fault)
    | none => .ok (.date t.date)
  | some time =>
    let offset := Zone.minutes? time.zone
    if offset.any fun minutes ↦ 1440 ≤ minutes.natAbs then .error (.offsetTooGreat (offset.getD 0))
    else
      let m : Moment := ⟨t.date, time.hour, time.minute, time.second, time.microsecond, offset⟩
      match m.fault? with
      | some fault => .error (.impossibleDate fault)
      | none => .ok (.moment m)

end Timestamp

end ShortCircuit.Yaml
