/-!
# Dates and moments

Dates of the Gregorian calendar from year 1 on, and moments: dates with a time of day and, if it is
known, an offset from universal time. Two moments of known offset are compared as instants.
-/

namespace ShortCircuit

structure Date where
  year : Nat
  month : Nat
  day : Nat
  deriving DecidableEq, Repr, Inhabited

/-- A date with a time of day, and its offset from universal time in minutes if it is known. -/
structure Moment where
  date : Date
  hour : Nat
  minute : Nat
  second : Nat
  microsecond : Nat
  offset : Option Int
  deriving DecidableEq, Repr, Inhabited

/-- Which part of a date or of a time of day is impossible. -/
inductive DateFault where
  | year (n : Nat)
  | month
  | day
  | hour
  | minute
  | second
  deriving DecidableEq, Repr

def DateFault.phrase : DateFault → String
  | .year n => s!"year {n} is out of range"
  | .month => "month must be in 1..12"
  | .day => "day is out of range for month"
  | .hour => "hour must be in 0..23"
  | .minute => "minute must be in 0..59"
  | .second => "second must be in 0..59"

def isLeapYear (year : Nat) : Bool := year % 4 == 0 && (year % 100 != 0 || year % 400 == 0)

/-- The number of days in each month of a year. -/
def monthLengths (year : Nat) : List Nat :=
  [31, if isLeapYear year then 29 else 28, 31, 30, 31, 30, 31, 31, 30, 31, 30, 31]

namespace Date

/-- The first part of the date that is impossible. -/
def fault? (d : Date) : Option DateFault :=
  if d.year = 0 then some (.year d.year)
  else if d.month = 0 then some .month
  else match (monthLengths d.year)[d.month - 1]? with
    | none => some .month
    | some length => if 1 ≤ d.day && d.day ≤ length then none else some .day

/-- The number of days from the first day of year 1 to a date. -/
def dayNumber (d : Date) : Nat :=
  let before := d.year - 1
  before * 365 + before / 4 - before / 100 + before / 400 +
    ((monthLengths d.year).take (d.month - 1)).foldl Nat.add 0 + (d.day - 1)

end Date

namespace Moment

/-- The first part of the moment that is impossible. -/
def fault? (m : Moment) : Option DateFault :=
  match m.date.fault? with
  | some fault => some fault
  | none =>
    if 24 ≤ m.hour then some .hour
    else if 60 ≤ m.minute then some .minute
    else if 60 ≤ m.second then some .second
    else none

/-- The number of microseconds from the start of year 1 to the moment, by its own clock. -/
def clock (m : Moment) : Int :=
  (((m.date.dayNumber * 24 + m.hour) * 60 + m.minute) * 60 + m.second) * 1000000 + m.microsecond

/-- Whether two moments are the same. A moment of unknown offset differs from all of known
offset. -/
def same (m m' : Moment) : Bool :=
  match m.offset, m'.offset with
  | none, none => m.clock == m'.clock
  | some o, some o' => m.clock - o * 60000000 == m'.clock - o' * 60000000
  | _, _ => false

end Moment

/-- The notation of a span of time, given in minutes. -/
def spanNotation (minutes : Int) : String :=
  let days := minutes / 1440
  let seconds := minutes % 1440 * 60
  let parts := (if days == 0 then [] else [s!"days={days}"]) ++
    (if seconds == 0 then [] else [s!"seconds={seconds}"])
  let shown := if parts.isEmpty then "0" else ", ".intercalate parts
  s!"datetime.timedelta({shown})"

end ShortCircuit
