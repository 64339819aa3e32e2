import ShortCircuit.Decimal.Reading
import ShortCircuit.Decimal.Shortest
import ShortCircuit.Failure

/-!
# Notation of values

How messages and descriptions show a value. Showing takes room for every level of nesting, and an
integer can only be shown up to a number of digits; so a value may have no notation. An object is
shown by what it was made with. Other attributes that an object of a class of its own was given in
place of all that it had are not looked at.
-/

namespace ShortCircuit

/-- The levels of nesting for which there is room when a value is shown. -/
def notationRoom : Nat := 980

/-- The room that a group takes when it is shown. -/
def groupRoom : Nat := 4

/-- The room that an object with fields takes when it is shown. -/
def objectRoom : Nat := 3

/-- The notation of an integer, unless it is too long. -/
def showInt (n : Int) : Except Failure String :=
  if n.natAbs < Nat.pow 10 Decimal.digitLimit then .ok (toString n) else .error .integerTooLong

def showBool (b : Bool) : String := if b then "True" else "False"

def Date.shown (d : Date) : String :=
  s!"datetime.date({d.year}, {d.month}, {d.day})"

/-- The notation of an offset from universal time, given in minutes. -/
def showOffset (minutes : Int) : String :=
  if minutes == 0 then "datetime.timezone.utc"
  else s!"datetime.timezone({spanNotation minutes})"

/-- Seconds are left out if they and the microseconds are zero. -/
def Moment.shown (m : Moment) : String :=
  let seconds :=
    if m.microsecond != 0 then [m.second, m.microsecond]
    else if m.second != 0 then [m.second] else []
  let fields := [m.date.year, m.date.month, m.date.day, m.hour, m.minute] ++ seconds
  let offset := match m.offset with
    | some minutes => ", tzinfo=" ++ showOffset minutes
    | none => ""
  "datetime.datetime(" ++ ", ".intercalate (fields.map toString) ++ offset ++ ")"

def Connective.shown (c : Connective) : String :=
  s!"<{LibraryClass.connective.name}.{c.constant}: {(Text.ofString c.word).quoted}>"

def Strategy.shown (s : Strategy) : String :=
  s!"<{LibraryClass.strategy.name}.{s.constant}: {(Text.ofString s.word).quoted}>"

/-- The notation of settings of a class. -/
def Settings.shown (s : Settings) (className : String) : String :=
  s!"{className}(strategy={s.strategy.shown}, trace={showBool s.trace})"

def LibraryClass.shown (c : LibraryClass) : String :=
  if c.isEnumeration then s!"<enum '{c.name}'>" else s!"<class '{c.home}.{c.name}'>"

def Leaf.shown (l : Leaf Value) : String :=
  s!"{l.origin.cls.name}(value={showBool l.value})"

/-- The failure of a node, with its wording. -/
def showRefusal (nodeType : String) : String :=
  let message := (Text.ofString (unrecognizedMessage nodeType)).quoted
  s!"{LibraryClass.unrecognized.name}({message})"

/-- Items between parentheses; a single item is followed by a comma. -/
def showTuple : List String → String
  | [item] => s!"({item},)"
  | items => "(" ++ ", ".intercalate items ++ ")"

namespace Value

mutual

/-- The notation of a value, given room for `room` levels of nesting. -/
def showWithin (room : Nat) : Value → Except Failure String
  | .nothing => .ok "None"
  | .bool b => .ok (showBool b)
  | .int n => showInt n
  | .float _ x => .ok (floatNotation x)
  | .text t => .ok t.quoted
  | .bytes bs => .ok (quotedOctets bs)
  | .list items =>
    if room = 0 then .error .stackExhausted
    else return "[" ++ ", ".intercalate (← showItems (room - 1) items) ++ "]"
  | .tuple items =>
    if room = 0 then .error .stackExhausted else return showTuple (← showItems (room - 1) items)
  | .dict entries =>
    if room = 0 then .error .stackExhausted
    else return "\x7b" ++ ", ".intercalate (← showEntries (room - 1) entries) ++ "\x7d"
  | .set [] => .ok "set()"
  | .set items =>
    if room = 0 then .error .stackExhausted
    else return "\x7b" ++ ", ".intercalate (← showItems (room - 1) items) ++ "\x7d"
  | .date d => .ok d.shown
  | .moment m => .ok m.shown
  | .connective c => .ok c.shown
  | .strategy s => .ok s.shown
  | .condition c => showCondition room c
  | .leaf l => if room < objectRoom then .error .stackExhausted else .ok l.shown
  | .settings origin s =>
    if room < objectRoom then .error .stackExhausted else .ok (s.shown origin.cls.name)
  | .witness _ _ => .ok "<Truth>"
  | .duck d => .ok s!"<{d.origin.cls.name}>"
  | .refusal _ nodeType => .ok (showRefusal nodeType)
  | .classObject c => .ok c.shown
  | .inside isDict => .ok (if isDict then "\x7b...\x7d" else "[...]")
  termination_by structural v => v

def showItems (room : Nat) : List Value → Except Failure (List String)
  | [] => .ok []
  | v :: rest => return (← showWithin room v) :: (← showItems room rest)
  termination_by structural vs => vs

def showEntries (room : Nat) : List (Value × Value) → Except Failure (List String)
  | [] => .ok []
  | entry :: rest => return (← showEntry room entry) :: (← showEntries room rest)
  termination_by structural es => es

def showEntry (room : Nat) : Value × Value → Except Failure String
  | (k, v) => return (← showWithin room k) ++ ": " ++ (← showWithin room v)
  termination_by structural e => e

def showCondition (room : Nat) : Condition Value → Except Failure String
  | .atom v => showWithin room v
  | .group origin operator children =>
    if room < groupRoom then .error .stackExhausted
    else do
      let items ← showConditions (room - groupRoom) children
      return s!"{origin.cls.name}(type={operator.shown}, conditions={showTuple items})"
  termination_by structural c => c

def showConditions (room : Nat) : List (Condition Value) → Except Failure (List String)
  | [] => .ok []
  | c :: rest => return (← showCondition room c) :: (← showConditions room rest)
  termination_by structural cs => cs

end

/-- The notation of a value. -/
def shown (v : Value) : Except Failure String := v.showWithin notationRoom

end Value

end ShortCircuit
