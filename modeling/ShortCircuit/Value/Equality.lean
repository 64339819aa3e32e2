import ShortCircuit.Decimal.Binary
import ShortCircuit.Failure

/-!
# Equality of values

Numbers are compared by value across their types, and a connective or strategy equals the text of
its word. Leaves are compared by class and stored value, groups by class, connective and children,
settings by class and fields; verifiers are not compared. Objects of other classes equal only
themselves. As when a value is shown, every level of nesting takes room, and objects count as what
they were made with: other attributes that one of a class of its own was given in place of all that
it had are not looked at.
-/

namespace ShortCircuit

/-- The levels of nesting for which there is room when values are compared. -/
def comparisonRoom : Nat := 980

/-- The room that a comparison of two groups takes. -/
def groupComparisonRoom : Nat := 4

namespace Value

/-- The integer that a number equals, if there is one. -/
def toInt? : Value → Option Int
  | .bool b => some b.toInt
  | .int n => some n
  | .float _ x => match Double.ofFloat x with
    | .finite b => b.toInt?
    | _ => none
  | _ => none

/-- The text that a value equals, if there is one. -/
def toText? : Value → Option Text
  | .text t => some t
  | .connective c => some c.word
  | .strategy s => some s.word
  | _ => none

/-- Whether two values without parts are equal. -/
def atomEquals : Value → Value → Bool
  | .nothing, .nothing => true
  | .float i x, .float j y => i == j || x == y
  | .bytes bs, .bytes bs' => bs == bs'
  | .date d, .date d' => d == d'
  | .moment m, .moment m' => m.same m'
  | .leaf l, .leaf l' => l.origin.cls == l'.origin.cls && l.value == l'.value
  | .settings origin s, .settings origin' s' => origin.cls == origin'.cls && s == s'
  | .witness i _, .witness j _ => i == j
  | .duck d, .duck d' => d.origin.id == d'.origin.id
  | .refusal i _, .refusal j _ => i == j
  | .classObject c, .classObject c' => c == c'
  | .inside i, .inside j => i == j
  | v, v' => match v.toInt?, v'.toInt? with
    | some n, some n' => n == n'
    | _, _ => match v.toText?, v'.toText? with
      | some t, some t' => t == t'
      | _, _ => false

mutual

/-- Whether two values are the same or equal, given room for `room` levels of nesting. -/
def equalWithin (room : Nat) : Value → Value → Except Failure Bool
  | .list items, .list items' =>
    if room = 0 then .error .stackExhausted
    else if items.length ≠ items'.length then .ok false
    else equalItems (room - 1) items items'
  | .tuple items, .tuple items' =>
    if room = 0 then .error .stackExhausted else equalItems (room - 1) items items'
  | .set items, .set items' =>
    if items.length ≠ items'.length then .ok false else containsAll room items items'
  | .dict entries, .dict entries' =>
    if room = 0 then .error .stackExhausted
    else if entries.length ≠ entries'.length then .ok false
    else containsEntries (room - 1) entries entries'
  | .condition c, .condition c' => equalConditions room c c'
  | v, v' => .ok (v.atomEquals v')
  termination_by structural v => v

def equalItems (room : Nat) : List Value → List Value → Except Failure Bool
  | [], [] => .ok true
  | v :: rest, v' :: rest' => do
    if ← equalWithin room v v' then equalItems room rest rest' else return false
  | _, _ => .ok false
  termination_by structural vs => vs

/-- Whether each of the values is among the others. -/
def containsAll (room : Nat) : List Value → List Value → Except Failure Bool
  | [], _ => .ok true
  | v :: rest, others => do
    if ← others.anyM fun v' ↦ equalWithin room v v' then containsAll room rest others
    else return false
  termination_by structural vs => vs

/-- Whether each of the entries is among the others. -/
def containsEntries (room : Nat) :
    List (Value × Value) → List (Value × Value) → Except Failure Bool
  | [], _ => .ok true
  | entry :: rest, others => do
    if ← others.anyM fun entry' ↦ equalEntry room entry entry' then containsEntries room rest others
    else return false
  termination_by structural es => es

def equalEntry (room : Nat) : Value × Value → Value × Value → Except Failure Bool
  | (k, v), (k', v') => do
    if ← equalWithin room k k' then equalWithin room v v' else return false
  termination_by structural e => e

def equalConditions (room : Nat) : Condition Value → Condition Value → Except Failure Bool
  | .atom v, .atom v' => equalWithin room v v'
  | .group origin c children, .group origin' c' children' =>
    if origin.id = origin'.id then .ok true
    else if room < groupComparisonRoom then .error .stackExhausted
    else if origin.cls = origin'.cls ∧ c = c' then
      equalChildren (room - groupComparisonRoom) children children'
    else .ok false
  | _, _ => .ok false
  termination_by structural c => c

def equalChildren (room : Nat) :
    List (Condition Value) → List (Condition Value) → Except Failure Bool
  | [], [] => .ok true
  | c :: rest, c' :: rest' => do
    if ← equalConditions room c c' then equalChildren room rest rest' else return false
  | _, _ => .ok false
  termination_by structural cs => cs

end

/-- Whether two values are equal. A double that is no number does not equal itself. -/
def equals : Value → Value → Except Failure Bool
  | .float _ x, .float _ y => .ok (x == y)
  | v, v' => equalWithin comparisonRoom v v'

mutual

/-- Fails if a value, or one that it is compared by, cannot be hashed. -/
def checkHashable (room : Nat) : Value → Except Failure Unit
  | .list _ => .error (.unhashable "list")
  | .dict _ => .error (.unhashable "dict")
  | .set _ => .error (.unhashable "set")
  | .inside isDict => .error (.unhashable (if isDict then "dict" else "list"))
  | .tuple items => checkItems room items
  | .condition c => checkCondition room c
  | _ => .ok ()
  termination_by structural v => v

def checkItems (room : Nat) : List Value → Except Failure Unit
  | [] => .ok ()
  | v :: rest => do
    checkHashable room v
    checkItems room rest
  termination_by structural vs => vs

def checkCondition (room : Nat) : Condition Value → Except Failure Unit
  | .atom v => checkHashable room v
  | .group _ _ children =>
    if room < 2 then .error .stackExhausted else checkConditions (room - 2) children
  termination_by structural c => c

def checkConditions (room : Nat) : List (Condition Value) → Except Failure Unit
  | [] => .ok ()
  | c :: rest => do
    checkCondition room c
    checkConditions room rest
  termination_by structural cs => cs

end

/-- Fails if a value cannot be hashed. -/
def hashable (v : Value) : Except Failure Unit := v.checkHashable comparisonRoom

/-- Whether two values of no identity of their own are one and the same object: the constants, the
small integers, the texts of at most one narrow code point, and what is empty. -/
def isSharedConstant : Value → Value → Bool
  | .nothing, .nothing => true
  | .bool b, .bool b' => b == b'
  | .int n, .int n' => n == n' && -5 ≤ n && n ≤ 256
  | .text t, .text t' => t == t' && t.length ≤ 1 && t.all fun p ↦ p.value ≤ 0xFF
  | .bytes bs, .bytes bs' => bs == bs' && bs.length ≤ 1
  | .tuple [], .tuple [] => true
  | .connective c, .connective c' => c == c'
  | .strategy s, .strategy s' => s == s'
  | .classObject c, .classObject c' => c == c'
  | _, _ => false

/-- The identity that an object carries itself. -/
def identity? : Value → Option Nat
  | .float id _ | .witness id _ | .refusal id _ => some id
  | .settings origin _ => some origin.id
  | .condition (.group origin _ _) => some origin.id
  | .leaf l => some l.origin.id
  | .duck d => some d.origin.id
  | _ => none

end Value

end ShortCircuit
