import ShortCircuit.Evaluation.Journal
import ShortCircuit.Value.Attributes

/-!
# The store of a session

A session gives names to nodes, settings, evaluators, lists and iterators, counts the calls of
verifiers that answer in turn, and keeps the attributes that were set on objects. It runs in the
world of its evaluations, so everything that is logged in a session stands in one log.
-/

namespace ShortCircuit

/-- The identities of the two constant conditions. -/
def constantId (b : Bool) : Nat := b.toNat

/-- The identity of a connective as an object. -/
def Connective.id : Connective → Nat
  | .or => 2
  | .and => 3

/-- The identity of a strategy as an object. -/
def Strategy.id : Strategy → Nat
  | .recursive => 4
  | .iterative => 5

/-- The identity of a class as an object. -/
def LibraryClass.id : LibraryClass → Nat
  | .connective => 6
  | .strategy => 7
  | .leaf => 8
  | .group => 9
  | .settings => 10
  | .evaluator => 11
  | .unrecognized => 12

/-- The first identity that no object has from the outset. -/
def firstFreshId : Nat := 13

/-- A named value. Two names share a serial number when they name one object. -/
structure Held where
  serial : Nat
  value : Value

/-- An evaluator: the value that it takes its settings from, unless that has been deleted. -/
structure Evaluator where
  settings : Option Value

/-- An attribute of an object of its own: a value, or nothing if it has been deleted. -/
structure AttributeSetting where
  object : Nat
  name : String
  value : Option Value

structure Store where
  nextId : Nat := firstFreshId
  nodes : List (String × Held) := []
  settings : List (String × Value) := []
  evaluators : List (String × Evaluator) := []
  lists : List (String × List Value) := []
  iterators : List (String × List Value) := []
  counters : List (Nat × Nat) := []
  settingsOnObjects : List AttributeSetting := []
  /-- The objects whose attributes have been set or deleted as a whole. -/
  unpacked : List Nat := []
  /-- The names of the verifiers called, the latest first. -/
  calls : List String := []

/-- A computation in a session. -/
abbrev Session := EStateM Failure (World Store)

namespace Session

variable {α : Type}

def ofExcept (result : Except Failure α) : Session α :=
  match result with
  | .ok a => pure a
  | .error e => throw e

/-- Applies a function to the store. -/
def modifyStore (f : Store → Store) : Session Unit :=
  modify fun w ↦ { w with state := f w.state }

def store : Session Store := return (← get).state

def record (r : Record) : Session Unit := modify (·.record r)

/-- An identity that no object of the session has. -/
def freshId : Session Nat := do
  let id := (← store).nextId
  modifyStore fun s ↦ { s with nextId := id + 1 }
  return id

/-- Looks a name up. -/
def find (names : List (String × α)) (name : String) : Session α :=
  match names.find? fun n ↦ n.1 = name with
  | some n => pure n.2
  | none => throw (.unknownName name)

def recordCall (name : Option String) : Session Unit :=
  match name with
  | some name => modifyStore fun s ↦ { s with calls := name :: s.calls }
  | none => pure ()

/-- The computation as an action of the host of atoms. -/
def toAct (m : Session α) : Act Store Failure α := fun state ↦
  match m ⟨state, #[]⟩ with
  | .ok a w => ⟨.ok a, w.state, w.log.toList⟩
  | .error e w => ⟨.error e, w.state, w.log.toList⟩

/-- A computation of a world as one of a session. -/
def ofWorld (f : World Store → Except Failure α × World Store) : Session α := fun w ↦
  match f w with
  | (.ok a, w) => .ok a w
  | (.error e, w) => .error e w

end Session

end ShortCircuit
