import ShortCircuit.Failure

/-!
# Members and attributes

The constants that values stand for, and what is missing from a value that is asked for something
it does not have.
-/

namespace ShortCircuit

namespace Connective

/-- The connective that a value stands for: itself, or the one whose word is the text. -/
def ofValue? : Value → Option Connective
  | .connective c => some c
  | .text t => all.find? fun c ↦ Text.ofString c.word = t
  | _ => none

def ofConstant? (s : String) : Option Connective := all.find? fun c ↦ c.constant = s

end Connective

namespace Strategy

/-- The strategy that a value stands for: itself, or the one whose word is the text. -/
def ofValue? : Value → Option Strategy
  | .strategy s => some s
  | .text t => all.find? fun s ↦ Text.ofString s.word = t
  | _ => none

def ofConstant? (s : String) : Option Strategy := all.find? fun x ↦ x.constant = s

end Strategy

/-- The keyword under which a constructor is handed the object that it makes. -/
def LibraryClass.selfKeyword : String := "self"

/-- Fails at the first keyword that names no field of a class. -/
def LibraryClass.checkKeywords (c : LibraryClass) (fields keywords : List String) :
    Except Failure Unit :=
  match keywords.find? fun k ↦ !fields.contains k with
  | none => .ok ()
  | some k =>
    if k = selfKeyword then .error (.repeatedArgument c k) else .error (.unexpectedKeyword c k)

namespace Value

/-- Whose attribute is missing when this value has none of a name. -/
def owner : Value → Owner
  | .classObject c => if c.isEnumeration then .enumeration else .cls c.name
  | v => .object v.typeName

def lacks (v : Value) (name : String) : Failure := .missingAttribute v.owner name

/-- The items of a value that can be gone through, in order. -/
def items? : Value → Option (List Value)
  | .list items | .tuple items | .set items => some items
  | .text t => some (t.map fun p ↦ .text [p])
  | .connective c => some ((Text.ofString c.word).map fun p ↦ .text [p])
  | .strategy s => some ((Text.ofString s.word).map fun p ↦ .text [p])
  | .bytes bs => some (bs.map fun b ↦ .int b.toNat)
  | .dict entries => some (entries.map Prod.fst)
  | .classObject .connective => some (Connective.all.map .connective)
  | .classObject .strategy => some (Strategy.all.map .strategy)
  | _ => none

/-- The items of a value, or the failure of one that has none. -/
def items (v : Value) : Except Failure (List Value) :=
  match v.items? with
  | some items => .ok items
  | none => .error (.notIterable v.typeName)

end Value

end ShortCircuit
