import ShortCircuit.Calendar.Moment
import ShortCircuit.Condition.Basic
import ShortCircuit.Evaluation.Settings
import ShortCircuit.Value.Plan

/-!
# Values

The values that conditions are made from, that verifiers answer with and that configuration files
hold. Any of them may stand as a node of a tree, whether or not it can be verified there.
-/

namespace ShortCircuit

/-- What a verifier does. -/
inductive Action (ν : Type) where
  | stored
  | negated
  | returns (v : ν)
  | raises (kind message : String)
  /-- The answers in turn, the number of calls being kept under `counter`. -/
  | sequence (counter : Nat) (answers : List ν)
  | evaluates (node : NodePlan) (evaluator : EvaluatorPlan)
  /-- A value that stands in the place of a verifier. -/
  | misplaced (v : ν)

/-- A verifier, with the name under which its calls are recorded. -/
structure Verifier (ν : Type) where
  name : Option String := .none
  action : Action ν

/-- A leaf condition. A leaf of a class of its own may override how it is verified. -/
structure Leaf (ν : Type) where
  origin : Origin
  value : Bool
  verifier : Verifier ν
  override : Option (Verifier ν) := .none

/-- How an object of an unrelated class offers to be verified. -/
inductive DuckVerify (ν : Type) where
  | absent
  | method (verifier : Verifier ν)
  | holds (v : ν)
  | failing (kind message : String)

/-- An object of an unrelated class. -/
structure Duck (ν : Type) where
  origin : Origin
  value : Option ν
  verify : DuckVerify ν

/-- A class of the library taken as an object. -/
inductive LibraryClass where
  | connective
  | strategy
  | leaf
  | group
  | settings
  | evaluator
  | unrecognized
  deriving DecidableEq, Repr, Inhabited

inductive Value where
  | nothing
  | bool (b : Bool)
  | int (n : Int)
  /-- A double. Two doubles that are no number are the same one only if their identities agree. -/
  | float (id : Nat) (x : Float)
  | text (t : Text)
  | bytes (bs : List UInt8)
  | list (items : List Value)
  | tuple (items : List Value)
  | dict (entries : List (Value × Value))
  | set (items : List Value)
  | date (d : Date)
  | moment (m : Moment)
  | connective (c : Connective)
  | strategy (s : Strategy)
  /-- A group. -/
  | condition (c : Condition Value)
  | leaf (l : Leaf Value)
  | settings (origin : Origin) (s : Settings)
  /-- An object of no content that has a truth value. -/
  | witness (id : Nat) (truth : Truthiness)
  | duck (d : Duck Value)
  /-- The failure of a node that cannot be evaluated, kept as a value; the node's type is named. -/
  | refusal (id : Nat) (nodeType : String)
  | classObject (c : LibraryClass)
  /-- An occurrence of a list or dictionary inside itself. -/
  | inside (isDict : Bool)

namespace LibraryClass

def name : LibraryClass → String
  | .connective => "ConditionType"
  | .strategy => "EvaluationStrategy"
  | .leaf => "LeafCondition"
  | .group => "CompositeCondition"
  | .settings => "EvaluatorConfig"
  | .evaluator => "ConditionEvaluator"
  | .unrecognized => "UnrecognizedConditionError"

def all : List LibraryClass :=
  [.connective, .strategy, .leaf, .group, .settings, .evaluator, .unrecognized]

def ofName? (s : String) : Option LibraryClass := all.find? fun c ↦ c.name = s

/-- The name of the part of the library that the class belongs to. -/
def home : LibraryClass → String
  | .connective | .leaf | .group | .unrecognized => "condition_tree.core.conditions"
  | .strategy | .settings => "condition_tree.core.config"
  | .evaluator => "condition_tree.evaluation.evaluator"

/-- Whether the class enumerates its members. -/
def isEnumeration : LibraryClass → Bool
  | .connective | .strategy => true
  | _ => false

end LibraryClass

namespace ClassTag

/-- The class of plain leaves. -/
def leaf : ClassTag := ⟨0, LibraryClass.leaf.name⟩

/-- The class of plain groups. -/
def group : ClassTag := ⟨1, LibraryClass.group.name⟩

/-- The class of plain settings. -/
def settings : ClassTag := ⟨2, LibraryClass.settings.name⟩

/-- Whether the class is one of the library's, whose objects refuse a change of whatever attribute.
Objects of a class of its own refuse changes of their fields only. -/
def isPlain (t : ClassTag) : Bool := t.id ≤ 2

end ClassTag

namespace Connective

/-- The name of the constant for a connective. -/
def constant (c : Connective) : String := c.word

end Connective

namespace Strategy

/-- The name of the constant for a strategy. -/
def constant : Strategy → String
  | .recursive => "RECURSIVE"
  | .iterative => "ITERATIVE"

end Strategy

namespace Value

instance : Inhabited Value := ⟨.nothing⟩

/-- The name of a value's type. -/
def typeName : Value → String
  | .nothing => "NoneType"
  | .bool _ => "bool"
  | .int _ => "int"
  | .float _ _ => "float"
  | .text _ => "str"
  | .bytes _ => "bytes"
  | .list _ => "list"
  | .tuple _ => "tuple"
  | .dict _ => "dict"
  | .set _ => "set"
  | .date _ => "date"
  | .moment _ => "datetime"
  | .connective _ => LibraryClass.connective.name
  | .strategy _ => LibraryClass.strategy.name
  | .condition (.group origin _ _) => origin.cls.name
  | .condition (.atom a) => typeName a
  | .leaf l => l.origin.cls.name
  | .settings origin _ => origin.cls.name
  | .witness _ _ => "Truth"
  | .duck d => d.origin.cls.name
  | .refusal _ _ => LibraryClass.unrecognized.name
  | .classObject c => if c.isEnumeration then "EnumType" else "type"
  | .inside isDict => if isDict then "dict" else "list"

/-- The value as a node of a tree: a group as it is, anything else as an atom. -/
def toCondition : Value → Condition Value
  | .condition c => c
  | v => .atom v

/-- The value that stands at a node of a tree. -/
def ofCondition : Condition Value → Value
  | .atom v => v
  | c => .condition c

end Value

end ShortCircuit
