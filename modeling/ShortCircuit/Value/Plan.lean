import ShortCircuit.Text.CodePoint

/-!
# Plans of values and conditions

A plan describes a value, a condition or a verifier before it is made. Making it happens in a
session: a plan may refer to objects by the names that the session gave them, and making it may
fail.
-/

namespace ShortCircuit

/-- How an object without content converts to a truth value. -/
inductive Truthiness where
  | plain
  | bool (b : Bool)
  /-- Through a length, which should be neither negative nor too great to be counted. -/
  | length (n : Int)
  | raises (kind message : String)
  deriving DecidableEq, Repr, Inhabited

mutual

inductive ValuePlan where
  | nothing
  | bool (b : Bool)
  | int (n : Int)
  | float (x : Float)
  | text (t : Text)
  | bytes (bs : List UInt8)
  | list (items : List ValuePlan)
  | tuple (items : List ValuePlan)
  | dict (entries : List (ValuePlan × ValuePlan))
  /-- A strategy by the name of its constant. -/
  | strategy (constant : String)
  /-- A connective by the name of its constant. -/
  | connective (constant : String)
  | node (n : NodePlan)
  /-- Settings with the given fields, possibly of a class of their own. -/
  | settings (fields : List (String × ValuePlan)) (className : Option String)
  /-- Settings that the session has named. -/
  | namedSettings (name : String)
  | witness (truth : Truthiness)

inductive NodePlan where
  /-- One of the two constant conditions. -/
  | constant (b : Bool)
  | leaf (value : ValuePlan) (verifier : Option VerifierPlan)
  /-- A group under the connective of a dedicated constructor. -/
  | group (isOr : Bool) (children : ChildrenPlan)
  /-- A group whose connective is given by a value, possibly of a class of its own. -/
  | tagged (tag : ValuePlan) (children : Option ChildrenPlan) (className : Option String)
  /-- A leaf of a class of its own that verifies in its own way. -/
  | ownLeaf (className : String) (value : ValuePlan) (verify : VerifierPlan)
  /-- An object of an unrelated class. -/
  | duck (className : String) (value : Option ValuePlan) (verify : DuckPlan)
  | raw (v : ValuePlan)
  /-- A class of the library taken as an object. -/
  | classObject (name : String)
  /-- A node of the reference tree, by the indices that lead to it. -/
  | reference (path : List Int)
  | named (name : String)
  /-- `base` enclosed in as many groups as `length` says, the connectives taken in turn. -/
  | chain (length : Nat) (tags : List ValuePlan) (base : NodePlan) (before after : List NodePlan)
  /-- A group of one node repeated, and further nodes. -/
  | wide (count : Nat) (tag : ValuePlan) (item : NodePlan) (further : List NodePlan)

inductive ChildrenPlan where
  | items (nodes : List NodePlan)
  /-- Nodes made one by one as they are drawn. -/
  | drawn (nodes : List NodePlan)
  | namedList (name : String)
  | namedIterator (name : String)
  | value (v : ValuePlan)

/-- How an object of an unrelated class offers to be verified. -/
inductive DuckPlan where
  | absent
  | method (verifier : VerifierPlan)
  | holds (v : ValuePlan)
  /-- A property that fails when it is read. -/
  | failing (kind message : String)

/-- What a verifier does, and the name under which its calls are recorded. -/
inductive VerifierPlan where
  | mk (name : Option String) (action : ActionPlan)

inductive ActionPlan where
  /-- Returns the stored value. -/
  | stored
  /-- Returns the negation of the stored value. -/
  | negated
  | returns (v : ValuePlan)
  | raises (kind message : String)
  /-- Returns the values in turn, and the last one from then on. -/
  | sequence (answers : List ValuePlan)
  | evaluates (node : NodePlan) (evaluator : EvaluatorPlan)

/-- Which evaluator is meant. -/
inductive EvaluatorPlan where
  /-- The evaluator that all share. -/
  | shared
  /-- A new evaluator made from settings with the given fields, or from a given value. -/
  | fresh (settings : ValuePlan)
  | named (name : String)

end

instance : Inhabited ValuePlan := ⟨.nothing⟩
instance : Inhabited NodePlan := ⟨.constant false⟩
instance : Inhabited EvaluatorPlan := ⟨.shared⟩

end ShortCircuit
