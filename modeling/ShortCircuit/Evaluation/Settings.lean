/-!
# Settings of an evaluator

An evaluator walks a tree by recursion or with a stack of its own, and may note every node that it
visits in its log.
-/

namespace ShortCircuit

inductive Strategy where
  | recursive
  | iterative
  deriving DecidableEq, Repr, Inhabited

namespace Strategy

/-- The strategies in the order in which messages list them. -/
def all : List Strategy := [.recursive, .iterative]

/-- The word that selects the strategy in a configuration. -/
def word : Strategy → String
  | .recursive => "recursive"
  | .iterative => "iterative"

end Strategy

/-- How an evaluator works: its strategy, and whether it traces its visits. -/
structure Settings where
  strategy : Strategy := .recursive
  trace : Bool := false
  deriving DecidableEq, Repr, Inhabited

end ShortCircuit
