/-!
# Connectives

The two ways to combine conditions. Each has a deciding value: a child with that value settles the
combination at once, and if no child has it the combination has the opposite value.
-/

namespace ShortCircuit

inductive Connective where
  | or
  | and
  deriving DecidableEq, Repr, Inhabited

namespace Connective

/-- The connectives in the order in which messages list them. -/
def all : List Connective := [.or, .and]

/-- The word that names the connective. -/
def word : Connective → String
  | .or => "OR"
  | .and => "AND"

/-- The value of a child that settles the combination. -/
def deciding : Connective → Bool
  | .or => true
  | .and => false

def dual : Connective → Connective
  | .or => .and
  | .and => .or

end Connective

end ShortCircuit
