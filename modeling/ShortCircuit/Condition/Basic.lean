import ShortCircuit.Condition.Connective

/-!
# Condition trees

A condition is a group of conditions under a connective, or an atom. Atoms are of any type: what
an atom answers, and whether it answers at all, is not part of the tree.
-/

namespace ShortCircuit

/-- The class of an object. Two classes may share a name. -/
structure ClassTag where
  id : Nat
  name : String
  deriving DecidableEq, Repr, Inhabited

/-- The identity of an object and its class. -/
structure Origin where
  id : Nat
  cls : ClassTag
  deriving DecidableEq, Repr, Inhabited

/-- A tree of conditions over atoms of type `α`. -/
inductive Condition (α : Type) where
  | atom (a : α)
  | group (origin : Origin) (connective : Connective) (children : List (Condition α))

namespace Condition

variable {α : Type}

instance [Inhabited α] : Inhabited (Condition α) := ⟨.atom default⟩

mutual

/-- The number of nodes of a tree. -/
def size : Condition α → Nat
  | .atom _ => 1
  | .group _ _ children => 1 + sizes children

/-- The number of nodes of a list of trees. -/
def sizes : List (Condition α) → Nat
  | [] => 0
  | c :: rest => size c + sizes rest

end

mutual

/-- The number of nodes on the longest path from the root. -/
def depth : Condition α → Nat
  | .atom _ => 1
  | .group _ _ children => 1 + depths children

/-- The greatest depth of a list of trees. -/
def depths : List (Condition α) → Nat
  | [] => 0
  | c :: rest => max (depth c) (depths rest)

end

theorem size_pos (c : Condition α) : 0 < c.size := by
  cases c <;> simp only [size] <;> omega

end Condition

end ShortCircuit
