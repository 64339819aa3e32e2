import ShortCircuit.Condition.Connective
import ShortCircuit.Evaluation.Settings

/-!
# The log and the world of an evaluation

An evaluation runs in a world: a state that belongs to the host of the atoms, and a log. The host
acts on its state and hands records to the log, but cannot read it; so nothing that the host does
depends on what has been logged.
-/

namespace ShortCircuit

/-- An entry of the log. -/
inductive Record where
  | initialized (settings : Settings)
  | enteredGroup (connective : Connective) (width : Nat)
  | enteredLeaf (className : String)
  | evaluated (result : Bool) (strategy : Strategy)
  deriving DecidableEq, Repr, Inhabited

namespace Record

def message : Record → String
  | .initialized _ => "ConditionEvaluator initialized"
  | .enteredGroup _ _ => "Visiting composite condition"
  | .enteredLeaf _ => "Visiting leaf condition"
  | .evaluated _ _ => "Evaluated condition tree"

/-- Whether the record notes a visit, and so is written by traced evaluations only. -/
def isVisit : Record → Bool
  | .enteredGroup _ _ | .enteredLeaf _ => true
  | .initialized _ | .evaluated _ _ => false

end Record

/-- What an action of the host gives: an outcome, the new state, and the records it logged. -/
structure Answer (σ ε α : Type) where
  outcome : Except ε α
  state : σ
  records : List Record

/-- An action of the host on its state. -/
def Act (σ ε α : Type) := σ → Answer σ ε α

/-- The state of the host and the log, the oldest record first. -/
structure World (σ : Type) where
  state : σ
  log : Array Record

namespace World

variable {σ : Type}

def record (w : World σ) (r : Record) : World σ := { w with log := w.log.push r }

/-- Records a visit if visits are traced. -/
def visit (w : World σ) (trace : Bool) (r : Record) : World σ :=
  if trace then w.record r else w

end World

namespace Act

variable {σ ε α : Type}

/-- Performs an action of the host and appends what it logged. -/
def perform (act : Act σ ε α) (w : World σ) : Except ε α × World σ :=
  let answer := act w.state
  (answer.outcome, ⟨answer.state, w.log ++ answer.records⟩)

end Act

end ShortCircuit
