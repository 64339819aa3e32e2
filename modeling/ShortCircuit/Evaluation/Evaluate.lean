import ShortCircuit.Evaluation.Machine
import ShortCircuit.Evaluation.Recursive

/-!
# Evaluation under given settings

An evaluation that succeeds ends with a record of its result; one that fails leaves the log as it
stood at the failure.
-/

namespace ShortCircuit.Host

variable {α β σ ε : Type}

/-- Walks the tree with the strategy of the settings. -/
def walk (h : Host α β σ ε) (settings : Settings) (room : Nat) (c : Condition α) (w : World σ) :
    Except ε Bool × World σ :=
  match settings.strategy with
  | .recursive => h.recurse settings.trace room c w
  | .iterative => h.iterate settings.trace c w

/-- Evaluates a condition, `room` being the number of nodes that a recursive walk may nest. -/
def evaluate (h : Host α β σ ε) (settings : Settings) (room : Nat) (c : Condition α)
    (w : World σ) : Except ε Bool × World σ :=
  match h.walk settings room c w with
  | (.error e, w) => (.error e, w)
  | (.ok b, w) => (.ok b, w.record (.evaluated b settings.strategy))

end ShortCircuit.Host
