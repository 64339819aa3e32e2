import ShortCircuit.Condition.Basic
import ShortCircuit.Evaluation.Journal

/-!
# The host of the atoms

An evaluator knows nothing about atoms. It reads what an atom offers to be verified with, calls it,
and has the answer converted to a truth value. Each of these acts on the host's state and may fail,
so an atom may answer differently every time, or not at all.
-/

namespace ShortCircuit

/-- How atoms of type `α` answer with values of type `β` over a state `σ`, failing with `ε`. -/
structure Host (α β σ ε : Type) where
  /-- The name of the atom's class, as the log shows it. -/
  className : α → String
  /-- Reads what the atom offers to be verified with: something to call, or nothing callable. -/
  offer : α → Act σ ε (Option (Act σ ε β))
  /-- Whether a failure to read an offer means that there is none. -/
  meansAbsent : ε → Bool
  truth : β → Act σ ε Bool
  /-- The failure of a node that is neither a group nor verifiable. -/
  unrecognized : α → ε
  /-- The failure of a recursion that runs out of room. -/
  exhausted : ε

namespace Host

variable {α β σ ε : Type}

/-- Verifies an atom and converts its answer to a truth value. -/
def settle (h : Host α β σ ε) (trace : Bool) (a : α) (w : World σ) : Except ε Bool × World σ :=
  match (h.offer a).perform w with
  | (.error e, w) => (.error (if h.meansAbsent e then h.unrecognized a else e), w)
  | (.ok none, w) => (.error (h.unrecognized a), w)
  | (.ok (some verify), w) =>
    match verify.perform (w.visit trace (.enteredLeaf (h.className a))) with
    | (.error e, w) => (.error e, w)
    | (.ok answer, w) => (h.truth answer).perform w

end Host

end ShortCircuit
