import ShortCircuit.Proofs.Evaluation.Calls
import ShortCircuit.Session.Step

/-!
# The strategies agree

An evaluator is made and evaluates a tree, once for each strategy and from the same world. If the
recursion does not run out of room, `evaluate_agree` says that the strategies cannot be told apart
but by their names in the record of the evaluator and in the record of the result.
-/

namespace ShortCircuit

variable {α β σ ε : Type}

/-- The strategies give one outcome, one state, one sequence of calls, and the same records apart
from the settings in the first one and the strategy in the last one. -/
theorem evaluate_agree (h : Host α β σ ε) (trace : Bool) (room : Nat) (c : Condition α)
    (w : World σ)
    (hroom : ¬ h.Exhausts ⟨.recursive, trace⟩ room c
      (w.record (.initialized ⟨.recursive, trace⟩))) :
    ∃ (outcome : Except ε Bool) (state : σ) (records : List Record) (calls : List α),
      ∀ strategy : Strategy,
        h.evaluate ⟨strategy, trace⟩ room c (w.record (.initialized ⟨strategy, trace⟩)) =
            (outcome, w.extend state
              (.initialized ⟨strategy, trace⟩ :: records ++ strategy.closing outcome)) ∧
          (h.recording.evaluate ⟨strategy, trace⟩ room c
            (w.record (.initialized ⟨strategy, trace⟩)).recording).2.state = (state, calls) := by
  obtain ⟨vs, outcome, state, ht⟩ := h.exists_traversal [] w.state c
  refine ⟨outcome, state, h.journal trace vs, h.calls vs, ?_⟩
  intro strategy
  have hwithin : ¬ h.Exhausts ⟨strategy, trace⟩ room c
      (w.record (.initialized ⟨strategy, trace⟩)) := by
    cases strategy with
    | recursive => exact hroom
    | iterative => exact h.not_exhausts_iterative trace room c _
  constructor
  · rw [Host.evaluate_eq (w := w.record (.initialized ⟨strategy, trace⟩)) ht hwithin,
      World.record_extend]
    rfl
  · rw [Host.evaluate_recording (w := w.record (.initialized ⟨strategy, trace⟩)) ht hwithin]
    rfl

namespace Session

/-- A leaf that answers nothing at its first call and seven at every later one. -/
def turningLeaf : Value :=
  .leaf ⟨⟨firstFreshId, .leaf⟩, false,
    ⟨some "turn", .sequence (firstFreshId + 1) [.nothing, .int 7]⟩, none⟩

/-- A tree in which the turning leaf stands three times, and decides at its second visit. The text
that follows is no condition. -/
def turningTree : Condition Value :=
  .group ⟨firstFreshId + 2, .group⟩ .and
    [.group ⟨firstFreshId + 3, .group⟩ .or
      [.atom turningLeaf, .atom turningLeaf, .atom .nothing], .atom (.text []), .atom turningLeaf]

theorem turningTree_within (log : Array Record) :
    ¬ (host 0).Exhausts ⟨.recursive, true⟩ 3 turningTree ⟨{}, log⟩ := by
  intro hexhausted
  have hfailure : ((host 0).telling.walk ⟨.recursive, true⟩ 3 turningTree ⟨{}, log⟩).1 =
      .error (some (.unrecognizedNode (.text []))) := rfl
  cases hfailure.symm.trans hexhausted

end Session

theorem evaluate_agree_turningTree :
    ¬ (Session.host 0).Exhausts ⟨.recursive, true⟩ 3 Session.turningTree
        (Session.start.record (.initialized ⟨.recursive, true⟩)) ∧
      ∃ outcome state records calls, ∀ strategy : Strategy,
        (Session.host 0).evaluate ⟨strategy, true⟩ 3 Session.turningTree
            (Session.start.record (.initialized ⟨strategy, true⟩)) =
            (outcome, Session.start.extend state
              (.initialized ⟨strategy, true⟩ :: records ++ strategy.closing outcome)) ∧
          ((Session.host 0).recording.evaluate ⟨strategy, true⟩ 3 Session.turningTree
            (Session.start.record (.initialized ⟨strategy, true⟩)).recording).2.state =
              (state, calls) :=
  ⟨Session.turningTree_within _, evaluate_agree _ _ _ _ _ (Session.turningTree_within _)⟩

end ShortCircuit
