import ShortCircuit.Proofs.Evaluation.Placement
import ShortCircuit.Proofs.Evaluation.Strategies

/-!
# The order of evaluation

`evaluate_traverses` says that an evaluation within its room is the one traversal of its tree: it
turns to the nodes of the traversal and to no others, in the order of the traversal, and calls an
atom once for each visit at which there is something to call.
-/

namespace ShortCircuit

variable {α β σ ε : Type}

/-- An evaluation has the visits, the outcome and the state of the traversal, which are the only
ones that the rules of the traversal allow. Each visit is to the node at its position, no position
is visited twice, the calls recorded are those of the visits, and the log grows by the records of
the visits and that of the result. -/
theorem evaluate_traverses (h : Host α β σ ε) (settings : Settings) (room : Nat)
    (c : Condition α) (w : World σ) (hroom : ¬ h.Exhausts settings room c w) :
    h.Traversal [] c w.state (h.visits settings room c w) (h.evaluate settings room c w).1
        (h.evaluate settings room c w).2.state ∧
      (∀ vs r s', h.Traversal [] c w.state vs r s' →
        vs = h.visits settings room c w ∧ r = (h.evaluate settings room c w).1 ∧
          s' = (h.evaluate settings room c w).2.state) ∧
      (∀ v ∈ h.visits settings room c w, c.at? v.position = some v.node) ∧
      ((h.visits settings room c w).map Visit.position).Nodup ∧
      (h.recording.evaluate settings room c w.recording).2.state.2 =
        h.calls (h.visits settings room c w) ∧
      (h.evaluate settings room c w).2.log = w.log ++
        (h.journal settings.trace (h.visits settings room c w) ++
          settings.strategy.closing (h.evaluate settings room c w).1) := by
  obtain ⟨vs, r, s', ht⟩ := h.exists_traversal [] w.state c
  have hvisits : h.visits settings room c w = vs := (Host.walk_eq ht hroom).2
  rw [hvisits, Host.evaluate_eq ht hroom, Host.evaluate_recording ht hroom]
  have hunique : ∀ us q t, h.Traversal [] c w.state us q t → us = vs ∧ q = r ∧ t = s' := by
    intro us q t hu
    exact hu.unique ht
  have hplaced : ∀ v ∈ vs, c.at? v.position = some v.node := by
    intro v hv
    obtain ⟨q, hposition, hnode⟩ := ht.placed v hv
    rw [hposition]
    exact hnode
  exact ⟨ht, hunique, hplaced, ht.positions_nodup, rfl, rfl⟩

/-- Five of the seven nodes are visited, and the leaf that stands three times is called twice. -/
theorem evaluate_traverses_turningTree :
    ¬ (Session.host 0).Exhausts ⟨.recursive, true⟩ 3 Session.turningTree Session.start ∧
      (Session.host 0).Traversal [] Session.turningTree Session.start.state
        ((Session.host 0).visits ⟨.recursive, true⟩ 3 Session.turningTree Session.start)
        ((Session.host 0).evaluate ⟨.recursive, true⟩ 3 Session.turningTree Session.start).1
        ((Session.host 0).evaluate ⟨.recursive, true⟩ 3 Session.turningTree Session.start).2.state ∧
      ((Session.host 0).visits ⟨.recursive, true⟩ 3 Session.turningTree Session.start).map
        Visit.position = [[], [0], [0, 0], [0, 1], [1]] ∧
      ((Session.host 0).recording.evaluate ⟨.recursive, true⟩ 3 Session.turningTree
        Session.start.recording).2.state.2 = [Session.turningLeaf, Session.turningLeaf] := by
  have hroom := Session.turningTree_within #[]
  obtain ⟨htraversal, -, -, -, hcalls, -⟩ :=
    evaluate_traverses (Session.host 0) ⟨.recursive, true⟩ 3 Session.turningTree Session.start hroom
  exact ⟨hroom, htraversal, rfl, hcalls.trans rfl⟩

end ShortCircuit
