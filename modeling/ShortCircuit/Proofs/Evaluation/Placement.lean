import ShortCircuit.Proofs.Evaluation.Traversal

/-!
# Where visits stand

A visit is to the node that stands at its position, and no position is visited twice: the visits
below a child have its index in their positions, and the scan never comes back to a child.
-/

namespace ShortCircuit.Host

variable {α β σ ε : Type} {h : Host α β σ ε}

/-- What stands below the first child given stands below one of the children. -/
theorem placed_first {p : Position} {i : Nat} {child : Condition α} {rest : List (Condition α)}
    {v : Visit α σ} (hplaced : ∃ q, v.position = p ++ [i] ++ q ∧ child.at? q = some v.node) :
    ∃ j q c, v.position = p ++ (i + j) :: q ∧ (child :: rest)[j]? = some c ∧
      c.at? q = some v.node := by
  obtain ⟨q, hposition, hnode⟩ := hplaced
  exact ⟨0, q, child, by simpa using hposition, rfl, hnode⟩

mutual

/-- What a traversal visits stands in its tree, at the rest of its position. -/
theorem Traversal.placed {p : Position} {c : Condition α} {s s' : σ} {vs : List (Visit α σ)}
    {r : Except ε Bool} : h.Traversal p c s vs r s' →
    ∀ v ∈ vs, ∃ q, v.position = p ++ q ∧ c.at? q = some v.node
  | .atom _ _, v, hv => by
    rw [List.mem_singleton.mp hv]
    exact ⟨[], (List.append_nil _).symm, rfl⟩
  | .group scan, v, hv => by
    cases hv with
    | head => exact ⟨[], (List.append_nil _).symm, rfl⟩
    | tail _ hv =>
      obtain ⟨j, q, child, hposition, hchild, hnode⟩ := scan.placed v hv
      refine ⟨j :: q, by rw [hposition, Nat.zero_add], ?_⟩
      simp only [Condition.at?, hchild, Option.bind_some, hnode]
  termination_by structural ht => ht

/-- What a scan visits stands below one of its children. -/
theorem Scan.placed {p : Position} {k : Connective} {i : Nat} {children : List (Condition α)}
    {s s' : σ} {vs : List (Visit α σ)} {r : Except ε Bool} :
    h.Scan p k i children s vs r s' → ∀ v ∈ vs, ∃ j q child,
      v.position = p ++ (i + j) :: q ∧ children[j]? = some child ∧ child.at? q = some v.node
  | .exhausted, _, hv => absurd hv List.not_mem_nil
  | .decided first, v, hv => placed_first (first.placed v hv)
  | .failed first, v, hv => placed_first (first.placed v hv)
  | .passed first further, v, hv => by
    rcases List.mem_append.mp hv with hv | hv
    · exact placed_first (first.placed v hv)
    · obtain ⟨j, q, child, hposition, hchild, hnode⟩ := further.placed v hv
      refine ⟨j + 1, q, child, ?_, hchild, hnode⟩
      rw [hposition, Nat.add_assoc, Nat.add_comm 1]
  termination_by structural hs => hs

end

/-- What a traversal from the root visits stands at its position. -/
theorem Traversal.at?_position {c : Condition α} {s s' : σ} {vs : List (Visit α σ)}
    {r : Except ε Bool} (ht : h.Traversal [] c s vs r s') {v : Visit α σ} (hv : v ∈ vs) :
    c.at? v.position = some v.node := by
  obtain ⟨q, hposition, hnode⟩ := ht.placed v hv
  rw [hposition]
  exact hnode

mutual

theorem Traversal.positions_nodup {p : Position} {c : Condition α} {s s' : σ}
    {vs : List (Visit α σ)} {r : Except ε Bool} :
    h.Traversal p c s vs r s' → (vs.map Visit.position).Nodup
  | .atom _ _ => List.pairwise_singleton _ _
  | .group scan => by
    rw [List.map_cons, List.nodup_cons]
    refine ⟨fun hmem ↦ ?_, scan.positions_nodup⟩
    obtain ⟨v, hv, hp⟩ := List.mem_map.mp hmem
    obtain ⟨j, q, -, hposition, -⟩ := scan.placed v hv
    simp [hposition] at hp
  termination_by structural ht => ht

theorem Scan.positions_nodup {p : Position} {k : Connective} {i : Nat}
    {children : List (Condition α)} {s s' : σ} {vs : List (Visit α σ)} {r : Except ε Bool} :
    h.Scan p k i children s vs r s' → (vs.map Visit.position).Nodup
  | .exhausted => List.nodup_nil
  | .decided first => first.positions_nodup
  | .failed first => first.positions_nodup
  | .passed first further => by
    rw [List.map_append, List.nodup_append]
    refine ⟨first.positions_nodup, further.positions_nodup, fun q hq q' hq' heq ↦ ?_⟩
    obtain ⟨v, hv, rfl⟩ := List.mem_map.mp hq
    obtain ⟨v', hv', rfl⟩ := List.mem_map.mp hq'
    -- Positions below the first child go on with its index, later ones with a greater index.
    obtain ⟨q, hposition, -⟩ := first.placed v hv
    obtain ⟨j, q', -, hposition', -⟩ := further.placed v' hv'
    rw [hposition, hposition', List.append_assoc] at heq
    have hindex := List.head_eq_of_cons_eq (List.append_cancel_left heq)
    omega
  termination_by structural hs => hs

end

end ShortCircuit.Host
