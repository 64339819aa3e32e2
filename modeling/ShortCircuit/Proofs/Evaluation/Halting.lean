import ShortCircuit.Proofs.Evaluation.Failures
import ShortCircuit.Proofs.Evaluation.Placement

/-!
# The machine halts

`Machine.advance` counts the steps of the machine, one for each time that it comes to the head of
its loop. `walk_iterative_halts` says that it halts on every tree after fewer steps than three times
the nodes of the tree, with a truth value in its register or with the failure of the atom that it
visits, and that it turns to no position twice.
-/

namespace ShortCircuit

variable {α β σ ε : Type} {h : Host α β σ ε} {trace : Bool}

namespace Machine

/-- What the machine has come to after a number of steps, if it has not halted before. -/
def advance (h : Host α β σ ε) (trace : Bool) : (steps : Nat) → Machine α → World σ →
    Progress α σ ε
  | 0, m, w => .running m w
  | steps + 1, m, w =>
    match step h trace m w with
    | .running m' w' => advance h trace steps m' w'
    | .halted r w' => .halted r w'

theorem advance_of_running {m m' : Machine α} {w w' : World σ}
    (hstep : step h trace m w = .running m' w') (n : Nat) :
    advance h trace (n + 1) m w = advance h trace n m' w' := by
  rw [advance, hstep]

/-- A machine that is still running after more steps has been running after fewer. -/
theorem advance_add {m m' m'' : Machine α} {w w' w'' : World σ} {i j : Nat}
    (hi : advance h trace i m w = .running m' w')
    (hj : advance h trace (i + j) m w = .running m'' w'') :
    advance h trace j m' w' = .running m'' w'' := by
  induction i generalizing m w with
  | zero =>
    cases hi
    rwa [Nat.zero_add] at hj
  | succ i ih =>
    rw [Nat.succ_add] at hj
    cases hstep : step h trace m w with
    | running n v =>
      rw [advance_of_running hstep] at hi hj
      exact ih hi hj
    | halted r v => simp [advance, hstep] at hi

/-- The machine halts within its weight, with the outcome of its run. -/
theorem exists_advance_halted (h : Host α β σ ε) (trace : Bool) (m : Machine α) (w : World σ) :
    ∃ n ≤ m.weight, ∃ m' w', advance h trace n m w = .running m' w' ∧
      step h trace m' w' = .halted (run h trace m w).1 (run h trace m w).2 := by
  induction hn : m.weight using Nat.strongRecOn generalizing m w with
  | ind n ih =>
    subst hn
    cases hstep : step h trace m w with
    | halted r w' =>
      refine ⟨0, Nat.zero_le _, m, w, rfl, ?_⟩
      rw [run_of_halted hstep]
      exact hstep
    | running m' w' =>
      have hweight := weight_lt_of_step hstep
      obtain ⟨k, hk, last, v, hadvance, hlast⟩ := ih m'.weight hweight m' w' rfl
      refine ⟨k + 1, by omega, last, v, ?_, ?_⟩
      · rw [advance_of_running hstep]
        exact hadvance
      · rw [run_of_running hstep]
        exact hlast

/-- How the machine halts: with a truth value in its register and no group under evaluation, or
at an atom that fails. -/
theorem step_halted_cases {m : Machine α} {w w' : World σ} {r : Except ε Bool}
    (hstep : step h trace m w = .halted r w') :
    (∃ b settled, m = .resuming (some b) [] settled ∧ r = .ok b) ∨
      ∃ a stack e, m = .visiting (.atom a) stack ∧ r = .error e ∧
        h.Fails ⟨position stack, .atom a, w.state⟩ e := by
  unfold step at hstep
  split at hstep
  · cases hstep
  · rename_i a stack
    rw [h.settle_eq_extend trace a w] at hstep
    cases houtcome : (h.verification false a w.state).outcome with
    | error e =>
      rw [houtcome] at hstep
      cases hstep
      exact .inr ⟨a, stack, e, rfl, rfl, Host.fails_atom_iff.mpr houtcome⟩
    | ok b =>
      rw [houtcome] at hstep
      cases hstep
  · rename_i register settled
    cases hstep
    cases register with
    | none => cases settled rfl
    | some b => exact .inl ⟨b, settled, rfl, rfl⟩
  · split at hstep
    · cases hstep
    · split at hstep <;> cases hstep

/-- What is visited from a later state on is visited at the end. -/
theorem visits_suffix {m m' : Machine α} {w w' : World σ} {n : Nat}
    (hn : advance h trace n m w = .running m' w') :
    visits h trace m' w' <:+ visits h trace m w := by
  induction n generalizing m w with
  | zero =>
    cases hn
    exact List.suffix_rfl
  | succ n ih =>
    cases hstep : step h trace m w with
    | running l v =>
      rw [advance_of_running hstep] at hn
      rw [visits_of_running hstep]
      exact (ih hn).trans (List.suffix_append ..)
    | halted r v => simp [advance, hstep] at hn

/-- A machine that visits a node begins its visits with it. -/
theorem visits_visiting (node : Condition α) (stack : List (Frame α)) (w : World σ) :
    visits h trace (.visiting node stack) w = ⟨position stack, node, w.state⟩ ::
      match step h trace (.visiting node stack) w with
      | .running m w => visits h trace m w
      | .halted _ _ => [] := by
  cases hstep : step h trace (.visiting node stack) w with
  | running m v =>
    rw [visits_of_running hstep]
    rfl
  | halted r v =>
    rw [visits_of_halted hstep]
    rfl

theorem mem_visits_of_advance {m : Machine α} {w v : World σ} {n : Nat} {node : Condition α}
    {stack : List (Frame α)} (hn : advance h trace n m w = .running (.visiting node stack) v) :
    ⟨position stack, node, v.state⟩ ∈ visits h trace m w := by
  apply (visits_suffix hn).subset
  rw [visits_visiting]
  exact List.mem_cons_self ..

/-- A machine that never visits a position twice has left a position for good once it has gone on
from it. -/
theorem position_ne_of_advance {m : Machine α} {w v v' : World σ} {i k : Nat}
    {node node' : Condition α} {stack stack' : List (Frame α)}
    (hnodup : ((visits h trace m w).map Visit.position).Nodup)
    (hi : advance h trace i m w = .running (.visiting node stack) v)
    (hk : advance h trace (k + 1) (.visiting node stack) v = .running (.visiting node' stack') v') :
    position stack ≠ position stack' := by
  intro heq
  cases hstep : step h trace (.visiting node stack) v with
  | halted r u => simp [advance, hstep] at hk
  | running n u =>
    rw [advance_of_running hstep] at hk
    have hlater := mem_visits_of_advance hk
    have hsuffix := ((visits_suffix hi).map Visit.position).sublist.nodup hnodup
    rw [visits_visiting, hstep, List.map_cons, List.nodup_cons] at hsuffix
    exact hsuffix.1 (List.mem_map.mpr ⟨_, hlater, heq.symm⟩)

end Machine

/-- The machine comes to the head of its loop less often than three times the number of nodes, and
halts there with a truth value that is in its register, or with the failure of an atom at which it
is, never for lack of room. It visits only what stands in the tree, and no position at two steps. -/
theorem walk_iterative_halts (h : Host α β σ ε) (trace : Bool) (room : Nat) (c : Condition α)
    (w : World σ) :
    (∃ n < 3 * c.size, ∃ m v,
        Machine.advance h trace n (.visiting c []) w = .running m v ∧
        Machine.step h trace m v = .halted (h.walk ⟨.iterative, trace⟩ room c w).1
          (h.walk ⟨.iterative, trace⟩ room c w).2 ∧
        ((∃ b settled, m = .resuming (some b) [] settled ∧
            (h.walk ⟨.iterative, trace⟩ room c w).1 = .ok b) ∨
          ∃ a stack e, m = .visiting (.atom a) stack ∧
            (h.walk ⟨.iterative, trace⟩ room c w).1 = .error e ∧
            h.Fails ⟨Machine.position stack, .atom a, v.state⟩ e)) ∧
      ¬ h.Exhausts ⟨.iterative, trace⟩ room c w ∧
      (∀ i node stack v,
        Machine.advance h trace i (.visiting c []) w = .running (.visiting node stack) v →
        c.at? (Machine.position stack) = some node) ∧
      ∀ i j node node' stack stack' v v',
        Machine.advance h trace i (.visiting c []) w = .running (.visiting node stack) v →
        Machine.advance h trace j (.visiting c []) w = .running (.visiting node' stack') v' →
        Machine.position stack = Machine.position stack' → i = j := by
  obtain ⟨vs, r, s', ht⟩ := h.exists_traversal [] w.state c
  have hvisits : Machine.visits h trace (.visiting c []) w = vs := (Host.iterate_eq ht).2
  have hnodup : ((Machine.visits h trace (.visiting c []) w).map Visit.position).Nodup := by
    rw [hvisits]
    exact ht.positions_nodup
  refine ⟨?_, h.not_exhausts_iterative trace room c w, ?_, ?_⟩
  · obtain ⟨n, hn, m, v, hadvance, hlast⟩ :=
      Machine.exists_advance_halted h trace (.visiting c []) w
    refine ⟨n, ?_, m, v, hadvance, hlast, Machine.step_halted_cases hlast⟩
    have hpos := c.size_pos
    simp only [Machine.weight, Machine.stackWeight] at hn
    omega
  · intro i node stack v hi
    have hmem := Machine.mem_visits_of_advance hi
    rw [hvisits] at hmem
    exact ht.at?_position hmem
  · intro i j node node' stack stack' v v' hi hj heq
    rcases Nat.lt_trichotomy i j with hlt | rfl | hgt
    · obtain ⟨k, rfl⟩ : ∃ k, j = i + (k + 1) := ⟨j - i - 1, by omega⟩
      exact absurd heq (Machine.position_ne_of_advance hnodup hi (Machine.advance_add hi hj))
    · rfl
    · obtain ⟨k, rfl⟩ : ∃ k, i = j + (k + 1) := ⟨i - j - 1, by omega⟩
      exact absurd heq.symm
        (Machine.position_ne_of_advance hnodup hj (Machine.advance_add hj hi))

end ShortCircuit
