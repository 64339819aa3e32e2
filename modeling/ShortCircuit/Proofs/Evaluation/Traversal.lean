import ShortCircuit.Proofs.Evaluation.Effect
import ShortCircuit.Proofs.Evaluation.Visit

/-!
# The short-circuit traversal

`Host.Traversal` says, without an evaluator, what the evaluation of a tree from a state comes to:
the visits in order, the outcome and the state that is left. A group is entered before its
children, and these are scanned from left to right, each from the state that the one before it
left, up to the first one that decides or fails. Every tree has exactly one traversal from each
state.
-/

namespace ShortCircuit

variable {α β σ ε : Type}

namespace Host

mutual

/-- The traversal of the tree at a position, from the one state to the other. -/
inductive Traversal (h : Host α β σ ε) :
    Position → Condition α → σ → List (Visit α σ) → Except ε Bool → σ → Prop where
  | atom {p : Position} {a : α} {s s' : σ} {r : Except ε Bool}
      (outcome : (h.verification false a s).outcome = r)
      (state : (h.verification false a s).state = s') :
    Traversal h p (.atom a) s [⟨p, .atom a, s⟩] r s'
  | group {p : Position} {origin : Origin} {k : Connective} {children : List (Condition α)}
      {s s' : σ} {vs : List (Visit α σ)} {r : Except ε Bool}
      (scan : Scan h p k 0 children s vs r s') :
    Traversal h p (.group origin k children) s (⟨p, .group origin k children, s⟩ :: vs) r s'

/-- The scan of the children of a group at a position, from the index of the first one given. -/
inductive Scan (h : Host α β σ ε) : Position → Connective → Nat → List (Condition α) → σ →
    List (Visit α σ) → Except ε Bool → σ → Prop where
  /-- If no child decides, the group has the opposite of the deciding value. -/
  | exhausted {p : Position} {k : Connective} {i : Nat} {s : σ} :
    Scan h p k i [] s [] (.ok !k.deciding) s
  /-- A child with the deciding value ends the scan. -/
  | decided {p : Position} {k : Connective} {i : Nat} {child : Condition α}
      {rest : List (Condition α)} {s s' : σ} {vs : List (Visit α σ)}
      (first : Traversal h (p ++ [i]) child s vs (.ok k.deciding) s') :
    Scan h p k i (child :: rest) s vs (.ok k.deciding) s'
  /-- A child that fails ends the scan with its failure. -/
  | failed {p : Position} {k : Connective} {i : Nat} {child : Condition α}
      {rest : List (Condition α)} {s s' : σ} {vs : List (Visit α σ)} {e : ε}
      (first : Traversal h (p ++ [i]) child s vs (.error e) s') :
    Scan h p k i (child :: rest) s vs (.error e) s'
  /-- After any other child the scan goes on from the state that it left. -/
  | passed {p : Position} {k : Connective} {i : Nat} {child : Condition α}
      {rest : List (Condition α)} {s s' s'' : σ} {vs vs' : List (Visit α σ)} {r : Except ε Bool}
      (first : Traversal h (p ++ [i]) child s vs (.ok !k.deciding) s')
      (further : Scan h p k (i + 1) rest s' vs' r s'') :
    Scan h p k i (child :: rest) s (vs ++ vs') r s''

end

variable {h : Host α β σ ε}

mutual

/-- Every tree has a traversal from every state. -/
theorem exists_traversal (h : Host α β σ ε) (p : Position) (s : σ) :
    (c : Condition α) → ∃ vs r s', h.Traversal p c s vs r s'
  | .atom a => ⟨_, _, _, .atom rfl rfl⟩
  | .group origin k children => by
    obtain ⟨vs, r, s', scan⟩ := exists_scan h p k 0 s children
    exact ⟨_, r, s', .group scan⟩
  termination_by structural c => c

theorem exists_scan (h : Host α β σ ε) (p : Position) (k : Connective) (i : Nat) (s : σ) :
    (children : List (Condition α)) → ∃ vs r s', h.Scan p k i children s vs r s'
  | [] => ⟨[], _, s, .exhausted⟩
  | child :: rest => by
    obtain ⟨vs, r, s', first⟩ := exists_traversal h (p ++ [i]) s child
    cases r with
    | error e => exact ⟨vs, _, s', .failed first⟩
    | ok b =>
      by_cases hb : b = k.deciding
      · subst hb
        exact ⟨vs, _, s', .decided first⟩
      · obtain rfl : b = !k.deciding := Bool.eq_not_of_ne hb
        obtain ⟨vs', r, s'', further⟩ := exists_scan h p k (i + 1) s' rest
        exact ⟨vs ++ vs', r, s'', .passed first further⟩
  termination_by structural children => children

end

mutual

/-- A tree has at most one traversal from a state. -/
theorem Traversal.unique {p : Position} {c : Condition α} {s t t' : σ} {vs vs' : List (Visit α σ)}
    {r r' : Except ε Bool} : h.Traversal p c s vs r t → h.Traversal p c s vs' r' t' →
    vs = vs' ∧ r = r' ∧ t = t'
  | .atom outcome state, .atom outcome' state' =>
    ⟨rfl, outcome.symm.trans outcome', state.symm.trans state'⟩
  | .group scan, .group scan' => by
    obtain ⟨rfl, rfl, rfl⟩ := scan.unique scan'
    exact ⟨rfl, rfl, rfl⟩
  termination_by structural ht => ht

theorem Scan.unique {p : Position} {k : Connective} {i : Nat} {children : List (Condition α)}
    {s t t' : σ} {vs vs' : List (Visit α σ)} {r r' : Except ε Bool} :
    h.Scan p k i children s vs r t → h.Scan p k i children s vs' r' t' →
    vs = vs' ∧ r = r' ∧ t = t'
  | .exhausted, .exhausted => ⟨rfl, rfl, rfl⟩
  | .decided first, .decided first' => by
    obtain ⟨rfl, -, rfl⟩ := first.unique first'
    exact ⟨rfl, rfl, rfl⟩
  | .decided first, .failed first' => absurd (first.unique first').2.1 nofun
  | .decided first, .passed first' _ => absurd (first.unique first').2.1 (by simp)
  | .failed first, .decided first' => absurd (first.unique first').2.1 nofun
  | .failed first, .failed first' => by
    obtain ⟨rfl, hr, rfl⟩ := first.unique first'
    exact ⟨rfl, hr, rfl⟩
  | .failed first, .passed first' _ => absurd (first.unique first').2.1 nofun
  | .passed first _, .decided first' => absurd (first.unique first').2.1 (by simp)
  | .passed first _, .failed first' => absurd (first.unique first').2.1 nofun
  | .passed first further, .passed first' further' => by
    obtain ⟨rfl, -, rfl⟩ := first.unique first'
    obtain ⟨rfl, rfl, rfl⟩ := further.unique further'
    exact ⟨rfl, rfl, rfl⟩
  termination_by structural hs => hs

end

end Host

end ShortCircuit
