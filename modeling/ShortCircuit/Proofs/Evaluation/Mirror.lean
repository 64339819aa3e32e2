import ShortCircuit.Proofs.Evaluation.Room

/-!
# Hosts that mirror each other

One host mirrors another through a map of their states if every atom is verified with the same
outcome, and the states that are left correspond again. What they log may differ. Such hosts have
the same traversals, and recursions that stop for lack of room stop in corresponding states.
-/

namespace ShortCircuit

variable {α β β' σ τ ε : Type}

/-- The visit as a host with other states is found in it. -/
def Visit.mapState (f : σ → τ) (v : Visit α σ) : Visit α τ := ⟨v.position, v.node, f v.state⟩

@[simp] theorem Visit.mapState_id : (Visit.mapState id : Visit α σ → Visit α σ) = id := rfl

@[simp] theorem Visit.position_mapState (f : σ → τ) (v : Visit α σ) :
    (v.mapState f).position = v.position := rfl

namespace Host

/-- Verifications have the same outcomes under both hosts, and leave corresponding states. -/
structure Mirrors (f : σ → τ) (h : Host α β σ ε) (g : Host α β' τ ε) : Prop where
  outcome : ∀ a s, (g.verification false a (f s)).outcome = (h.verification false a s).outcome
  state : ∀ a s, (g.verification false a (f s)).state = f (h.verification false a s).state
  exhausted : g.exhausted = h.exhausted

variable {f : σ → τ} {h : Host α β σ ε} {g : Host α β' τ ε}

mutual

theorem Traversal.mirror (hfg : Mirrors f h g) {p : Position} {c : Condition α} {s s' : σ}
    {vs : List (Visit α σ)} {r : Except ε Bool} :
    h.Traversal p c s vs r s' → g.Traversal p c (f s) (vs.map (Visit.mapState f)) r (f s')
  | .atom outcome state =>
    .atom ((hfg.outcome ..).trans outcome) ((hfg.state ..).trans (congrArg f state))
  | .group scan => .group (scan.mirror hfg)
  termination_by structural ht => ht

theorem Scan.mirror (hfg : Mirrors f h g) {p : Position} {k : Connective} {i : Nat}
    {children : List (Condition α)} {s s' : σ} {vs : List (Visit α σ)} {r : Except ε Bool} :
    h.Scan p k i children s vs r s' →
      g.Scan p k i children (f s) (vs.map (Visit.mapState f)) r (f s')
  | .exhausted => .exhausted
  | .decided first => .decided (first.mirror hfg)
  | .failed first => .failed (first.mirror hfg)
  | .passed first further => by
    rw [List.map_append]
    exact .passed (first.mirror hfg) (further.mirror hfg)
  termination_by structural hs => hs

end

/-- Mirrored hosts run out of room together. -/
theorem exhausts_mirror (hfg : Mirrors f h g) (settings : Settings) (room : Nat)
    (c : Condition α) {w : World σ} {v : World τ} (hv : v.state = f w.state) :
    g.Exhausts settings room c v ↔ h.Exhausts settings room c w := by
  obtain ⟨vs, r, s', ht⟩ := h.exists_traversal [] w.state c
  have hmirror := ht.mirror hfg
  rw [← hv] at hmirror
  have hdeep : (∃ u ∈ vs.map (Visit.mapState f), room ≤ u.position.length) ↔
      ∃ v ∈ vs, room ≤ v.position.length := by
    constructor
    · rintro ⟨_, hu, hdeep⟩
      obtain ⟨v, hv, rfl⟩ := List.mem_map.mp hu
      exact ⟨v, hv, hdeep⟩
    · rintro ⟨v, hv, hdeep⟩
      exact ⟨_, List.mem_map_of_mem hv, hdeep⟩
  rw [exhausts_iff hmirror, exhausts_iff ht, hdeep]

variable {trace trace' : Bool}

theorem settle_mirror (hfg : Mirrors f h g) (a : α) {w : World σ} {v : World τ}
    (hv : v.state = f w.state) :
    (g.settle trace' a v).1 = (h.settle trace a w).1 ∧
      (g.settle trace' a v).2.state = f (h.settle trace a w).2.state := by
  simp only [settle_eq_extend, World.extend_state, hv]
  exact ⟨hfg.outcome a w.state, hfg.state a w.state⟩

mutual

/-- Recursions under mirrored hosts end alike, however much room they have. -/
theorem recurse_mirror (hfg : Mirrors f h g) : (c : Condition α) → ∀ (room : Nat) {w : World σ}
      {v : World τ}, v.state = f w.state →
    (g.recurse trace' room c v).1 = (h.recurse trace room c w).1 ∧
      (g.recurse trace' room c v).2.state = f (h.recurse trace room c w).2.state
  | _, 0, w, v, hv => by
    simp only [recurse]
    exact ⟨congrArg Except.error hfg.exhausted, hv⟩
  | .atom a, room + 1, w, v, hv => by
    simp only [recurse]
    exact settle_mirror hfg a hv
  | .group _ k children, room + 1, w, v, hv => by
    simp only [recurse]
    exact recurseList_mirror hfg children room k (by simpa using hv)
  termination_by structural c => c

theorem recurseList_mirror (hfg : Mirrors f h g) : (children : List (Condition α)) →
    ∀ (room : Nat) (k : Connective) {w : World σ} {v : World τ}, v.state = f w.state →
      (g.recurseList trace' room k children v).1 = (h.recurseList trace room k children w).1 ∧
        (g.recurseList trace' room k children v).2.state =
          f (h.recurseList trace room k children w).2.state
  | [], _, _, w, v, hv => by
    simp only [recurseList, true_and]
    exact hv
  | child :: rest, room, k, w, v, hv => by
    obtain ⟨houtcome, hstate⟩ := recurse_mirror hfg child room hv
    simp only [recurseList]
    generalize g.recurse trace' room child v = y at houtcome hstate
    generalize h.recurse trace room child w = x at houtcome hstate
    obtain ⟨r, w'⟩ := x
    obtain ⟨r', v'⟩ := y
    obtain rfl : r' = r := houtcome
    cases r' with
    | error e => exact ⟨rfl, hstate⟩
    | ok b =>
      by_cases hb : b = k.deciding
      · simp only [hb, if_true]
        exact ⟨trivial, hstate⟩
      · simp only [hb, if_false]
        exact recurseList_mirror hfg rest room k hstate
  termination_by structural children => children

end

/-- Evaluations under mirrored hosts end alike, within their room or not, and traced or not. -/
theorem evaluate_mirror (hfg : Mirrors f h g) (strategy : Strategy) (room : Nat)
    (c : Condition α) {w : World σ} {v : World τ} (hv : v.state = f w.state) :
    (g.evaluate ⟨strategy, trace'⟩ room c v).1 = (h.evaluate ⟨strategy, trace⟩ room c w).1 ∧
      (g.evaluate ⟨strategy, trace'⟩ room c v).2.state =
        f (h.evaluate ⟨strategy, trace⟩ room c w).2.state := by
  have hwalk : (g.walk ⟨strategy, trace'⟩ room c v).1 = (h.walk ⟨strategy, trace⟩ room c w).1 ∧
      (g.walk ⟨strategy, trace'⟩ room c v).2.state =
        f (h.walk ⟨strategy, trace⟩ room c w).2.state := by
    cases strategy with
    | recursive => exact recurse_mirror hfg c room hv
    | iterative =>
      obtain ⟨vs, r, s', ht⟩ := h.exists_traversal [] w.state c
      have hmirror := ht.mirror hfg
      rw [← hv] at hmirror
      rw [(walk_eq ht (h.not_exhausts_iterative trace room c w)).1,
        (walk_eq hmirror (g.not_exhausts_iterative trace' room c v)).1]
      exact ⟨rfl, rfl⟩
  simp only [evaluate]
  generalize g.walk ⟨strategy, trace'⟩ room c v = y at hwalk
  generalize h.walk ⟨strategy, trace⟩ room c w = x at hwalk
  obtain ⟨r, w'⟩ := x
  obtain ⟨r', v'⟩ := y
  obtain ⟨rfl, hstate⟩ := hwalk
  cases r' with
  | error e => exact ⟨rfl, hstate⟩
  | ok b => exact ⟨rfl, hstate⟩

end Host

end ShortCircuit
