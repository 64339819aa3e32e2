import ShortCircuit.Proofs.Evaluation.Limit

/-!
# Trees with matching atoms

Two trees match if they consist of the same groups and of related atoms. If related atoms are
verified alike, down to what is logged, in all states of a kind that no verification leaves, then
matching trees are evaluated alike, whether their room suffices or not.
-/

namespace ShortCircuit

variable {α α' β β' σ ε : Type}

namespace Condition

mutual

/-- The trees differ in their atoms only, and these are related. -/
inductive Matches (R : α → α' → Prop) : Condition α → Condition α' → Prop where
  | atom {a : α} {a' : α'} (related : R a a') : Matches R (.atom a) (.atom a')
  | group {origin : Origin} {k : Connective} {children : List (Condition α)}
      {children' : List (Condition α')} (all : MatchesAll R children children') :
    Matches R (.group origin k children) (.group origin k children')

inductive MatchesAll (R : α → α' → Prop) : List (Condition α) → List (Condition α') → Prop where
  | nil : MatchesAll R [] []
  | cons {c : Condition α} {c' : Condition α'} {rest : List (Condition α)}
      {rest' : List (Condition α')} (first : Matches R c c') (further : MatchesAll R rest rest') :
    MatchesAll R (c :: rest) (c' :: rest')

end

variable {R : α → α' → Prop}

mutual

theorem Matches.depth {c : Condition α} {c' : Condition α'} : Matches R c c' → c.depth = c'.depth
  | .atom _ => rfl
  | .group all => congrArg (1 + ·) all.depths
  termination_by structural h => h

theorem MatchesAll.depths {cs : List (Condition α)} {cs' : List (Condition α')} :
    MatchesAll R cs cs' → depths cs = depths cs'
  | .nil => rfl
  | .cons first further => congrArg₂ max first.depth further.depths
  termination_by structural h => h

theorem MatchesAll.length {cs : List (Condition α)} {cs' : List (Condition α')} :
    MatchesAll R cs cs' → cs.length = cs'.length
  | .nil => rfl
  | .cons _ further => congrArg (· + 1) further.length
  termination_by structural h => h

end

end Condition

namespace Host

/-- Related atoms are verified alike under the two hosts, in all states of a kind, and these
verifications leave states of that kind. -/
structure Agree (R : α → α' → Prop) (kind : σ → Prop) (h : Host α β σ ε) (g : Host α' β' σ ε) :
    Prop where
  verification {a : α} {a' : α'} (related : R a a') {s : σ} (hs : kind s) (trace : Bool) :
    h.verification trace a s = g.verification trace a' s
  kept {a : α} {a' : α'} (related : R a a') {s : σ} (hs : kind s) :
    kind (h.verification false a s).state
  exhausted : h.exhausted = g.exhausted

variable {R : α → α' → Prop} {kind : σ → Prop} {h : Host α β σ ε} {g : Host α' β' σ ε}
  {trace : Bool}

theorem settle_agree (hagree : Agree R kind h g) {a : α} {a' : α'} (related : R a a') {w : World σ}
    (hw : kind w.state) :
    h.settle trace a w = g.settle trace a' w ∧ kind (h.settle trace a w).2.state := by
  rw [settle_eq_extend, settle_eq_extend, hagree.verification related hw false,
    hagree.verification related hw trace]
  refine ⟨rfl, ?_⟩
  rw [← hagree.verification related hw false]
  exact hagree.kept related hw

mutual

theorem recurse_agree (hagree : Agree R kind h g) {c : Condition α} {c' : Condition α'} :
    c.Matches R c' → ∀ (room : Nat) {w : World σ}, kind w.state →
      h.recurse trace room c w = g.recurse trace room c' w ∧
        kind (h.recurse trace room c w).2.state
  | _, 0, w, hw => by
    simp only [recurse, hagree.exhausted]
    exact ⟨trivial, hw⟩
  | .atom related, room + 1, w, hw => by
    simp only [recurse]
    exact settle_agree hagree related hw
  | .group all, room + 1, w, hw => by
    simp only [recurse, all.length]
    exact recurseList_agree hagree all room _ (by simpa using hw)
  termination_by structural hc => hc

theorem recurseList_agree (hagree : Agree R kind h g) {cs : List (Condition α)}
    {cs' : List (Condition α')} : Condition.MatchesAll R cs cs' →
      ∀ (room : Nat) (k : Connective) {w : World σ}, kind w.state →
        h.recurseList trace room k cs w = g.recurseList trace room k cs' w ∧
          kind (h.recurseList trace room k cs w).2.state
  | .nil, room, k, w, hw => by
    simp only [recurseList]
    exact ⟨trivial, hw⟩
  | .cons first further, room, k, w, hw => by
    obtain ⟨hfirst, hkind⟩ := recurse_agree hagree first room hw
    simp only [recurseList, ← hfirst]
    generalize h.recurse trace room _ w = x at hkind
    obtain ⟨r, w'⟩ := x
    cases r with
    | error e => exact ⟨rfl, hkind⟩
    | ok b =>
      simp only
      split
      · exact ⟨rfl, hkind⟩
      · exact recurseList_agree hagree further room k hkind
  termination_by structural hcs => hcs

end

/-- Matching trees are evaluated alike under hosts that agree. -/
theorem evaluate_agree_of_matches (hagree : Agree R kind h g) {c : Condition α} {c' : Condition α'}
    (hc : c.Matches R c') (settings : Settings) (room : Nat) {w : World σ} (hw : kind w.state) :
    h.evaluate settings room c w = g.evaluate settings room c' w := by
  have hwalk : h.walk settings room c w = g.walk settings room c' w := by
    obtain ⟨strategy, trace⟩ := settings
    cases strategy with
    | recursive => exact (recurse_agree hagree hc room hw).1
    | iterative =>
      -- With room for the whole depth the stack and the recursion come to the same.
      have hiterative := (walk_recursive_eq_iterative h trace w (Nat.le_refl c.depth)).1
      have hiterative' := (walk_recursive_eq_iterative g trace w (Nat.le_of_eq hc.depth.symm)).1
      exact hiterative.symm.trans
        ((recurse_agree hagree hc c.depth hw).1.trans hiterative')
  rw [evaluate, evaluate, hwalk]

end Host

end ShortCircuit
