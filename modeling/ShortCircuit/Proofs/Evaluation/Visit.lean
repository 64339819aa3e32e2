import ShortCircuit.Proofs.Evaluation.Effect

/-!
# Visits

A visit is the moment at which an evaluation turns to a node. It is known by the position of the
node, the node itself and the state in which the host is found. The visits of the machine are read
off the states that it passes through, and those of the recursion are its activations in the order
in which they start; `Host.visits` are the visits of the strategy that the settings ask for.
-/

namespace ShortCircuit

variable {α β σ ε : Type}

/-- Where a node stands in a tree: the indices of the children on the way down from the root. -/
abbrev Position := List Nat

/-- A node that an evaluation turns to, and the state of the host at that moment. -/
structure Visit (α σ : Type) where
  position : Position
  node : Condition α
  state : σ

/-- The node that stands at a position. -/
def Condition.at? (c : Condition α) : Position → Option (Condition α)
  | [] => some c
  | i :: p =>
    match c with
    | .atom _ => none
    | .group _ _ children => children[i]?.bind fun child ↦ child.at? p

/-- The index of the child that was started last. -/
def Frame.latest (f : Frame α) : Nat := f.children.length - f.pending.length - 1

namespace Machine

/-- The position of the node that is visited above a stack. -/
def position : List (Frame α) → Position
  | [] => []
  | f :: rest => position rest ++ [f.latest]

/-- The visit that a state of the machine stands for, if it is one. -/
def visit (w : World σ) : Machine α → List (Visit α σ)
  | .visiting node stack => [⟨position stack, node, w.state⟩]
  | .resuming _ _ _ => []

/-- The visits of the machine until it halts. -/
def visits (h : Host α β σ ε) (trace : Bool) (m : Machine α) (w : World σ) : List (Visit α σ) :=
  match hstep : step h trace m w with
  | .halted _ _ => m.visit w
  | .running m' w' =>
    have := weight_lt_of_step hstep
    m.visit w ++ visits h trace m' w'
  termination_by m.weight

theorem visits_of_running {h : Host α β σ ε} {trace : Bool} {m m' : Machine α} {w w' : World σ}
    (hstep : step h trace m w = .running m' w') :
    visits h trace m w = m.visit w ++ visits h trace m' w' := by
  rw [visits]
  split
  · rename_i heq
    cases hstep.symm.trans heq
  · rename_i heq
    cases hstep.symm.trans heq
    rfl

theorem visits_of_halted {h : Host α β σ ε} {trace : Bool} {m : Machine α} {w w' : World σ}
    {r : Except ε Bool} (hstep : step h trace m w = .halted r w') :
    visits h trace m w = m.visit w := by
  rw [visits]
  split
  · rfl
  · rename_i heq
    cases hstep.symm.trans heq

end Machine

namespace Host

mutual

/-- The activations of a recursive evaluation, in the order in which they start. -/
def recurseVisits (h : Host α β σ ε) (trace : Bool) :
    (room : Nat) → Position → Condition α → World σ → List (Visit α σ)
  | 0, _, _, _ => []
  | _ + 1, p, .atom a, w => [⟨p, .atom a, w.state⟩]
  | room + 1, p, .group origin connective children, w =>
    ⟨p, .group origin connective children, w.state⟩ ::
      recurseListVisits h trace room connective p 0 children
        (w.visit trace (.enteredGroup connective children.length))
  termination_by structural _ _ c => c

/-- The activations for the children of a group, `index` being that of the first one given. -/
def recurseListVisits (h : Host α β σ ε) (trace : Bool) (room : Nat) (connective : Connective)
    (p : Position) (index : Nat) : List (Condition α) → World σ → List (Visit α σ)
  | [], _ => []
  | child :: rest, w =>
    recurseVisits h trace room (p ++ [index]) child w ++
      match h.recurse trace room child w with
      | (.error _, _) => []
      | (.ok b, w) =>
        if b = connective.deciding then []
        else recurseListVisits h trace room connective p (index + 1) rest w
  termination_by structural children => children

end

/-- The visits of a walk with the strategy of the settings, in order. -/
def visits (h : Host α β σ ε) (settings : Settings) (room : Nat) (c : Condition α)
    (w : World σ) : List (Visit α σ) :=
  match settings.strategy with
  | .recursive => h.recurseVisits settings.trace room [] c w
  | .iterative => Machine.visits h settings.trace (.visiting c []) w

/-- The records that a visit adds to the log: that of a group, or those of a verification. -/
def recordsOf (h : Host α β σ ε) (trace : Bool) (v : Visit α σ) : List Record :=
  match v.node with
  | .group _ connective children =>
    if trace then [.enteredGroup connective children.length] else []
  | .atom a => (h.verification trace a v.state).records

/-- The records that visits add to the log, one visit after the other. -/
def journal (h : Host α β σ ε) (trace : Bool) (vs : List (Visit α σ)) : List Record :=
  vs.flatMap (h.recordsOf trace)

@[simp] theorem journal_nil (h : Host α β σ ε) (trace : Bool) : h.journal trace [] = [] := rfl

@[simp] theorem journal_cons (h : Host α β σ ε) (trace : Bool) (v : Visit α σ)
    (vs : List (Visit α σ)) : h.journal trace (v :: vs) = h.recordsOf trace v ++ h.journal trace vs :=
  List.flatMap_cons

@[simp] theorem journal_append (h : Host α β σ ε) (trace : Bool) (vs vs' : List (Visit α σ)) :
    h.journal trace (vs ++ vs') = h.journal trace vs ++ h.journal trace vs' :=
  List.flatMap_append

end Host

end ShortCircuit
