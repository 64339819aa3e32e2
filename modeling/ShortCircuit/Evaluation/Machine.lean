import ShortCircuit.Evaluation.Host

/-!
# Evaluation with an explicit stack

The machine keeps a stack of the groups that are under evaluation, each with the children that it
has not started, and a register with the result of the node completed last. The register is empty
when the group on top has only just been entered. `Machine.weight` goes down with every step, so
the machine halts on every tree.
-/

namespace ShortCircuit

/-- A group under evaluation and its children not yet started. -/
structure Frame (α : Type) where
  origin : Origin
  connective : Connective
  children : List (Condition α)
  pending : List (Condition α)

/-- A state of the machine. -/
inductive Machine (α : Type) where
  /-- The node is about to be visited. -/
  | visiting (node : Condition α) (stack : List (Frame α))
  /-- The register is about to be handed to the group on top of the stack. -/
  | resuming (register : Option Bool) (stack : List (Frame α))
      (settled : stack = [] → register.isSome)

/-- What a step of the machine leads to. -/
inductive Progress (α σ ε : Type) where
  | running (machine : Machine α) (world : World σ)
  | halted (outcome : Except ε Bool) (world : World σ)

namespace Frame

variable {α : Type}

def weight (f : Frame α) : Nat := 3 * Condition.sizes f.pending + 1

end Frame

namespace Machine

variable {α β σ ε : Type}

/-- The weight of the groups under evaluation. -/
def stackWeight : List (Frame α) → Nat
  | [] => 0
  | f :: rest => f.weight + stackWeight rest

/-- A bound on the number of steps that are left. -/
def weight : Machine α → Nat
  | .visiting node stack => 3 * node.size - 1 + stackWeight stack
  | .resuming _ stack _ => stackWeight stack

/-- One step of the machine. A frame ends where no child is pending. Where the children are drawn
from an iterator, that shows in a private marker in place of a child, and a child that is this very
marker would end its frame too; here no child is. -/
def step (h : Host α β σ ε) (trace : Bool) : Machine α → World σ → Progress α σ ε
  | .visiting (.group origin connective children) stack, w =>
    .running (.resuming none (⟨origin, connective, children, children⟩ :: stack) nofun)
      (w.visit trace (.enteredGroup connective children.length))
  | .visiting (.atom a) stack, w =>
    match h.settle trace a w with
    | (.error e, w) => .halted (.error e) w
    | (.ok b, w) => .running (.resuming (some b) stack fun _ ↦ rfl) w
  | .resuming register [] settled, w => .halted (.ok (register.get (settled rfl))) w
  | .resuming register (top :: stack) _, w =>
    if _ : register = some top.connective.deciding then
      .running (.resuming (some top.connective.deciding) stack fun _ ↦ rfl) w
    else
      match top.pending with
      | [] => .running (.resuming (some !top.connective.deciding) stack fun _ ↦ rfl) w
      | child :: rest => .running (.visiting child ({ top with pending := rest } :: stack)) w

theorem weight_lt_of_step {h : Host α β σ ε} {trace : Bool} {m m' : Machine α} {w w' : World σ}
    (hstep : step h trace m w = .running m' w') : m'.weight < m.weight := by
  unfold step at hstep
  split at hstep
  · cases hstep
    simp only [weight, stackWeight, Frame.weight, Condition.size]
    omega
  · split at hstep <;> cases hstep
    simp only [weight, Condition.size]
    omega
  · cases hstep
  · rename_i top stack _
    split at hstep
    · cases hstep
      simp only [weight, stackWeight, Frame.weight]
      omega
    · split at hstep <;> cases hstep
      · simp only [weight, stackWeight, Frame.weight]
        omega
      · rename_i child rest hpending
        have hpos := Condition.size_pos child
        simp only [weight, stackWeight, Frame.weight, hpending, Condition.sizes]
        omega

/-- Runs the machine until it halts. -/
def run (h : Host α β σ ε) (trace : Bool) (m : Machine α) (w : World σ) :
    Except ε Bool × World σ :=
  match hstep : step h trace m w with
  | .halted outcome w' => (outcome, w')
  | .running m' w' =>
    have := weight_lt_of_step hstep
    run h trace m' w'
  termination_by m.weight

theorem run_of_running {h : Host α β σ ε} {trace : Bool} {m m' : Machine α} {w w' : World σ}
    (hstep : step h trace m w = .running m' w') : run h trace m w = run h trace m' w' := by
  rw [run]
  split
  · rename_i heq
    cases hstep.symm.trans heq
  · rename_i heq
    cases hstep.symm.trans heq
    rfl

theorem run_of_halted {h : Host α β σ ε} {trace : Bool} {m : Machine α} {w w' : World σ}
    {outcome : Except ε Bool} (hstep : step h trace m w = .halted outcome w') :
    run h trace m w = (outcome, w') := by
  rw [run]
  split
  · rename_i heq
    cases hstep.symm.trans heq
    rfl
  · rename_i heq
    cases hstep.symm.trans heq

end Machine

namespace Host

variable {α β σ ε : Type}

/-- Evaluates a condition on the machine, starting from an empty stack. -/
def iterate (h : Host α β σ ε) (trace : Bool) (c : Condition α) (w : World σ) :
    Except ε Bool × World σ :=
  Machine.run h trace (.visiting c []) w

end Host

end ShortCircuit
