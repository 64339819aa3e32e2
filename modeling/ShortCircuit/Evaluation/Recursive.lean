import ShortCircuit.Evaluation.Host

/-!
# Recursive evaluation

The children of a group are evaluated from left to right, up to the first one with the deciding
value. Every node on the path from the root takes one unit of room; a visit that finds no room
left fails.
-/

namespace ShortCircuit.Host

variable {α β σ ε : Type}

mutual

/-- Evaluates a condition, `room` being the number of nodes that may still be nested. -/
def recurse (h : Host α β σ ε) (trace : Bool) :
    (room : Nat) → Condition α → World σ → Except ε Bool × World σ
  | 0, _, w => (.error h.exhausted, w)
  | _ + 1, .atom a, w => h.settle trace a w
  | room + 1, .group _ connective children, w =>
    recurseList h trace room connective children
      (w.visit trace (.enteredGroup connective children.length))
  termination_by structural _ c => c

/-- Evaluates the children of a group until one of them decides. -/
def recurseList (h : Host α β σ ε) (trace : Bool) (room : Nat) (connective : Connective) :
    List (Condition α) → World σ → Except ε Bool × World σ
  | [], w => (.ok !connective.deciding, w)
  | child :: rest, w =>
    match recurse h trace room child w with
    | (.error e, w) => (.error e, w)
    | (.ok b, w) =>
      if b = connective.deciding then (.ok b, w)
      else recurseList h trace room connective rest w
  termination_by structural children => children

end

end ShortCircuit.Host
