import ShortCircuit.Failure

/-!
# Truth values

Every value converts to a truth value: nothing, zero and what is empty are false, and all else is
true, unless an object has a rule of its own.
-/

namespace ShortCircuit

/-- The truth value of an object with a rule of its own. -/
def Truthiness.holds : Truthiness → Except Failure Bool
  | .plain => .ok true
  | .bool b => .ok b
  | .length n =>
    if n < 0 then .error .negativeLength
    else if countLimit ≤ n then .error .countTooGreat
    else .ok (n != 0)
  | .raises kind message => .error (.raised kind message)

/-- The truth value of a value. -/
def Value.holds : Value → Except Failure Bool
  | .nothing => .ok false
  | .bool b => .ok b
  | .int n => .ok (n != 0)
  | .float _ x => .ok (x != 0.0)
  | .text t => .ok !t.isEmpty
  | .bytes bs => .ok !bs.isEmpty
  | .list items | .tuple items | .set items => .ok !items.isEmpty
  | .dict entries => .ok !entries.isEmpty
  | .witness _ truth => truth.holds
  | .date _ | .moment _ | .connective _ | .strategy _ | .condition _ | .leaf _ | .settings _ _
  | .duck _ | .refusal _ _ | .classObject _ | .inside _ => .ok true

end ShortCircuit
