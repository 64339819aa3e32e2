import ShortCircuit.Value.Equality
import ShortCircuit.Value.SetOrder

/-!
# Hashes of values

A number is hashed to the key under which a set keeps it. A leaf is hashed as its stored value and a
group as its connective and its children, in tuples; as when they are compared, verifiers play no
part, and neither do attributes that an object of a class of its own was given in place of all that
it had. What texts and tuples are hashed to is up to the runtime, and it may choose anew whenever it
starts.
-/

namespace ShortCircuit

/-- The room that the hash of a group takes. -/
def groupHashRoom : Nat := 2

/-- How a runtime hashes. -/
structure Hashing where
  text : Text → Int
  /-- The hash of a tuple, from the hashes of its items. -/
  tuple : List Int → Int
  /-- The hash of a value that is neither a number nor a text and has no parts. -/
  other : Value → Int

namespace Value

mutual

/-- The hash of a value, given room for `room` levels of nesting. -/
def hashWithin (H : Hashing) (room : Nat) : Value → Except Failure Int
  | .list _ => .error (.unhashable "list")
  | .dict _ => .error (.unhashable "dict")
  | .set _ => .error (.unhashable "set")
  | .inside isDict => .error (.unhashable (if isDict then "dict" else "list"))
  | .tuple items => do return H.tuple (← hashItems H room items)
  | .condition c => hashCondition H room c
  | .leaf l => .ok (H.tuple [l.value.toInt])
  | .settings _ s => .ok (H.tuple [H.text s.strategy.word, s.trace.toInt])
  | .text t => .ok (H.text t)
  | .connective c => .ok (H.text c.word)
  | .strategy s => .ok (H.text s.word)
  | v => .ok ((SetOrder.key? v).getD (H.other v))
  termination_by structural v => v

def hashItems (H : Hashing) (room : Nat) : List Value → Except Failure (List Int)
  | [] => .ok []
  | v :: rest => do
    let first ← hashWithin H room v
    return first :: (← hashItems H room rest)
  termination_by structural vs => vs

def hashCondition (H : Hashing) (room : Nat) : Condition Value → Except Failure Int
  | .atom v => hashWithin H room v
  | .group _ c children =>
    if room < groupHashRoom then .error .stackExhausted
    else do
      let items ← hashConditions H (room - groupHashRoom) children
      return H.tuple [H.text c.word, H.tuple items]
  termination_by structural c => c

def hashConditions (H : Hashing) (room : Nat) : List (Condition Value) → Except Failure (List Int)
  | [] => .ok []
  | c :: rest => do
    let first ← hashCondition H room c
    return first :: (← hashConditions H room rest)
  termination_by structural cs => cs

end

/-- The hash of a value. -/
def hash (H : Hashing) (v : Value) : Except Failure Int := v.hashWithin H comparisonRoom

end Value

end ShortCircuit
