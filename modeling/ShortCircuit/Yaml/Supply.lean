import ShortCircuit.Failure

/-!
# Supplies

What one stage of reading hands to the next: items in order, and the failure that comes after them
if reading could not go on. A failure counts only once all items before it have been taken, so the
earliest failure of all stages is the one that is reported.
-/

namespace ShortCircuit.Yaml

structure Supply (α : Type) where
  items : List α
  failure : Option Failure

/-- What is found wrong when a supply has no more items. -/
def Supply.shortage {α : Type} (s : Supply α) : Failure := s.failure.getD .malformedYaml

end ShortCircuit.Yaml
