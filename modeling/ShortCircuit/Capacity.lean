/-!
# Capacity

How much there is room for while documents are read and written depends on the machine and on what
has called the library, and not on the library.
-/

namespace ShortCircuit

/-- What there is room for. -/
structure Capacity where
  /-- How deep a JSON document may be nested. -/
  json : Nat
  /-- How deep a YAML document may be nested. -/
  yaml : Nat
  /-- How many times in a row a mapping of a YAML document may lead to another one that it merges or
  that stands for its text. -/
  links : Nat
  /-- The number of blanks for which there is no room. -/
  blanks : Nat
  json_pos : 0 < json
  yaml_pos : 0 < yaml

namespace Capacity

/-- What there usually is room for when a program calls the library directly. -/
def usual : Capacity where
  json := 990
  yaml := 480
  links := 980
  blanks := Nat.pow 2 40
  json_pos := by decide
  yaml_pos := by decide

end Capacity

end ShortCircuit
