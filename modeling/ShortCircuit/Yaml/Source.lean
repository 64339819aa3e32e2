import ShortCircuit.Text.Stream
import ShortCircuit.Yaml.Supply

/-!
# From octets to characters

A text is read in portions, and each of them is checked before any of its characters is handed on.
So what is wrong with a portion counts only when a character of it is asked for.
-/

namespace ShortCircuit.Yaml

/-- Whether a character may stand in a text. -/
def isPrintable (c : Char) : Bool :=
  c == '\t' || c == '\n' || c == '\r' || (' ' ≤ c && c ≤ '~') || c == '\x85' ||
    ('\xA0' ≤ c && c != '\uFFFE' && c != '\uFFFF')

namespace Source

/-- The number of characters that are read at a time. -/
def portionSize : Nat := 4096

/-- The characters from a portion on, after those in `before`, which are backwards: the portion
itself, and what `rest` says of the others. -/
def withPortion (before cs : List Char) (rest : List Char → Supply Char) : Supply Char :=
  if cs.all isPrintable then rest (cs.reverse ++ before) else ⟨before.reverse, some .malformedYaml⟩

/-- Reads portion by portion, after the characters `before` given backwards. -/
def readFrom (before : List Char) : (fuel : Nat) → TextStream → Supply Char
  | 0, _ => ⟨before.reverse, none⟩
  | fuel + 1, s =>
    match s.read portionSize with
    | .error e => ⟨before.reverse, some (.undecodable e)⟩
    | .ok ([], _) => ⟨before.reverse, none⟩
    | .ok (cs, s) => withPortion before cs fun before ↦ readFrom before fuel s

/-- The first two portions, which are checked together. -/
def opening (s : TextStream) : Except Utf8.Error (List Char × TextStream) := do
  let (first, s) ← s.read portionSize
  let (second, s) ← s.read portionSize
  return (first ++ second, s)

end Source

/-- The characters of a text. -/
def Source.ofOctets (octets : List UInt8) : Supply Char :=
  match opening { octets } with
  | .error e => ⟨[], some (.undecodable e)⟩
  | .ok (cs, s) => withPortion [] cs fun before ↦ readFrom before (octets.length + 1) s

end ShortCircuit.Yaml
