import ShortCircuit.Text.Lines
import ShortCircuit.Text.Utf8

/-!
# Reading a text little by little

A text need not be decoded as a whole. At a time, as many of its octets are decoded as the missing
characters seem to take, but no less than a block. What reaches over the end of these octets, be it
a sequence or a line end, is completed by the next ones.
-/

namespace ShortCircuit

/-- A text that is being read. -/
structure TextStream where
  /-- The octets that have not been decoded. -/
  octets : List UInt8
  /-- The sequence that the octets decoded last broke off in. -/
  underway : Option Utf8.Partial := none
  /-- Whether a carriage return is held back. -/
  isReturnHeld : Bool := false
  /-- The characters that have been decoded, but not read. -/
  decoded : List Char := []
  /-- How many octets were decoded last, and to how many characters. -/
  latest : Nat × Nat := (0, 0)

namespace TextStream

/-- The least number of octets that are decoded at a time. -/
def blockSize : Nat := 8192

/-- The number of octets that are decoded when some characters are missing: as many as these would
take if they were like the last ones. -/
def blockFor (s : TextStream) (missing : Nat) : Nat :=
  max blockSize (max missing (s.latest.1 * missing / s.latest.2))

/-- Decodes another block, or what is still held back at the end. A failure counts its position
from the start of the block, or from a sequence that reaches into the block. -/
def decodeBlock (s : TextStream) (missing : Nat) : Except Utf8.Error TextStream := do
  let size := s.blockFor missing
  let block := s.octets.take size
  let isLast := block.isEmpty
  let (before, underway) ←
    Utf8.decodeFrom (s.underway.elim 0 fun p ↦ p.read + 1) [] s.underway block
  if isLast then let _ ← Utf8.finish (before, underway)
  let (cs, isReturnHeld) := Lines.normalizePart s.isReturnHeld isLast before.reverse
  return {
    octets := s.octets.drop size
    underway := underway.map fun p ↦ { p with start := 0 }
    isReturnHeld
    decoded := s.decoded ++ cs
    latest := (block.length, cs.length) }

/-- Decodes on until there are `n` characters or there is nothing more to decode. -/
def fill (n : Nat) : (fuel : Nat) → TextStream → Except Utf8.Error TextStream
  | 0, s => .ok s
  | fuel + 1, s =>
    if n ≤ s.decoded.length then .ok s
    else do
      let filled ← s.decodeBlock (n - s.decoded.length)
      if s.octets.isEmpty && filled.decoded.length == s.decoded.length then return filled
      else fill n fuel filled

/-- Reads `n` characters, or fewer at the end of the text. -/
def read (s : TextStream) (n : Nat) : Except Utf8.Error (List Char × TextStream) := do
  let s ← fill n (s.octets.length + 2) s
  return (s.decoded.take n, { s with decoded := s.decoded.drop n })

end TextStream

end ShortCircuit
