/-!
# Decoding UTF-8

A sequence of octets is decoded as a whole, or refused with the place and the nature of the first
octets that cannot be decoded. The ranges of the second octet exclude overlong forms, surrogates
and values beyond the last code point.
-/

namespace ShortCircuit.Utf8

/-- Why octets cannot be decoded. -/
inductive Reason where
  | invalidStart
  | invalidContinuation
  | unexpectedEnd
  deriving DecidableEq, Repr

def Reason.phrase : Reason → String
  | .invalidStart => "invalid start byte"
  | .invalidContinuation => "invalid continuation byte"
  | .unexpectedEnd => "unexpected end of data"

/-- A failure to decode: the position and the octets in question, at least one. -/
structure Error where
  position : Nat
  first : UInt8
  /-- The number of octets after the first that are refused with it. -/
  further : Nat
  reason : Reason
  deriving DecidableEq, Repr

/-- The number of continuation octets after a leading octet, the range of the first of them, and
the bits that the leading octet contributes. Octets that lead nothing have none. -/
def leading? (b : Nat) : Option (Nat × Nat × Nat × Nat) :=
  if 0xC2 ≤ b && b ≤ 0xDF then some (1, 0x80, 0xBF, b - 0xC0)
  else if b == 0xE0 then some (2, 0xA0, 0xBF, 0)
  else if 0xE1 ≤ b && b ≤ 0xEC then some (2, 0x80, 0xBF, b - 0xE0)
  else if b == 0xED then some (2, 0x80, 0x9F, 0xD)
  else if 0xEE ≤ b && b ≤ 0xEF then some (2, 0x80, 0xBF, b - 0xE0)
  else if b == 0xF0 then some (3, 0x90, 0xBF, 0)
  else if 0xF1 ≤ b && b ≤ 0xF3 then some (3, 0x80, 0xBF, b - 0xF0)
  else if b == 0xF4 then some (3, 0x80, 0x8F, 4)
  else none

/-- A sequence under way: where it started, how many continuation octets have been read and how
many are owed, the range of the next one, and the bits so far. -/
structure Partial where
  start : Nat
  first : UInt8
  read : Nat
  owed : Nat
  low : Nat
  high : Nat
  bits : Nat

/-- Decodes from `position` on, after the characters `decoded` given backwards. Gives all characters,
again backwards, and the sequence that is still under way at the end. -/
def decodeFrom (position : Nat) (decoded : List Char) :
    Option Partial → List UInt8 → Except Error (List Char × Option Partial)
  | underway, [] => .ok (decoded, underway)
  | none, b :: rest =>
    let n := b.toNat
    if n < 0x80 then decodeFrom (position + 1) (Char.ofNat n :: decoded) none rest
    else match leading? n with
      | none => .error ⟨position, b, 0, .invalidStart⟩
      | some (owed, low, high, bits) =>
        decodeFrom (position + 1) decoded (some ⟨position, b, 0, owed, low, high, bits⟩) rest
  | some p, b :: rest =>
    let n := b.toNat
    if p.low ≤ n && n ≤ p.high then
      let bits := p.bits * 64 + (n - 0x80)
      if p.owed ≤ 1 then decodeFrom (position + 1) (Char.ofNat bits :: decoded) none rest
      else decodeFrom (position + 1) decoded
        (some ⟨p.start, p.first, p.read + 1, p.owed - 1, 0x80, 0xBF, bits⟩) rest
    else .error ⟨p.start, p.first, p.read, .invalidContinuation⟩

/-- The end of the octets: nothing may still be under way. -/
def finish : List Char × Option Partial → Except Error (List Char)
  | (decoded, none) => .ok decoded.reverse
  | (_, some p) => .error ⟨p.start, p.first, p.read, .unexpectedEnd⟩

/-- Decodes a sequence of octets. -/
def decode (octets : List UInt8) : Except Error (List Char) := do
  finish (← decodeFrom 0 [] none octets)

/-- The octets of a character. -/
def encodeChar (c : Char) : List UInt8 := (String.singleton c).toUTF8.toList

end ShortCircuit.Utf8
