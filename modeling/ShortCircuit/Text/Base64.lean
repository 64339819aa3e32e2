/-!
# Decoding base 64

Four characters stand for three octets. Characters outside of the alphabet do not count, and what
follows the padding is not looked at.
-/

namespace ShortCircuit.Base64

/-- The value of a character of the alphabet. -/
def value? (c : Char) : Option Nat :=
  if 'A' ≤ c && c ≤ 'Z' then some (c.toNat - 'A'.toNat)
  else if 'a' ≤ c && c ≤ 'z' then some (c.toNat - 'a'.toNat + 26)
  else if '0' ≤ c && c ≤ '9' then some (c.toNat - '0'.toNat + 52)
  else if c == '+' then some 62
  else if c == '/' then some 63
  else none

/-- How much of a group of four characters has been read, with the bits that no octet holds yet. -/
inductive Group where
  | none
  | one (bits : Nat)
  | two (bits : Nat)
  | three (bits : Nat)

/-- The number of characters read of a group. -/
def Group.size : Group → Nat
  | .none => 0
  | .one _ => 1
  | .two _ => 2
  | .three _ => 3

/-- One more character of a group: the octet that is complete with it, and the group after it. -/
def Group.push (n : Nat) : Group → Option UInt8 × Group
  | .none => (Option.none, .one n)
  | .one bits => (some (bits * 4 + n / 16).toUInt8, .two (n % 16))
  | .two bits => (some (bits * 16 + n / 4).toUInt8, .three (n % 4))
  | .three bits => (some (bits * 64 + n).toUInt8, .none)

/-- Decodes on after the octets `before`, which are backwards, with the given number of signs of
padding just read. A group that has not been padded must not be left incomplete. -/
def decodeFrom (before : List UInt8) (g : Group) (padding : Nat) :
    List Char → Option (List UInt8)
  | [] => if g.size = 0 then some before.reverse else Option.none
  | c :: rest =>
    if c == '=' then
      if g.size < 2 then decodeFrom before g padding rest
      else if 4 ≤ g.size + padding + 1 then some before.reverse
      else decodeFrom before g (padding + 1) rest
    else match value? c with
      | Option.none => decodeFrom before g padding rest
      | some n =>
        let (octet, g) := g.push n
        decodeFrom (octet.toList ++ before) g 0 rest

/-- Decodes characters, unless the last group is incomplete. -/
def decode? (cs : List Char) : Option (List UInt8) := decodeFrom [] .none 0 cs

end ShortCircuit.Base64
