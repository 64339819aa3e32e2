/-!
# Code points and texts

A text is a list of Unicode code points. Unlike the characters of a `String`, a code point may be
a surrogate on its own: the escapes of the configuration formats can spell one, and such a value
has to be carried as far as the message that quotes it.
-/

namespace ShortCircuit

/-- A Unicode code point; surrogates are code points too. -/
structure CodePoint where
  value : Nat
  value_lt : value < 0x110000
  deriving DecidableEq, Repr

namespace CodePoint

instance : Inhabited CodePoint := ⟨⟨0, by decide⟩⟩

/-- The code point with the given number, if there is one. -/
def ofNat? (n : Nat) : Option CodePoint :=
  if h : n < 0x110000 then some ⟨n, h⟩ else none

def ofChar (c : Char) : CodePoint :=
  ⟨c.toNat, by
    have h := c.valid
    simp only [UInt32.isValidChar, Nat.isValidChar] at h
    simp only [Char.toNat]
    omega⟩

/-- The character with this code point. A surrogate has none and shows as U+FFFD. -/
def toChar (p : CodePoint) : Char :=
  if p.value.isValidChar then Char.ofNat p.value else '\uFFFD'

/-- The single code point that a pair of surrogates stands for. -/
def ofSurrogates? (high low : Nat) : Option CodePoint :=
  if 0xD800 ≤ high ∧ high ≤ 0xDBFF ∧ 0xDC00 ≤ low ∧ low ≤ 0xDFFF then
    ofNat? (0x10000 + (high - 0xD800) * 0x400 + (low - 0xDC00))
  else
    none

end CodePoint

/-- A sequence of code points. -/
abbrev Text := List CodePoint

namespace Text

def ofChars (cs : List Char) : Text := cs.map CodePoint.ofChar

def ofString (s : String) : Text := ofChars s.toList

/-- The text as a string, with U+FFFD in the place of each surrogate. -/
def toString (t : Text) : String := t.foldl (fun s p ↦ s.push p.toChar) ""

instance : Coe String Text := ⟨ofString⟩

end Text

end ShortCircuit
