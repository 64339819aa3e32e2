import ShortCircuit.Text.Printable

/-!
# Quoted notation

How messages show a text or a sequence of octets: between quotes, with an escape for each quote,
backslash and unprintable element. Single quotes are used unless the content holds a single quote
and no double quote.
-/

namespace ShortCircuit

/-- The hexadecimal notation of `n` in lower case, padded with zeros to `width` digits. -/
def hexadecimal (width n : Nat) : String :=
  let digits := Nat.toDigits 16 n
  String.ofList (List.replicate (width - digits.length) '0' ++ digits)

namespace CodePoint

/-- The code point as it stands between the quotes. -/
def escaped (quote : Char) (p : CodePoint) : String :=
  let c := p.toChar
  if c == quote || c == '\\' then String.ofList ['\\', c]
  else if c == '\t' then "\\t"
  else if c == '\n' then "\\n"
  else if c == '\r' then "\\r"
  else if p.isPrintable then c.toString
  else if p.value ≤ 0xFF then "\\x" ++ hexadecimal 2 p.value
  else if p.value ≤ 0xFFFF then "\\u" ++ hexadecimal 4 p.value
  else "\\U" ++ hexadecimal 8 p.value

end CodePoint

/-- The quote that encloses a content, given which quotes the content itself holds. -/
def enclosingQuote (hasSingle hasDouble : Bool) : Char :=
  if hasSingle && !hasDouble then '"' else '\''

namespace Text

/-- The text between quotes. -/
def quoted (t : Text) : String :=
  let quote := enclosingQuote (t.contains (.ofChar '\'')) (t.contains (.ofChar '"'))
  (t.foldl (fun s p ↦ s ++ p.escaped quote) (String.singleton quote)).push quote

end Text

/-- An octet as it stands between the quotes: all but the printable ASCII characters are escaped. -/
def escapedOctet (quote : Char) (b : UInt8) : String :=
  let c := Char.ofNat b.toNat
  if c == quote || c == '\\' then String.ofList ['\\', c]
  else if c == '\t' then "\\t"
  else if c == '\n' then "\\n"
  else if c == '\r' then "\\r"
  else if 0x20 ≤ b && b < 0x7F then c.toString
  else "\\x" ++ hexadecimal 2 b.toNat

/-- A sequence of octets between quotes, marked by a leading `b`. -/
def quotedOctets (bs : List UInt8) : String :=
  let quote := enclosingQuote (bs.contains 0x27) (bs.contains 0x22)
  (bs.foldl (fun s b ↦ s ++ escapedOctet quote b) ("b".push quote)).push quote

end ShortCircuit
