import ShortCircuit.Decimal.Reading
import ShortCircuit.Json.Error
import ShortCircuit.Text.CodePoint

/-!
# Strings of JSON

A string is read from behind its opening quote to its closing quote. An escape may spell a
surrogate; two of them that make a pair are one code point.
-/

namespace ShortCircuit.Json

/-- Where a reader stands: the number of characters read, and what is left. -/
structure Cursor where
  offset : Nat
  rest : List Char
  deriving Repr

/-- Why reading stops before the end of the document. -/
inductive Halt where
  | fault (f : Fault) (offset : Nat)
  | literalTooLong (digits : Nat)
  | tooDeep
  deriving Repr

abbrev Reading (α : Type) := Except Halt (α × Cursor)

/-- The character that a letter behind a backslash stands for. -/
def escapedChar? : Char → Option Char
  | '"' => some '"'
  | '\\' => some '\\'
  | '/' => some '/'
  | 'b' => some '\x08'
  | 'f' => some '\x0c'
  | 'n' => some '\n'
  | 'r' => some '\r'
  | 't' => some '\t'
  | _ => none

def isHighSurrogate (n : Nat) : Bool := 0xD800 ≤ n && n ≤ 0xDBFF

/-- The code point of a number of at most four hexadecimal digits. -/
def codeUnit (n : Nat) : CodePoint := (CodePoint.ofNat? n).getD default

/-- What the escape of a code unit stands for, given the characters behind it: a code point, and
whether it takes a second escape with it. A second escape is looked at only if something follows
it. -/
def pairUp (unit offset : Nat) (rest : List Char) : Except Halt (CodePoint × Bool) :=
  if isHighSurrogate unit then
    match rest with
    | '\\' :: 'u' :: a :: b :: c :: d :: _ :: _ =>
      match Decimal.hexNumber? [a, b, c, d] with
      | none => .error (.fault .invalidUnicodeEscape (offset + 1))
      | some low => match CodePoint.ofSurrogates? unit low with
        | some p => .ok (p, true)
        | none => .ok (codeUnit unit, false)
    | _ => .ok (codeUnit unit, false)
  else .ok (codeUnit unit, false)

/-- Reads on inside a string that starts at `start`, after the code points `before`, given
backwards. -/
def stringFrom (start : Nat) (before : Text) (offset : Nat) (cs : List Char) : Reading Text :=
  match cs with
  | [] => .error (.fault .unterminatedString start)
  | '"' :: rest => .ok (before.reverse, ⟨offset + 1, rest⟩)
  | '\\' :: 'u' :: a :: b :: c :: d :: e :: rest =>
    match Decimal.hexNumber? [a, b, c, d] with
    | none => .error (.fault .invalidUnicodeEscape (offset + 1))
    | some unit => match pairUp unit (offset + 6) (e :: rest) with
      | .error halt => .error halt
      | .ok (p, false) => stringFrom start (p :: before) (offset + 6) (e :: rest)
      | .ok (p, true) => stringFrom start (p :: before) (offset + 12) (rest.drop 5)
  | '\\' :: 'u' :: _ => .error (.fault .invalidUnicodeEscape (offset + 1))
  | '\\' :: c :: rest => match escapedChar? c with
    | some c => stringFrom start (.ofChar c :: before) (offset + 2) rest
    | none => .error (.fault .invalidEscape offset)
  | '\\' :: [] => .error (.fault .unterminatedString start)
  | c :: rest =>
    if c.toNat < 0x20 then .error (.fault .invalidControlCharacter offset)
    else stringFrom start (.ofChar c :: before) (offset + 1) rest
  termination_by cs.length

/-- Reads a string whose opening quote has just been read. -/
def string (c : Cursor) : Reading Text := stringFrom (c.offset - 1) [] c.offset c.rest

end ShortCircuit.Json
