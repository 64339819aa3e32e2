import ShortCircuit.Yaml.Supply

/-!
# Reading YAML character by character

A cursor stands in a text whose lines all end with a single character. It counts the characters
read, the lines, and the columns of the current line; a byte order mark takes no column. Behind the
last character the text may be over, or reading on may fail.
-/

namespace ShortCircuit.Yaml

/-- Whether a character ends a line. -/
def isBreak (c : Char) : Bool := c == '\n' || c == '\x85' || c == '\u2028' || c == '\u2029'

def isBlank (c : Char) : Bool := c == ' ' || c == '\t'

/-- Whether a character may stand in the name of an anchor or a handle. -/
def isWordChar (c : Char) : Bool := c.isAlphanum || c == '-' || c == '_'

structure Cursor where
  index : Nat
  line : Nat
  column : Nat
  rest : List Char
  /-- The failure that stands behind the last character, unless the text ends there. -/
  beyond : Option Failure

namespace Cursor

/-- The start of a text. -/
def start (s : Supply Char) : Cursor := ⟨0, 0, 0, s.items, s.failure⟩

/-- The next character, if there is one. -/
def peek (c : Cursor) : Option Char := c.rest.head?

/-- The character after the next `n` ones. -/
def peekAt (c : Cursor) (n : Nat) : Option Char := c.rest[n]?

/-- Whether the next character is the given one. -/
def sees (c : Cursor) (ch : Char) : Bool := c.peek == some ch

/-- The failure that stands here, if any does. -/
def cutOff? (c : Cursor) : Option Failure := if c.rest.isEmpty then c.beyond else none

/-- What is found wrong if the next character does not fit. -/
def fault (c : Cursor) : Failure := c.cutOff?.getD .malformedYaml

/-- Moves over one character. -/
def next (c : Cursor) : Cursor :=
  match c.rest with
  | [] => c
  | ch :: rest =>
    if isBreak ch then ⟨c.index + 1, c.line + 1, 0, rest, c.beyond⟩
    else if ch == '\uFEFF' then ⟨c.index + 1, c.line, c.column, rest, c.beyond⟩
    else ⟨c.index + 1, c.line, c.column + 1, rest, c.beyond⟩

/-- Moves over a number of characters. -/
def skip (c : Cursor) : Nat → Cursor
  | 0 => c
  | n + 1 => c.next.skip n

/-- Moves over all characters of a kind. -/
def skipWhile (c : Cursor) (p : Char → Bool) : Cursor := c.skip (c.rest.takeWhile p).length

/-- Moves over spaces. -/
def skipSpaces (c : Cursor) : Cursor := c.skipWhile (· == ' ')

/-- Moves up to the end of the line. -/
def skipLine (c : Cursor) : Cursor := c.skipWhile fun ch ↦ !isBreak ch

/-- Moves over a comment, if one starts here. -/
def skipComment (c : Cursor) : Cursor := if c.sees '#' then c.skipLine else c

/-- Moves over the end of a line and gives the character that it stands for, if one is here. -/
def lineBreak (c : Cursor) : List Char × Cursor :=
  match c.peek with
  | some ch =>
    if ch == '\n' || ch == '\x85' then (['\n'], c.next)
    else if isBreak ch then ([ch], c.next)
    else ([], c)
  | none => ([], c)

end Cursor

/-- Whether a line ends here: at its last character or at the end of the text. -/
def endsLine (c : Option Char) : Bool := c.all isBreak

/-- Whether a word ends here: at a blank, or with the line. -/
def endsWord (c : Option Char) : Bool := c.all fun ch ↦ isBlank ch || isBreak ch

/-- Whether a space or the end of the line stands here. -/
def endsProperty (c : Option Char) : Bool := c.all fun ch ↦ ch == ' ' || isBreak ch

namespace Cursor

/-- Whether three times the given character and the end of a word come next. -/
def seesThrice (c : Cursor) (ch : Char) : Bool :=
  match c.rest with
  | a :: b :: d :: rest => a == ch && b == ch && d == ch && endsWord rest.head?
  | _ => false

/-- Whether a line that separates documents starts here. -/
def seesSeparator (c : Cursor) : Bool := c.seesThrice '-' || c.seesThrice '.'

/-- Moves over spaces and a comment behind a directive or the header of a block scalar, and over
the end of the line, which must follow. -/
def finishLine (c : Cursor) : Except Failure Cursor :=
  let c := c.skipSpaces.skipComment
  if endsLine c.peek then .ok c.lineBreak.2 else .error c.fault

end Cursor

end ShortCircuit.Yaml
