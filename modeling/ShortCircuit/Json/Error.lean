/-!
# Malformed JSON

Why a text is no JSON document, and at which character.
-/

namespace ShortCircuit.Json

/-- What is wrong with a document. -/
inductive Fault where
  | expectingValue
  | expectingPropertyName
  | expectingColon
  | expectingComma
  | extraData
  | invalidControlCharacter
  | invalidEscape
  | invalidUnicodeEscape
  | unterminatedString
  | byteOrderMark
  deriving DecidableEq, Repr

def Fault.phrase : Fault → String
  | .expectingValue => "Expecting value"
  | .expectingPropertyName => "Expecting property name enclosed in double quotes"
  | .expectingColon => "Expecting ':' delimiter"
  | .expectingComma => "Expecting ',' delimiter"
  | .extraData => "Extra data"
  | .invalidControlCharacter => "Invalid control character at"
  | .invalidEscape => "Invalid \\escape"
  | .invalidUnicodeEscape => "Invalid \\uXXXX escape"
  | .unterminatedString => "Unterminated string starting at"
  | .byteOrderMark => "Unexpected UTF-8 BOM (decode using utf-8-sig)"

/-- A place in a text: the number of characters before it, its line and its column from 1. -/
structure Place where
  offset : Nat
  line : Nat
  column : Nat
  deriving DecidableEq, Repr

/-- The place after `offset` characters of the text. -/
def Place.at (text : List Char) (offset : Nat) : Place :=
  let (line, column) := (text.take offset).foldl
    (fun (line, column) c ↦ if c == '\n' then (line + 1, 1) else (line, column + 1)) (1, 1)
  ⟨offset, line, column⟩

structure Error where
  fault : Fault
  place : Place
  deriving DecidableEq, Repr

def Error.message (e : Error) : String :=
  s!"{e.fault.phrase}: line {e.place.line} column {e.place.column} (char {e.place.offset})"

end ShortCircuit.Json
