import ShortCircuit.Decimal.Reading
import ShortCircuit.Yaml.Scalar.Plain

/-!
# Quoted scalars

Between single quotes only the quote itself is written in another way, twice. Between double quotes
a backslash starts an escape. Line ends are folded as in plain scalars, but without regard to
indentation.
-/

namespace ShortCircuit.Yaml.Quoted

/-- The character that a letter behind a backslash stands for. -/
def escapedChar? : Char → Option Char
  | '0' => some '\x00'
  | 'a' => some '\x07'
  | 'b' => some '\x08'
  | 't' => some '\t'
  | '\t' => some '\t'
  | 'n' => some '\n'
  | 'v' => some '\x0b'
  | 'f' => some '\x0c'
  | 'r' => some '\r'
  | 'e' => some '\x1b'
  | ' ' => some ' '
  | '"' => some '"'
  | '\\' => some '\\'
  | '/' => some '/'
  | 'N' => some '\x85'
  | '_' => some '\xA0'
  | 'L' => some '\u2028'
  | 'P' => some '\u2029'
  | _ => none

/-- The number of hexadecimal digits that follow a letter behind a backslash. -/
def escapeWidth? : Char → Option Nat
  | 'x' => some 2
  | 'u' => some 4
  | 'U' => some 8
  | _ => none

/-- Moves over the blanks and the empty lines at the start of a line, and gives the line ends after
those in `before`, which is backwards. -/
def emptyLines (before : List Char) : (fuel : Nat) → Cursor → Except Failure (List Char × Cursor)
  | 0, c => .ok (before.reverse, c)
  | fuel + 1, c =>
    if c.seesSeparator then .error (c.skip 3).fault
    else
      let c := c.skipWhile isBlank
      if c.peek.any isBreak then
        let (lineEnd, c) := c.lineBreak
        emptyLines (lineEnd ++ before) fuel c
      else .ok (before.reverse, c)

/-- Reads blanks and line ends between two words. -/
def gap (fuel : Nat) (c : Cursor) : Except Failure (List Char × Cursor) :=
  let blanks := c.rest.takeWhile isBlank
  let c := c.skip blanks.length
  match c.peek with
  | none => .error c.fault
  | some ch =>
    if isBreak ch then do
      let (lineEnd, c) := c.lineBreak
      let (lines, c) ← emptyLines [] fuel c
      return (Plain.folded lineEnd lines, c)
    else .ok (blanks, c)

/-- Reads an escape whose backslash has just been read. An escaped line end stands for nothing. -/
def escape (fuel : Nat) (c : Cursor) : Except Failure (Text × Cursor) :=
  match c.peek with
  | none => .error c.fault
  | some ch => match escapedChar? ch, escapeWidth? ch with
    | some meant, _ => .ok ([.ofChar meant], c.next)
    | none, some width =>
      let digits := c.next.rest.take width
      match Decimal.hexNumber? digits with
      | some n =>
        if digits.length < width then .error (c.next.skip digits.length).fault
        else match CodePoint.ofNat? n with
          | some p => .ok ([p], c.next.skip width)
          | none => .error (.noCodePoint n)
      | none => .error .malformedYaml
    | none, none =>
      if isBreak ch then do
        let (lines, c) ← emptyLines [] fuel c.lineBreak.2
        return (.ofChars lines, c)
      else .error .malformedYaml

/-- Reads on up to the closing quote, after the code points `before` given backwards. -/
def readFrom (isDouble : Bool) (before : Text) : (fuel : Nat) → Cursor →
    Except Failure (Text × Cursor)
  | 0, _ => .error .malformedYaml
  | fuel + 1, c =>
    match c.rest with
    | [] => .error c.fault
    | '"' :: _ =>
      if isDouble then .ok (before.reverse, c.next)
      else readFrom isDouble (.ofChar '"' :: before) fuel c.next
    | '\'' :: rest =>
      if isDouble then readFrom isDouble (.ofChar '\'' :: before) fuel c.next
      else if rest.head? == some '\'' then
        readFrom isDouble (.ofChar '\'' :: before) fuel (c.skip 2)
      else .ok (before.reverse, c.next)
    | '\\' :: _ =>
      if isDouble then do
        let (text, c) ← escape fuel c.next
        readFrom isDouble (text.reverse ++ before) fuel c
      else readFrom isDouble (.ofChar '\\' :: before) fuel c.next
    | ch :: _ =>
      if isBlank ch || isBreak ch then do
        let (text, c) ← gap fuel c
        readFrom isDouble ((Text.ofChars text).reverse ++ before) fuel c
      else readFrom isDouble (.ofChar ch :: before) fuel c.next

/-- Reads a quoted scalar from its opening quote on. -/
def read (fuel : Nat) (isDouble : Bool) (c : Cursor) : Except Failure (Text × Cursor) :=
  readFrom isDouble [] fuel c.next

end ShortCircuit.Yaml.Quoted
