import ShortCircuit.Decimal.Reading
import ShortCircuit.Yaml.Cursor

/-!
# Block scalars

A block scalar is made of the lines that are indented as its first one is, or as its header says.
In a folded one, a line end between two lines that start with no blank stands for a space. The
header also says which of the line ends at the end of the scalar are kept.
-/

namespace ShortCircuit.Yaml.Block

/-- Which of the line ends at the end are kept: none, the first, or all. -/
inductive Chomping where
  | strip
  | clip
  | keep
  deriving DecidableEq, Repr

/-- The header of a block scalar. -/
structure Header where
  chomping : Chomping
  /-- By how many columns the scalar is indented against its parent. -/
  increment : Option Nat

/-- The chomping that an indicator stands for. -/
def chomping? : Option Char → Option Chomping
  | some '+' => some .keep
  | some '-' => some .strip
  | _ => none

/-- The increment that a digit stands for; zero is none. -/
def increment? (c : Option Char) : Except Failure (Option Nat) :=
  match c.bind Decimal.digit? with
  | some 0 => .error .malformedYaml
  | n => .ok n

/-- Reads the two indicators of a header, in either order. -/
def indicators (c : Cursor) : Except Failure (Header × Cursor) := do
  match chomping? c.peek with
  | some chomping =>
    let c := c.next
    match ← increment? c.peek with
    | some n => return (⟨chomping, some n⟩, c.next)
    | none => return (⟨chomping, none⟩, c)
  | none =>
    match ← increment? c.peek with
    | some n =>
      let c := c.next
      match chomping? c.peek with
      | some chomping => return (⟨chomping, some n⟩, c.next)
      | none => return (⟨.clip, some n⟩, c)
    | none => return (⟨.clip, none⟩, c)

/-- Reads the header up to the end of its line. -/
def header (c : Cursor) : Except Failure (Header × Cursor) := do
  let (h, c) ← indicators c
  if endsProperty c.peek then return (h, ← c.finishLine) else throw c.fault

/-- Moves over leading empty lines and the spaces of the first line. Gives the line ends, after
those in `before`, which is backwards, and the greatest column reached. -/
def leadingLines (before : List Char) (deepest : Nat) :
    (fuel : Nat) → Cursor → List Char × Nat × Cursor
  | 0, c => (before.reverse, deepest, c)
  | fuel + 1, c =>
    match c.peek with
    | some ch =>
      if ch == ' ' then leadingLines before (max deepest c.next.column) fuel c.next
      else if isBreak ch then
        let (lineEnd, c) := c.lineBreak
        leadingLines (lineEnd ++ before) deepest fuel c
      else (before.reverse, deepest, c)
    | none => (before.reverse, deepest, c)

/-- Moves over the spaces at the start of a line, up to a column. -/
def skipIndent (indent : Nat) (c : Cursor) : Cursor :=
  c.skip ((c.rest.take (indent - c.column)).takeWhile (· == ' ')).length

/-- Moves over empty lines and the indentation of the next line. Gives the line ends, after those
in `before`, which is backwards. -/
def emptyLines (indent : Nat) (before : List Char) : (fuel : Nat) → Cursor → List Char × Cursor
  | 0, c => (before.reverse, c)
  | fuel + 1, c =>
    let c := skipIndent indent c
    if c.peek.any isBreak then
      let (lineEnd, c) := c.lineBreak
      emptyLines indent (lineEnd ++ before) fuel c
    else (before.reverse, c)

/-- The lines that have been read: their characters backwards, the line end of the last one, the
empty lines behind it, and the place behind those. -/
structure Lines where
  before : List Char
  lineEnd : List Char
  emptyLines : List Char
  after : Cursor

/-- Whether another line of the scalar starts here. -/
def goesOn (indent : Nat) (c : Cursor) : Bool := c.column == indent && !c.rest.isEmpty

/-- What the line end between two lines stands for. -/
def join (folds : Bool) (lineEnd emptyLines : List Char) : List Char :=
  if folds && lineEnd == ['\n'] then (if emptyLines.isEmpty then [' '] else [])
  else lineEnd

/-- Reads the lines of the scalar. -/
def lines (isFolded : Bool) (indent : Nat) (read : Lines) : (fuel : Nat) → Lines
  | 0 => read
  | fuel + 1 =>
    if !goesOn indent read.after then read
    else
      let c := read.after
      let startsBare := !c.peek.any isBlank
      let line := c.rest.takeWhile fun ch ↦ !isBreak ch
      let before := line.reverse ++ (read.emptyLines.reverse ++ read.before)
      let (lineEnd, c) := (c.skip line.length).lineBreak
      let (empty, c) := emptyLines indent [] fuel c
      if goesOn indent c then
        let folds := isFolded && startsBare && !c.peek.any isBlank
        let before := (join folds lineEnd empty).reverse ++ before
        lines isFolded indent ⟨before, lineEnd, empty, c⟩ fuel
      else ⟨before, lineEnd, empty, c⟩

/-- The text of the scalar, its last line ends treated as the header says. -/
def Lines.text (l : Lines) : Chomping → Text
  | .strip => .ofChars l.before.reverse
  | .clip => .ofChars (l.before.reverse ++ l.lineEnd)
  | .keep => .ofChars (l.before.reverse ++ l.lineEnd ++ l.emptyLines)

/-- Reads a block scalar from its indicator on. Its lines are indented by at least `least`
columns. -/
def read (fuel : Nat) (isFolded : Bool) (least : Nat) (c : Cursor) :
    Except Failure (Text × Cursor) := do
  let (h, c) ← header c.next
  let (indent, empty, c) := match h.increment with
    | some n =>
      let indent := least + n - 1
      let (empty, c) := emptyLines indent [] fuel c
      (indent, empty, c)
    | none =>
      let (empty, deepest, c) := leadingLines [] 0 fuel c
      (max least deepest, empty, c)
  let l := lines isFolded indent ⟨[], [], empty, c⟩ fuel
  return (l.text h.chomping, l.after)

end ShortCircuit.Yaml.Block
