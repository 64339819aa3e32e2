import ShortCircuit.Yaml.Cursor

/-!
# Plain scalars

A plain scalar goes on over blanks and line ends as long as its lines are indented deeply enough.
A single line end in it stands for a space, and the empty lines after a line end for themselves.
-/

namespace ShortCircuit.Yaml.Plain

/-- The indicators that end a plain scalar in a flow collection. -/
def flowEnds : List Char := [',', '?', '[', ']', '\x7b', '\x7d']

/-- The indicators before which a colon ends a plain scalar in a flow collection. -/
def flowColonEnds : List Char := [',', '[', ']', '\x7b', '\x7d']

/-- Whether a plain scalar cannot go on with a character that stands before `following`. -/
def stops (inFlow : Bool) (c : Char) (following : Option Char) : Bool :=
  isBlank c || isBreak c ||
    (c == ':' && (endsWord following || (inFlow && following.any flowColonEnds.contains))) ||
    (inFlow && flowEnds.contains c)

/-- The number of characters up to the place where a plain scalar stops, counted from `n` on. -/
def runLength (inFlow : Bool) (n : Nat) : List Char → Nat
  | [] => n
  | c :: rest => if stops inFlow c rest.head? then n else runLength inFlow (n + 1) rest

/-- What stands between two words of a plain scalar. -/
structure Gap where
  /-- What the gap stands for; if this is empty, the scalar is over. -/
  text : List Char
  /-- Whether the gap has a line end. -/
  crossesLine : Bool
  after : Cursor

/-- Moves over spaces and empty lines, and gives the line ends after those in `before`, which is
backwards. Nothing is given if a line is reached that separates documents. -/
def emptyLines (before : List Char) : (fuel : Nat) → Cursor → Option (List Char) × Cursor
  | 0, c => (some before.reverse, c)
  | fuel + 1, c =>
    match c.peek with
    | some ch =>
      if ch == ' ' then emptyLines before fuel c.next
      else if isBreak ch then
        let (lineEnd, c) := c.lineBreak
        if c.seesSeparator then (none, c) else emptyLines (lineEnd ++ before) fuel c
      else (some before.reverse, c)
    | none => (some before.reverse, c)

/-- What a line end stands for that is followed by the given empty lines. -/
def folded (lineEnd emptyLines : List Char) : List Char :=
  if lineEnd != ['\n'] then lineEnd ++ emptyLines
  else if emptyLines.isEmpty then [' ']
  else emptyLines

/-- The gap behind a word. -/
def gap (fuel : Nat) (c : Cursor) : Gap :=
  let spaces := c.rest.takeWhile (· == ' ')
  let c := c.skip spaces.length
  if c.peek.any isBreak then
    let (lineEnd, c) := c.lineBreak
    if c.seesSeparator then ⟨[], true, c⟩
    else match emptyLines [] fuel c with
      | (some lines, c) => ⟨folded lineEnd lines, true, c⟩
      | (none, c) => ⟨[], true, c⟩
  else ⟨spaces, false, c⟩

/-- A plain scalar that has been read: its characters backwards, whether a line end follows it, and
the place where the next token is looked for. -/
structure Read where
  before : List Char
  crossesLine : Bool
  after : Cursor

/-- Reads on after the gap of the given text. The lines of the scalar must have `indent` columns
before them, except in a flow collection. -/
def readFrom (inFlow : Bool) (indent : Nat) (read : Read) (text : List Char) :
    (fuel : Nat) → Read
  | 0 => read
  | fuel + 1 =>
    let length := runLength inFlow 0 read.after.rest
    if read.after.sees '#' || length == 0 then read
    else
      let run := read.after.rest.take length
      let before := run.reverse ++ (text.reverse ++ read.before)
      let g := gap fuel (read.after.skip length)
      let read : Read := ⟨before, g.crossesLine, g.after⟩
      if g.text.isEmpty || g.after.sees '#' || (!inFlow && g.after.column < indent) then read
      else readFrom inFlow indent read g.text fuel

/-- Reads a plain scalar. -/
def read (fuel : Nat) (inFlow : Bool) (indent : Nat) (c : Cursor) : Read :=
  readFrom inFlow indent ⟨[], false, c⟩ [] fuel

/-- The text of the scalar. -/
def Read.text (r : Read) : Text := .ofChars r.before.reverse

end ShortCircuit.Yaml.Plain
