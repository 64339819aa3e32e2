import ShortCircuit.Yaml.Scalar.Block
import ShortCircuit.Yaml.Scalar.Quoted
import ShortCircuit.Yaml.Supply
import ShortCircuit.Yaml.Token.Property

/-!
# From characters to tokens

A key needs no indicator if it stands on one line with its colon. So the start of every node that
may be such a key is kept as a candidate, and once the colon comes, the tokens that mark a key, and
perhaps a mapping, are put in front of it. A token is handed on only when no candidate may still
put something in front of it. A token that would end where the text breaks off is not read.
-/

namespace ShortCircuit.Yaml

/-- A place where a key without an indicator may have started. -/
structure KeyCandidate where
  /-- The number of the first token of the key. -/
  number : Nat
  /-- Whether nothing but a key can stand there. -/
  required : Bool
  /-- The number of flow collections around it. -/
  level : Nat
  index : Nat
  line : Nat
  column : Nat
  deriving Repr

structure Lexer where
  cursor : Cursor
  /-- The number of tokens that have been handed on. -/
  taken : Nat
  /-- The tokens read since then. -/
  waiting : List Token
  /-- The columns of the block collections that are open, innermost first. -/
  indents : List Nat
  /-- The number of flow collections that are open. -/
  level : Nat
  /-- Whether a key without an indicator may start here. -/
  keyAllowed : Bool
  /-- The candidates, at most one for each level, innermost first. -/
  candidates : List KeyCandidate
  /-- Whether there is nothing more to be read. -/
  isDone : Bool

/-- The greatest number of characters from the start of a key to its colon. -/
def keyLimit : Nat := 1024

namespace Lexer

def start (s : Supply Char) : Lexer := ⟨.start s, 0, [], [], 0, true, [], false⟩

def inFlow (l : Lexer) : Bool := l.level != 0

def emit (l : Lexer) (t : Token) : Lexer := { l with waiting := l.waiting ++ [t] }

/-- Emits a token of a number of characters. -/
def emitOver (l : Lexer) (t : Token) (width : Nat) : Lexer :=
  { l.emit t with cursor := l.cursor.skip width }

/-- Emits a token that ends at the given place. -/
def emitUpTo (l : Lexer) (t : Token) (c : Cursor) : Lexer := { l.emit t with cursor := c }

def allowKey (l : Lexer) (allowed : Bool) : Lexer := { l with keyAllowed := allowed }

/-- The number of waiting tokens that no candidate can put anything in front of. -/
def ready (l : Lexer) : Nat :=
  match l.candidates.getLast? with
  | some k => k.number - l.taken
  | none => l.waiting.length

/-- Puts a token in front of the one of a number. -/
def insertAt (l : Lexer) (number : Nat) (t : Token) : Lexer :=
  { l with waiting := l.waiting.insertIdx (number - l.taken) t }

/-! ## Candidates for keys -/

/-- Whether a candidate has been left behind: its line is over, or too much has been read. -/
def isStale (l : Lexer) (k : KeyCandidate) : Bool :=
  k.line != l.cursor.line || keyLimit < l.cursor.index - k.index

/-- Drops the candidates that have been left behind. -/
def dropStale (l : Lexer) : Except Failure Lexer :=
  if l.candidates.any fun k ↦ l.isStale k && k.required then .error .malformedYaml
  else .ok { l with candidates := l.candidates.filter fun k ↦ !l.isStale k }

/-- Drops the candidate of the current level, as its colon can no longer come. -/
def dropCandidate (l : Lexer) : Except Failure Lexer :=
  match l.candidates with
  | k :: rest =>
    if k.level != l.level then .ok l
    else if k.required then .error .malformedYaml
    else .ok { l with candidates := rest }
  | [] => .ok l

/-- Makes the next token a candidate, if a key may start here. -/
def saveCandidate (l : Lexer) : Except Failure Lexer :=
  if l.keyAllowed then do
    let l ← l.dropCandidate
    let c := l.cursor
    let required := !l.inFlow && l.indents.head? == some c.column
    let k : KeyCandidate := ⟨l.taken + l.waiting.length, required, l.level, c.index, c.line, c.column⟩
    return { l with candidates := k :: l.candidates }
  else .ok l

/-! ## Indentation -/

/-- Closes the block collections whose columns are not kept. In a flow collection indentation does
not count. -/
def closeBlocks (l : Lexer) (keep : Nat → Bool) : Lexer :=
  if l.inFlow then l
  else
    let closed := l.indents.takeWhile fun i ↦ !keep i
    { l with
      waiting := l.waiting ++ List.replicate closed.length .blockEnd
      indents := l.indents.drop closed.length }

/-- Whether a block collection at a column would be a new one. -/
def opensBlock (l : Lexer) (column : Nat) : Bool := !l.inFlow && l.indents.head?.all (· < column)

/-- Opens a block collection at the current column, unless it is open. -/
def openBlock (l : Lexer) (t : Token) : Lexer :=
  if l.opensBlock l.cursor.column then { l.emit t with indents := l.cursor.column :: l.indents }
  else l

/-! ## Moving to the next token -/

/-- Moves over spaces, comments and line ends. Outside of flow collections a key may start after a
line end. -/
def skipToToken : (fuel : Nat) → Lexer → Lexer
  | 0, l => l
  | fuel + 1, l =>
    let c := l.cursor.skipSpaces.skipComment
    if c.peek.any isBreak then
      skipToToken fuel { l with cursor := c.next, keyAllowed := l.keyAllowed || !l.inFlow }
    else { l with cursor := c }

/-- Moves over a byte order mark at the start of the text. -/
def skipMark (l : Lexer) : Lexer :=
  if l.cursor.index == 0 && l.cursor.sees '\uFEFF' then { l with cursor := l.cursor.next } else l

/-! ## Tokens -/

/-- The end of the text. -/
def finish (l : Lexer) : Except Failure Lexer := do
  let l ← (l.closeBlocks fun _ ↦ false).dropCandidate
  return { l.emit .streamEnd with keyAllowed := false, candidates := [], isDone := true }

def readDirective (l : Lexer) : Except Failure Lexer := do
  let l ← (l.closeBlocks fun _ ↦ false).dropCandidate
  let (d, c) ← directive l.cursor
  return (l.allowKey false).emitUpTo (.directive d) c

/-- A line that separates documents. -/
def readSeparator (l : Lexer) (t : Token) : Except Failure Lexer := do
  let l ← (l.closeBlocks fun _ ↦ false).dropCandidate
  return (l.allowKey false).emitOver t 3

def openFlow (l : Lexer) (t : Token) : Except Failure Lexer := do
  let l ← l.saveCandidate
  return { (l.allowKey true).emitOver t 1 with level := l.level + 1 }

/-- The end of a flow collection. Nothing is read behind one that closes nothing. -/
def closeFlow (l : Lexer) (t : Token) : Except Failure Lexer := do
  let l ← l.dropCandidate
  let closed := (l.allowKey false).emitOver t 1
  return { closed with level := l.level - 1, isDone := l.level == 0 }

def readComma (l : Lexer) : Except Failure Lexer := do
  return (← (l.allowKey true).dropCandidate).emitOver .comma 1

/-- The dash before an entry of a sequence. -/
def readEntry (l : Lexer) : Except Failure Lexer := do
  if !l.inFlow && !l.keyAllowed then throw .malformedYaml
  let l ← ((l.openBlock .blockSequenceStart).allowKey true).dropCandidate
  return l.emitOver .entry 1

/-- The question mark before a key. -/
def readKey (l : Lexer) : Except Failure Lexer := do
  if !l.inFlow && !l.keyAllowed then throw .malformedYaml
  let l ← ((l.openBlock .blockMappingStart).allowKey !l.inFlow).dropCandidate
  return l.emitOver .key 1

/-- Puts the marks of a key in front of the first token of a candidate. -/
def confirm (l : Lexer) (k : KeyCandidate) : Lexer :=
  let l := (l.insertAt k.number .key).allowKey false
  if l.opensBlock k.column then
    { l.insertAt k.number .blockMappingStart with indents := k.column :: l.indents }
  else l

/-- The colon before a value. -/
def readValue (l : Lexer) : Except Failure Lexer := do
  match l.candidates with
  | k :: rest =>
    if k.level == l.level then
      return ({ l with candidates := rest }.confirm k).emitOver .value 1
    else complex
  | [] => complex
where
  /-- The colon behind a key that has an indicator, or behind no key. -/
  complex : Except Failure Lexer := do
    if !l.inFlow && !l.keyAllowed then throw .malformedYaml
    return ((l.openBlock .blockMappingStart).allowKey !l.inFlow).emitOver .value 1

def readAnchor (l : Lexer) (token : String → Token) : Except Failure Lexer := do
  let l ← l.saveCandidate
  let (name, c) ← anchorName l.cursor.next
  return (l.allowKey false).emitUpTo (token name) c

def readTag (l : Lexer) : Except Failure Lexer := do
  let l ← l.saveCandidate
  let (t, c) ← writtenTag l.cursor
  return (l.allowKey false).emitUpTo (.tag t) c

def readBlockScalar (fuel : Nat) (l : Lexer) (isFolded : Bool) : Except Failure Lexer := do
  let l ← (l.allowKey true).dropCandidate
  let least := max 1 (l.indents.head?.elim 0 (· + 1))
  let (text, c) ← Block.read fuel isFolded least l.cursor
  return l.emitUpTo (.scalar text false) c

def readQuoted (fuel : Nat) (l : Lexer) (isDouble : Bool) : Except Failure Lexer := do
  let l ← l.saveCandidate
  let (text, c) ← Quoted.read fuel isDouble l.cursor
  return (l.allowKey false).emitUpTo (.scalar text false) c

/-- A key may follow a plain scalar only if a line end stands between. -/
def readPlain (fuel : Nat) (l : Lexer) : Except Failure Lexer := do
  let l ← l.saveCandidate
  let r := Plain.read fuel l.inFlow (l.indents.head?.elim 0 (· + 1)) l.cursor
  return (l.allowKey r.crossesLine).emitUpTo (.scalar r.text true) r.after

/-- The indicators that no plain scalar starts with. -/
def indicators : List Char := "-?:,[]\x7b\x7d#&*!|>'\"%@\x60".toList

/-- Whether a plain scalar starts with `ch`, which stands before `following`. -/
def startsPlain (l : Lexer) (ch : Char) (following : Option Char) : Bool :=
  !(isBlank ch || indicators.contains ch) ||
    (!endsWord following && (ch == '-' || (!l.inFlow && (ch == '?' || ch == ':'))))

/-- Fails if the text breaks off here. -/
def checkCutOff (l : Lexer) : Except Failure Lexer :=
  match l.cursor.cutOff? with
  | some e => .error e
  | none => .ok l

/-- Reads one token, perhaps after the ends of block collections. -/
def fetch (fuel : Nat) (l : Lexer) : Except Failure Lexer := do
  let l ← (← (skipToToken fuel l.skipMark).checkCutOff).dropStale
  let c := l.cursor
  let l := l.closeBlocks fun i ↦ i ≤ c.column
  match c.peek with
  | none => l.finish
  | some ch =>
    let atStart := c.column == 0
    let alone := endsWord (c.peekAt 1)
    if ch == '%' && atStart then l.readDirective
    else if atStart && c.seesThrice '-' then l.readSeparator .documentStart
    else if atStart && c.seesThrice '.' then l.readSeparator .documentEnd
    else match ch with
      | '[' => l.openFlow .flowSequenceStart
      | '{' => l.openFlow .flowMappingStart
      | ']' => l.closeFlow .flowSequenceEnd
      | '}' => l.closeFlow .flowMappingEnd
      | ',' => l.readComma
      | '*' => l.readAnchor .alias
      | '&' => l.readAnchor .anchor
      | '!' => l.readTag
      | '\'' => readQuoted fuel l false
      | '"' => readQuoted fuel l true
      | _ =>
        if ch == '-' && alone then l.readEntry
        else if ch == '?' && (l.inFlow || alone) then l.readKey
        else if ch == ':' && (l.inFlow || alone) then l.readValue
        else if ch == '|' && !l.inFlow then readBlockScalar fuel l false
        else if ch == '>' && !l.inFlow then readBlockScalar fuel l true
        else if l.startsPlain ch (c.peekAt 1) then readPlain fuel l
        else .error c.next.fault

/-- Hands on the tokens that are ready, behind those in `before`, which is backwards. -/
def handOn (before : List Token) (l : Lexer) : List Token × Lexer :=
  let n := l.ready
  ((l.waiting.take n).reverse ++ before,
    { l with waiting := l.waiting.drop n, taken := l.taken + n })

/-- Reads on after the tokens `before`, which have been handed on and are backwards. -/
def run (scalarFuel : Nat) : (fuel : Nat) → List Token → Lexer → Supply Token
  | 0, before, _ => ⟨before.reverse, some .malformedYaml⟩
  | fuel + 1, before, l =>
    if l.isDone then ⟨before.reverse ++ l.waiting, none⟩
    else match l.dropStale with
      | .error e => ⟨before.reverse, some e⟩
      | .ok l =>
        let (before, l) := l.handOn before
        match l.fetch scalarFuel >>= checkCutOff with
        | .error e => ⟨before.reverse, some e⟩
        | .ok l => run scalarFuel fuel before l

end Lexer

/-- The tokens of a text. -/
def Token.ofChars (s : Supply Char) : Supply Token :=
  Lexer.run (s.items.length + 1) (s.items.length + 2) [] (.start s)

end ShortCircuit.Yaml
