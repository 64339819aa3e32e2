import ShortCircuit.CommandLine.Flag
import ShortCircuit.Decimal.Script
import ShortCircuit.Text.Quoted

/-!
# Words of a command line

Every word in front of the separator `--` is a flag, a plain word, or unknown. A flag may be
shortened as long as it stays the only one that starts so, and may carry a value behind an equals
sign; a single letter may carry one at once. Negative numbers and words with a blank are plain even
if they start with a dash, and behind the separator every word is plain.
-/

namespace ShortCircuit.CommandLine

/-- Why a command line cannot be used. -/
inductive Misuse where
  /-- A shortened flag could stand for several flags. -/
  | ambiguous (word : Text) (candidates : List Flag)
  | missingValue (f : Flag)
  /-- A flag that takes no value carries one. -/
  | needlessValue (f : Flag) (value : Text)
  | unknownStrategy (word : Text)
  /-- Words that are no flags and no values of flags. -/
  | unrecognized (words : List Text)
  deriving DecidableEq, Repr

/-- A word as it counts on a command line. -/
inductive Word where
  | plain (t : Text)
  | unknown (t : Text)
  /-- A flag, whether it is spelled with a single dash, and the value that it carries. -/
  | flag (f : Flag) (isShort : Bool) (attached : Option Text)
  | separator
  deriving DecidableEq, Repr

def dash : CodePoint := .ofChar '-'

/-- The word that ends the flags. -/
def separatorText : Text := [dash, dash]

/-- Splits a text at its first equals sign. -/
def splitAtEquals (t : Text) : Text × Option Text :=
  let name := t.takeWhile fun p ↦ p ≠ .ofChar '='
  match t.drop name.length with
  | [] => (name, none)
  | _ :: value => (name, some value)

/-- Whether a text is the digits of an integer, or of a number with a point in it. One line break
may follow. -/
def isUnsignedNumber (t : Text) : Bool :=
  let cs := t.map Decimal.plainChar
  let whole := cs.takeWhile Char.isDigit
  let ends (behind : List Char) : Bool := behind.isEmpty || behind == ['\n']
  match cs.drop whole.length with
  | '.' :: rest =>
    let decimals := rest.takeWhile Char.isDigit
    !decimals.isEmpty && ends (rest.drop decimals.length)
  | behind => !whole.isEmpty && ends behind

/-- A word that starts with a dash and is no flag. -/
def Word.ofOther (t : Text) : Word :=
  if isUnsignedNumber (t.drop 1) || t.contains (.ofChar ' ') then .plain t else .unknown t

/-- A word that starts with two dashes and is no full spelling of a flag. -/
def Word.ofShortened (t : Text) : Except Misuse Word :=
  let (name, value) := splitAtEquals t
  match Flag.startingWith name with
  | [] => .ok (Word.ofOther t)
  | [f] => .ok (.flag f false value)
  | candidates => .error (.ambiguous t candidates)

/-- How a word counts. -/
def Word.ofText (t : Text) : Except Misuse Word :=
  match t with
  | p :: q :: rest =>
    if p ≠ dash then .ok (.plain t)
    else match Flag.ofSpelling? t, splitAtEquals t with
      | some f, _ => .ok (.flag f (q ≠ dash) none)
      | none, (name, value) =>
        match Flag.ofSpelling? name, value with
        | some f, some v => .ok (.flag f (q ≠ dash) (some v))
        | _, _ =>
          if q = dash then Word.ofShortened t
          else match Flag.ofLetter? q with
            | some f => .ok (.flag f true (some rest))
            | none => .ok (Word.ofOther t)
  | _ => .ok (.plain t)

/-- How the words of a command line count. -/
def Word.ofTexts : List Text → Except Misuse (List Word)
  | [] => .ok []
  | t :: rest =>
    if t = separatorText then .ok (.separator :: rest.map .plain)
    else do
      let word ← Word.ofText t
      return word :: (← Word.ofTexts rest)

end ShortCircuit.CommandLine
