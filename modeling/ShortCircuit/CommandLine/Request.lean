import ShortCircuit.CommandLine.Word

/-!
# Requests

What a command line asks for. The words are read from left to right: the help is given as soon as
it is asked for, a later value of a flag replaces an earlier one, and words that belong to no flag
are refused at the end.

Three rules are those of the releases of the argument parser before 3.11.9. A separator that is
attached to a flag stands for no value; later releases take it as the value. In a cluster of letters
behind a single dash, a letter that spells no flag makes the rest a value, which the flag before it
does not take; later releases go on with the next word and refuse the rest at the end. And what
stands behind an equals sign after a single letter is read as further letters; later releases refuse
it.
-/

namespace ShortCircuit.CommandLine

/-- What is known of the value of a flag. -/
inductive Given (α : Type) where
  | absent
  /-- The flag carries the separator, which stands for no value. -/
  | dropped
  | value (a : α)
  deriving DecidableEq, Repr

def Given.toOption {α : Type} : Given α → Option α
  | .value a => some a
  | .absent | .dropped => none

/-- The arguments of an evaluation. -/
structure Arguments where
  strategy : Given Strategy := .absent
  config : Given Text := .absent
  verbose : Bool := false
  deriving DecidableEq, Repr

inductive Request where
  | help
  | evaluation (a : Arguments)
  deriving DecidableEq, Repr

namespace Arguments

/-- The strategy that a word selects. -/
def strategyOfWord (t : Text) : Except Misuse Strategy :=
  match Strategy.all.find? fun s ↦ t = Text.ofString s.word with
  | some s => .ok s
  | none => .error (.unknownStrategy t)

/-- The arguments with a value for a flag that takes one. A separator stands for no value. -/
def withValue (a : Arguments) (f : Flag) (t : Text) : Except Misuse Arguments :=
  match f with
  | .strategy =>
    if t = separatorText then .ok { a with strategy := .dropped }
    else do return { a with strategy := .value (← strategyOfWord t) }
  | .config =>
    .ok { a with config := if t = separatorText then .dropped else .value t }
  | .help | .verbose => .ok a

end Arguments

/-- The flags spelled by a letter and the letters behind it. From the first letter on that spells
none it is a value, and the flag before it takes none. -/
def cluster (f : Flag) : Text → Except Misuse (List Flag)
  | [] => .ok [f]
  | p :: rest =>
    match Flag.ofLetter? p with
    | some g => do return f :: (← cluster g rest)
    | none => .error (.needlessValue f (p :: rest))

/-- The flags that a word stands for whose flag takes no value. -/
def flagsOf (f : Flag) (isShort : Bool) : Option Text → Except Misuse (List Flag)
  | none => .ok [f]
  | some t => if isShort && !t.isEmpty then cluster f t else .error (.needlessValue f t)

namespace Request

/-- Reads words from left to right, `a` and `strays` being what the words before them gave. -/
def ofWordsAfter (a : Arguments) (strays : List Text) : List Word → Except Misuse Request
  | [] => if strays.isEmpty then .ok (.evaluation a) else .error (.unrecognized strays)
  | .plain t :: rest | .unknown t :: rest => ofWordsAfter a (strays ++ [t]) rest
  | .separator :: rest => ofWordsAfter a (strays ++ [separatorText]) rest
  | .flag f isShort attached :: rest =>
    if f.takesValue then
      match attached, rest with
      | some t, rest => do ofWordsAfter (← a.withValue f t) strays rest
      | none, .plain t :: rest => do ofWordsAfter (← a.withValue f t) strays rest
      | none, _ => .error (.missingValue f)
    else do
      let flags ← flagsOf f isShort attached
      if flags.contains .help then return .help
      else ofWordsAfter { a with verbose := true } strays rest

/-- Reads a command line. -/
def ofTexts (ts : List Text) : Except Misuse Request := do
  ofWordsAfter {} [] (← Word.ofTexts ts)

end Request

end ShortCircuit.CommandLine
