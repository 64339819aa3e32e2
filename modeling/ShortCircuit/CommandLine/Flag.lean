import ShortCircuit.Evaluation.Settings
import ShortCircuit.Text.CodePoint

/-!
# Flags

The flags of the program and their spellings. A spelling starts with one dash if it is a single
letter, and with two dashes otherwise.
-/

namespace ShortCircuit.CommandLine

inductive Flag where
  | help
  | strategy
  | config
  | verbose
  deriving DecidableEq, Repr

namespace Flag

/-- The flags in the order in which the help lists them. -/
def all : List Flag := [.help, .strategy, .config, .verbose]

/-- The letter that spells the flag behind a single dash. -/
def letter? : Flag → Option Char
  | .help => some 'h'
  | .verbose => some 'v'
  | .strategy | .config => none

/-- The word that spells the flag behind two dashes. -/
def word : Flag → String
  | .help => "help"
  | .strategy => "strategy"
  | .config => "config"
  | .verbose => "verbose"

/-- The spelling behind two dashes. -/
def longSpelling (f : Flag) : String := "--" ++ f.word

/-- All spellings of the flag. -/
def spellings (f : Flag) : List String :=
  (f.letter?.map fun c ↦ String.ofList ['-', c]).toList ++ [f.longSpelling]

/-- How messages name the flag. -/
def label (f : Flag) : String := "/".intercalate f.spellings

/-- Whether the flag is followed by a value. -/
def takesValue : Flag → Bool
  | .strategy | .config => true
  | .help | .verbose => false

/-- The flag with a spelling. -/
def ofSpelling? (t : Text) : Option Flag :=
  all.find? fun f ↦ f.spellings.any fun s ↦ t = Text.ofString s

/-- The flag that a letter behind a single dash spells. -/
def ofLetter? (p : CodePoint) : Option Flag :=
  all.find? fun f ↦ f.letter?.any fun c ↦ p = .ofChar c

/-- The flags whose spelling behind two dashes starts with a text. -/
def startingWith (t : Text) : List Flag :=
  all.filter fun f ↦ t.isPrefixOf (Text.ofString f.longSpelling)

end Flag

end ShortCircuit.CommandLine
