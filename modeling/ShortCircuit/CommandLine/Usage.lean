import ShortCircuit.CommandLine.Word
import ShortCircuit.Text.Printable

/-!
# Usage

The text of the help, and of the complaint about a command line that cannot be used.
-/

namespace ShortCircuit.CommandLine

/-- The name of the program. -/
def programName : String := "condition-tree"

/-- A text of the given number of blanks. -/
def blanks (n : Nat) : String := String.ofList (List.replicate n ' ')

/-- The words that select the strategies, between braces. -/
def strategyChoices : String :=
  "\x7b" ++ ",".intercalate (Strategy.all.map Strategy.word) ++ "\x7d"

namespace Flag

/-- What stands for the value of the flag, with the blank in front of it. -/
def placeholder : Flag → String
  | .strategy => " " ++ strategyChoices
  | .config => " CONFIG"
  | .help | .verbose => ""

/-- What the help says about the flag. -/
def purpose : Flag → String
  | .help => "show this help message and exit"
  | .strategy => "Traversal strategy (overrides the config file)"
  | .config => "Evaluator config file (.json, .yaml or .yml)"
  | .verbose => "Enable debug logging with per-node tracing"

/-- The flag as an optional part of a command line, in its shortest spelling. -/
def usage (f : Flag) : String := "[" ++ f.spellings.headD "" ++ f.placeholder ++ "]"

/-- The width of the column in which the help lists the flags. -/
def column : Nat := 20

/-- The lines of the help that describe the flag. A flag that does not fit its column has a line of
its own. -/
def entry (f : Flag) : String :=
  let heading := ", ".intercalate f.spellings ++ f.placeholder
  if heading.length ≤ column then
    "  " ++ heading ++ blanks (column - heading.length) ++ "  " ++ f.purpose ++ "\n"
  else
    "  " ++ heading ++ "\n" ++ blanks (column + 4) ++ f.purpose ++ "\n"

end Flag

/-- The greatest width of a line of the usage. -/
def lineWidth : Nat := 78

/-- Appends parts to lines whose last line is `line`, starting a new one behind `indent` blanks
wherever the next part does not fit. -/
def fill (indent : Nat) (line : String) : List String → String
  | [] => line
  | part :: rest =>
    if line.length + 1 + part.length ≤ lineWidth then fill indent (line ++ " " ++ part) rest
    else line ++ "\n" ++ fill indent (blanks indent ++ part) rest

/-- How the program is used, in one or more lines. -/
def usage : String :=
  let opening := "usage: " ++ programName
  fill (opening.length + 1) opening (Flag.all.map Flag.usage) ++ "\n"

/-- The text of the help. -/
def help : String :=
  usage ++ "\nEvaluate the reference condition tree and print the result.\n\noptions:\n" ++
    String.join (Flag.all.map Flag.entry)

namespace Misuse

/-- The complaint about a flag. -/
def aboutFlag (f : Flag) (complaint : String) : String :=
  s!"argument {f.label}: {complaint}"

/-- What is wrong with the command line. -/
def message : Misuse → String
  | .ambiguous word candidates =>
    s!"ambiguous option: {word.toString} could match " ++
      ", ".intercalate (candidates.map Flag.longSpelling)
  | .missingValue f => aboutFlag f "expected one argument"
  | .needlessValue f value => aboutFlag f s!"ignored explicit argument {value.quoted}"
  | .unknownStrategy word =>
    let choices := ", ".intercalate (Strategy.all.map fun s ↦ (Text.ofString s.word).quoted)
    aboutFlag .strategy s!"invalid choice: {word.quoted} (choose from {choices})"
  | .unrecognized words =>
    "unrecognized arguments: " ++ " ".intercalate (words.map Text.toString)

/-- The complaint in full: the usage, and what is wrong. -/
def complaint (m : Misuse) : String :=
  usage ++ programName ++ ": error: " ++ m.message ++ "\n"

end Misuse

end ShortCircuit.CommandLine
