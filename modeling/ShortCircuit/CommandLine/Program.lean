import ShortCircuit.CommandLine.Request
import ShortCircuit.CommandLine.Usage
import ShortCircuit.Session.Step
import ShortCircuit.Settings.File

/-!
# The program

A run of the program evaluates the reference tree under the settings that the command line asks
for. Flags override the file of settings, and a file that cannot be used ends the run even if flags
override all of it. The first run of a process that gets as far as its settings decides whether
that run and all later ones show their log.
-/

namespace ShortCircuit.CommandLine

variable (C : Capacity)

namespace Arguments

/-- The path of the file of settings. No file is meant by an empty path. -/
def path? (a : Arguments) : Option Path :=
  match a.config.toOption with
  | none | some [] => none
  | some t => some (Path.ofText t)

/-- The entries that the settings are made from before any flag counts: none, or those that the
settings of the file are written as. -/
def fileEntries (a : Arguments) (content : Path → Except Failure (List UInt8)) :
    Except Failure (List (Value × Value)) :=
  match a.path? with
  | none => .ok []
  | some p => do return (← Settings.ofFile C content p).toEntries

/-- The entries that the flags put in. A flag that is not given puts in none. -/
def flagEntries (a : Arguments) : List (Value × Value) :=
  let strategy := a.strategy.toOption.map fun s ↦
    (.text (Settings.Field.strategy.name : String), .text (s.word : String))
  let trace := if a.verbose then
    [(.text (Settings.Field.trace.name : String), .bool true)] else []
  strategy.toList ++ trace

/-- The settings that the arguments ask for, `content` being what stands under a path. -/
def settings (a : Arguments) (content : Path → Except Failure (List UInt8)) :
    Except Failure Settings := do
  let entries ← a.fileEntries C content
  Settings.ofEntries
    (← a.flagEntries.foldlM (fun entries e ↦ Session.insertEntry entries e.1 e.2) entries)

end Arguments

/-- Evaluates the reference tree in a new session. -/
def evaluateReference (s : Settings) : Session Bool := do
  let evaluator ← Session.newEvaluator (← Session.newSettings .settings s)
  let tree ← Session.referenceTree
  let current ← Session.ofExcept (Session.Evaluator.current (← Session.store) evaluator)
  let host := Session.host Session.nestingLimit
  Session.ofWorld (host.evaluate current (Session.walkRoom Session.nestingLimit) tree.toCondition)

/-- How a run ends. -/
inductive Ending where
  | helped
  | misused (m : Misuse)
  /-- There are no settings, for a reason that the program reports. -/
  | refused (e : Failure)
  /-- A failure that the program does not expect. -/
  | failed (e : Failure)
  /-- The result of the evaluation, and the records to be shown. -/
  | finished (result : Bool) (shown : List Record)

/-- Whether the program reports a failure to find settings and ends in good order. -/
def isReported (e : Failure) : Bool :=
  match e.category with
  | .file _ | .value | .json | .decoding | .yaml => true
  | _ => false

/-- Whether the runs of a process show their log, once that is decided. -/
abbrev Process := Option Bool

/-- An evaluation under the given settings. -/
def evaluation (settings : Except Failure Settings) (showsLog : Bool) : Ending :=
  match settings with
  | .error e => if isReported e then .refused e else .failed e
  | .ok s => match evaluateReference s Session.start with
    | .ok b w => .finished b (if showsLog then w.log.toList else [])
    | .error e _ => .failed e

/-- A run of the program. -/
def run (content : Path → Except Failure (List UInt8)) (words : List Text) (p : Process) :
    Ending × Process :=
  match Request.ofTexts words with
  | .error m => (.misused m, p)
  | .ok .help => (.helped, p)
  | .ok (.evaluation a) =>
    let showsLog := p.getD a.verbose
    (evaluation (a.settings C content) showsLog, some showsLog)

/-- The path that a run opens, if any. -/
def opened? (words : List Text) : Option Path :=
  match Request.ofTexts words with
  | .ok (.evaluation a) => a.path?
  | _ => none

/-- Runs of the program, one after the other in one process. -/
def runAll (content : Path → Except Failure (List UInt8)) : List (List Text) → Process → List Ending
  | [], _ => []
  | words :: rest, p =>
    let (ending, p) := run C content words p
    ending :: runAll content rest p

/-- The name under which the evaluator logs. -/
def loggerName : String := "condition_tree.evaluation.evaluator"

/-- A record as a line of the log. -/
def logLine (time : String) (r : Record) : String :=
  s!"{time} DEBUG {loggerName}: {r.message}\n"

/-- The word for a truth value. -/
def truthWord (b : Bool) : String := if b then "True" else "False"

namespace Ending

/-- The status with which the program ends. -/
def status : Ending → UInt32
  | .helped | .finished _ _ => 0
  | .misused _ | .refused _ => 2
  | .failed _ => 1

/-- What is written to the standard output. -/
def output : Ending → String
  | .helped => help
  | .finished b _ => truthWord b ++ "\n"
  | .misused _ | .refused _ | .failed _ => ""

/-- What is written to the standard error, the log being written at the given time. -/
def diagnostics (time : String) : Ending → String
  | .helped => ""
  | .misused m => m.complaint
  | .refused e => s!"error: {e.message}\n"
  | .failed e => e.message ++ "\n"
  | .finished _ shown => String.join (shown.map (logLine time))

end Ending

end ShortCircuit.CommandLine
