import ShortCircuit.Value.Attributes
import ShortCircuit.Value.Notation

/-!
# Settings from values

Settings are made from two values. A strategy may be given by its word; tracing is a boolean and
nothing else. A strategy at fault is reported before a trace at fault.
-/

namespace ShortCircuit.Settings

/-- The fields of settings. -/
inductive Field where
  | strategy
  | trace
  deriving DecidableEq, Repr

def Field.name : Field → String
  | .strategy => "strategy"
  | .trace => "trace"

def Field.ofName? (s : String) : Option Field :=
  [Field.strategy, Field.trace].find? fun f ↦ f.name = s

/-- The strategy that a value stands for, or the failure of one that stands for none. -/
def strategyOf (v : Value) : Except Failure Strategy :=
  match Strategy.ofValue? v with
  | some s => .ok s
  | none => do throw (.invalidStrategy (← v.shown))

/-- The tracing that a value asks for. -/
def traceOf : Value → Except Failure Bool
  | .bool b => .ok b
  | v => .error (.traceNotBoolean v.typeName)

/-- Settings with the given strategy and tracing. -/
def ofValues (strategy trace : Value) : Except Failure Settings := do
  let s ← strategyOf strategy
  let t ← traceOf trace
  return ⟨s, t⟩

/-- The value that a field has if it is not given. -/
def Field.standard : Field → Value
  | .strategy => .strategy .recursive
  | .trace => .bool false

/-- The value that the first of the given fields of a name has. A constructor is given no name
twice. -/
def fieldValue (fields : List (String × Value)) (f : Field) : Value :=
  match fields.find? fun g ↦ g.1 = f.name with
  | some g => g.2
  | none => f.standard

/-- The names of the fields. -/
def fieldNames : List String := [Field.strategy.name, Field.trace.name]

/-- Settings from named fields. Fields of other names are refused. -/
def ofFields (fields : List (String × Value)) : Except Failure Settings := do
  LibraryClass.settings.checkKeywords fieldNames (fields.map Prod.fst)
  ofValues (fieldValue fields .strategy) (fieldValue fields .trace)

/-- The value under a field's name among the entries of a dictionary. -/
def entryValue (entries : List (Value × Value)) (f : Field) : Value :=
  let isKey : Value → Bool
    | .text t => t = Text.ofString f.name
    | _ => false
  match entries.find? fun e ↦ isKey e.1 with
  | some e => e.2
  | none => f.standard

/-- Settings from the entries of a dictionary; entries under other keys are ignored. -/
def ofEntries (entries : List (Value × Value)) : Except Failure Settings :=
  ofValues (entryValue entries .strategy) (entryValue entries .trace)

/-- Settings from a value that should be a dictionary. -/
def ofDict : Value → Except Failure Settings
  | .dict entries => ofEntries entries
  | v => .error (v.lacks "get")

/-- The entries of the dictionary that the settings are written as. -/
def toEntries (s : Settings) : List (Value × Value) :=
  [(.text (Field.strategy.name : String), .text (s.strategy.word : String)),
    (.text (Field.trace.name : String), .bool s.trace)]

end ShortCircuit.Settings
