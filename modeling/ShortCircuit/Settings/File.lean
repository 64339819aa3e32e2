import ShortCircuit.Capacity
import ShortCircuit.Files.Path
import ShortCircuit.Json.Reader
import ShortCircuit.Settings.Validation
import ShortCircuit.Text.Lines
import ShortCircuit.Yaml.Reader

/-!
# Settings from files

A file holds settings as a mapping, in the format that the suffix of its path names. Faults are
found in this order: the file cannot be opened, its format is not known, its octets cannot be read
in this format, it holds no mapping, the settings are not valid.
-/

namespace ShortCircuit.Settings

/-- The formats of files of settings. -/
inductive Format where
  | json
  | yaml
  deriving DecidableEq, Repr

/-- The format that a suffix in lower case names. -/
def Format.ofSuffix? (suffix : Text) : Option Format :=
  if suffix = Text.ofString ".json" then some .json
  else if suffix = Text.ofString ".yaml" || suffix = Text.ofString ".yml" then some .yaml
  else none

variable (C : Capacity)

/-- How much is read of a JSON document. -/
def jsonLimits : Json.Limits := ⟨some Decimal.digitLimit, C.json⟩

/-- The names of the fields as keys. -/
def fieldKeys : List Text := [Field.strategy, Field.trace].map fun f ↦ f.name

/-- Reads a JSON document, which is decoded as a whole. -/
def readJson (octets : List UInt8) : Except Failure Value :=
  match Utf8.decode octets with
  | .ok cs => Json.read (jsonLimits C) (Lines.normalize cs)
  | .error e => .error (.undecodable e)

/-- Reads the octets of a file. -/
def Format.read : Format → List UInt8 → Except Failure Value
  | .json => readJson C
  | .yaml => Yaml.read C fieldKeys

/-- Settings from what a file holds. A document that holds nothing stands for no entries. -/
def ofDocument : Value → Except Failure Settings
  | .nothing => ofEntries []
  | .dict entries => ofEntries entries
  | v => .error (.notMapping v.typeName)

/-- Settings from the octets of a file whose path has the given suffix. -/
def ofOctets (suffix : Text) (octets : List UInt8) : Except Failure Settings :=
  match Format.ofSuffix? suffix with
  | none => .error (.unsupportedFormat suffix)
  | some f => do ofDocument (← f.read C octets)

/-- Settings from the file under a path, `content` being what stands under a path. -/
def ofFile (content : Path → Except Failure (List UInt8)) (path : Path) :
    Except Failure Settings := do
  ofOctets C path.suffix (← content path)

end ShortCircuit.Settings
