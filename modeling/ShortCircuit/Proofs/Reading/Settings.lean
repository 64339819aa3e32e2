import ShortCircuit.Files.Tree
import ShortCircuit.Proofs.Reading.Yaml.Data
import ShortCircuit.Settings.File

/-!
# Failures of reading settings

`Settings.IsFault` lists what a file of settings can be refused with, from the opening of its path
to the validation of its entries. `Settings.ofFile_failsWith` says that the list is complete.
-/

namespace ShortCircuit.Settings

/-- The failures that a file of settings is refused with. -/
inductive IsFault : Failure → Prop
  | cannotOpen (fault : OpenFault) (path : Text) : IsFault (.cannotOpen fault path)
  | embeddedNull : IsFault .embeddedNull
  | unsupportedFormat (suffix : Text) : IsFault (.unsupportedFormat suffix)
  | malformedJson (e : Json.Error) : IsFault (.malformedJson e)
  | yaml {e : Failure} (he : Yaml.IsFault e) : IsFault e
  | notMapping (typeName : String) : IsFault (.notMapping typeName)
  | invalidStrategy (shown : String) : IsFault (.invalidStrategy shown)
  | traceNotBoolean (typeName : String) : IsFault (.traceNotBoolean typeName)
  | integerTooLong : IsFault .integerTooLong

/-! ## Documents -/

variable (C : Capacity)

theorem readJson_failsWith (octets : List UInt8) : FailsWith IsFault (readJson C octets) := by
  unfold readJson
  split
  · unfold Json.read
    split
    · trivial
    · exact .malformedJson _
    · exact .yaml trivial
    · exact .yaml trivial
  · exact .yaml trivial

theorem read_failsWith (f : Format) (octets : List UInt8) :
    FailsWith IsFault (f.read C octets) := by
  cases f with
  | json => exact readJson_failsWith C octets
  | yaml => exact (Yaml.read_failsWith C fieldKeys octets).mono (fun _ ↦ .yaml) fun _ h ↦ h

/-! ## Validation -/

theorem shown_failsWith (v : Value) : FailsWith IsFault v.shown := by
  refine (v.showWithin_failsWith notationRoom).mono (fun e he ↦ ?_) fun _ h ↦ h
  cases e <;> first
    | exact he.elim
    | exact .integerTooLong
    | exact .yaml trivial

theorem strategyOf_failsWith (v : Value) : FailsWith IsFault (strategyOf v) := by
  unfold strategyOf
  split
  · trivial
  · exact (shown_failsWith v).bind fun shown _ ↦ .invalidStrategy shown

theorem traceOf_failsWith (v : Value) : FailsWith IsFault (traceOf v) := by
  unfold traceOf
  split
  · trivial
  · exact .traceNotBoolean _

theorem ofEntries_failsWith (entries : List (Value × Value)) :
    FailsWith IsFault (ofEntries entries) :=
  (strategyOf_failsWith _).bind fun _ _ ↦ (traceOf_failsWith _).bind fun _ _ ↦ trivial

theorem ofDocument_failsWith (v : Value) : FailsWith IsFault (ofDocument v) := by
  unfold ofDocument
  split
  · exact ofEntries_failsWith []
  · exact ofEntries_failsWith _
  · exact .notMapping _

/-! ## Files -/

theorem tree_read_failsWith (tree : Tree) (path : Path) : FailsWith IsFault (tree.read path) := by
  unfold Tree.read
  split
  · exact .embeddedNull
  · split
    · trivial
    · exact .cannotOpen _ _

theorem ofFile_failsWith (tree : Tree) (path : Path) :
    FailsWith IsFault (ofFile C tree.read path) := by
  refine (tree_read_failsWith tree path).bind fun octets _ ↦ ?_
  unfold ofOctets
  split
  · exact .unsupportedFormat _
  · exact (read_failsWith C _ octets).bind fun v _ ↦ ofDocument_failsWith v

end ShortCircuit.Settings
