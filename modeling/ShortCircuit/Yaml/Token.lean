import ShortCircuit.Text.CodePoint

/-!
# Tokens of YAML

What a text is made of before any structure: indicators, properties, scalars, and the starts and
ends of block collections, which indentation stands for.
-/

namespace ShortCircuit.Yaml

/-- A line that starts with a percent sign at the head of a document. -/
inductive Directive where
  | version (major : Nat)
  /-- What a handle in a tag stands for. -/
  | handle (name stem : String)
  | other
  deriving DecidableEq, Repr

/-- A tag as it is written: a suffix behind a handle, if there is one. -/
structure WrittenTag where
  handle : Option String
  suffix : String
  deriving DecidableEq, Repr

inductive Token where
  | directive (d : Directive)
  | documentStart
  | documentEnd
  | blockSequenceStart
  | blockMappingStart
  | blockEnd
  | flowSequenceStart
  | flowSequenceEnd
  | flowMappingStart
  | flowMappingEnd
  | entry
  | comma
  | key
  | value
  | alias (name : String)
  | anchor (name : String)
  | tag (t : WrittenTag)
  | scalar (text : Text) (plain : Bool)
  | streamEnd
  deriving DecidableEq, Repr

end ShortCircuit.Yaml
