import ShortCircuit.Capacity
import ShortCircuit.Settings.Validation

/-!
# Written settings

Settings are written as a JSON object, on one line or indented, and as a YAML mapping.
-/

namespace ShortCircuit.Settings

/-- How a JSON object is laid out: on one line, or with each member on a line of its own after the
given indentation. -/
inductive Layout where
  | compact
  | indented (indentation : Text)
  deriving DecidableEq, Repr

/-- The layout that a value stands for: nothing is compact, a number is a number of blanks, and a
text is the indentation itself. -/
def Layout.ofValue (C : Capacity) (v : Value) : Except Failure Layout :=
  match v with
  | .nothing => .ok .compact
  | .bool b => .ok (.indented (blanks b.toNat))
  | .int n =>
    if n < -countLimit || countLimit ≤ n then .error .countTooGreat
    else if C.blanks ≤ n then .error .outOfMemory
    else .ok (.indented (blanks n.toNat))
  | .text t => .ok (.indented t)
  | .connective c => .ok (.indented c.word)
  | .strategy s => .ok (.indented s.word)
  | v => .error (.notMultipliable v.typeName)
where
  blanks (n : Nat) : Text := List.replicate n (.ofChar ' ')

def jsonBool (b : Bool) : String := if b then "true" else "false"

/-- The members of the object, each as its key and its written value. -/
def jsonMembers (s : Settings) : List (String × String) :=
  [(Field.strategy.name, "\"" ++ s.strategy.word ++ "\""), (Field.trace.name, jsonBool s.trace)]

/-- The settings as a JSON object. -/
def toJson (s : Settings) (layout : Layout) : Text :=
  let members : List Text := s.jsonMembers.map fun m ↦ Text.ofString ("\"" ++ m.1 ++ "\": " ++ m.2)
  match layout with
  | .compact =>
    Text.ofString "\x7b" ++ (members.intersperse (Text.ofString ", ")).flatten ++
      Text.ofString "\x7d"
  | .indented indentation =>
    let lines := members.map fun m ↦ Text.ofString "\n" ++ indentation ++ m
    Text.ofString "\x7b" ++ (lines.intersperse (Text.ofString ",")).flatten ++
      Text.ofString "\n\x7d"

/-- The settings as a YAML mapping. -/
def toYaml (s : Settings) : String :=
  s!"{Field.strategy.name}: {s.strategy.word}\n{Field.trace.name}: {jsonBool s.trace}\n"

end ShortCircuit.Settings
