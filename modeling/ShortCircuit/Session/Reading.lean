import ShortCircuit.Session.Store
import ShortCircuit.Settings.Validation

/-!
# Reading attributes

An attribute that has been set on an object hides what its class provides. One that has been
deleted is missing, unless the class provides it too.
-/

namespace ShortCircuit

/-- The identity of an object that can have attributes of its own. -/
def Value.attributeHolder? : Value → Option Nat
  | .connective c => some c.id
  | .strategy s => some s.id
  | .leaf l => some l.origin.id
  | .condition (.group origin _ _) => some origin.id
  | .settings origin _ => some origin.id
  | .witness id _ | .refusal id _ => some id
  | .duck d => some d.origin.id
  | .classObject c => some c.id
  | _ => none

/-- The attribute that a value was made with, or that its class provides. -/
def Value.attribute? : Value → (name : String) → Option Value
  | .settings _ s, "strategy" => some (.strategy s.strategy)
  | .settings _ s, "trace" => some (.bool s.trace)
  | .classObject .settings, name => (Settings.Field.ofName? name).map Settings.Field.standard
  | .connective c, "value" => some (.text c.word)
  | .strategy s, "value" => some (.text s.word)
  | .leaf l, "value" => some (.bool l.value)
  | .condition (.group _ c _), "type" => some (.connective c)
  | .condition (.group _ _ children), "conditions" => some (.tuple (children.map .ofCondition))
  | .duck d, "value" => d.value
  | _, _ => none

/-- Whether a value keeps what it was made with among the attributes of its own. -/
def Value.keepsFields : Value → Bool
  | .leaf _ | .condition _ | .settings _ _ => true
  | _ => false

/-- What the class of a value provides for an attribute that the object does not have. Of fields
there is what they have if they are not given: of the children of a group, and of settings. -/
def Value.classAttribute? (v : Value) (name : String) : Option Value :=
  match v with
  | .condition (.group _ _ _) => if name = "conditions" then some (.tuple []) else none
  | .settings _ _ => (Settings.Field.ofName? name).map Settings.Field.standard
  | v => if v.keepsFields then none else v.attribute? name

namespace Session

/-- The attribute that has been set on a value, or nothing if it has been deleted. -/
def Store.attribute? (s : Store) (v : Value) (name : String) : Option (Option Value) := do
  let object ← v.attributeHolder?
  let setting ← s.settingsOnObjects.find? fun a ↦ a.object = object ∧ a.name = name
  return setting.value

/-- Reads an attribute off a value. -/
def readAttribute (s : Store) (v : Value) (name : String) : Except Failure Value :=
  match ((Store.attribute? s v name).getD (v.attribute? name)).or (v.classAttribute? name) with
  | some x => .ok x
  | none => .error (v.lacks name)

end Session

end ShortCircuit
