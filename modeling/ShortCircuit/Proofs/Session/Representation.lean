import Mathlib.Logic.Relation
import ShortCircuit.Proofs.Session.Immutability
import ShortCircuit.Proofs.Session.Spelling

/-!
# What nodes and settings hold

A leaf holds a boolean, a group a connective and a tuple of children, settings a strategy and a
boolean, whether or not they are of a class of their own; and no group is below itself. This is so
wherever these objects come from, as long as no step disguises an object: gives one of a class of
its own another class, or other attributes in place of all that it has. What refuses a change to a
field does not refuse these two.

What a group and settings hold is a connective and a strategy even where their words were given, so
nothing depends on which of the two was.
-/

namespace ShortCircuit

namespace Session

/-! ## Objects -/

/-- The fields of a leaf, of a group and of settings are read as what they were made with: a
boolean, a connective and a tuple, a strategy and a boolean. An evaluator that has settings follows
them. -/
def WellFormed (s : Store) : Value → Prop
  | .leaf l => readAttribute s (.leaf l) "value" = .ok (.bool l.value)
  | .condition (.group origin c children) =>
    let group := Value.condition (.group origin c children)
    readAttribute s group "type" = .ok (.connective c) ∧
      readAttribute s group "conditions" = .ok (.tuple (children.map .ofCondition))
  | .settings origin x =>
    let settings := Value.settings origin x
    readAttribute s settings Settings.Field.strategy.name = .ok (.strategy x.strategy) ∧
      readAttribute s settings Settings.Field.trace.name = .ok (.bool x.trace) ∧
      settingsOf s settings = .ok x
  | _ => True

/-- The value is among those that the conditions of a group are read as. -/
def ChildOf (s : Store) (v u : Value) : Prop :=
  ∃ origin c children items, u = .condition (.group origin c children) ∧
    readAttribute s u "conditions" = .ok (.tuple items) ∧ v ∈ items

/-- Following conditions downwards from an object never leads back to it. -/
def Acyclic (s : Store) (u : Value) : Prop :=
  ∀ v, Relation.TransGen (ChildOf s) v u → v.identity? ≠ u.identity?

/-! ## Attributes that may change -/

section

variable {L : Ledger} {s : Store} {u v : Value}

end

/-! ## Worlds -/

/-- Leaves, groups and settings hold what they should in the world: those that its store holds, and
those that are made there, from a plan, from a dictionary or a file of settings, or as a changed
copy. -/
structure Sound (w : World Store) : Prop where
  held {u : Value} (hu : w.state.Has u) : WellFormed w.state u ∧ Acyclic w.state u
  made {p : ValuePlan} {v : Value} {w' : World Store} (hrun : makeValue p w = .ok v w')
      {u : Value} (hu : u.Occurs v) :
    WellFormed w'.state u ∧ Acyclic w'.state u
  loaded {source : SettingsSource} {className : Option String} {v : Value} {w' : World Store}
      (hrun : (do
        let s ← settingsFrom source
        newSettings (← classOr .settings className) s) w = .ok v w') {u : Value} (hu : u.Occurs v) :
    WellFormed w'.state u ∧ Acyclic w'.state u
  copied {target : Target} {changes : List (String × ValuePlan)} {copy : Value} {w' : World Store}
      (hrun : (do copyWith (← targetValue target) (← makeFields changes)) w = .ok copy w')
      {u : Value} (hu : u.Occurs copy) :
    WellFormed w'.state u ∧ Acyclic w'.state u

/-- Nor have all settings a strategy. -/
example :
    let steps : List Step := [.defineSettings "config" (some "C") (.fields []),
      .setAttribute (.settings "config") "__dict__"
        (.dict [(.text (Text.ofString Settings.Field.strategy.name), .int 5)])]
    readAttribute (performAll steps start).2.state (.settings ⟨14, 13, "C"⟩ {})
      Settings.Field.strategy.name = .ok (.int 5) := rfl

end Session

end ShortCircuit
