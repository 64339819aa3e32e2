import ShortCircuit.Session.Making

/-!
# About the library

The version of the library and the names under which its parts are offered.
-/

namespace ShortCircuit.About

def version : String := "0.1.0"

/-- What is offered for making conditions and settings. -/
def coreNames : List String :=
  ["CompositeCondition", "Condition", "ConditionType", "EvaluationStrategy", "EvaluatorConfig",
    "FALSE_CONDITION", "LeafCondition", "TRUE_CONDITION", "UnrecognizedConditionError",
    "create_and_condition", "create_or_condition"]

/-- What is offered for evaluating conditions. -/
def evaluationNames : List String := ["ConditionEvaluator", "evaluate"]

/-- Everything that is offered. -/
def allNames : List String :=
  ["CompositeCondition", "Condition", "ConditionEvaluator", "ConditionType", "EvaluationStrategy",
    "EvaluatorConfig", "FALSE_CONDITION", "LeafCondition", "TRUE_CONDITION",
    "UnrecognizedConditionError", "__version__", "create_and_condition", "create_or_condition",
    "evaluate"]

/-- The names by the part of the library that offers them. -/
def offers : List (String × List String) :=
  [("condition_tree", allNames), ("condition_tree.core", coreNames),
    ("condition_tree.evaluation", evaluationNames)]

/-- The constants of each enumeration with their words. -/
def enumerations : List (LibraryClass × List (String × String)) :=
  [(.connective, Connective.all.map fun c ↦ (c.constant, c.word)),
    (.strategy, Strategy.all.map fun s ↦ (s.constant, s.word))]

/-- The two constant conditions by name. -/
def constants : List (String × Value) :=
  [("TRUE_CONDITION", Session.constantCondition true),
    ("FALSE_CONDITION", Session.constantCondition false)]

/-- The library as a whole offers its version, and what its parts offer. -/
theorem perm_allNames : allNames.Perm ("__version__" :: (coreNames ++ evaluationNames)) := by
  decide

/-- Every class is offered by the library, and by the part that it belongs to. -/
theorem name_mem_offers (c : LibraryClass) :
    c.name ∈ allNames ∧ ∃ o ∈ offers.tail, o.1.isPrefixOf c.home = true ∧ c.name ∈ o.2 := by
  cases c <;> exact ⟨by decide, by decide +kernel⟩

/-- The classes whose constants are listed are the enumerations. -/
theorem mem_enumerations_iff (c : LibraryClass) :
    c ∈ enumerations.map Prod.fst ↔ c.isEnumeration = true := by
  cases c <;> decide

/-- The constant conditions are offered under their names. -/
theorem mem_coreNames_of_mem_constants {name : String} {v : Value}
    (h : (name, v) ∈ constants) : name ∈ coreNames := by
  simp only [constants, List.mem_cons, Prod.mk.injEq, List.not_mem_nil, or_false] at h
  obtain ⟨rfl, -⟩ | ⟨rfl, -⟩ := h <;> decide

end ShortCircuit.About
