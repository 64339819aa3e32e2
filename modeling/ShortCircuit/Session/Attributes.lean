import ShortCircuit.Session.Making
import ShortCircuit.Session.Reading
import ShortCircuit.Value.Provision

/-!
# Setting, deleting and replacing

Nodes and settings cannot be changed: an attempt to set or delete one of their fields fails, and so
does an attempt on any other attribute unless the object is of a class of its own. Such an object
can even be given other attributes in place of all that it has, its fields among them. A changed
copy of a node or of settings is a new object, made as if from scratch.
-/

namespace ShortCircuit.Session

/-- The object that an attribute belongs to. -/
inductive Target where
  | node (name : String)
  | settings (name : String)
  | evaluator (name : String)

/-- The fields of the nodes and settings. -/
def fieldsOf : Value → List String
  | .leaf _ => ["value", "verifier"]
  | .condition (.group _ _ _) => ["type", "conditions"]
  | .settings _ _ => Settings.fieldNames
  | _ => []

/-- Whether an object refuses to have an attribute set or deleted because it is frozen. -/
def isFrozen (v : Value) (name : String) : Bool :=
  match v with
  | .leaf l => l.origin.cls.isPlain || (fieldsOf v).contains name
  | .condition (.group origin _ _) => origin.cls.isPlain || (fieldsOf v).contains name
  | .settings origin _ => origin.cls.isPlain || (fieldsOf v).contains name
  | _ => false

/-- Whether an object has an attribute of its own. -/
def hasOwn (s : Store) (v : Value) (name : String) : Bool :=
  match Store.attribute? s v name with
  | some setting => setting.isSome
  | none => v.keepsFields && (fieldsOf v).contains name

/-- Keeps what an attribute of an object has become. -/
def keepAttribute (object : Nat) (name : String) (v : Option Value) : Session Unit :=
  modifyStore fun s ↦ { s with settingsOnObjects := ⟨object, name, v⟩ :: s.settingsOnObjects }

/-- Notes that the attributes of an object have been handled as a whole. -/
def unpack (object : Nat) : Session Unit :=
  modifyStore fun s ↦ { s with unpacked := object :: s.unpacked }

/-- Gives an object other attributes of its own in place of all that it has. -/
def replaceAttributes (v : Value) (object : Nat) (entries : List (Value × Value)) : Session Unit :=
  let given := entries.filterMap fun e ↦ match e.1 with
    | .text name => some ⟨object, name.toString, some e.2⟩
    | _ => none
  let gone := (if v.keepsFields then fieldsOf v else []).map fun name ↦ ⟨object, name, none⟩
  modifyStore fun s ↦ { s with
    settingsOnObjects := given ++ gone ++ s.settingsOnObjects.filter fun a ↦ a.object ≠ object }

/-- What a deletion that finds nothing is reported as. An object that has kept its attributes
together from the outset is named in the report. -/
def nothingToDelete (s : Store) (v : Value) (object : Nat) (name : String) : Failure :=
  match v with
  | .connective _ | .strategy _ | .classObject _ | .refusal _ _ => .nothingToDelete name
  | v => if s.unpacked.contains object then .nothingToDelete name else v.lacks name

/-- Whether objects of a class have the same parts as a value, so that it can become one of
them. -/
def fits (v : Value) : LibraryClass → Bool
  | .leaf | .group | .settings => match v with
    | .leaf _ | .condition _ | .settings _ _ | .witness _ _ | .duck _ => true
    | _ => false
  | .connective | .strategy => match v with
    | .connective _ | .strategy _ => true
    | _ => false
  | .evaluator | .unrecognized => false

/-- Whether the type of a value is built in. -/
def isBuiltIn : Value → Bool
  | .connective _ | .strategy _ | .leaf _ | .condition _ | .settings _ _ | .witness _ _ | .duck _
  | .refusal _ _ => false
  | .classObject c => !c.isEnumeration
  | _ => true

/-- Checks that an object can be given another class. -/
def checkClass (v new : Value) : Except Failure Unit :=
  match new with
  | .classObject c =>
    if isBuiltIn v then .error .classFixed
    else if fits v c then .ok ()
    else .error (.classLayout c.name v.typeName)
  | new => .error (.classNotClass new.typeName)

/-- Fails if what the type of a value provides forbids to change an attribute. -/
def checkChange (v : Value) (name : String) (change : Change) : Except Failure Unit :=
  match v.provision name, v.attributeHolder? with
  | .computed typeName, _ => .error (.computedAttribute typeName name)
  | .property className, _ => .error (.noAccessor className name change)
  | .memberProperty className, _ => .error (.memberProperty className name change)
  | .nothing, none => .error (v.lacks name)
  | .plain, none => .error (.readOnlyAttribute v.typeName name)
  | _, _ => .ok ()

/-- Whether a class has a member of a name. -/
def hasMember (c : LibraryClass) (name : String) : Bool :=
  match c with
  | .connective => (Connective.ofConstant? name).isSome
  | .strategy => (Strategy.ofConstant? name).isSome
  | _ => false

/-- Fails if a value is a class that has a member of the name. -/
def checkMember (v : Value) (name : String) (change : Change) : Except Failure Unit :=
  match v with
  | .classObject c =>
    if !hasMember c name then .ok ()
    else match change with
      | .assignment => .error (.memberAssignment name)
      | .deletion => .error (.memberDeletion c.name name)
  | _ => .ok ()

def setOnValue (v : Value) (name : String) (new : Value) : Session Unit := do
  if isFrozen v name then throw (.frozenAssignment name)
  ofExcept (checkMember v name .assignment)
  ofExcept (checkChange v name .assignment)
  match v.provision name, v.attributeHolder? with
  | .ownClass, _ => ofExcept (checkClass v new)
  | .ownAttributes, some object =>
    unpack object
    match new with
    | .dict entries => replaceAttributes v object entries
    | new => throw (.attributesNotDict new.typeName)
  | _, some object => keepAttribute object name (some new)
  | _, none => pure ()

def deleteOnValue (v : Value) (name : String) : Session Unit := do
  if isFrozen v name then throw (.frozenDeletion name)
  ofExcept (checkMember v name .deletion)
  ofExcept (checkChange v name .deletion)
  match v.provision name, v.attributeHolder? with
  | .ownClass, _ => throw .classDeletion
  | .ownAttributes, some object =>
    unpack object
    replaceAttributes v object []
  | _, some object =>
    let s ← store
    if hasOwn s v name then keepAttribute object name none
    else throw (nothingToDelete s v object name)
  | _, none => pure ()

/-- The attribute in which an evaluator keeps its settings. -/
def evaluatorField : String := "config"

/-- The failure to change an attribute of an evaluator other than its settings, `new` being what
it was to become. -/
def evaluatorFailure (name : String) (new : Option Value) : Failure :=
  let className := LibraryClass.evaluator.name
  match Provision.ofEvaluator name, new with
  | .ownClass, none => .classDeletion
  | .ownClass, some (.classObject c) => .classLayout c.name className
  | .ownClass, some new => .classNotClass new.typeName
  | .nothing, _ => .missingAttribute (.object className) name
  | _, _ => .readOnlyAttribute className name

/-- Whether a change gives an evaluator the class that it has. -/
def keepsClass (name : String) : Value → Bool
  | .classObject .evaluator => Provision.ofEvaluator name = .ownClass
  | _ => false

/-- Gives the evaluator of a name other settings, or none. -/
def keepEvaluator (name : String) (settings : Option Value) : Session Unit :=
  modifyStore fun s ↦ { s with evaluators := (name, ⟨settings⟩) :: s.evaluators }

def setAttribute (target : Target) (name : String) (new : ValuePlan) : Session Unit := do
  match target with
  | .node n =>
    let held ← find (← store).nodes n
    setOnValue held.value name (← makeValue new)
  | .settings n =>
    let v ← find (← store).settings n
    setOnValue v name (← makeValue new)
  | .evaluator n =>
    let _ ← find (← store).evaluators n
    let new ← makeValue new
    if name = evaluatorField then keepEvaluator n (some new)
    else if !keepsClass name new then throw (evaluatorFailure name (some new))

def deleteAttribute (target : Target) (name : String) : Session Unit := do
  match target with
  | .node n =>
    let held ← find (← store).nodes n
    deleteOnValue held.value name
  | .settings n =>
    let v ← find (← store).settings n
    deleteOnValue v name
  | .evaluator n =>
    let e ← find (← store).evaluators n
    if name = evaluatorField then
      if e.settings.isSome then keepEvaluator n none else throw (.nothingToDelete name)
    else throw (evaluatorFailure name none)

/-- The class whose constructor makes a copy of the value. -/
def constructorOf? : Value → Option LibraryClass
  | .leaf _ => some .leaf
  | .condition (.group _ _ _) => some .group
  | .settings _ _ => some .settings
  | _ => none

/-- The new value of a field, if it changes. -/
def changed? (changes : List (String × Value)) (field : String) : Option Value :=
  (changes.find? fun c ↦ c.1 = field).map Prod.snd

/-- A copy of a node or of settings in which some fields have other values. The others are as the
object was made with; attributes that it was given in place of all that it had are not looked at. -/
def copyWith (v : Value) (changes : List (String × Value)) : Session Value := do
  match constructorOf? v with
  | none => throw .notReplaceable
  | some c => ofExcept (c.checkKeywords (fieldsOf v) (changes.map Prod.fst))
  match v with
  | .leaf l =>
    let b ← match changed? changes "value" with
      | some new => ofExcept (leafValue new)
      | none => pure l.value
    let verifier := match changed? changes "verifier" with
      | some new => ⟨none, .misplaced new⟩
      | none => l.verifier
    return .leaf { l with origin := ⟨← freshId, l.origin.cls⟩, value := b, verifier := verifier }
  | .condition (.group origin connective children) =>
    let c ← match changed? changes "type" with
      | some new => ofExcept (connectiveOf new)
      | none => pure connective
    let items ← match changed? changes "conditions" with
      | some new => ofExcept new.items
      | none => pure (children.map Value.ofCondition)
    newGroup origin.cls c items
  | .settings origin s =>
    let strategy := (changed? changes Settings.Field.strategy.name).getD (.strategy s.strategy)
    let trace := (changed? changes Settings.Field.trace.name).getD (.bool s.trace)
    newSettings origin.cls (← ofExcept (Settings.ofValues strategy trace))
  | _ => throw .notReplaceable

theorem copyWith_leaf (l : Leaf Value) (changes : List (String × Value)) :
    copyWith (.leaf l) changes = (do
      ofExcept (LibraryClass.leaf.checkKeywords (fieldsOf (.leaf l)) (changes.map Prod.fst))
      let b ← ofExcept ((changed? changes "value").elim (.ok l.value) leafValue)
      let verifier := (changed? changes "verifier").elim l.verifier fun new ↦ ⟨none, .misplaced new⟩
      return .leaf { l with
        origin := ⟨← freshId, l.origin.cls⟩, value := b, verifier := verifier }) := by
  rw [copyWith]
  cases changed? changes "value" <;> cases changed? changes "verifier" <;> rfl

theorem copyWith_group (origin : Origin) (connective : Connective)
    (children : List (Condition Value)) (changes : List (String × Value)) :
    copyWith (.condition (.group origin connective children)) changes = (do
      ofExcept (LibraryClass.group.checkKeywords
        (fieldsOf (.condition (.group origin connective children))) (changes.map Prod.fst))
      let c ← ofExcept ((changed? changes "type").elim (.ok connective) connectiveOf)
      let items ← ofExcept
        ((changed? changes "conditions").elim (.ok (children.map Value.ofCondition)) Value.items)
      newGroup origin.cls c items) := by
  rw [copyWith]
  cases changed? changes "type" <;> cases changed? changes "conditions" <;> rfl

end ShortCircuit.Session
