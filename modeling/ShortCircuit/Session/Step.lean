import ShortCircuit.Session.Attributes
import ShortCircuit.Session.Verification
import ShortCircuit.Settings.File
import ShortCircuit.Settings.Rendering

/-!
# Steps of a session

What can be done in a session, and what each step reports. A step that fails reports the failure,
and the session goes on.
-/

namespace ShortCircuit.Session

/-- What is to be seen of a value from outside. -/
structure Description where
  typeName : String
  shown : String
  /-- The connective of a group and the types of its children. -/
  group : Option (Connective × List String)

/-- What is to be seen of settings from outside. -/
structure SettingsDump where
  shown : String
  strategy : String
  trace : Bool
  json : Text
  yaml : String

/-- What an evaluation reports. -/
structure EvaluationReport where
  outcome : Except Failure Bool
  calls : List String
  log : Array Record

/-- What a verification reports: the type and the notation of the answer. -/
structure VerificationReport where
  outcome : Except Failure (String × String)
  calls : List String

/-- Whether two values are equal, whether they are one object, and whether they can be hashed. -/
structure Comparison where
  equal : Bool
  same : Bool
  hashable : Except Failure Unit

/-- What settings are made from. -/
inductive SettingsSource where
  | fields (fields : List (String × ValuePlan))
  /-- A value that should be a dictionary. -/
  | entries (data : ValuePlan)
  /-- The file under a path, `content` being what stands under a path. What there is room for
  depends on where in a program it is read. -/
  | file (C : Capacity) (content : Path → Except Failure (List UInt8)) (path : Text)

inductive Step where
  | define (name : String) (node : NodePlan)
  | describe (node : NodePlan)
  | verify (node : NodePlan)
  | defineList (name : String) (items : List NodePlan)
  | append (name : String) (node : NodePlan)
  | clear (name : String)
  | defineIterator (name : String) (items : List NodePlan)
  /-- Settings from a source, possibly of a class of their own. -/
  | defineSettings (name : String) (className : Option String) (source : SettingsSource)
  | defineEvaluator (name : String) (settings : ValuePlan)
  | evaluate (node : NodePlan) (evaluator : EvaluatorPlan)
  | compare (a b : ValuePlan)
  | setAttribute (target : Target) (name : String) (value : ValuePlan)
  | deleteAttribute (target : Target) (name : String)
  | copy (target : Target) (name : String) (changes : List (String × ValuePlan))

inductive Report where
  | failed (e : Failure)
  | done
  | described (d : Description)
  | verified (r : VerificationReport)
  | counted (n : Nat)
  | dumped (d : SettingsDump)
  | created (calls : List String) (log : Array Record)
  | evaluated (r : EvaluationReport)
  | compared (c : Comparison)

/-- Describes a value. -/
def describe (v : Value) : Except Failure Description := do
  let shown ← v.shown
  return ⟨v.typeName, shown, match v with
    | .condition (.group _ c children) =>
      some (c, children.map fun child ↦ (Value.ofCondition child).typeName)
    | _ => none⟩

/-- Describes settings of a class, the JSON text being laid out as given. -/
def dump (className : String) (s : Settings) (layout : Settings.Layout) : SettingsDump :=
  ⟨s.shown className, s.strategy.word, s.trace, s.toJson layout, s.toYaml⟩

/-- The layout of a JSON text unless another one is asked for. -/
def standardLayout : Settings.Layout := .indented (Settings.Layout.ofValue.blanks 2)

/-- The settings that come from a source. -/
def settingsFrom : SettingsSource → Session Settings
  | .fields fields => do ofExcept (Settings.ofFields (← makeFields fields))
  | .entries data => do ofExcept (Settings.ofDict (← makeValue data))
  | .file C content path => ofExcept (Settings.ofFile C content (.ofText path))

/-- Takes the calls recorded since they were last taken. -/
def takeCalls : Session (List String) := do
  let calls := (← store).calls.reverse
  modifyStore fun s ↦ { s with calls := [] }
  return calls

/-- Takes the records logged since they were last taken. -/
def takeLog : Session (Array Record) := do
  let log := (← get).log
  modify fun w ↦ { w with log := #[] }
  return log

/-- Catches a failure. What has been done before it stays done. -/
def outcomeOf {α : Type} (m : Session α) : Session (Except Failure α) := fun w ↦
  match m w with
  | .ok a w => .ok (.ok a) w
  | .error e w => .ok (.error e) w

/-- Reports an evaluation. -/
def reportEvaluation (node : NodePlan) (evaluator : EvaluatorPlan) : Session Report := do
  match ← outcomeOf (evaluate node evaluator) with
  | .error .stackExhausted => throw .stackExhausted
  | outcome => return .evaluated ⟨outcome, ← takeCalls, ← takeLog⟩

/-- Makes a node and verifies it, whatever it is. -/
def verifyNode (node : NodePlan) : Session (String × String) := do
  let v ← makeNode node
  let answer ← verify (evaluateIn nestingLimit (host nestingLimit)) v
  return (answer.typeName, ← ofExcept answer.shown)

/-- The serial number of the named object that a plan refers to, if it does no more than that. -/
def namedSerial? : ValuePlan → Session (Option Nat)
  | .node (.named name) => return some (← find (← store).nodes name).serial
  | .node (.raw p) => namedSerial? p
  | _ => return none
  termination_by structural p => p

/-- Makes two values and compares them. -/
def compareValues (a b : ValuePlan) : Session Comparison := do
  let v ← makeValue a
  let v' ← makeValue b
  let serial ← namedSerial? a
  let serial' ← namedSerial? b
  let same := (serial.isSome && serial == serial') ||
    ((Value.identity? v).isSome && Value.identity? v == Value.identity? v') ||
    v.isSharedConstant v'
  let equal ← ofExcept (v.equals v')
  return ⟨equal, same, do v.hashable; v'.hashable⟩

/-- Gives a value a name. A name for a named object names the same object. -/
def defineNode (name : String) (node : NodePlan) (v : Value) : Session Unit := do
  let serial ← match ← namedSerial? (.node node) with
    | some serial => pure serial
    | none => freshId
  modifyStore fun s ↦ { s with nodes := (name, ⟨serial, v⟩) :: s.nodes }

def defineList (name : String) (items : List Value) : Session Report := do
  modifyStore fun s ↦ { s with lists := (name, items) :: s.lists }
  return .counted items.length

/-- The value that a target names. -/
def targetValue : Target → Session Value
  | .node n => return (← find (← store).nodes n).value
  | .settings n => do find (← store).settings n
  | .evaluator n => do
    let _ ← find (← store).evaluators n
    throw .notReplaceable

/-- Keeps a copy under a name, among what the copied object was found in. -/
def keepCopy (target : Target) (name : String) (v : Value) : Session Unit := do
  match target with
  | .node _ =>
    let serial ← freshId
    modifyStore fun s ↦ { s with nodes := (name, ⟨serial, v⟩) :: s.nodes }
  | .settings _ => modifyStore fun s ↦ { s with settings := (name, v) :: s.settings }
  | .evaluator _ => pure ()

/-- Performs a step. -/
def perform : Step → Session Report
  | .define name node => do
    let v ← makeNode node
    let d ← ofExcept (describe v)
    defineNode name node v
    return .described d
  | .describe node => do return .described (← ofExcept (describe (← makeNode node)))
  | .verify node => do
    match ← outcomeOf (verifyNode node) with
    | .error .stackExhausted => throw .stackExhausted
    | outcome => return .verified ⟨outcome, ← takeCalls⟩
  | .defineList name items => do defineList name (← makeNodes items)
  | .append name node => do
    let items ← find (← store).lists name
    let v ← makeNode node
    defineList name (items ++ [v])
  | .clear name => do
    let _ ← find (← store).lists name
    defineList name []
  | .defineIterator name items => do
    let items ← makeNodes items
    modifyStore fun s ↦ { s with iterators := (name, items) :: s.iterators }
    return .counted items.length
  | .defineSettings name className source => do
    let s ← settingsFrom source
    let cls ← classOr .settings className
    let v ← newSettings cls s
    modifyStore fun s ↦ { s with settings := (name, v) :: s.settings }
    return .dumped (dump cls.name s standardLayout)
  | .defineEvaluator name settings => do
    let e ← newEvaluator (← makeValue settings)
    modifyStore fun s ↦ { s with evaluators := (name, e) :: s.evaluators }
    return .created (← takeCalls) (← takeLog)
  | .evaluate node evaluator => reportEvaluation node evaluator
  | .compare a b => return .compared (← compareValues a b)
  | .setAttribute target name value => do
    setAttribute target name value
    return .done
  | .deleteAttribute target name => do
    deleteAttribute target name
    return .done
  | .copy target name changes => do
    let v ← targetValue target
    let copied ← copyWith v (← makeFields changes)
    let d ← ofExcept (describe copied)
    keepCopy target name copied
    return .described { d with group := none }

/-- Performs the steps one after the other and collects what they report. -/
def performAll (steps : List Step) (w : World Store) : List Report × World Store :=
  let (reports, w) := steps.foldl (fun (reports, w) step ↦
    match perform step w with
    | .ok r w => (r :: reports, w)
    | .error e w => (.failed e :: reports, w)) ([], w)
  (reports.reverse, w)

/-- The world in which a session starts. -/
def start : World Store := ⟨{}, #[]⟩

/-- What the steps of a new session report. -/
def run (steps : List Step) : List Report := (performAll steps start).1

end ShortCircuit.Session
