import ShortCircuit.Evaluation.Evaluate
import ShortCircuit.Session.Making
import ShortCircuit.Session.Reading
import ShortCircuit.Value.Provision
import ShortCircuit.Value.Truth

/-!
# Verification in a session

What the values of a session offer to be verified with, what the call of it does, and the host
that lets an evaluator verify them. A verifier may evaluate a tree itself, with a host of its own
that has one level of nesting less to go.
-/

namespace ShortCircuit.Session

/-- What is called when a value is verified. -/
inductive Method where
  /-- A verifier that is handed the value. -/
  | verifier (v : Verifier Value)
  /-- Records a call under a name and returns true. -/
  | recording (name : String)
  /-- The method of leaves, taken from its class and so without a leaf. -/
  | unbound
  /-- A class, whose call makes an object. -/
  | construct (c : LibraryClass)

/-- What reading `verify` off a value gives. -/
inductive Offer where
  | callable (m : Method)
  | notCallable (v : Value)

/-- What a value gives as an attribute that is to be called. -/
def offerOf : Value → Offer
  | .classObject c => .callable (.construct c)
  | v => .notCallable v

/-- What an attribute that was set gives, or else what the value was made with. -/
def offerOr (s : Store) (v : Value) (inherited : Except Failure Offer) : Except Failure Offer :=
  match Store.attribute? s v "verify" with
  | some (some held) => .ok (offerOf held)
  | _ => inherited

/-- What a value offers if no attribute of it has been set. -/
def madeOffer (v : Value) : Except Failure Offer :=
  match v with
  | .leaf l => .ok (.callable (.verifier (l.override.getD l.verifier)))
  | .condition (.group origin _ _) =>
    if origin.cls.isPlain then .error (v.lacks "verify")
    else .ok (.callable (.recording origin.cls.name))
  | .duck d => match d.verify with
    | .absent => .error (v.lacks "verify")
    | .method verifier => .ok (.callable (.verifier verifier))
    | .holds held => .ok (offerOf held)
    | .failing kind message => .error (.raised kind message)
  | .classObject .leaf => .ok (.callable .unbound)
  | v => .error (v.lacks "verify")

/-- Reads `verify` off a value. A property comes before an attribute that was set. -/
def readVerify (s : Store) (v : Value) : Except Failure Offer :=
  match v.provision "verify" with
  | .property _ => madeOffer v
  | _ => offerOr s v (madeOffer v)

/-- The answer of a verifier that answers in turn. -/
def nextAnswer (counter : Nat) (answers : List Value) : Session Value := do
  let calls := ((← store).counters.find? fun c ↦ c.1 = counter).elim 0 Prod.snd
  modifyStore fun s ↦ { s with
    counters := (counter, calls + 1) :: s.counters.filter fun c ↦ c.1 ≠ counter }
  match answers[min calls (answers.length - 1)]? with
  | some v => return v
  | none => throw (.raised "IndexError" "list index out of range")

/-- The settings that the attributes of a value make. -/
def settingsOf (s : Store) (v : Value) : Except Failure Settings := do
  let strategy ← readAttribute s v "strategy"
  match strategy with
  | .strategy x => return ⟨x, ← (← readAttribute s v "trace").holds⟩
  | _ => throw (strategy.lacks "value")

/-- Makes an evaluator that takes its settings from a value. A value that counts as false stands
for the standard settings. -/
def newEvaluator (v : Value) : Session Evaluator := do
  if ← ofExcept v.holds then
    record (.initialized (← ofExcept (settingsOf (← store) v)))
    return ⟨some v⟩
  else
    record (.initialized {})
    return ⟨some (← newSettings .settings {})⟩

/-- The settings that an evaluator works with. -/
def Evaluator.current (s : Store) (e : Evaluator) : Except Failure Settings :=
  match e.settings with
  | none => .error (.missingAttribute (.object LibraryClass.evaluator.name) "config")
  | some v => settingsOf s v

/-- Calls a class with at most one argument. -/
def construct (c : LibraryClass) (argument : Option Value) : Session Value := do
  match c, argument with
  | .leaf, some v =>
    return .leaf ⟨⟨← freshId, .leaf⟩, ← ofExcept (leafValue v), ⟨none, .stored⟩, none⟩
  | .group, some v => newGroup .group (← ofExcept (connectiveOf v)) []
  | .settings, none => newSettings .settings {}
  | .settings, some v =>
    newSettings .settings (← ofExcept (Settings.ofValues v (Settings.Field.standard .trace)))
  | .evaluator, v =>
    let _ ← newEvaluator (v.getD .nothing)
    return .witness (← freshId) .plain
  | .unrecognized, some v => return .refusal (← freshId) v.typeName
  | .connective, some v => match Connective.ofValue? v with
    | some c => return .connective c
    | none => throw (.noMember (← ofExcept v.shown) .connective)
  | .strategy, some v => match Strategy.ofValue? v with
    | some s => return .strategy s
    | none => throw (.noMember (← ofExcept v.shown) .strategy)
  | .leaf, none => throw (.missingArgument (c.name ++ ".__init__") "value")
  | .group, none => throw (.missingArgument (c.name ++ ".__init__") "type")
  | .unrecognized, none => throw (.missingArgument (c.name ++ ".__init__") "node")
  | .connective, none | .strategy, none => throw (.missingArgument "EnumType.__call__" "value")

/-- Has a verifier verify a value, `evaluate` being how it evaluates a tree of its own. -/
def runVerifier (evaluate : NodePlan → EvaluatorPlan → Session Bool) (self : Value)
    (v : Verifier Value) : Session Value := do
  recordCall v.name
  match v.action with
  | .stored => ofExcept (readAttribute (← store) self "value")
  | .negated =>
    let stored ← ofExcept (readAttribute (← store) self "value")
    return .bool !(← ofExcept stored.holds)
  | .returns answer => return answer
  | .raises kind message => throw (.raised kind message)
  | .sequence counter answers => nextAnswer counter answers
  | .evaluates node evaluator => return .bool (← evaluate node evaluator)
  | .misplaced (.classObject c) => construct c self
  | .misplaced answer => throw (.notCallable answer.typeName)

/-- Calls what a value offered to be verified with. -/
def call (evaluate : NodePlan → EvaluatorPlan → Session Bool) (self : Value) :
    Method → Session Value
  | .verifier v => runVerifier evaluate self v
  | .recording name => do
    recordCall name
    return .bool true
  | .unbound => throw (.missingArgument (LibraryClass.leaf.name ++ ".verify") "self")
  | .construct c => construct c none

/-- Reads `verify` off a value and calls it. -/
def verify (evaluate : NodePlan → EvaluatorPlan → Session Bool) (v : Value) : Session Value := do
  match ← ofExcept (readVerify (← store) v) with
  | .callable m => call evaluate v m
  | .notCallable answer => throw (.notCallable answer.typeName)

/-- Whether a failure to read an attribute means that the attribute is not there. -/
def meansAbsent (e : Failure) : Bool :=
  match e.category with
  | .attributes | .frozen => true
  | .named kind => kind = "AttributeError" || kind = "FrozenInstanceError"
  | _ => false

/-- What a value offers an evaluator to verify it with: a call, unless the offer is not callable. -/
def offer (evaluate : NodePlan → EvaluatorPlan → Session Bool) (v : Value) :
    Session (Option (Act Store Failure Value)) := do
  match ← ofExcept (readVerify (← store) v) with
  | .callable m => return some (toAct (call evaluate v m))
  | .notCallable _ => return none

/-- The host of the session's values, given how their verifiers evaluate trees. -/
def hostWith (evaluate : NodePlan → EvaluatorPlan → Session Bool) :
    Host Value Value Store Failure where
  className := Value.typeName
  offer v := toAct (offer evaluate v)
  meansAbsent := meansAbsent
  truth v := toAct (ofExcept v.holds)
  unrecognized := .unrecognizedNode
  exhausted := .stackExhausted

/-- The evaluator that a plan means. -/
def makeEvaluator : EvaluatorPlan → Session Evaluator
  | .shared => return ⟨some (← newSettings .settings {})⟩
  | .fresh p => do newEvaluator (← makeValue p)
  | .named name => do find (← store).evaluators name

/-- The number of evaluations that may be nested in each other. -/
def nestingLimit : Nat := 100

/-- The room of a recursive walk, by the number of evaluations that may still be nested in it. -/
def walkRoom (nesting : Nat) : Nat := 80 + 9 * nesting

/-- Makes an evaluator and a node, in this order, and has the one evaluate the other. -/
def evaluateIn (nesting : Nat) (h : Host Value Value Store Failure) (node : NodePlan)
    (evaluator : EvaluatorPlan) : Session Bool := do
  let e ← makeEvaluator evaluator
  let v ← makeNode node
  let settings ← ofExcept (Evaluator.current (← store) e)
  ofWorld (h.evaluate settings (walkRoom nesting) v.toCondition)

/-- The host of the session's values, when `nesting` evaluations may still be nested. -/
def host : (nesting : Nat) → Host Value Value Store Failure
  | 0 => hostWith fun _ _ ↦ throw .stackExhausted
  | nesting + 1 => hostWith (evaluateIn nesting (host nesting))

/-- Evaluates a node as a plan says, outside of any other evaluation. -/
def evaluate (node : NodePlan) (evaluator : EvaluatorPlan) : Session Bool :=
  evaluateIn nestingLimit (host nestingLimit) node evaluator

end ShortCircuit.Session
