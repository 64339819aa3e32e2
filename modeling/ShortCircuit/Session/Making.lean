import ShortCircuit.Session.Store
import ShortCircuit.Settings.Validation
import ShortCircuit.Value.Equality

/-!
# Making values and conditions

Making follows a plan from left to right and ends at the first failure. The connective of a group
is checked before its children are drawn, so an iterator is left alone by a group that cannot be
made; and a group holds exactly the items that were drawn, whatever they are.
-/

namespace ShortCircuit.Session

/-- One of the two constant conditions. -/
def constantCondition (b : Bool) : Value :=
  .leaf ⟨⟨constantId b, .leaf⟩, b, ⟨none, .stored⟩, none⟩

/-- The boolean that a leaf stores. -/
def leafValue : Value → Except Failure Bool
  | .bool b => .ok b
  | v => .error (.leafValueNotBoolean v.typeName)

/-- The connective that a value stands for, or the failure of one that stands for none. -/
def connectiveOf (v : Value) : Except Failure Connective :=
  match Connective.ofValue? v with
  | some c => .ok c
  | none => do throw (.invalidConnective (← v.shown))

/-- A new group of the given items. -/
def newGroup (cls : ClassTag) (c : Connective) (items : List Value) : Session Value := do
  return .condition (.group ⟨← freshId, cls⟩ c (items.map Value.toCondition))

/-- New settings of a class. -/
def newSettings (cls : ClassTag) (s : Settings) : Session Value :=
  return .settings ⟨← freshId, cls⟩ s

/-- A new class of the given name. -/
def newClass (name : String) : Session ClassTag := return ⟨← freshId, name⟩

/-- A new class of the given name, or else a class of the library. -/
def classOr (cls : ClassTag) (className : Option String) : Session ClassTag :=
  className.elim (pure cls) newClass

/-- Adds an entry to a dictionary; an entry under an equal key takes the new value. -/
def insertEntry (entries : List (Value × Value)) (k v : Value) :
    Except Failure (List (Value × Value)) := do
  k.hashable
  if ← entries.anyM fun e ↦ Value.equalWithin comparisonRoom e.1 k then
    entries.mapM fun e ↦ do
      return if ← Value.equalWithin comparisonRoom e.1 k then (e.1, v) else e
  else
    return entries ++ [(k, v)]

/-- The tree that serves as a reference: no branch of it is true. -/
def referenceTree : Session Value := do
  let t := constantCondition true
  let f := constantCondition false
  let or := newGroup .group .or
  let and := newGroup .group .and
  let first ← and [t, ← or [f, f]]
  let second ← and [t, f, ← or [f, t]]
  let third ← and [← and [← or [t, t], f], f]
  or [first, second, third]

/-- The child of a node at an index; a negative index counts from the end. -/
def childAt (v : Value) (index : Int) : Except Failure Value :=
  match v with
  | .condition (.group _ _ children) =>
    let i := if index < 0 then index + children.length else index
    if i < 0 then .error .indexOutOfRange
    else match children[i.toNat]? with
      | some c => .ok (.ofCondition c)
      | none => .error .indexOutOfRange
  | v => .error (v.lacks "conditions")

/-- Draws everything that is left in a named iterator. -/
def drain (name : String) : Session (List Value) := do
  let items ← find (← store).iterators name
  modifyStore fun s ↦ { s with iterators := (name, []) :: s.iterators }
  return items

mutual

def makeValue : ValuePlan → Session Value
  | .nothing => return .nothing
  | .bool b => return .bool b
  | .int n => return .int n
  | .float x => return .float (← freshId) x
  | .text t => return .text t
  | .bytes bs => return .bytes bs
  | .list items => return .list (← makeValues items)
  | .tuple items => return .tuple (← makeValues items)
  | .dict entries => return .dict (← makeEntries [] entries)
  | .strategy constant => match Strategy.ofConstant? constant with
    | some s => return .strategy s
    | none => throw (.unknownName constant)
  | .connective constant => match Connective.ofConstant? constant with
    | some c => return .connective c
    | none => throw (.unknownName constant)
  | .node n => makeNode n
  | .settings fields className => do
    let fields ← makeFields fields
    let cls ← classOr .settings className
    newSettings cls (← ofExcept (Settings.ofFields fields))
  | .namedSettings name => do find (← store).settings name
  | .witness truth => return .witness (← freshId) truth
  termination_by structural p => p

def makeValues : List ValuePlan → Session (List Value)
  | [] => return []
  | p :: rest => return (← makeValue p) :: (← makeValues rest)
  termination_by structural ps => ps

/-- Makes entries one after the other and adds them to those made before. -/
def makeEntries (made : List (Value × Value)) :
    List (ValuePlan × ValuePlan) → Session (List (Value × Value))
  | [] => return made
  | entry :: rest => do
    let (k, v) ← makeEntry entry
    makeEntries (← ofExcept (insertEntry made k v)) rest
  termination_by structural ps => ps

def makeEntry : ValuePlan × ValuePlan → Session (Value × Value)
  | (k, v) => return (← makeValue k, ← makeValue v)
  termination_by structural p => p

def makeFields : List (String × ValuePlan) → Session (List (String × Value))
  | [] => return []
  | field :: rest => return (← makeField field) :: (← makeFields rest)
  termination_by structural ps => ps

def makeField : String × ValuePlan → Session (String × Value)
  | (name, p) => return (name, ← makeValue p)
  termination_by structural p => p

def makeNode : NodePlan → Session Value
  | .constant b => return constantCondition b
  | .leaf value verifier => do
    let v ← makeValue value
    let verifier ← match verifier with
      | some p => makeVerifier p
      | none => pure ⟨none, .stored⟩
    let b ← ofExcept (leafValue v)
    return .leaf ⟨⟨← freshId, .leaf⟩, b, verifier, none⟩
  | .group isOr children => do
    let prepared ← prepare children
    newGroup .group (if isOr then .or else .and) (← draw prepared children)
  | .tagged tag children className => do
    let t ← makeValue tag
    let cls ← classOr .group className
    match children with
    | none => newGroup cls (← ofExcept (connectiveOf t)) []
    | some children =>
      let prepared ← prepare children
      let c ← ofExcept (connectiveOf t)
      newGroup cls c (← draw prepared children)
  | .ownLeaf className value verify => do
    let v ← makeValue value
    let verifier ← makeVerifier verify
    let cls ← newClass className
    let b ← ofExcept (leafValue v)
    return .leaf ⟨⟨← freshId, cls⟩, b, ⟨none, .stored⟩, some verifier⟩
  | .duck className value verify => do
    let value ← match value with
      | some p => do pure (some (← makeValue p))
      | none => pure none
    let verify ← makeDuckVerify verify
    return .duck ⟨⟨← freshId, ← newClass className⟩, value, verify⟩
  | .raw p => makeValue p
  | .classObject name => match LibraryClass.ofName? name with
    | some c => return .classObject c
    | none => throw (.unknownName name)
  | .reference path => do
    path.foldlM (fun v index ↦ ofExcept (childAt v index)) (← referenceTree)
  | .named name => return (← find (← store).nodes name).value
  | .chain length tags base before after => do
    let base ← makeNode base
    let tags ← makeValues tags
    let enclose (inner : Value) (i : Nat) : Session Value := do
      let before ← makeNodes before
      let after ← makeNodes after
      match tags[i % tags.length]? with
      | some tag => newGroup .group (← ofExcept (connectiveOf tag)) (before ++ inner :: after)
      | none => throw (.raised "ZeroDivisionError" "integer modulo by zero")
    (List.range length).foldlM enclose base
  | .wide count tag item further => do
    let item ← makeNode item
    let further ← makeNodes further
    let c ← ofExcept (connectiveOf (← makeValue tag))
    newGroup .group c (List.replicate count item ++ further)
  termination_by structural p => p

def makeNodes : List NodePlan → Session (List Value)
  | [] => return []
  | p :: rest => return (← makeNode p) :: (← makeNodes rest)
  termination_by structural ps => ps

/-- Makes what has to be there before a group can be made: its children, unless they are drawn. A
list that the session keeps is taken as it is at that moment. The group copies it into a tuple of
its own, so what becomes of the list later does not reach the group. -/
def prepare : ChildrenPlan → Session Value
  | .items nodes => return .list (← makeNodes nodes)
  | .drawn _ => return .nothing
  | .namedList name => return .list (← find (← store).lists name)
  | .namedIterator name => do
    let _ ← find (← store).iterators name
    return .nothing
  | .value p => makeValue p
  termination_by structural p => p

/-- The children of a group, given what was prepared. -/
def draw (prepared : Value) : ChildrenPlan → Session (List Value)
  | .drawn nodes => makeNodes nodes
  | .namedIterator name => drain name
  | .items _ | .namedList _ | .value _ => ofExcept prepared.items
  termination_by structural p => p

def makeVerifier : VerifierPlan → Session (Verifier Value)
  | .mk name action => return ⟨name, ← makeAction action⟩
  termination_by structural p => p

def makeAction : ActionPlan → Session (Action Value)
  | .stored => return .stored
  | .negated => return .negated
  | .returns p => return .returns (← makeValue p)
  | .raises kind message => return .raises kind message
  | .sequence answers => do
    let answers ← makeValues answers
    return .sequence (← freshId) answers
  | .evaluates node evaluator => return .evaluates node evaluator
  termination_by structural p => p

def makeDuckVerify : DuckPlan → Session (DuckVerify Value)
  | .absent => return .absent
  | .method verifier => return .method (← makeVerifier verifier)
  | .holds p => return .holds (← makeValue p)
  | .failing kind message => return .failing kind message
  termination_by structural p => p

end

end ShortCircuit.Session
