import ShortCircuit.Yaml.Event
import ShortCircuit.Yaml.Tag

/-!
# From events to nodes

The nodes of a document make a graph, as an alias may lead to any node whose anchor comes before
it, even to one that it stands in.
-/

namespace ShortCircuit.Yaml

/-- What a node holds. Other nodes are meant by their numbers. -/
inductive Content where
  | scalar (text : Text)
  | sequence (items : List Nat)
  | mapping (entries : List (Nat × Nat))
  deriving Repr

structure Node where
  tag : Tag
  content : Content
  deriving Repr

instance : Inhabited Node := ⟨⟨.unknown, .scalar []⟩⟩

/-- A sequence or mapping that is being read: its node, and the nodes in it so far, backwards. -/
structure OpenNode where
  number : Nat
  tag : Tag
  isMapping : Bool
  inside : List Nat

/-- A document that is being read. -/
structure GraphReader where
  nodes : Array Node := #[]
  anchors : List (String × Nat) := []
  /-- The collections that are open, innermost first. -/
  stack : List OpenNode := []
  depth : Nat := 0
  root : Option Nat := none
  hasDocument : Bool := false

/-- Keys and values that follow each other as entries. -/
def paired : List Nat → List (Nat × Nat)
  | k :: v :: rest => (k, v) :: paired rest
  | _ => []

namespace GraphReader

/-- Puts a node into the innermost collection that is open; outside of all it is the root. -/
def put (r : GraphReader) (number : Nat) : GraphReader :=
  match r.stack with
  | o :: rest => { r with stack := { o with inside := number :: o.inside } :: rest }
  | [] => { r with root := some number }

/-- Adds a node. An anchor can be given only once. -/
def add (r : GraphReader) (anchor : Option String) (n : Node) : Except Failure GraphReader :=
  match anchor with
  | none => .ok { r with nodes := r.nodes.push n }
  | some name =>
    if (r.anchors.lookup name).isSome then .error .malformedYaml
    else .ok { r with
      nodes := r.nodes.push n
      anchors := (name, r.nodes.size) :: r.anchors }

/-- Starts a collection, which takes its tag from its kind if it has none. It may stand in less than
`nesting` others. -/
def openNode (nesting : Nat) (r : GraphReader) (p : Properties) (isMapping : Bool) :
    Except Failure GraphReader := do
  let tag := (p.tag.map Tag.ofName).getD (if isMapping then .mapping else .sequence)
  let number := r.nodes.size
  let empty : Content := if isMapping then .mapping [] else .sequence []
  let r ← r.add p.anchor ⟨tag, empty⟩
  if nesting ≤ r.depth then throw .stackExhausted
  return { r with stack := ⟨number, tag, isMapping, []⟩ :: r.stack, depth := r.depth + 1 }

/-- Ends the innermost collection. -/
def closeNode (r : GraphReader) : GraphReader :=
  match r.stack with
  | [] => r
  | o :: rest =>
    let inside := o.inside.reverse
    let content : Content := if o.isMapping then .mapping (paired inside) else .sequence inside
    { r with
      nodes := r.nodes.setIfInBounds o.number ⟨o.tag, content⟩
      stack := rest
      depth := r.depth - 1 }.put o.number

/-- Takes one event. There can be only one document. -/
def take (nesting : Nat) (r : GraphReader) : Event → Except Failure GraphReader
  | .documentStart =>
    if r.hasDocument then .error .malformedYaml else .ok { r with hasDocument := true }
  | .documentEnd | .streamEnd => .ok r
  | .alias name =>
    match r.anchors.lookup name with
    | some number => .ok (r.put number)
    | none => .error .malformedYaml
  | .scalar p text plain => do
    let tag := (p.tag.map Tag.ofName).getD (if plain then .ofPlain text else .text)
    let number := r.nodes.size
    return (← r.add p.anchor ⟨tag, .scalar text⟩).put number
  | .sequenceStart p => r.openNode nesting p false
  | .mappingStart p => r.openNode nesting p true
  | .sequenceEnd | .mappingEnd => .ok r.closeNode

end GraphReader

/-- The nodes of a document, and the number of its root unless there is no document. -/
structure Graph where
  nodes : Array Node
  root : Option Nat

/-- The graph that events describe, of collections that are nested at most `nesting` deep. -/
def Graph.ofEvents (nesting : Nat) (s : Supply Event) : Except Failure Graph := do
  let r ← s.items.foldlM (GraphReader.take nesting) {}
  match s.failure with
  | some e => throw e
  | none => return ⟨r.nodes, r.root⟩

end ShortCircuit.Yaml
