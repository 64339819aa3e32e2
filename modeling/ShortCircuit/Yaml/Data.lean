import ShortCircuit.Text.Base64
import ShortCircuit.Value.Equality
import ShortCircuit.Value.SetOrder
import ShortCircuit.Yaml.Graph
import ShortCircuit.Yaml.Scalar.Number

/-!
# From nodes to data

Every node becomes one datum, once: a scalar at once, and a collection in two steps, first empty
and later, in its turn, filled. So a collection may hold itself. Before a mapping is filled, the
entries that it merges are put in front of its own, where later ones prevail.
-/

namespace ShortCircuit.Yaml

/-- What a node stands for. The parts of a collection are meant by the numbers of their nodes. -/
inductive Datum where
  | value (v : Value)
  | list (items : List Nat)
  | pairs (entries : List (Nat × Nat))
  | dict (entries : List (Value × Nat))
  | set (items : List Value)

instance : Inhabited Datum := ⟨.value .nothing⟩

structure Builder where
  nodes : Array Node
  data : Array (Option Datum)
  /-- The collections that are to be filled in the next round, backwards. -/
  unfilled : List Nat

abbrev Building := StateT Builder (Except Failure)

namespace Building

def node (number : Nat) : Building Node := do return (← get).nodes[number]?.getD default

def datum? (number : Nat) : Building (Option Datum) := do return ((← get).data[number]?).join

def setDatum (number : Nat) (d : Datum) : Building Unit :=
  modify fun b ↦ { b with data := b.data.setIfInBounds number (some d) }

def setNode (number : Nat) (n : Node) : Building Unit :=
  modify fun b ↦ { b with nodes := b.nodes.setIfInBounds number n }

/-! ## Scalars -/

/-- The text of a node that is tagged as a scalar: a mapping has the text of the value that it has
as a whole, and a chain of these is followed as long as there is room. -/
def scalarText : (room : Nat) → (number : Nat) → Building Text
  | 0, _ => throw .stackExhausted
  | room + 1, number => do
    match (← node number).content with
    | .scalar text => return text
    | .sequence _ => throw .malformedYaml
    | .mapping entries =>
      match ← entries.findM? fun e ↦ return (← node e.1).tag == .value with
      | some e => scalarText room e.2
      | none => throw .malformedYaml

/-- The boolean of a word, in any case. -/
def boolean (text : Text) : Except Failure Value :=
  let word := text.toLower
  if ["yes", "true", "on"].any fun w ↦ Text.ofString w == word then .ok (.bool true)
  else if ["no", "false", "off"].any fun w ↦ Text.ofString w == word then .ok (.bool false)
  else .error (.noBoolean word)

/-- The octets that a text of ASCII stands for in base 64. -/
def octets (text : Text) : Except Failure Value :=
  match Base64.decode? (text.map CodePoint.toChar) with
  | some octets =>
    if text.all fun p ↦ p.value < 0x80 then .ok (.bytes octets) else .error .malformedYaml
  | none => .error .malformedYaml

/-- The timestamp of a text. -/
def timestamp (text : Text) : Except Failure Value :=
  match Timestamp.ofChars? (Tag.withoutLineEnd (text.map CodePoint.toChar)) with
  | some t => t.toValue
  | none => .error .noTimestamp

/-- The value of a scalar, by its tag. Every double is an object of its own, apart from the one that
is no number and has a name. -/
def scalarValue (number : Nat) (n : Node) (text : Text) : Except Failure Value :=
  match n.tag, n.content with
  | .null, _ => .ok .nothing
  | .bool, _ => boolean text
  | .int, _ => return .int (← Number.integer text)
  | .float, _ => do
    let (x, isNamed) ← Number.double text
    return .float (if isNamed then 0 else number + 1) x
  | .binary, _ => octets text
  | .timestamp, .scalar _ => timestamp text
  | .timestamp, _ => .error .timestampNotText
  | .text, _ => .ok (.text text)
  | _, _ => .error .malformedYaml

/-! ## Data -/

section

variable (links : Nat)

/-- The empty collection of a tag, if it is the tag of one. -/
def emptyCollection? : Tag → Option Datum
  | .sequence => some (.list [])
  | .mapping => some (.dict [])
  | .set => some (.set [])
  | .pairs => some (.pairs [])
  | _ => none

/-- The tags of scalars. -/
def scalarTags : List Tag := [.null, .bool, .int, .float, .binary, .timestamp, .text]

/-- Makes the datum of a node, unless there is one. -/
def make (number : Nat) : Building Unit := do
  if (← datum? number).isSome then return
  let n ← node number
  match emptyCollection? n.tag with
  | some d =>
    setDatum number d
    modify fun b ↦ { b with unfilled := number :: b.unfilled }
  | none =>
    if !scalarTags.contains n.tag then throw .malformedYaml
    let text ← scalarText (links + 1) number
    setDatum number (.value (← scalarValue number n text))

/-- Makes the datum of a key, which must be a scalar. -/
def makeKey (number : Nat) : Building Value := do
  make links number
  match ← datum? number with
  | some (.value v) => return v
  | _ => throw .malformedYaml

/-! ## Mappings -/

/-- Sets the entries of a mapping. -/
def setEntries (number : Nat) (entries : List (Nat × Nat)) : Building Unit := do
  setNode number { (← node number) with content := .mapping entries }

/-- The entries of a mapping. -/
def entries (number : Nat) : Building (List (Nat × Nat)) := do
  match (← node number).content with
  | .mapping entries => return entries
  | _ => throw .malformedYaml

/-- The first of the entries from `index` on that asks for a merge, as its index and what it merges.
A key on the way that says that it has the value of its mapping becomes a plain text. -/
def nextMerge (index : Nat) : List (Nat × Nat) → Building (Option (Nat × Nat))
  | [] => return none
  | (k, v) :: rest => do
    let key ← node k
    if key.tag == .merge then return some (index, v)
    if key.tag == .value then setNode k { key with tag := .text }
    nextMerge (index + 1) rest

/-- The entries that a node brings when it is merged: those of a mapping, or of a sequence of
mappings, the last one first. What a mapping merges itself comes with its entries. -/
def mergeable (flatten : Nat → Building (List (Nat × Nat))) (number : Nat) :
    Building (List (Nat × Nat)) := do
  match (← node number).content with
  | .mapping _ => flatten number
  | .sequence items => items.foldlM (fun later item ↦ return (← flatten item) ++ later) []
  | .scalar _ => throw .malformedYaml

/-- Merges into the mapping of a number what its entries from the one at `index` on ask for,
`merged` being what those before it brought. No more entries ask for it than there is fuel, as what
is brought has been merged before. -/
def mergeFrom (flatten : Nat → Building (List (Nat × Nat))) (number : Nat) :
    (fuel index : Nat) → (merged : List (Nat × Nat)) → Building Unit
  | 0, _, _ => throw .stackExhausted
  | fuel + 1, index, merged => do
    let own ← entries number
    match ← nextMerge index (own.drop index) with
    | none => if !merged.isEmpty then setEntries number (merged ++ own)
    | some (index, v) =>
      setEntries number (own.eraseIdx index)
      let brought ← mergeable flatten v
      mergeFrom flatten number fuel index (merged ++ brought)

/-- The entries of a mapping once it has merged what they ask for. A mapping that is merged merges
first, and so on, as long as there is room for one more. -/
def flatten : (room : Nat) → (number : Nat) → Building (List (Nat × Nat))
  | 0, number => do
    let _ ← entries number
    throw .stackExhausted
  | room + 1, number => do
    mergeFrom (flatten room) number ((← entries number).length + 1) 0 []
    entries number

/-- Whether a key asks for anything before its mapping can be filled. -/
def isSpecial (number : Nat) : Building Bool := do
  let tag := (← node number).tag
  return tag == .merge || tag == .value

/-- The entries of a mapping once it has merged what they ask for, if they ask for anything. -/
def mergedEntries (number : Nat) : Building (List (Nat × Nat)) := do
  let own ← entries number
  if ← own.anyM fun e ↦ isSpecial e.1 then flatten (links + 1) number else return own

/-- Puts an entry among others: in the place of the one with the same key, or behind all. -/
def putEntry (room : Nat) (before : List (Value × Nat)) (k : Value) (v : Nat) :
    List (Value × Nat) → Except Failure (List (Value × Nat))
  | [] => .ok ((k, v) :: before).reverse
  | e :: rest => do
    if ← e.1.equalWithin room k then return (((e.1, v) :: before).reverse ++ rest)
    else putEntry room (e :: before) k v rest

/-- Fills a mapping, entry by entry. -/
def dictEntries (number : Nat) : Building (List (Value × Nat)) := do
  (← mergedEntries links number).foldlM (fun soFar e ↦ do
    let k ← makeKey links e.1
    make links e.2
    putEntry comparisonRoom [] k e.2 soFar) []

/-- The only entry of a mapping, as a pair. -/
def pair (number : Nat) : Building (Nat × Nat) := do
  match ← entries number with
  | [(k, v)] =>
    make links k
    make links v
    return (k, v)
  | _ => throw .malformedYaml

/-! ## Collections -/

/-- The items of a sequence. -/
def items (number : Nat) : Building (List Nat) := do
  match (← node number).content with
  | .sequence items => return items
  | _ => throw .malformedYaml

/-- Fills the collection of a node. -/
def fill (number : Nat) : Building Unit := do
  match (← node number).tag with
  | .mapping => setDatum number (.dict (← dictEntries links number))
  | .set => setDatum number (.set (SetOrder.arrange ((← dictEntries links number).map Prod.fst)))
  | .pairs => setDatum number (.pairs (← (← items number).mapM (pair links)))
  | _ =>
    let items ← items number
    items.forM (make links)
    setDatum number (.list items)

/-- Fills the collections that wait to be filled, round by round. -/
def fillAll : (fuel : Nat) → Building Unit
  | 0 => return
  | fuel + 1 => do
    match (← get).unfilled.reverse with
    | [] => return
    | numbers =>
      modify fun b ↦ { b with unfilled := [] }
      numbers.forM (fill links)
      fillAll fuel

end

end Building

/-- The data of a document, and the number of its root unless there is no document. -/
structure Data where
  data : Array (Option Datum)
  root : Option Nat

/-- The data that a graph stands for, in which mappings lead to each other at most `links` times in
a row. -/
def Data.ofGraph (links : Nat) (g : Graph) : Except Failure Data :=
  match g.root with
  | none => .ok ⟨#[], none⟩
  | some root => do
    let start : Builder := ⟨g.nodes, Array.replicate g.nodes.size none, []⟩
    let building : Building Unit := do
      Building.make links root
      Building.fillAll links (g.nodes.size + 1)
    let (_, b) ← building.run start
    return ⟨b.data, some root⟩

namespace Data

def datum (d : Data) (number : Nat) : Datum := (d.data[number]?.join).getD default

/-- The value of a node that stands in the collections `around`. One of them stands in itself as a
mere occurrence. -/
def value (d : Data) (around : List Nat) : (fuel : Nat) → Nat → Value
  | 0, _ => .nothing
  | fuel + 1, number =>
    let isAround := around.contains number
    let inner := d.value (number :: around) fuel
    match d.datum number with
    | .value v => v
    | .list items => if isAround then .inside false else .list (items.map inner)
    | .pairs entries =>
      if isAround then .inside false
      else .list (entries.map fun e ↦ .tuple [inner e.1, inner e.2])
    | .dict entries =>
      if isAround then .inside true else .dict (entries.map fun e ↦ (e.1, inner e.2))
    | .set items => .set items

/-- The value of a document as far as it is needed: of a mapping, the entries under the given keys,
and of a list, nothing but that it is one. -/
def needed (d : Data) (keys : List Text) : Value :=
  let isNeeded (k : Value) : Bool := match k with
    | .text t => keys.contains t
    | _ => false
  match d.root with
  | none => .nothing
  | some root => match d.datum root with
    | .value v => v
    | .list _ | .pairs _ => .list []
    | .set items => .set items
    | .dict entries => .dict ((entries.filter fun e ↦ isNeeded e.1).map fun e ↦
        (e.1, d.value [] (d.data.size + 1) e.2))

end Data

end ShortCircuit.Yaml
