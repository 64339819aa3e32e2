import ShortCircuit.Failure
import ShortCircuit.Json.Numbers

/-!
# Reading JSON

A document is one value with blanks around it. The names of the infinities and of no number are
values too. Of members of one name the last counts, in the place of the first.
-/

namespace ShortCircuit.Json

def isBlank (c : Char) : Bool := c == ' ' || c == '\t' || c == '\n' || c == '\r'

namespace Cursor

/-- Moves over one character. -/
def next (c : Cursor) : Cursor := ⟨c.offset + 1, c.rest.drop 1⟩

/-- Moves over the characters of a word. -/
def beyond (c : Cursor) (word : List Char) : Cursor :=
  ⟨c.offset + word.length, c.rest.drop word.length⟩

/-- Moves over blanks. -/
def skipBlanks (c : Cursor) : Cursor :=
  ⟨c.offset + (c.rest.takeWhile isBlank).length, c.rest.dropWhile isBlank⟩

end Cursor

/-- The words that stand for values. -/
def words : List (List Char × Value) :=
  [("null".toList, .nothing), ("true".toList, .bool true), ("false".toList, .bool false),
    ("NaN".toList, .float 0 (0.0 / 0.0)), ("Infinity".toList, .float 0 (1.0 / 0.0)),
    ("-Infinity".toList, .float 0 (-1.0 / 0.0))]

/-- Puts a member into an object. -/
def insertMember (members : List (Text × Value)) (key : Text) (v : Value) : List (Text × Value) :=
  if members.any fun m ↦ m.1 == key then
    members.map fun m ↦ if m.1 == key then (key, v) else m
  else
    members ++ [(key, v)]

/-- An object as a dictionary. -/
def objectValue (members : List (Text × Value)) : Value :=
  .dict (members.map fun m ↦ (.text m.1, m.2))

/-- Reads the elements of an array from the first one on, `item` reading one of them. The elements
read before are given backwards. -/
def elements (item : Cursor → Reading Value) (before : List Value) :
    (fuel : Nat) → Cursor → Except Halt (Value × Cursor)
  | 0, c => .error (.fault .expectingValue c.offset)
  | fuel + 1, c => do
    let (v, c) ← item c
    let c := c.skipBlanks
    match c.rest with
    | ']' :: _ => .ok (.list (v :: before).reverse, c.next)
    | ',' :: _ => elements item (v :: before) fuel c.next.skipBlanks
    | _ => .error (.fault .expectingComma c.offset)

/-- Reads the key of a member, up to the value. -/
def memberKey (c : Cursor) : Except Halt (Text × Cursor) := do
  match c.rest with
  | '"' :: _ =>
    let (key, c) ← string c.next
    let c := c.skipBlanks
    match c.rest with
    | ':' :: _ => .ok (key, c.next.skipBlanks)
    | _ => .error (.fault .expectingColon c.offset)
  | _ => .error (.fault .expectingPropertyName c.offset)

/-- Reads the members of an object from the first one on, after the members `before`. -/
def members (item : Cursor → Reading Value) (before : List (Text × Value)) :
    (fuel : Nat) → Cursor → Except Halt (Value × Cursor)
  | 0, c => .error (.fault .expectingPropertyName c.offset)
  | fuel + 1, c => do
    let (key, c) ← memberKey c
    let (v, c) ← item c
    let c := c.skipBlanks
    let soFar := insertMember before key v
    match c.rest with
    | '}' :: _ => .ok (objectValue soFar, c.next)
    | ',' :: _ => members item soFar fuel c.next.skipBlanks
    | _ => .error (.fault .expectingComma c.offset)

/-- Reads an array whose opening bracket has just been read. -/
def array (fuel : Nat) (item : Cursor → Reading Value) (c : Cursor) : Reading Value :=
  let c := c.skipBlanks
  match c.rest with
  | ']' :: _ => .ok (.list [], c.next)
  | _ => elements item [] fuel c

/-- Reads an object whose opening brace has just been read. -/
def object (fuel : Nat) (item : Cursor → Reading Value) (c : Cursor) : Reading Value :=
  let c := c.skipBlanks
  match c.rest with
  | '}' :: _ => .ok (.dict [], c.next)
  | _ => members item [] fuel c

/-- Reads a value that starts where the cursor stands, `nesting` being how many arrays and objects
may still be nested in it. No array or object has more items than there is `fuel`. -/
def value (limits : Limits) (fuel : Nat) : (nesting : Nat) → Cursor → Reading Value
  | nesting, c =>
    match words.find? fun w ↦ w.1.isPrefixOf c.rest with
    | some w => .ok (w.2, c.beyond w.1)
    | none => match c.rest, nesting with
      | '"' :: _, _ => (string c.next).map fun r ↦ (.text r.1, r.2)
      | '[' :: _, 0 | '{' :: _, 0 => .error .tooDeep
      | '[' :: _, nesting + 1 => array fuel (value limits fuel nesting) c.next
      | '{' :: _, nesting + 1 => object fuel (value limits fuel nesting) c.next
      | _, _ => number limits c

/-- Reads a document. -/
def document (limits : Limits) (cs : List Char) : Except Halt Value := do
  match cs with
  | '\uFEFF' :: _ => .error (.fault .byteOrderMark 0)
  | _ =>
    let (v, c) ← value limits (cs.length + 1) limits.nesting (Cursor.skipBlanks ⟨0, cs⟩)
    let c := c.skipBlanks
    if c.rest.isEmpty then .ok v else .error (.fault .extraData c.offset)

/-- Reads a document; a failure says where it is malformed. -/
def read (limits : Limits) (cs : List Char) : Except Failure Value :=
  match document limits cs with
  | .ok v => .ok v
  | .error (.fault f offset) => .error (.malformedJson ⟨f, .at cs offset⟩)
  | .error (.literalTooLong digits) => .error (.literalTooLong digits)
  | .error .tooDeep => .error .stackExhausted

end ShortCircuit.Json
