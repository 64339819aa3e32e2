import ShortCircuit.Yaml.Supply
import ShortCircuit.Yaml.Token

/-!
# From tokens to events

Events say where documents, sequences and mappings start and end, and what stands in them. They are
found with a stack of goals: what is still expected, the next goal on top. A goal takes tokens,
gives at most one event, and leaves other goals in its place.
-/

namespace ShortCircuit.Yaml

/-- What is said about a node besides its content: its anchor, and its tag unless its kind and its
text shall decide. -/
structure Properties where
  anchor : Option String := none
  tag : Option String := none
  deriving DecidableEq, Repr

inductive Event where
  | documentStart
  | documentEnd
  | alias (name : String)
  /-- A scalar. The text of a plain one decides what it is, if there is no tag. -/
  | scalar (p : Properties) (text : Text) (plain : Bool)
  | sequenceStart (p : Properties)
  | sequenceEnd
  | mappingStart (p : Properties)
  | mappingEnd
  | streamEnd
  deriving DecidableEq, Repr

namespace Event

/-- A scalar that is not there. -/
def empty : Event := .scalar {} [] true

end Event

/-- Where a node stands, which decides what collections it may be. -/
inductive Position where
  | block
  /-- A key or value of a block mapping: the entries of a sequence need no indentation there. -/
  | blockPair
  | flow
  deriving DecidableEq, Repr

inductive Goal where
  | firstDocument
  | document
  | documentContent
  | documentEnd
  | node (position : Position)
  | blockEntries
  | unindentedEntries
  | blockKey
  | blockValue
  | flowEntries (first : Bool)
  | pairKey
  | pairValue
  | pairEnd
  | flowKey (first : Bool)
  | flowValue
  | noFlowValue
  deriving DecidableEq, Repr

/-- What handles stand for if no directive says otherwise. -/
def standardHandles : List (String × String) := [("!", "!"), ("!!", "tag:yaml.org,2002:")]

structure EventReader where
  tokens : List Token
  goals : List Goal
  /-- What the handles in tags stand for. -/
  handles : List (String × String)

namespace EventReader

/-- What a goal comes to: perhaps an event, and the reader after it. -/
abbrev Outcome := Except Failure (Option Event × EventReader)

def withHandles (r : EventReader) (handles : List (String × String)) : EventReader :=
  { r with handles }

/-- Goes on with other goals in front, and an event. -/
def give (r : EventReader) (e : Event) (goals : List Goal) (tokens : List Token) : Outcome :=
  .ok (some e, { r with tokens, goals := goals ++ r.goals })

/-- Goes on with other goals in front. -/
def expect (r : EventReader) (goals : List Goal) (tokens : List Token) : Outcome :=
  .ok (none, { r with tokens, goals := goals ++ r.goals })

/-- Reads the properties of a node. Whether there is a second one can be seen only if another token
follows. -/
def properties : List Token → Option (Option String × Option WrittenTag × List Token)
  | .anchor a :: .tag t :: rest => some (some a, some t, rest)
  | .tag t :: .anchor a :: rest => some (some a, some t, rest)
  | .anchor a :: t :: rest => some (some a, none, t :: rest)
  | .tag t :: t' :: rest => some (none, some t, t' :: rest)
  | [.anchor _] | [.tag _] => none
  | tokens => some (none, none, tokens)

/-- The tag that a written tag stands for. -/
def fullTag (r : EventReader) (t : WrittenTag) : Except Failure String :=
  match t.handle with
  | none => .ok t.suffix
  | some handle => match r.handles.lookup handle with
    | some stem => .ok (stem ++ t.suffix)
    | none => .error .malformedYaml

/-- The content of a node behind its properties. A node that has any may be empty. A node tagged
with an exclamation mark alone is what a plain one would be. -/
def nodeContent (r : EventReader) (shortage : Failure) (position : Position)
    (anchor tag : Option String) (tokens : List Token) : Outcome :=
  let p : Properties := ⟨anchor, tag.filter (· != "!")⟩
  match tokens, position with
  | [], _ => .error shortage
  | .entry :: _, .blockPair => r.give (.sequenceStart p) [.unindentedEntries] tokens
  | .scalar text plain :: rest, _ =>
    r.give (.scalar p text (plain && tag.isNone || tag == some "!")) [] rest
  | .flowSequenceStart :: rest, _ => r.give (.sequenceStart p) [.flowEntries true] rest
  | .flowMappingStart :: rest, _ => r.give (.mappingStart p) [.flowKey true] rest
  | .blockSequenceStart :: rest, .block | .blockSequenceStart :: rest, .blockPair =>
    r.give (.sequenceStart p) [.blockEntries] rest
  | .blockMappingStart :: rest, .block | .blockMappingStart :: rest, .blockPair =>
    r.give (.mappingStart p) [.blockKey] rest
  | _, _ =>
    if anchor.isSome || tag.isSome then r.give (.scalar p [] true) [] tokens
    else .error .malformedYaml

def node (r : EventReader) (shortage : Failure) (position : Position) : Outcome :=
  match r.tokens with
  | .alias name :: rest => r.give (.alias name) [] rest
  | tokens => match properties tokens with
    | none => .error shortage
    | some (anchor, t, rest) => do
      let tag ← t.mapM r.fullTag
      r.nodeContent shortage position anchor tag rest

/-- Goes on behind an indicator: nothing stands there if one of the tokens `ends` follows. -/
def afterIndicator (r : EventReader) (shortage : Failure) (position : Position)
    (ends : List Token) (goal : Goal) : List Token → Outcome
  | [] => .error shortage
  | t :: rest =>
    if ends.contains t then r.give .empty [goal] (t :: rest)
    else r.expect [.node position, goal] (t :: rest)

/-- Reads the directives before a document: whether there is a version among them, and what handles
stand for. -/
def directives (hasVersion : Bool) (handles : List (String × String)) :
    List Token → Except Failure (List (String × String) × List Token)
  | .directive d :: rest =>
    match d with
    | .version major =>
      if hasVersion || major != 1 then .error .malformedYaml else directives true handles rest
    | .handle name stem =>
      if handles.any fun h ↦ h.1 == name then .error .malformedYaml
      else directives hasVersion ((name, stem) :: handles) rest
    | .other => directives hasVersion handles rest
  | tokens => .ok (handles, tokens)

/-- Another document, or the end of the text. -/
def document (r : EventReader) (shortage : Failure) : Outcome :=
  match r.tokens with
  | .documentEnd :: rest => r.expect [.document] rest
  | .streamEnd :: rest => r.give .streamEnd [] rest
  | tokens => do
    let (handles, rest) ← directives false [] tokens
    match rest with
    | [] => throw shortage
    | .documentStart :: rest =>
      (r.withHandles (handles ++ standardHandles)).give .documentStart
        [.documentContent, .documentEnd] rest
    | _ => throw .malformedYaml

/-- Another entry of a flow sequence, or its end. -/
def flowEntry (r : EventReader) (shortage : Failure) : List Token → Outcome
  | [] => .error shortage
  | .flowSequenceEnd :: rest => r.give .sequenceEnd [] rest
  | .key :: rest => r.give (.mappingStart {}) [.pairKey, .flowEntries false] (.key :: rest)
  | tokens => r.expect [.node .flow, .flowEntries false] tokens

/-- Another key of a flow mapping, or its end. -/
def flowPair (r : EventReader) (shortage : Failure) : List Token → Outcome
  | [] => .error shortage
  | .flowMappingEnd :: rest => r.give .mappingEnd [] rest
  | .key :: rest =>
    r.afterIndicator shortage .flow [.value, .comma, .flowMappingEnd] .flowValue rest
  | tokens => r.expect [.node .flow, .noFlowValue] tokens

/-- The tokens that end a key or value of a block mapping. -/
def pairEnds : List Token := [.key, .value, .blockEnd]

/-- Works towards a goal, which has been taken off the stack. -/
def pursue (r : EventReader) (shortage : Failure) (goal : Goal) : Outcome :=
  match goal, r.tokens with
  | _, [] => .error shortage
  | .firstDocument, t :: rest =>
    match t with
    | .directive _ | .documentStart | .streamEnd => r.expect [.document] (t :: rest)
    | _ =>
      (r.withHandles standardHandles).give .documentStart [.node .block, .documentEnd] (t :: rest)
  | .document, _ => r.document shortage
  | .documentContent, t :: rest =>
    match t with
    | .directive _ | .documentStart | .documentEnd | .streamEnd => r.give .empty [] (t :: rest)
    | _ => r.expect [.node .block] (t :: rest)
  | .documentEnd, .documentEnd :: rest => r.give .documentEnd [.document] rest
  | .documentEnd, tokens => r.give .documentEnd [.document] tokens
  | .node position, _ => r.node shortage position
  | .blockEntries, .entry :: rest =>
    r.afterIndicator shortage .block [.entry, .blockEnd] .blockEntries rest
  | .blockEntries, .blockEnd :: rest => r.give .sequenceEnd [] rest
  | .unindentedEntries, .entry :: rest =>
    r.afterIndicator shortage .block (.entry :: pairEnds) .unindentedEntries rest
  | .unindentedEntries, tokens => r.give .sequenceEnd [] tokens
  | .blockKey, .key :: rest => r.afterIndicator shortage .blockPair pairEnds .blockValue rest
  | .blockKey, .blockEnd :: rest => r.give .mappingEnd [] rest
  | .blockValue, .value :: rest => r.afterIndicator shortage .blockPair pairEnds .blockKey rest
  | .blockValue, tokens => r.give .empty [.blockKey] tokens
  | .flowEntries _, .flowSequenceEnd :: rest => r.give .sequenceEnd [] rest
  | .flowEntries true, tokens => r.flowEntry shortage tokens
  | .flowEntries false, .comma :: rest => r.flowEntry shortage rest
  | .pairKey, .key :: rest =>
    r.afterIndicator shortage .flow [.value, .comma, .flowSequenceEnd] .pairValue rest
  | .pairValue, .value :: rest =>
    r.afterIndicator shortage .flow [.comma, .flowSequenceEnd] .pairEnd rest
  | .pairValue, tokens => r.give .empty [.pairEnd] tokens
  | .pairEnd, tokens => r.give .mappingEnd [] tokens
  | .flowKey _, .flowMappingEnd :: rest => r.give .mappingEnd [] rest
  | .flowKey true, tokens => r.flowPair shortage tokens
  | .flowKey false, .comma :: rest => r.flowPair shortage rest
  | .flowValue, .value :: rest =>
    r.afterIndicator shortage .flow [.comma, .flowMappingEnd] (.flowKey false) rest
  | .flowValue, tokens => r.give .empty [.flowKey false] tokens
  | .noFlowValue, tokens => r.give .empty [.flowKey false] tokens
  | _, _ => .error .malformedYaml

/-- Pursues the goals one after the other, after the events `before`, which are backwards. -/
def run (shortage : Failure) : (fuel : Nat) → List Event → EventReader → Supply Event
  | 0, before, _ => ⟨before.reverse, some .malformedYaml⟩
  | fuel + 1, before, r =>
    match r.goals with
    | [] => ⟨before.reverse, none⟩
    | goal :: goals =>
      match ({ r with goals := goals } : EventReader).pursue shortage goal with
      | .error e => ⟨before.reverse, some e⟩
      | .ok (e?, r) => run shortage fuel (e?.toList ++ before) r

end EventReader

/-- The events that tokens stand for. Of the goals that one token leaves, at most seven are reached
without another token. -/
def Event.ofTokens (s : Supply Token) : Supply Event :=
  EventReader.run s.shortage (8 * (s.items.length + 1)) [] ⟨s.items, [.firstDocument], []⟩

end ShortCircuit.Yaml
