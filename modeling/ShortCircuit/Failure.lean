import ShortCircuit.Json.Error
import ShortCircuit.Text.Quoted
import ShortCircuit.Text.Utf8
import ShortCircuit.Value.Basic

/-!
# Failures

Everything that can go wrong when values and conditions are made, evaluated or configured, and the
wording of each failure. `Failure.category` sorts the failures into the classes that callers tell
apart.
-/

namespace ShortCircuit

/-- Why a path cannot be opened for reading. -/
inductive OpenFault where
  | missing
  | isDirectory
  | notDirectory
  | nameTooLong
  | denied
  deriving DecidableEq, Repr

/-- Whose attribute is meant: an object of a class, or a class itself. -/
inductive Owner where
  | object (className : String)
  | cls (name : String)
  /-- A class that enumerates its members, and takes an attribute for one of them. -/
  | enumeration
  deriving DecidableEq, Repr

/-- What was to be done to an attribute. -/
inductive Change where
  | assignment
  | deletion
  deriving DecidableEq, Repr

inductive Failure where
  /-- A node is neither a group nor verifiable. -/
  | unrecognizedNode (node : Value)
  | leafValueNotBoolean (typeName : String)
  | traceNotBoolean (typeName : String)
  | invalidConnective (shown : String)
  | invalidStrategy (shown : String)
  /-- A value names no member of an enumeration. -/
  | noMember (shown : String) (enumeration : LibraryClass)
  | notIterable (typeName : String)
  | notCallable (typeName : String)
  | unhashable (typeName : String)
  | unexpectedKeyword (constructor : LibraryClass) (keyword : String)
  /-- A keyword names the object that is being made. -/
  | repeatedArgument (constructor : LibraryClass) (keyword : String)
  | missingArgument (function parameter : String)
  | notReplaceable
  | missingAttribute (owner : Owner) (name : String)
  /-- An attribute that was to be deleted is not there. -/
  | nothingToDelete (name : String)
  | readOnlyAttribute (typeName name : String)
  /-- An attribute that is computed was to be changed. -/
  | computedAttribute (typeName name : String)
  /-- A property that can be read only was to be changed. -/
  | noAccessor (className name : String) (change : Change)
  /-- What a member of an enumeration is known by was to be changed. -/
  | memberProperty (className name : String) (change : Change)
  | memberAssignment (name : String)
  | memberDeletion (className name : String)
  /-- The class of an object was to be something else than a class. -/
  | classNotClass (typeName : String)
  | classDeletion
  /-- The class of an object cannot be changed, as its type is built in. -/
  | classFixed
  /-- Objects of the one class cannot become objects of the other. -/
  | classLayout (new old : String)
  /-- The attributes of an object were to be something else than a dictionary. -/
  | attributesNotDict (typeName : String)
  | frozenAssignment (field : String)
  | frozenDeletion (field : String)
  | indexOutOfRange
  /-- A name that nothing was defined under. -/
  | unknownName (name : Text)
  | negativeLength
  /-- An integer has too many digits to be written. -/
  | integerTooLong
  /-- An integer literal has too many digits to be read. -/
  | literalTooLong (digits : Nat)
  | notMultipliable (typeName : String)
  /-- A failure that a verifier, a property or a truth value was made to raise. -/
  | raised (kind message : String)
  | stackExhausted
  | malformedJson (e : Json.Error)
  | malformedYaml
  /-- A scalar that is no integer in the base that it calls for. -/
  | noInteger (base : Nat) (scalar : Text)
  /-- A scalar that is no double. -/
  | noDouble (scalar : Text)
  | noBoolean (scalar : Text)
  | noTimestamp
  /-- A scalar tagged as a number has no character, or none but its sign. -/
  | emptyNumber
  /-- A mapping stands where the text of a timestamp is needed. -/
  | timestampNotText
  | impossibleDate (fault : DateFault)
  /-- An offset from universal time, in minutes, reaches a whole day. -/
  | offsetTooGreat (minutes : Int)
  /-- The escape of a code point beyond the last one. -/
  | noCodePoint (number : Nat)
  /-- A digit of a number in base sixty has a weight beyond the greatest double. -/
  | weightTooGreat
  /-- A length or a number of repetitions cannot be counted. -/
  | countTooGreat
  | outOfMemory
  | undecodable (e : Utf8.Error)
  | cannotOpen (fault : OpenFault) (path : Text)
  | embeddedNull
  | unsupportedFormat (suffix : Text)
  | notMapping (typeName : String)

/-- Numbers from here on do not fit a signed word of 32 bits. -/
def wordLimit : Nat := Nat.pow 2 31

/-- Lengths and numbers of repetitions from here on cannot be counted. -/
def countLimit : Nat := Nat.pow 2 63

/-- The classes of failures that callers tell apart. -/
inductive Category where
  | unrecognized
  | value
  | type
  | attributes
  | frozen
  | index
  | key
  | overflow
  | memory
  | file (fault : OpenFault)
  | json
  | decoding
  | yaml
  | recursion
  | named (kind : String)
  deriving DecidableEq, Repr

namespace Failure

def category : Failure → Category
  | .unrecognizedNode _ => .unrecognized
  | .leafValueNotBoolean _ | .traceNotBoolean _ | .invalidConnective _ | .invalidStrategy _
  | .noMember _ _ | .negativeLength | .integerTooLong | .literalTooLong _
  | .noInteger _ _ | .noDouble _ | .impossibleDate _ | .offsetTooGreat _ | .embeddedNull
  | .unsupportedFormat _ | .notMapping _ => .value
  | .noCodePoint number => if number < wordLimit then .value else .overflow
  | .notIterable _ | .notCallable _ | .unhashable _ | .unexpectedKeyword _ _
  | .repeatedArgument _ _ | .missingArgument _ _ | .notReplaceable | .notMultipliable _
  | .timestampNotText | .classNotClass _ | .classDeletion | .classFixed | .classLayout _ _
  | .attributesNotDict _ => .type
  | .missingAttribute _ _ | .nothingToDelete _ | .readOnlyAttribute _ _ | .computedAttribute _ _
  | .noAccessor _ _ _ | .memberProperty _ _ _ | .memberAssignment _ | .memberDeletion _ _
  | .noTimestamp => .attributes
  | .frozenAssignment _ | .frozenDeletion _ => .frozen
  | .indexOutOfRange | .emptyNumber => .index
  | .unknownName _ | .noBoolean _ => .key
  | .countTooGreat | .weightTooGreat => .overflow
  | .outOfMemory => .memory
  | .raised kind _ => .named kind
  | .stackExhausted => .recursion
  | .malformedJson _ => .json
  | .malformedYaml => .yaml
  | .undecodable _ => .decoding
  | .cannotOpen fault _ => .file fault

end Failure

/-- A list of words between square brackets, each in quotes. -/
def quotedWords (words : List String) : String :=
  "[" ++ ", ".intercalate (words.map fun w ↦ (Text.ofString w).quoted) ++ "]"

def OpenFault.phrase : OpenFault → String
  | .missing => "[Errno 2] No such file or directory"
  | .isDirectory => "[Errno 21] Is a directory"
  | .notDirectory => "[Errno 20] Not a directory"
  | .nameTooLong => "[Errno 36] File name too long"
  | .denied => "[Errno 13] Permission denied"

/-- How a missing attribute is reported. -/
def Owner.lacking (name : String) : Owner → String
  | .object className => s!"'{className}' object has no attribute '{name}'"
  | .cls className => s!"type object '{className}' has no attribute '{name}'"
  | .enumeration => name

def Utf8.Error.message (e : Utf8.Error) : String :=
  let octets := if e.further == 0 then
      s!"byte 0x{hexadecimal 2 e.first.toNat} in position {e.position}"
    else
      s!"bytes in position {e.position}-{e.position + e.further}"
  s!"'utf-8' codec can't decode {octets}: {e.reason.phrase}"

/-- The failure of a node that cannot be evaluated, by the name of its type. -/
def unrecognizedMessage (typeName : String) : String :=
  s!"Unrecognized condition node of type {typeName}: " ++
    "expected a CompositeCondition or an object with a callable verify()"

/-- The number of characters that are quoted of a scalar that is no integer. -/
def quotationLimit : Nat := 200

/-- The hint on how long integers may be. -/
def digitLimitHint : String :=
  "use sys.set_int_max_str_digits() to increase the limit"

namespace Failure

/-- The wording of a failure. -/
def message : Failure → String
  | .unrecognizedNode node => unrecognizedMessage node.typeName
  | .leafValueNotBoolean typeName => s!"Leaf value must be a boolean, got {typeName}"
  | .traceNotBoolean typeName => s!"trace must be a boolean, got {typeName}"
  | .invalidConnective shown =>
    s!"Invalid composite condition type: {shown}. Must be one of " ++
      quotedWords (Connective.all.map Connective.word)
  | .invalidStrategy shown =>
    s!"Invalid evaluation strategy: {shown}. Must be one of " ++
      quotedWords (Strategy.all.map Strategy.word)
  | .noMember shown enumeration => s!"{shown} is not a valid {enumeration.name}"
  | .notIterable typeName => s!"'{typeName}' object is not iterable"
  | .notCallable typeName => s!"'{typeName}' object is not callable"
  | .unhashable typeName => s!"unhashable type: '{typeName}'"
  | .unexpectedKeyword constructor keyword =>
    s!"{constructor.name}.__init__() got an unexpected keyword argument '{keyword}'"
  | .repeatedArgument constructor keyword =>
    s!"{constructor.name}.__init__() got multiple values for argument '{keyword}'"
  | .missingArgument function parameter =>
    s!"{function}() missing 1 required positional argument: '{parameter}'"
  | .notReplaceable => "replace() should be called on dataclass instances"
  | .missingAttribute owner name => owner.lacking name
  | .nothingToDelete name => name
  | .readOnlyAttribute typeName name =>
    s!"'{typeName}' object attribute '{name}' is read-only"
  | .computedAttribute typeName name =>
    s!"attribute '{name}' of '{typeName}' objects is not writable"
  | .noAccessor className name .assignment =>
    s!"property '{name}' of '{className}' object has no setter"
  | .noAccessor className name .deletion =>
    s!"property '{name}' of '{className}' object has no deleter"
  | .memberProperty className name .assignment =>
    s!"<enum '{className}'> cannot set attribute '{name}'"
  | .memberProperty className name .deletion =>
    s!"<enum '{className}'> cannot delete attribute '{name}'"
  | .memberAssignment name => s!"cannot reassign member '{name}'"
  | .memberDeletion className name => s!"'{className}' cannot delete member '{name}'."
  | .classNotClass typeName => s!"__class__ must be set to a class, not '{typeName}' object"
  | .classDeletion => "can't delete __class__ attribute"
  | .classFixed =>
    "__class__ assignment only supported for mutable types or ModuleType subclasses"
  | .classLayout new old =>
    s!"__class__ assignment: '{new}' object layout differs from '{old}'"
  | .attributesNotDict typeName =>
    s!"__dict__ must be set to a dictionary, not a '{typeName}'"
  | .frozenAssignment field => s!"cannot assign to field '{field}'"
  | .frozenDeletion field => s!"cannot delete field '{field}'"
  | .indexOutOfRange => "tuple index out of range"
  | .unknownName name => name.quoted
  | .negativeLength => "__len__() should return >= 0"
  | .integerTooLong =>
    s!"Exceeds the limit (4300 digits) for integer string conversion; {digitLimitHint}"
  | .literalTooLong digits =>
    "Exceeds the limit (4300 digits) for integer string conversion: " ++
      s!"value has {digits} digits; {digitLimitHint}"
  | .notMultipliable typeName => s!"can't multiply sequence by non-int of type '{typeName}'"
  | .raised kind text => if kind = "KeyError" then (Text.ofString text).quoted else text
  | .stackExhausted => "maximum recursion depth exceeded"
  | .malformedJson e => e.message
  | .malformedYaml => "malformed YAML"
  | .noInteger base scalar =>
    s!"invalid literal for int() with base {base}: " ++
      String.ofList (scalar.quoted.toList.take quotationLimit)
  | .noDouble scalar => s!"could not convert string to float: {scalar.quoted}"
  | .noBoolean scalar => scalar.quoted
  | .noTimestamp => "'NoneType' object has no attribute 'groupdict'"
  | .emptyNumber => "string index out of range"
  | .timestampNotText => "expected string or bytes-like object, got 'list'"
  | .impossibleDate fault => fault.phrase
  | .offsetTooGreat minutes =>
    "offset must be a timedelta strictly between -timedelta(hours=24) and timedelta(hours=24), " ++
      s!"not {spanNotation minutes}."
  | .noCodePoint number =>
    if number < wordLimit then "chr() arg not in range(0x110000)"
    else "Python int too large to convert to C int"
  | .weightTooGreat => "int too large to convert to float"
  | .countTooGreat => "cannot fit 'int' into an index-sized integer"
  | .outOfMemory => ""
  | .undecodable e => e.message
  | .cannotOpen fault path => s!"{fault.phrase}: {path.quoted}"
  | .embeddedNull => "embedded null byte"
  | .unsupportedFormat suffix =>
    s!"Unsupported file format: {suffix.toString}. Use .json, .yaml, or .yml"
  | .notMapping typeName => s!"Config file must contain a mapping, got {typeName}"

end Failure

end ShortCircuit
