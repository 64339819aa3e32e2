import ShortCircuit.Value.Basic

/-!
# What types provide

An attribute of a value may be provided by its type. What is provided under a name decides whether
an attribute of that name can be set or deleted: what is computed cannot be touched, and anything
else gives way to attributes of the object's own, if the object can have any.
-/

namespace ShortCircuit

/-- What the type of a value has under a name. -/
inductive Provision where
  /-- The class of the object. -/
  | ownClass
  /-- All attributes that the object has of its own. -/
  | ownAttributes
  /-- An attribute that the type named computes. -/
  | computed (typeName : String)
  /-- A property that can be read only. -/
  | property (className : String)
  /-- A property of the members of an enumeration. -/
  | memberProperty (className : String)
  | plain
  | nothing
  deriving DecidableEq, Repr

namespace Provision

/-! ## Names -/

/-- What every type has. -/
def commonNames : List String :=
  ["__delattr__", "__dir__", "__doc__", "__eq__", "__format__", "__ge__", "__getattribute__",
    "__getstate__", "__gt__", "__hash__", "__init__", "__init_subclass__", "__le__", "__lt__",
    "__ne__", "__new__", "__reduce__", "__reduce_ex__", "__repr__", "__setattr__", "__sizeof__",
    "__str__", "__subclasshook__"]

/-- What integers and doubles have in common. -/
def numberNames : List String :=
  ["__abs__", "__add__", "__bool__", "__ceil__", "__divmod__", "__float__", "__floor__",
    "__floordiv__", "__getnewargs__", "__int__", "__mod__", "__mul__", "__neg__", "__pos__",
    "__pow__", "__radd__", "__rdivmod__", "__rfloordiv__", "__rmod__", "__rmul__", "__round__",
    "__rpow__", "__rsub__", "__rtruediv__", "__sub__", "__truediv__", "__trunc__",
    "as_integer_ratio", "conjugate"]

def intNames : List String :=
  ["__and__", "__index__", "__invert__", "__lshift__", "__or__", "__rand__", "__rlshift__",
    "__ror__", "__rrshift__", "__rshift__", "__rxor__", "__xor__", "bit_count", "bit_length",
    "from_bytes", "to_bytes"]

def floatNames : List String := ["__getformat__", "fromhex", "hex", "is_integer"]

/-- What everything with items has. -/
def containerNames : List String := ["__contains__", "__getitem__", "__iter__", "__len__"]

/-- What can be done with sequences that cannot change. -/
def sequenceNames : List String := ["__add__", "__getnewargs__", "__mul__", "__rmul__"]

/-- What texts and octets have in common. -/
def stringNames : List String :=
  ["__mod__", "__rmod__", "capitalize", "center", "count", "endswith", "expandtabs", "find",
    "index", "isalnum", "isalpha", "isascii", "isdigit", "islower", "isspace", "istitle",
    "isupper", "join", "ljust", "lower", "lstrip", "maketrans", "partition", "removeprefix",
    "removesuffix", "replace", "rfind", "rindex", "rjust", "rpartition", "rsplit", "rstrip",
    "split", "splitlines", "startswith", "strip", "swapcase", "title", "translate", "upper",
    "zfill"]

def textNames : List String :=
  ["casefold", "encode", "format", "format_map", "isdecimal", "isidentifier", "isnumeric",
    "isprintable"]

def octetNames : List String := ["__bytes__", "decode", "fromhex", "hex"]

def listNames : List String :=
  ["__add__", "__class_getitem__", "__delitem__", "__iadd__", "__imul__", "__mul__",
    "__reversed__", "__rmul__", "__setitem__", "append", "clear", "copy", "count", "extend",
    "index", "insert", "pop", "remove", "reverse", "sort"]

def tupleNames : List String := ["__class_getitem__", "count", "index"]

def dictNames : List String :=
  ["__class_getitem__", "__delitem__", "__ior__", "__or__", "__reversed__", "__ror__",
    "__setitem__", "clear", "copy", "fromkeys", "get", "items", "keys", "pop", "popitem",
    "setdefault", "update", "values"]

/-- What evaluators have from their class. -/
def evaluatorNames : List String :=
  ["__module__", "__slots__", "_evaluate_iterative", "_evaluate_recursive", "_trace",
    "_verify_leaf", "evaluate"]

/-! ## Types -/

/-- What a type has that provides plain attributes and computed ones. -/
def ofNames (typeName : String) (computed plain : List (List String)) (name : String) :
    Provision :=
  if name = "__class__" then .ownClass
  else if computed.any (·.contains name) then .computed typeName
  else if (commonNames :: plain).any (·.contains name) then .plain
  else .nothing

/-- What the class of an object has that can have attributes of its own; the class named is the one
that first allows for them. -/
def ofObject (className name : String) : Provision :=
  if name = "__class__" then .ownClass
  else if name = "__dict__" then .ownAttributes
  else if name = "__weakref__" then .computed className
  else .plain

/-- What a member of an enumeration has. -/
def ofMember (c : LibraryClass) (constants : List String) (name : String) : Provision :=
  if name = "name" || name = "value" then .memberProperty "Enum"
  else if constants.contains name then .memberProperty c.name
  else ofObject c.name name

def ofEvaluator (name : String) : Provision :=
  ofNames LibraryClass.evaluator.name [] [evaluatorNames] name

end Provision

namespace Value

/-- What the type of the value has under a name. -/
def provision (v : Value) (name : String) : Provision :=
  match v with
  | .nothing => .ofNames v.typeName [] [["__bool__"]] name
  | .bool _ | .int _ =>
    .ofNames "int" [["real", "imag", "numerator", "denominator"]]
      [Provision.numberNames, Provision.intNames] name
  | .float _ _ =>
    .ofNames v.typeName [["real", "imag"]] [Provision.numberNames, Provision.floatNames] name
  | .text _ =>
    .ofNames v.typeName [] [Provision.containerNames, Provision.sequenceNames,
      Provision.stringNames, Provision.textNames] name
  | .bytes _ =>
    .ofNames v.typeName [] [Provision.containerNames, Provision.sequenceNames,
      Provision.stringNames, Provision.octetNames] name
  | .list _ => .ofNames v.typeName [] [Provision.containerNames, Provision.listNames] name
  | .tuple _ =>
    .ofNames v.typeName [] [Provision.containerNames, Provision.sequenceNames,
      Provision.tupleNames] name
  | .dict _ => .ofNames v.typeName [] [Provision.containerNames, Provision.dictNames] name
  | .set _ | .date _ | .moment _ | .inside _ => .ofNames v.typeName [] [] name
  | .connective _ => .ofMember .connective (Connective.all.map Connective.constant) name
  | .strategy _ => .ofMember .strategy (Strategy.all.map Strategy.constant) name
  | .condition _ => .ofObject LibraryClass.group.name name
  | .leaf _ => .ofObject LibraryClass.leaf.name name
  | .settings _ _ => .ofObject LibraryClass.settings.name name
  | .witness _ _ | .refusal _ _ => .ofObject v.typeName name
  | .duck d => match d.verify with
    | .failing _ _ =>
      if name = "verify" then .property v.typeName else .ofObject v.typeName name
    | _ => .ofObject v.typeName name
  | .classObject _ =>
    if name = "__class__" then .ownClass
    else if name = "__dict__" then .computed "type"
    else .plain

end Value

end ShortCircuit
