import ShortCircuit.Failure
import ShortCircuit.Files.Path
import ShortCircuit.Text.Utf8

/-!
# Files

The files and directories below the current directory, and what opening a path among them gives.
Of what lies outside the current directory only the directories above it are known.
-/

namespace ShortCircuit

/-- What a tree of files holds under a path. -/
inductive Entry where
  | file (content : List UInt8)
  | directory
  deriving Repr

/-- The files and directories below the current directory, by the parts of their paths. Directories
that lead to an entry need no entry of their own, and a later entry replaces an earlier one. -/
abbrev Tree := List (List Text × Entry)

/-- A place that has been reached: some levels above the current directory, or below it. -/
inductive Place where
  | above (levels : Nat)
  | below (parts : List Text)
  deriving DecidableEq, Repr

/-- The greatest number of octets in a part of a path. -/
def partLimit : Nat := 255

/-- The greatest number of octets in a path. -/
def pathLimit : Nat := 4095

/-- The number of octets that a text takes in UTF-8. -/
def Text.octets (t : Text) : Nat := t.foldl (fun n p ↦ n + p.toChar.utf8Size) 0

namespace Tree

/-- What stands at a place below the current directory, if anything. -/
def find? (tree : Tree) (parts : List Text) : Option Entry :=
  match tree.reverse.find? fun e ↦ e.1 = parts with
  | some e => some e.2
  | none => if parts.isEmpty || tree.any fun e ↦ parts.isPrefixOf e.1 then some .directory else none

/-- What stands at a place. -/
def entry? (tree : Tree) : Place → Option Entry
  | .above _ => some .directory
  | .below parts => tree.find? parts

/-- The place one part further, where the place reached so far holds a directory. -/
def enter (tree : Tree) (place : Place) (part : Text) : Except OpenFault Place :=
  if part = [Path.point, Path.point] then
    match place with
    | .above levels => .ok (.above (levels + 1))
    | .below [] => .ok (.above 1)
    | .below parts => .ok (.below parts.dropLast)
  else if partLimit < part.octets then .error .nameTooLong
  else match place with
    | .above _ => .error .missing
    | .below parts =>
      let next := parts ++ [part]
      if (tree.find? next).isSome then .ok (.below next) else .error .missing

/-- Follows the parts of a path. Only directories can be entered. -/
def walk (tree : Tree) : Place → List Text → Except OpenFault Place
  | place, [] => .ok place
  | place, part :: rest =>
    match tree.entry? place with
    | some (.file _) => .error .notDirectory
    | _ => do walk tree (← tree.enter place part) rest

/-- The content of the file under a path. -/
def content (tree : Tree) (path : Path) : Except OpenFault (List UInt8) :=
  if pathLimit < path.toText.octets then .error .nameTooLong
  else do
    let start : Place := if path.root.isEmpty then .below [] else .above 1
    match tree.entry? (← tree.walk start path.parts) with
    | some (.file octets) => .ok octets
    | _ => .error .isDirectory

/-- Opens a path and gives the octets of its file. -/
def read (tree : Tree) (path : Path) : Except Failure (List UInt8) :=
  if path.hasNull then .error .embeddedNull
  else match tree.content path with
    | .ok octets => .ok octets
    | .error fault => .error (.cannotOpen fault path.toText)

end Tree

end ShortCircuit
