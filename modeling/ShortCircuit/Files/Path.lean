import ShortCircuit.Text.LowerCase

/-!
# Paths

A path is read into its parts; empty parts and parts that stand for the directory itself are
dropped. The suffix of a path is what follows from the last point of its last part on, unless that
point is the first or the last character.
-/

namespace ShortCircuit

/-- A path: the slashes that make it absolute, at most two, and its parts. -/
structure Path where
  root : Text
  parts : List Text
  deriving DecidableEq, Repr

namespace Path

def slash : CodePoint := .ofChar '/'

def point : CodePoint := .ofChar '.'

/-- The parts between slashes, from the part `part` on that has been read backwards. -/
def partsAfter (part : Text) : Text → List Text
  | [] => [part.reverse]
  | p :: rest => if p = slash then part.reverse :: partsAfter [] rest else partsAfter (p :: part) rest

/-- Whether a part of a written path names something below or above. -/
def isProper (part : Text) : Bool := !part.isEmpty && part != [point]

/-- Reads a path. Two slashes at its start, and no more, are kept as two. -/
def ofText (t : Text) : Path :=
  let slashes := (t.takeWhile fun p ↦ p = slash).length
  { root := List.replicate (if slashes = 2 then 2 else min slashes 1) slash
    parts := (partsAfter [] t).filter isProper }

/-- The path as it is shown. -/
def toText (p : Path) : Text :=
  if p.root.isEmpty && p.parts.isEmpty then [point]
  else p.root ++ (p.parts.intersperse [slash]).flatten

/-- Whether the path holds the character that ends a name for the operating system. -/
def hasNull (p : Path) : Bool := p.toText.any fun c ↦ c.value = 0

/-- The last part. -/
def name (p : Path) : Text := p.parts.getLastD []

/-- The suffix of a name, empty if it has none. -/
def suffixOfName (name : Text) : Text :=
  let tail := (name.reverse.takeWhile fun p ↦ p ≠ point).reverse
  let stem := name.length - (tail.length + 1)
  if 0 < stem && !tail.isEmpty then point :: tail else []

/-- The suffix of the path in lower case. -/
def suffix (p : Path) : Text := (suffixOfName p.name).toLower

end Path

end ShortCircuit
