/-!
# Line ends

A text file may end its lines in one of three ways; what is read from it has newlines only.
-/

namespace ShortCircuit.Lines

/-- Replaces each carriage return, together with a newline that follows it, by a newline. The
characters read before are given backwards. -/
def normalizeAfter (before : List Char) : List Char → List Char
  | [] => before.reverse
  | '\r' :: '\n' :: rest => normalizeAfter ('\n' :: before) rest
  | '\r' :: rest => normalizeAfter ('\n' :: before) rest
  | c :: rest => normalizeAfter (c :: before) rest

/-- The text with newlines as its only line ends. -/
def normalize (cs : List Char) : List Char := normalizeAfter [] cs

/-- The next part of a text with newlines as its only line ends. A carriage return at the end of a
part is held back for the part behind it, unless the part is the last one. -/
def normalizePart (isHeld isLast : Bool) (cs : List Char) : List Char × Bool :=
  if cs.isEmpty && !isLast then ([], isHeld)
  else
    let cs := if isHeld then '\r' :: cs else cs
    if !isLast && cs.getLast? == some '\r' then (normalize cs.dropLast, true)
    else (normalize cs, false)

end ShortCircuit.Lines
