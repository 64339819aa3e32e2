import ShortCircuit.Decimal.Reading
import ShortCircuit.Yaml.Cursor
import ShortCircuit.Yaml.Token

/-!
# Anchors, tags and directives

The tokens that say something about a node or a document. Each must be followed by a space or by
the end of its line; the name of an anchor may also be followed by some indicators.
-/

namespace ShortCircuit.Yaml

/-- What one token is read as, with the place behind it. -/
abbrev Reading (α : Type) := Except Failure (α × Cursor)

/-- Reads a word of at least one character. -/
def word (c : Cursor) : Except Failure (String × Cursor) :=
  let name := c.rest.takeWhile isWordChar
  if name.isEmpty then .error c.fault else .ok (String.ofList name, c.skip name.length)

/-- The indicators that may stand right behind the name of an anchor. -/
def nameEnds : List Char := ['?', ':', ',', ']', '\x7d', '%', '@', '\x60']

/-- Reads the name of an anchor or alias, whose indicator has just been read. -/
def anchorName (c : Cursor) : Except Failure (String × Cursor) := do
  let (name, c) ← word c
  if endsWord c.peek || c.peek.any nameEnds.contains then .ok (name, c)
  else .error c.fault

/-! ## Tags -/

/-- Whether a character may stand in a tag as it is, or escapes octets. -/
def isTagChar (c : Char) : Bool := c.isAlphanum || "-;/?:@&=+$,_.!~*'()[]%".toList.contains c

/-- The octets that are escaped one after the other, each as a percent sign and two hexadecimal
digits. -/
def escapedOctets : List Char → List UInt8
  | '%' :: a :: b :: rest =>
    match Decimal.hexDigit? a, Decimal.hexDigit? b with
    | some high, some low => (16 * high + low).toUInt8 :: escapedOctets rest
    | _, _ => []
  | _ => []

/-- Reads characters whose octets are escaped. -/
def escapedChars (c : Cursor) : Except Failure (List Char × Cursor) :=
  let octets := escapedOctets c.rest
  let c := c.skip (3 * octets.length)
  if c.sees '%' then .error (c.next.skipWhile fun ch ↦ (Decimal.hexDigit? ch).isSome).fault
  else match Utf8.decode octets with
    | .ok cs => .ok (cs, c)
    | .error _ => .error c.fault

/-- Reads the text of a tag, or of what a handle stands for, after the characters `before` given
backwards. -/
def tagTextAfter (before : List Char) : (fuel : Nat) → Cursor → Except Failure (List Char × Cursor)
  | 0, c => .ok (before, c)
  | fuel + 1, c =>
    match c.peek with
    | some '%' => do
      let (cs, c) ← escapedChars c
      tagTextAfter (cs.reverse ++ before) fuel c
    | some ch =>
      if isTagChar ch then tagTextAfter (ch :: before) fuel c.next else .ok (before, c)
    | none => .ok (before, c)

/-- Reads the text of a tag, of at least one character. -/
def tagText (c : Cursor) : Except Failure (String × Cursor) := do
  if c.peek.any isTagChar then
    let (text, c) ← tagTextAfter [] (c.rest.takeWhile isTagChar).length.succ c
    return (String.ofList text.reverse, c)
  else throw c.fault

/-- Reads a handle: an exclamation mark on its own before a space, or a word between two of
them. -/
def tagHandle (c : Cursor) : Except Failure (String × Cursor) :=
  match c.rest with
  | '!' :: rest =>
    if rest.head? == some ' ' then .ok ("!", c.next)
    else
      let name := rest.takeWhile isWordChar
      let c := c.skip (1 + name.length)
      if c.sees '!' then .ok (String.ofList ('!' :: name ++ ['!']), c.next)
      else .error c.fault
  | _ => .error c.fault

/-- Whether a second exclamation mark follows the first one before the next space. -/
def hasHandle (c : Cursor) : Except Failure Bool :=
  let c := c.next.skipWhile fun ch ↦ ch != '!' && !endsProperty (some ch)
  match c.cutOff? with
  | some e => .error e
  | none => .ok (c.sees '!')

/-- Reads the parts of a tag: the text between angle brackets, nothing, or a handle and a
suffix. -/
def tagParts (c : Cursor) : Except Failure (WrittenTag × Cursor) := do
  match c.peekAt 1 with
  | some '<' =>
    let (suffix, c) ← tagText (c.skip 2)
    if c.sees '>' then return (⟨none, suffix⟩, c.next) else throw c.fault
  | second =>
    if endsWord second then return (⟨none, "!"⟩, c.next)
    else if ← hasHandle c then
      let (handle, c) ← tagHandle c
      let (suffix, c) ← tagText c
      return (⟨some handle, suffix⟩, c)
    else
      let (suffix, c) ← tagText c.next
      return (⟨some "!", suffix⟩, c)

/-- Reads a tag. -/
def writtenTag (c : Cursor) : Except Failure (WrittenTag × Cursor) := do
  let (t, c) ← tagParts c
  if endsProperty c.peek then return (t, c) else throw c.fault

/-! ## Directives -/

/-- Reads a number of at least one digit. -/
def versionNumber (c : Cursor) : Except Failure (Nat × Cursor) :=
  let digits := c.rest.takeWhile Char.isDigit
  let after := c.skip digits.length
  if digits.isEmpty then .error c.fault
  else if Decimal.digitLimit < digits.length then
    .error (after.cutOff?.getD (.literalTooLong digits.length))
  else .ok (Decimal.ofDigits digits, after)

/-- Reads the version that a text is written for. -/
def versionDirective (c : Cursor) : Except Failure (Directive × Cursor) := do
  let (major, c) ← versionNumber c.skipSpaces
  if !c.sees '.' then throw c.fault
  let (_, c) ← versionNumber c.next
  if endsProperty c.peek then return (.version major, c) else throw c.fault

/-- Reads what a handle stands for. -/
def handleDirective (c : Cursor) : Except Failure (Directive × Cursor) := do
  let (name, c) ← tagHandle c.skipSpaces
  if !c.sees ' ' then throw c.fault
  let (stem, c) ← tagText c.skipSpaces
  if endsProperty c.peek then return (.handle name stem, c) else throw c.fault

/-- Reads a directive up to the end of its line. -/
def directive (c : Cursor) : Except Failure (Directive × Cursor) := do
  let (name, c) ← word c.next
  if !endsProperty c.peek then throw c.fault
  let (d, c) ← match name with
    | "YAML" => versionDirective c
    | "TAG" => handleDirective c
    | _ => pure (.other, c.skipLine)
  return (d, ← c.finishLine)

end ShortCircuit.Yaml
