import ShortCircuit.Decimal.Binary
import ShortCircuit.Value.Basic

/-!
# The order of a set

A set keeps its numbers in slots, and shows them slot by slot. The value of a number says which
slot it asks for; if that one is taken, nearby slots and then distant ones are tried. Nothing is
known about the slots of other items: a set that has any shows its items in the order in which they
were added.
-/

namespace ShortCircuit

namespace SetOrder

/-- Numbers that are equal modulo this prime ask for the same slot. -/
def modulus : Nat := Nat.pow 2 61 - 1

/-- The number of bits that a doubling goes around in. -/
def period : Int := 61

/-- The key of a residue with its sign. There is no key `-1`. -/
def signedKey (negative : Bool) (residue : Nat) : Int :=
  if negative then (if residue = 1 then -2 else -residue) else residue

/-- The key of an infinity. -/
def infinityKey : Nat := 314159

/-- The key of a number. Equal numbers of different types have the same key. -/
def key? : Value → Option Int
  | .bool b => some b.toInt
  | .int n => some (signedKey (n < 0) (n.natAbs % modulus))
  | .float _ x => match Double.ofFloat x with
    | .nan => none
    | .infinity negative => some (signedKey negative infinityKey)
    | .finite b =>
      let doublings := (b.exponent.emod period).toNat
      some (signedKey b.negative (b.mantissa * Nat.pow 2 doublings % modulus))
  | _ => none

/-- The number of slots of a set to which a number of items has been added at once. -/
def slotCount (items : Nat) : Nat :=
  if items ≤ 4 then 8 else Nat.pow 2 (Nat.log2 (2 * items) + 1)

/-- The number of slots that are tried behind one that is taken. -/
def reach (slots slot : Nat) : Nat := if slot + 9 < slots then 9 else 0

/-- The first slot that is free, from the given one on; `rest` is what of the key has not been made
use of. -/
def seek (slots : Nat) (taken : List Nat) : (fuel : Nat) → (slot rest : Nat) → Nat
  | 0, slot, _ => slot
  | fuel + 1, slot, rest =>
    match (List.range (reach slots slot + 1)).find? fun i ↦ !taken.contains (slot + i) with
    | some i => slot + i
    | none => seek slots taken fuel ((slot * 5 + 1 + rest / 32) % slots) (rest / 32)

/-- The slot for a key. -/
def slotFor (slots : Nat) (taken : List Nat) (key : Int) : Nat :=
  let word := (key.emod (Nat.pow 2 64 : Nat)).toNat
  seek slots taken (slots + 13) (word % slots) word

/-- Adds an item to those that have their slots. -/
def place (slots : Nat) (placed : List (Nat × Value)) (item : Int × Value) : List (Nat × Value) :=
  (slotFor slots (placed.map Prod.fst) item.1, item.2) :: placed

/-- The items of a set, in the order in which it shows them. -/
def arrange (items : List Value) : List Value :=
  match items.mapM fun v ↦ (key? v).map fun k ↦ (k, v) with
  | none => items
  | some keyed =>
    let placed := keyed.foldl (place (slotCount items.length)) []
    (placed.mergeSort fun a b ↦ a.1 ≤ b.1).map Prod.snd

end SetOrder

end ShortCircuit
