import ShortCircuit.Proofs.Reading.Ends
import ShortCircuit.Value.Equality
import ShortCircuit.Value.Notation

/-!
# Failures of comparing and showing values

Values are compared unless they are nested too deeply. They are shown unless they are nested too
deeply or hold an integer with too many digits.
-/

namespace ShortCircuit.Value

/-! ## Comparing -/

/-- The failure of comparing values. -/
abbrev IsTooDeep (e : Failure) : Prop := e = .stackExhausted

mutual

theorem equalWithin_failsWith (room : Nat) (v v' : Value) :
    FailsWith IsTooDeep (equalWithin room v v') := by
  cases v with
  | list items =>
    cases v' with
    | list items' =>
      rw [equalWithin]
      split
      · rfl
      split
      · trivial
      · exact equalItems_failsWith _ _ _
    | _ => trivial
  | tuple items =>
    cases v' with
    | tuple items' =>
      rw [equalWithin]
      split
      · rfl
      · exact equalItems_failsWith _ _ _
    | _ => trivial
  | set items =>
    cases v' with
    | set items' =>
      rw [equalWithin]
      split
      · trivial
      · exact containsAll_failsWith _ _ _
    | _ => trivial
  | dict entries =>
    cases v' with
    | dict entries' =>
      rw [equalWithin]
      split
      · rfl
      split
      · trivial
      · exact containsEntries_failsWith _ _ _
    | _ => trivial
  | condition c =>
    cases v' with
    | condition c' => exact equalConditions_failsWith room c c'
    | _ => trivial
  | _ => trivial
  termination_by structural v

theorem equalItems_failsWith (room : Nat) (vs vs' : List Value) :
    FailsWith IsTooDeep (equalItems room vs vs') := by
  cases vs with
  | nil => cases vs' <;> trivial
  | cons v rest =>
    cases vs' with
    | nil => trivial
    | cons v' rest' =>
      refine (equalWithin_failsWith room v v').bind fun b _ ↦ ?_
      split
      · exact equalItems_failsWith room rest rest'
      · trivial
  termination_by structural vs

theorem containsAll_failsWith (room : Nat) (vs others : List Value) :
    FailsWith IsTooDeep (containsAll room vs others) := by
  cases vs with
  | nil => trivial
  | cons v rest =>
    refine ((composes_failsWith IsTooDeep).anyM
      (fun v' ↦ equalWithin_failsWith room v v') others).bind fun b _ ↦ ?_
    split
    · exact containsAll_failsWith room rest others
    · trivial
  termination_by structural vs

theorem containsEntries_failsWith (room : Nat) (es others : List (Value × Value)) :
    FailsWith IsTooDeep (containsEntries room es others) := by
  cases es with
  | nil => trivial
  | cons e rest =>
    refine ((composes_failsWith IsTooDeep).anyM
      (fun e' ↦ equalEntry_failsWith room e e') others).bind fun b _ ↦ ?_
    split
    · exact containsEntries_failsWith room rest others
    · trivial
  termination_by structural es

theorem equalEntry_failsWith (room : Nat) (e e' : Value × Value) :
    FailsWith IsTooDeep (equalEntry room e e') := by
  cases e with
  | mk k v =>
    refine (equalWithin_failsWith room k e'.1).bind fun b _ ↦ ?_
    split
    · exact equalWithin_failsWith room v e'.2
    · trivial
  termination_by structural e

theorem equalConditions_failsWith (room : Nat) (c c' : Condition Value) :
    FailsWith IsTooDeep (equalConditions room c c') := by
  cases c with
  | atom v =>
    cases c' with
    | atom v' => exact equalWithin_failsWith room v v'
    | group => trivial
  | group origin connective children =>
    cases c' with
    | atom v' => trivial
    | group origin' connective' children' =>
      rw [equalConditions]
      split
      · trivial
      split
      · rfl
      split
      · exact equalChildren_failsWith _ children children'
      · trivial
  termination_by structural c

theorem equalChildren_failsWith (room : Nat) (cs cs' : List (Condition Value)) :
    FailsWith IsTooDeep (equalChildren room cs cs') := by
  cases cs with
  | nil => cases cs' <;> trivial
  | cons c rest =>
    cases cs' with
    | nil => trivial
    | cons c' rest' =>
      refine (equalConditions_failsWith room c c').bind fun b _ ↦ ?_
      split
      · exact equalChildren_failsWith room rest rest'
      · trivial
  termination_by structural cs

end

/-! ## Showing -/

/-- The failures of showing values. -/
def IsUnshowable : Failure → Prop
  | .integerTooLong | .stackExhausted => True
  | _ => False

mutual

theorem showWithin_failsWith (room : Nat) (v : Value) :
    FailsWith IsUnshowable (showWithin room v) := by
  cases v with
  | int n =>
    rw [showWithin, showInt]
    -- The limit itself does not matter, and it is far too large to be evaluated.
    generalize Nat.pow 10 Decimal.digitLimit = limit
    split <;> trivial
  | list items | tuple items =>
    rw [showWithin]
    split
    · trivial
    · exact (showItems_failsWith _ items).bind fun _ _ ↦ trivial
  | set items =>
    cases items with
    | nil => trivial
    | cons v rest =>
      rw [showWithin]
      · split
        · trivial
        · exact (showItems_failsWith _ (v :: rest)).bind fun _ _ ↦ trivial
      · exact List.cons_ne_nil v rest
  | dict entries =>
    rw [showWithin]
    split
    · trivial
    · exact (showEntries_failsWith _ entries).bind fun _ _ ↦ trivial
  | condition c => exact showCondition_failsWith room c
  | leaf l | settings id s =>
    rw [showWithin]
    split <;> trivial
  | _ => trivial
  termination_by structural v

theorem showItems_failsWith (room : Nat) (vs : List Value) :
    FailsWith IsUnshowable (showItems room vs) := by
  cases vs with
  | nil => trivial
  | cons v rest =>
    refine (showWithin_failsWith room v).bind fun _ _ ↦ ?_
    exact (showItems_failsWith room rest).bind fun _ _ ↦ trivial
  termination_by structural vs

theorem showEntries_failsWith (room : Nat) (es : List (Value × Value)) :
    FailsWith IsUnshowable (showEntries room es) := by
  cases es with
  | nil => trivial
  | cons e rest =>
    refine (showEntry_failsWith room e).bind fun _ _ ↦ ?_
    exact (showEntries_failsWith room rest).bind fun _ _ ↦ trivial
  termination_by structural es

theorem showEntry_failsWith (room : Nat) (e : Value × Value) :
    FailsWith IsUnshowable (showEntry room e) := by
  cases e with
  | mk k v =>
    refine (showWithin_failsWith room k).bind fun _ _ ↦ ?_
    exact (showWithin_failsWith room v).bind fun _ _ ↦ trivial
  termination_by structural e

theorem showCondition_failsWith (room : Nat) (c : Condition Value) :
    FailsWith IsUnshowable (showCondition room c) := by
  cases c with
  | atom v => exact showWithin_failsWith room v
  | group origin connective children =>
    rw [showCondition]
    split
    · trivial
    · exact (showConditions_failsWith _ children).bind fun _ _ ↦ trivial
  termination_by structural c

theorem showConditions_failsWith (room : Nat) (cs : List (Condition Value)) :
    FailsWith IsUnshowable (showConditions room cs) := by
  cases cs with
  | nil => trivial
  | cons c rest =>
    refine (showCondition_failsWith room c).bind fun _ _ ↦ ?_
    exact (showConditions_failsWith room rest).bind fun _ _ ↦ trivial
  termination_by structural cs

end

end ShortCircuit.Value
