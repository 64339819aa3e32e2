import ShortCircuit.Proofs.Evaluation.Outline
import ShortCircuit.Proofs.Reading.Ends
import ShortCircuit.Proofs.Session.Purity
import ShortCircuit.Value.Hash

/-!
# Trees that are equal

A tree of plain leaves and plain groups is compared and hashed by its outline: its shape, its
connectives and the values that its leaves store. The two ways to compare groups agree because one
identity stands for one group; `Value.Coherent` says so of two values, and the ledger of a session
makes sure of it. Both computations fail only if there is too little room for the depth of a tree.
-/

namespace ShortCircuit

/-- The failure for lack of room, of what takes the given room for every level of a depth. -/
def LacksRoom (perLevel depth room : Nat) (e : Failure) : Prop :=
  e = .stackExhausted ∧ room < perLevel * depth

namespace LacksRoom

variable {perLevel depth depth' room : Nat}

theorem deeper (h : depth ≤ depth') :
    ∀ e, LacksRoom perLevel depth room e → LacksRoom perLevel depth' room e :=
  fun _ ⟨he, hroom⟩ ↦ ⟨he, Nat.lt_of_lt_of_le hroom (Nat.mul_le_mul_left perLevel h)⟩

theorem above : ∀ e, LacksRoom perLevel depth (room - perLevel) e →
    LacksRoom perLevel (1 + depth) room e := by
  refine fun _ ⟨he, hroom⟩ ↦ ⟨he, ?_⟩
  rw [Nat.mul_add, Nat.mul_one]
  omega

theorem of_lt (h : room < perLevel) : LacksRoom perLevel (1 + depth) room .stackExhausted :=
  ⟨rfl, Nat.lt_of_lt_of_le h (Nat.le_mul_of_pos_right perLevel (by omega))⟩

end LacksRoom

/-- There is no failure for lack of room if there is enough of it. -/
theorem Ends.exists_ok {α : Type} {perLevel depth room : Nat} {Q : α → Prop} {x : Except Failure α}
    (hx : Ends (LacksRoom perLevel depth room) Q x) (hroom : perLevel * depth ≤ room) :
    ∃ a, x = .ok a := by
  cases x with
  | ok a => exact ⟨a, rfl⟩
  | error e => exact absurd hx.2 (Nat.not_lt.mpr hroom)

namespace Value

/-- The value that a leaf stores. It does not matter what this is for anything else. -/
def stored : Value → Bool
  | .leaf l => l.value
  | _ => false

/-- An identity does not stand for one object in the one value and for another in the other. -/
def Coherent (v v' : Value) : Prop :=
  ∀ u u' : Value, u.Occurs v → u'.Occurs v' →
    ∀ i, u.identity? = some i → u'.identity? = some i → u = u'

theorem Coherent.part {v v' x x' : Value} (h : Coherent v v') (hx : x ∈ v.parts)
    (hx' : x' ∈ v'.parts) : Coherent x x' :=
  fun u u' hu hu' ↦ h u u' (.part hx hu) (.part hx' hu')

/-! ## Comparing -/

mutual

/-- Plain trees are equal if they have one outline, and a comparison fails only if there is too
little room for the depth of the first of them. -/
theorem equalConditions_ends : {c c' : Condition Value} → c.IsPlain → c'.IsPlain →
    Coherent (ofCondition c) (ofCondition c') → ∀ room,
      Ends (LacksRoom groupComparisonRoom c.depth room)
        (fun b ↦ b = true ↔ c.outline stored = c'.outline stored) (equalConditions room c c')
  | .atom _, .atom _, hc, hc', _, _ => by
    obtain ⟨l, rfl, hl⟩ := hc
    obtain ⟨l', rfl, hl'⟩ := hc'
    change (l.origin.cls == l'.origin.cls && l.value == l'.value) = true ↔ _
    simp [Condition.outline, stored, hl, hl']
  | .atom _, .group _ _ _, _, _, _, _ => ⟨nofun, nofun⟩
  | .group _ _ _, .atom _, _, _, _, _ => ⟨nofun, nofun⟩
  | .group origin k children, .group origin' k' children', hc, hc', h, room => by
    rw [equalConditions, Condition.depth]
    split
    case isTrue hid =>
      cases h _ _ .refl .refl origin.id rfl (congrArg some hid.symm)
      exact iff_of_true rfl rfl
    split
    case isTrue hroom => exact .of_lt hroom
    split
    case isTrue hlike =>
      obtain ⟨-, rfl⟩ := hlike
      have hchildren := equalChildren_ends hc.2 hc'.2
        (fun x hx x' hx' ↦ h.part (List.mem_map_of_mem hx) (List.mem_map_of_mem hx'))
        (room - groupComparisonRoom)
      refine hchildren.mono LacksRoom.above fun b hb ↦ ?_
      simpa [Condition.outline] using hb
    case isFalse hunlike =>
      have hconnective : k ≠ k' := fun hk ↦ hunlike ⟨hc.1.trans hc'.1.symm, hk⟩
      exact ⟨nofun, fun houtline ↦ absurd (Outline.group.inj houtline).1 hconnective⟩
  termination_by structural c => c

theorem equalChildren_ends : {cs cs' : List (Condition Value)} → Condition.ArePlain cs →
    Condition.ArePlain cs' →
    (∀ c ∈ cs, ∀ c' ∈ cs', Coherent (ofCondition c) (ofCondition c')) → ∀ room,
      Ends (LacksRoom groupComparisonRoom (Condition.depths cs) room)
        (fun b ↦ b = true ↔ Condition.outlines stored cs = Condition.outlines stored cs')
        (equalChildren room cs cs')
  | [], [], _, _, _, _ => iff_of_true rfl rfl
  | [], _ :: _, _, _, _, _ => ⟨nofun, nofun⟩
  | _ :: _, [], _, _, _, _ => ⟨nofun, nofun⟩
  | c :: rest, c' :: rest', hcs, hcs', h, room => by
    have hfirst := equalConditions_ends hcs.1 hcs'.1
      (h c List.mem_cons_self c' List.mem_cons_self) room
    have hrest := equalChildren_ends hcs.2 hcs'.2
      (fun x hx x' hx' ↦ h x (List.mem_cons_of_mem c hx) x' (List.mem_cons_of_mem c' hx')) room
    rw [equalChildren, Condition.depths]
    refine (hfirst.mono (LacksRoom.deeper (Nat.le_max_left ..)) fun _ hb ↦ hb).bind fun b hb ↦ ?_
    split
    case isTrue htrue =>
      refine hrest.mono (LacksRoom.deeper (Nat.le_max_right ..)) fun b' hb' ↦ ?_
      simp [Condition.outlines, hb.mp htrue, hb']
    case isFalse hfalse =>
      refine ⟨nofun, fun houtlines ↦ ?_⟩
      exact absurd (hb.mpr (List.cons.inj houtlines).1) hfalse
  termination_by structural cs => cs

end

/-- Plain trees are compared as trees when they are compared as values. -/
theorem equalWithin_ofCondition {c c' : Condition Value} (hc : c.IsPlain) (hc' : c'.IsPlain)
    (room : Nat) : equalWithin room (ofCondition c) (ofCondition c') = equalConditions room c c' := by
  cases c with
  | atom v =>
    obtain ⟨l, rfl, -⟩ := hc
    cases c' with
    | atom v' => rfl
    | group origin' k' children' => rfl
  | group origin k children =>
    cases c' with
    | atom v' =>
      obtain ⟨l', rfl, -⟩ := hc'
      rfl
    | group origin' k' children' => rfl

section

variable {c c' : Condition Value} (hc : c.IsPlain) (hc' : c'.IsPlain)
  (h : Coherent (ofCondition c) (ofCondition c')) {room : Nat}
include hc hc' h

theorem equalWithin_ends (room : Nat) :
    Ends (LacksRoom groupComparisonRoom c.depth room)
      (fun b ↦ b = true ↔ c.outline stored = c'.outline stored)
      (equalWithin room (ofCondition c) (ofCondition c')) := by
  rw [equalWithin_ofCondition hc hc']
  exact equalConditions_ends hc hc' h room

theorem outline_eq_of_equal
    (hequal : equalWithin room (ofCondition c) (ofCondition c') = .ok true) :
    c.outline stored = c'.outline stored :=
  ((equalWithin_ends hc hc' h room).ok hequal).mp rfl

/-- With room for their depth, trees of one outline are found equal. -/
theorem equal_of_outline_eq (hroom : groupComparisonRoom * c.depth ≤ room)
    (houtline : c.outline stored = c'.outline stored) :
    equalWithin room (ofCondition c) (ofCondition c') = .ok true := by
  have hends := equalWithin_ends hc hc' h room
  obtain ⟨b, hb⟩ := hends.exists_ok hroom
  rw [hb, (hends.ok hb).mpr houtline]

end

/-- Plain trees are compared with the room that there is for comparisons. -/
theorem equals_ofCondition {c c' : Condition Value} (hc : c.IsPlain) :
    (ofCondition c).equals (ofCondition c') =
      equalWithin comparisonRoom (ofCondition c) (ofCondition c') := by
  cases c with
  | atom v =>
    obtain ⟨l, rfl, -⟩ := hc
    rfl
  | group origin k children => rfl

/-! ## Hashing -/

section

variable (H : Hashing)

mutual

/-- A value is hashable if it has a hash. -/
theorem checkHashable_eq (room : Nat) (v : Value) :
    v.checkHashable room = (fun _ ↦ ()) <$> v.hashWithin H room := by
  cases v with
  | tuple items =>
    rw [checkHashable, hashWithin, checkItems_eq room items]
    cases hashItems H room items <;> rfl
  | condition c => exact checkCondition_eq room c
  | _ => rfl
  termination_by structural v

theorem checkItems_eq (room : Nat) : (vs : List Value) →
    checkItems room vs = (fun _ ↦ ()) <$> hashItems H room vs
  | [] => rfl
  | v :: rest => by
    rw [checkItems, hashItems, checkHashable_eq room v, checkItems_eq room rest]
    cases hashWithin H room v with
    | error e => rfl
    | ok n => cases hashItems H room rest <;> rfl
  termination_by structural vs => vs

theorem checkCondition_eq (room : Nat) : (c : Condition Value) →
    checkCondition room c = (fun _ ↦ ()) <$> hashCondition H room c
  | .atom v => checkHashable_eq room v
  | .group _ k children => by
    rw [checkCondition, hashCondition, groupHashRoom, checkConditions_eq (room - 2) children]
    by_cases hroom : room < 2
    · rw [if_pos hroom, if_pos hroom]
      rfl
    · rw [if_neg hroom, if_neg hroom]
      cases hashConditions H (room - 2) children <;> rfl
  termination_by structural c => c

theorem checkConditions_eq (room : Nat) : (cs : List (Condition Value)) →
    checkConditions room cs = (fun _ ↦ ()) <$> hashConditions H room cs
  | [] => rfl
  | c :: rest => by
    rw [checkConditions, hashConditions, checkCondition_eq room c, checkConditions_eq room rest]
    cases hashCondition H room c with
    | error e => rfl
    | ok n => cases hashConditions H room rest <;> rfl
  termination_by structural cs => cs

end

mutual

/-- The hash of a plain tree is one of its outline. -/
theorem hashCondition_eq_of_outline {c c' : Condition Value} (hc : c.IsPlain) (hc' : c'.IsPlain)
    (h : c.outline stored = c'.outline stored) (room : Nat) :
    hashCondition H room c = hashCondition H room c' := by
  cases c with
  | atom v =>
    obtain ⟨l, rfl, -⟩ := hc
    cases c' with
    | atom v' =>
      obtain ⟨l', rfl, -⟩ := hc'
      have hvalue : l.value = l'.value := Outline.leaf.inj h
      change Except.ok (H.tuple [l.value.toInt]) = .ok (H.tuple [l'.value.toInt])
      rw [hvalue]
    | group origin' k' children' => cases h
  | group origin k children =>
    cases c' with
    | atom v' => cases h
    | group origin' k' children' =>
      obtain ⟨rfl, hchildren⟩ := Outline.group.inj h
      rw [hashCondition, hashCondition, hashConditions_eq_of_outlines hc.2 hc'.2 hchildren]
  termination_by structural c

theorem hashConditions_eq_of_outlines {cs cs' : List (Condition Value)}
    (hcs : Condition.ArePlain cs) (hcs' : Condition.ArePlain cs')
    (h : Condition.outlines stored cs = Condition.outlines stored cs') (room : Nat) :
    hashConditions H room cs = hashConditions H room cs' := by
  cases cs with
  | nil =>
    cases cs' with
    | nil => rfl
    | cons c' rest' => cases h
  | cons c rest =>
    cases cs' with
    | nil => cases h
    | cons c' rest' =>
      obtain ⟨hfirst, hrest⟩ := List.cons.inj h
      rw [hashConditions, hashConditions, hashCondition_eq_of_outline hcs.1 hcs'.1 hfirst room,
        hashConditions_eq_of_outlines hcs.2 hcs'.2 hrest room]
  termination_by structural cs

end

mutual

/-- Plain trees are hashable unless there is too little room for their depth. -/
theorem hashCondition_ends : {c : Condition Value} → c.IsPlain → ∀ room,
    FailsWith (LacksRoom groupHashRoom c.depth room) (hashCondition H room c)
  | .atom _, ⟨_, rfl, _⟩, _ => trivial
  | .group _ k children, hc, room => by
    have hchildren := hashConditions_ends hc.2 (room - groupHashRoom)
    rw [hashCondition, Condition.depth]
    split
    case isTrue hroom => exact .of_lt hroom
    case isFalse =>
      exact (hchildren.mono LacksRoom.above fun _ h ↦ h).bind fun _ _ ↦ trivial
  termination_by structural c => c

theorem hashConditions_ends : {cs : List (Condition Value)} → Condition.ArePlain cs → ∀ room,
    FailsWith (LacksRoom groupHashRoom (Condition.depths cs) room) (hashConditions H room cs)
  | [], _, _ => trivial
  | c :: rest, hcs, room => by
    have hfirst := hashCondition_ends hcs.1 room
    have hrest := hashConditions_ends hcs.2 room
    rw [hashConditions, Condition.depths]
    refine (hfirst.mono (LacksRoom.deeper (Nat.le_max_left ..)) fun _ h ↦ h).bind fun _ _ ↦ ?_
    exact (hrest.mono (LacksRoom.deeper (Nat.le_max_right ..)) fun _ h ↦ h).bind fun _ _ ↦ trivial
  termination_by structural cs => cs

end

theorem hashWithin_ofCondition (room : Nat) (c : Condition Value) :
    hashWithin H room (ofCondition c) = hashCondition H room c := by
  cases c with
  | atom v => rw [ofCondition, hashCondition]
  | group origin k children => rfl

end

end Value

end ShortCircuit
