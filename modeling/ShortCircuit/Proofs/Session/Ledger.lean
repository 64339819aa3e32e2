import ShortCircuit.Proofs.Session.Retention

/-!
# The objects of a session

Objects are known by their identities. A ledger lists the object that each identity stands for, and
an object is younger than those that it consists of. A ledger only ever grows, so what it lists is
never listed otherwise again. It keeps a store if all objects that occur in the store are listed,
and if attributes have been set or deleted only where that is allowed.
-/

namespace ShortCircuit

/-- The values that a verifier holds. -/
def Verifier.parts (v : Verifier Value) : List Value :=
  match v.action with
  | .returns held | .misplaced held => [held]
  | .sequence _ answers => answers
  | .stored | .negated | .raises _ _ | .evaluates _ _ => []

/-- The values that an object of an unrelated class offers to be verified with. -/
def DuckVerify.parts : DuckVerify Value → List Value
  | .method verifier => verifier.parts
  | .holds held => [held]
  | .absent | .failing _ _ => []

namespace Value

/-- The values that a value consists of. -/
def parts : Value → List Value
  | .list items | .tuple items | .set items => items
  | .dict entries => entries.flatMap fun entry ↦ [entry.1, entry.2]
  | .condition (.group _ _ children) => children.map ofCondition
  | .condition (.atom v) => [v]
  | .leaf l => l.verifier.parts ++ l.override.elim [] Verifier.parts
  | .duck d => d.value.toList ++ d.verify.parts
  | _ => []

/-- A value occurs in another one: it is that one, or it occurs in a part of it. -/
inductive Occurs (u : Value) : Value → Prop where
  | refl : Occurs u u
  | part {v x : Value} (hx : x ∈ v.parts) (hu : Occurs u x) : Occurs u v

theorem occurs_iff {u v : Value} : u.Occurs v ↔ u = v ∨ ∃ x ∈ v.parts, u.Occurs x := by
  constructor
  · rintro (_ | ⟨hx, hu⟩)
    · exact .inl rfl
    · exact .inr ⟨_, hx, hu⟩
  · rintro (rfl | ⟨x, hx, hu⟩)
    · exact .refl
    · exact .part hx hu

theorem Occurs.trans {u v x : Value} (hu : u.Occurs v) (hv : v.Occurs x) : u.Occurs x := by
  induction hv with
  | refl => exact hu
  | part hx _ ih => exact .part hx ih

end Value

/-- The objects of a session by their identities. An object consists of objects with lesser
identities, the constant conditions are the two first ones, and connectives, strategies and classes
are not listed. -/
structure Ledger where
  object : Nat → Option Value
  identity {i : Nat} {v : Value} (hv : object i = some v) : v.identity? = some i
  ordered {i j : Nat} {v x u : Value} (hv : object i = some v) (hx : x ∈ v.parts) (hu : u.Occurs x)
    (hj : u.identity? = some j) : j < i
  constants (b : Bool) : object (constantId b) = some (Session.constantCondition b)
  fixed {i : Nat} (hi : 2 ≤ i) (hi' : i < firstFreshId) : object i = none

namespace Ledger

/-- The other ledger lists every object that this one lists. -/
def Extends (L L' : Ledger) : Prop := ∀ i v, L.object i = some v → L'.object i = some v

theorem Extends.refl (L : Ledger) : L.Extends L := fun _ _ hv ↦ hv

theorem Extends.trans {L L' L'' : Ledger} (h : L.Extends L') (h' : L'.Extends L'') :
    L.Extends L'' := fun i v hv ↦ h' i v (h i v hv)

/-! ## Listed values -/

/-- Every object that occurs in the value is listed under its identity. -/
def Lists (L : Ledger) (v : Value) : Prop :=
  ∀ u, u.Occurs v → ∀ i, u.identity? = some i → L.object i = some u

variable {L L' : Ledger} {v x : Value}

theorem Lists.mono (hv : L.Lists v) (h : L.Extends L') : L'.Lists v :=
  fun u hu i hi ↦ h i u (hv u hu i hi)

theorem Lists.part (hv : L.Lists v) (hx : x ∈ v.parts) : L.Lists x :=
  fun u hu ↦ hv u (.part hx hu)

/-- A value that is no object is listed if its parts are. -/
theorem lists_of_parts (hidentity : v.identity? = none) (hparts : ∀ x ∈ v.parts, L.Lists x) :
    L.Lists v := by
  intro u hu i hi
  rcases Value.occurs_iff.mp hu with rfl | ⟨x, hx, hu⟩
  · simp [hidentity] at hi
  · exact hparts x hx u hu i hi

/-- An object is listed with all that it consists of if it stands under its identity. -/
theorem lists_of_object {i : Nat} (hv : L.object i = some v) (hparts : ∀ x ∈ v.parts, L.Lists x) :
    L.Lists v := by
  intro u hu j hj
  rcases Value.occurs_iff.mp hu with rfl | ⟨x, hx, hu⟩
  · cases (L.identity hv).symm.trans hj
    exact hv
  · exact hparts x hx u hu j hj

theorem lists_constant (L : Ledger) (b : Bool) : L.Lists (Session.constantCondition b) :=
  lists_of_object (L.constants b) nofun

end Ledger

/-! ## Ledgers and stores -/

/-- The values that a store holds. -/
def Store.values (s : Store) : List Value :=
  s.nodes.map (·.2.value) ++ s.settings.map Prod.snd ++ s.evaluators.filterMap (·.2.settings) ++
    s.lists.flatMap Prod.snd ++ s.iterators.flatMap Prod.snd ++
      s.settingsOnObjects.filterMap (·.value)

/-- What holds of all values of a store, by where it holds them. -/
theorem Store.forall_mem_values {s : Store} {P : Value → Prop} :
    (∀ v ∈ s.values, P v) ↔
      (∀ n ∈ s.nodes, P n.2.value) ∧ (∀ n ∈ s.settings, P n.2) ∧
        (∀ n ∈ s.evaluators, ∀ v, n.2.settings = some v → P v) ∧
        (∀ n ∈ s.lists, ∀ v ∈ n.2, P v) ∧ (∀ n ∈ s.iterators, ∀ v ∈ n.2, P v) ∧
        ∀ a ∈ s.settingsOnObjects, ∀ v, a.value = some v → P v := by
  simp only [Store.values, List.forall_mem_append, List.forall_mem_map, List.forall_mem_flatMap,
    List.forall_mem_filterMap, and_assoc]

/-- What a store holds, it held before if nothing has been named since. -/
theorem Store.Retains.mem_values {s s' : Store} (h : s.Retains s') {v : Value}
    (hv : v ∈ s'.values) : v ∈ s.values := by
  revert v
  rw [Store.forall_mem_values]
  obtain ⟨hnodes, hsettings, hevaluators, hlists, hiterators, hattributes⟩ :=
    Store.forall_mem_values.mp fun v (hv : v ∈ s.values) ↦ hv
  rw [h.nodes, h.settings, h.evaluators, h.lists, h.settingsOnObjects]
  refine ⟨hnodes, hsettings, hevaluators, hlists, fun n hn v hv ↦ ?_, hattributes⟩
  rcases h.iterators n hn with hn | hempty
  · exact hiterators n hn v hv
  · simp [hempty] at hv

/-- The ledger lists whatever occurs in the store, and the attributes of an object have been set and
deleted only under the names that are allowed for it. -/
structure Ledger.Keeps (L : Ledger) (allowed : Value → String → Prop) (s : Store) : Prop where
  below {i : Nat} {v : Value} (hv : L.object i = some v) : i < s.nextId
  fresh : firstFreshId ≤ s.nextId
  held : ∀ v ∈ s.values, L.Lists v
  attributed : ∀ a ∈ s.settingsOnObjects, a.object < s.nextId
  attributes : ∀ a ∈ s.settingsOnObjects, ∀ v, L.object a.object = some v → allowed v a.name

namespace Ledger

variable {L L' : Ledger} {allowed : Value → String → Prop} {s s' : Store}

theorem Keeps.retains (h : L.Keeps allowed s) (hs : s.Retains s') : L.Keeps allowed s' where
  below hv := Nat.lt_of_lt_of_le (h.below hv) hs.nextId
  fresh := Nat.le_trans h.fresh hs.nextId
  held v hv := h.held v (hs.mem_values hv)
  attributed a ha := Nat.lt_of_lt_of_le (h.attributed a (hs.settingsOnObjects ▸ ha)) hs.nextId
  attributes a ha := h.attributes a (hs.settingsOnObjects ▸ ha)

/-- The ledger of a new session. -/
def initial : Ledger where
  object
    | 0 => some (Session.constantCondition false)
    | 1 => some (Session.constantCondition true)
    | _ => none
  identity {i v} hv := by
    match i, hv with
    | 0, rfl => rfl
    | 1, rfl => rfl
  ordered {i j v x u} hv hx := by
    match i, hv with
    | 0, rfl => nomatch hx
    | 1, rfl => nomatch hx
  constants b := by cases b <;> rfl
  fixed {i} hi hi' := by
    match i with
    | i + 2 => rfl

theorem initial_keeps (allowed : Value → String → Prop) : initial.Keeps allowed {} where
  below {i v} hv := by
    match i, hv with
    | 0, _ => decide
    | 1, _ => decide
  fresh := Nat.le_refl _
  held := nofun
  attributed := nofun
  attributes := nofun

/-- The ledger with a new object in it. -/
def enter (L : Ledger) (i : Nat) (v : Value) (hidentity : v.identity? = some i)
    (hfresh : firstFreshId ≤ i) (hbelow : ∀ j u, L.object j = some u → j < i)
    (hparts : ∀ x ∈ v.parts, L.Lists x) : Ledger where
  object j := if j = i then some v else L.object j
  identity {j u} hu := by
    split at hu
    · cases hu
      simp [*]
    · exact L.identity hu
  ordered {j k u x y} hu hx hy hk := by
    split at hu
    · cases hu
      subst j
      exact hbelow k y (hparts x hx y hy k hk)
    · exact L.ordered hu hx hy hk
  constants b := by
    have hne : constantId b ≠ i := by
      have : constantId b < 2 := by cases b <;> decide
      simp only [firstFreshId] at hfresh
      omega
    rw [if_neg hne, L.constants]
  fixed {j} hj hj' := by
    rw [if_neg (by omega), L.fixed hj hj']

variable {i : Nat} {v : Value} {hidentity : v.identity? = some i} {hfresh : firstFreshId ≤ i}
  {hbelow : ∀ j u, L.object j = some u → j < i} {hparts : ∀ x ∈ v.parts, L.Lists x}

theorem extends_enter : L.Extends (L.enter i v hidentity hfresh hbelow hparts) := by
  intro j u hu
  have hne : j ≠ i := Nat.ne_of_lt (hbelow j u hu)
  simpa [enter, hne] using hu

theorem lists_enter : (L.enter i v hidentity hfresh hbelow hparts).Lists v :=
  lists_of_object (i := i) (by simp [enter]) fun x hx ↦ (hparts x hx).mono extends_enter

end Ledger

end ShortCircuit
