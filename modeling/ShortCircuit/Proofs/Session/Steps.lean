import ShortCircuit.Proofs.Session.Keeping
import ShortCircuit.Session.Step

/-!
# Steps keep the ledger

Whatever a step does, and whether it succeeds or fails, the store that it leaves is kept by an
extension of the ledger, if the step changes attributes only where that is allowed; so are the
stores of a whole session. What a step does to attributes depends on the object that is named when
the step is performed, and so does what is demanded of it.
-/

namespace ShortCircuit

open Session

/-! ## Attributes -/

/-- An attribute of the value under the name may be changed wherever the value does not refuse it.
Whoever replaces all attributes of an object at once changes it under every name. -/
structure Permits (allowed : Value → String → Prop) (v : Value) (name : String) : Prop where
  change (hfrozen : isFrozen v name = false) : allowed v name
  replacement (hfrozen : isFrozen v name = false) (hall : v.provision name = .ownAttributes)
    (other : String) : allowed v other

/-- An object that can have attributes of its own has an identity, or is among the objects that are
there from the outset. -/
theorem Value.identity_of_attributeHolder {v : Value} {i : Nat} (hv : v.attributeHolder? = some i) :
    v.identity? = some i ∨ 2 ≤ i ∧ i < firstFreshId := by
  cases v with
  | connective k =>
    cases hv
    cases k <;> exact .inr (by decide)
  | strategy x =>
    cases hv
    cases x <;> exact .inr (by decide)
  | classObject c =>
    cases hv
    cases c <;> exact .inr (by decide)
  | condition c =>
    cases c with
    | atom v => cases hv
    | group origin k children => exact .inl hv
  | leaf l => exact .inl hv
  | settings origin s => exact .inl hv
  | witness i truth => exact .inl hv
  | refusal i nodeType => exact .inl hv
  | duck d => exact .inl hv
  | _ => cases hv

namespace Ledger

variable {L : Ledger} {allowed : Value → String → Prop} {s : Store} {v : Value} {i : Nat}

/-- The object whose attributes are those of a listed value is listed as that value, if at all. -/
theorem Lists.eq_of_attributeHolder (hv : L.Lists v) (hholder : v.attributeHolder? = some i)
    {u : Value} (hu : L.object i = some u) : u = v := by
  rcases Value.identity_of_attributeHolder hholder with hidentity | ⟨hi, hi'⟩
  · exact Option.some.inj (hu.symm.trans (hv v .refl i hidentity))
  · cases (L.fixed hi hi').symm.trans hu

theorem Keeps.holder_below (h : L.Keeps allowed s) (hv : L.Lists v)
    (hholder : v.attributeHolder? = some i) : i < s.nextId := by
  rcases Value.identity_of_attributeHolder hholder with hidentity | ⟨-, hi⟩
  · exact h.below (hv v .refl i hidentity)
  · exact Nat.lt_of_lt_of_le hi h.fresh

/-- Where no change is allowed, nothing has been set or deleted. -/
theorem Keeps.attribute_eq_none (h : L.Keeps allowed s) (hv : L.Lists v)
    (hholder : ∀ i, v.attributeHolder? = some i → v.identity? = some i) {name : String}
    (hallowed : ¬ allowed v name) : Session.Store.attribute? s v name = none := by
  cases hi : v.attributeHolder? with
  | none => simp [Session.Store.attribute?, hi]
  | some i =>
    have hnone : (s.settingsOnObjects.find? fun a ↦ a.object = i ∧ a.name = name) = none := by
      refine List.find?_eq_none.mpr fun a ha hfound ↦ hallowed ?_
      obtain ⟨rfl, rfl⟩ := of_decide_eq_true hfound
      exact h.attributes a ha v (hv v .refl _ (hholder _ hi))
    simp only [Session.Store.attribute?, hi, hnone, bind, Option.bind]

/-- The store may have further attributes of a listed value, as far as they are allowed. -/
theorem Keeps.settle (h : L.Keeps allowed s) (hv : L.Lists v)
    (hholder : v.attributeHolder? = some i) {settings : List AttributeSetting}
    (hsettings : ∀ a ∈ settings, a ∈ s.settingsOnObjects ∨
      a.object = i ∧ allowed v a.name ∧ ∀ x, a.value = some x → L.Lists x) :
    L.Keeps allowed { s with settingsOnObjects := settings } := by
  obtain ⟨hnodes, hnamed, hevaluators, hlists, hiterators, hattributes⟩ :=
    Store.forall_mem_values.mp h.held
  refine ⟨h.below, h.fresh, Store.forall_mem_values.mpr ⟨hnodes, hnamed, hevaluators, hlists,
    hiterators, fun a ha x hx ↦ ?_⟩, fun a ha ↦ ?_, fun a ha u hu ↦ ?_⟩
  · rcases hsettings a ha with ha | ⟨-, -, hvalue⟩
    · exact hattributes a ha x hx
    · exact hvalue x hx
  · rcases hsettings a ha with ha | ⟨hobject, -, -⟩
    · exact h.attributed a ha
    · exact hobject ▸ h.holder_below hv hholder
  · rcases hsettings a ha with ha | ⟨hobject, hallowed, -⟩
    · exact h.attributes a ha u hu
    · exact hv.eq_of_attributeHolder hholder (hobject ▸ hu) ▸ hallowed

end Ledger

namespace Session

variable {allowed : Value → String → Prop} {L : Ledger} {v : Value} {i : Nat} {name : String}

theorem keeping_keepAttribute {new : Option Value} (hv : L.Lists v)
    (hholder : v.attributeHolder? = some i) (hallowed : allowed v name)
    (hnew : ∀ x, new = some x → L.Lists x) :
    Keeping allowed L (keepAttribute i name new) fun L' _ ↦ L' = L := by
  refine keeping_modifyStore fun s hs ↦ hs.settle hv hholder fun a ha ↦ ?_
  rcases List.mem_cons.mp ha with rfl | ha
  · exact .inr ⟨rfl, hallowed, hnew⟩
  · exact .inl ha

theorem keeping_unpack (i : Nat) : Keeping allowed L (unpack i) fun L' _ ↦ L' = L :=
  keeping_modifyStore fun _ hs ↦ ⟨hs.below, hs.fresh, hs.held, hs.attributed, hs.attributes⟩

theorem keeping_replaceAttributes {entries : List (Value × Value)} (hv : L.Lists v)
    (hholder : v.attributeHolder? = some i) (hallowed : ∀ other, allowed v other)
    (hentries : ∀ entry ∈ entries, L.Lists entry.2) :
    Keeping allowed L (replaceAttributes v i entries) fun L' _ ↦ L' = L := by
  unfold replaceAttributes
  dsimp only
  refine keeping_modifyStore fun s hs ↦ hs.settle hv hholder fun a ha ↦ ?_
  rcases List.mem_append.mp ha with ha | ha
  · rcases List.mem_append.mp ha with ha | ha
    · obtain ⟨entry, hentry, hgiven⟩ := List.mem_filterMap.mp ha
      split at hgiven <;> cases hgiven
      refine .inr ⟨rfl, hallowed _, fun x hx ↦ ?_⟩
      cases hx
      exact hentries entry hentry
    · obtain ⟨field, -, rfl⟩ := List.mem_map.mp ha
      exact .inr ⟨rfl, hallowed _, nofun⟩
  · exact .inl ((List.mem_filter.mp ha).1)

theorem setOnValue_of_frozen (hfrozen : isFrozen v name = true) (new : Value) :
    setOnValue v name new = throw (.frozenAssignment name) := by
  rw [setOnValue, if_pos hfrozen]
  rfl

theorem deleteOnValue_of_frozen (hfrozen : isFrozen v name = true) :
    deleteOnValue v name = throw (.frozenDeletion name) := by
  rw [deleteOnValue, if_pos hfrozen]
  rfl

theorem keeping_setOnValue {new : Value} (hv : L.Lists v) (hnew : L.Lists new)
    (hpermits : Permits allowed v name) :
    Keeping allowed L (setOnValue v name new) fun _ _ ↦ True := by
  cases hfrozen : isFrozen v name with
  | true => exact setOnValue_of_frozen hfrozen new ▸ keeping_throw _
  | false =>
    rw [setOnValue, if_neg (by simp [hfrozen])]
    refine (keeping_of_retaining (retaining_ofExcept _)).bind fun L₁ _ _ h₁ ↦
      (keeping_of_retaining (retaining_ofExcept _)).bind fun L₂ _ _ h₂ ↦ ?_
    obtain rfl : L₂ = L := h₂.trans h₁
    split
    · exact (keeping_of_retaining (retaining_ofExcept _)).mono fun _ _ _ _ ↦ trivial
    · rename_i object hall hholder
      refine (keeping_unpack object).bind fun L₃ _ _ h₃ ↦ ?_
      subst h₃
      split
      · rename_i entries
        refine (keeping_replaceAttributes hv hholder (hpermits.replacement hfrozen hall)
          fun entry hentry ↦ hnew.part ?_).mono fun _ _ _ _ ↦ trivial
        exact List.mem_flatMap.mpr ⟨entry, hentry, by simp⟩
      · exact keeping_throw _
    · rename_i hholder _ _
      refine (keeping_keepAttribute hv hholder (hpermits.change hfrozen) fun x hx ↦ ?_).mono
        fun _ _ _ _ ↦ trivial
      cases hx
      exact hnew
    · exact keeping_pure trivial

theorem keeping_deleteOnValue (hv : L.Lists v) (hpermits : Permits allowed v name) :
    Keeping allowed L (deleteOnValue v name) fun _ _ ↦ True := by
  cases hfrozen : isFrozen v name with
  | true => exact deleteOnValue_of_frozen hfrozen ▸ keeping_throw _
  | false =>
    rw [deleteOnValue, if_neg (by simp [hfrozen])]
    refine (keeping_of_retaining (retaining_ofExcept _)).bind fun L₁ _ _ h₁ ↦
      (keeping_of_retaining (retaining_ofExcept _)).bind fun L₂ _ _ h₂ ↦ ?_
    obtain rfl : L₂ = L := h₂.trans h₁
    split
    · exact keeping_throw _
    · rename_i object hall hholder
      refine (keeping_unpack object).bind fun L₃ _ _ h₃ ↦ ?_
      subst h₃
      exact (keeping_replaceAttributes hv hholder (hpermits.replacement hfrozen hall)
        (List.forall_mem_nil _)).mono fun _ _ _ _ ↦ trivial
    · rename_i hholder _ _
      refine keeping_store.bind fun L₃ s _ hs ↦ ?_
      obtain ⟨rfl, -⟩ := hs
      split
      · exact (keeping_keepAttribute hv hholder (hpermits.change hfrozen)
          fun _ hx ↦ by cases hx).mono fun _ _ _ _ ↦ trivial
      · exact keeping_throw _
    · exact keeping_pure trivial

/-! ## Copies -/

theorem changed_lists {changes : List (String × Value)} (hchanges : ListsFields L changes)
    {field : String} {new : Value} (hnew : changed? changes field = some new) : L.Lists new := by
  obtain ⟨change, hchange, rfl⟩ := Option.map_eq_some_iff.mp hnew
  exact hchanges change (List.mem_of_find?_eq_some hchange)

theorem retaining_copyWith (v : Value) (changes : List (String × Value)) :
    Retaining (copyWith v changes) := by
  cases v with
  | leaf l =>
    rw [copyWith_leaf]
    exact (retaining_ofExcept _).bind fun _ ↦ (retaining_ofExcept _).bind fun _ ↦
      retaining_freshId.bind fun _ ↦ retaining_pure _
  | condition c =>
    cases c with
    | atom v => exact retaining_throw _
    | group origin k children =>
      rw [copyWith_group]
      exact (retaining_ofExcept _).bind fun _ ↦ (retaining_ofExcept _).bind fun _ ↦
        (retaining_ofExcept _).bind fun _ ↦ retaining_newGroup _ _ _
  | settings origin s =>
    exact (retaining_ofExcept _).bind fun _ ↦ (retaining_ofExcept _).bind fun _ ↦
      retaining_newSettings _ _
  | _ => exact retaining_throw _

/-- A copy is a new object of listed parts. -/
theorem keeping_copyWith {changes : List (String × Value)} (hv : L.Lists v)
    (hchanges : ListsFields L changes) :
    Keeping allowed L (copyWith v changes) Ledger.Lists := by
  cases v with
  | leaf l =>
    have hverifier : ListsAll L ((changed? changes "verifier").elim l.verifier fun new ↦
        ⟨none, .misplaced new⟩).parts := by
      cases hnew : changed? changes "verifier" with
      | none => exact fun x hx ↦ hv.part (List.mem_append_left _ hx)
      | some new => exact listsAll_cons (changed_lists hchanges hnew) listsAll_nil
    have hoverride : ListsAll L (l.override.elim [] Verifier.parts) :=
      fun x hx ↦ hv.part (List.mem_append_right _ hx)
    rw [copyWith_leaf]
    refine (keeping_of_retaining (retaining_ofExcept _)).bind fun L₁ _ _ h₁ ↦
      (keeping_of_retaining (retaining_ofExcept _)).bind fun L₂ b _ h₂ ↦
        keeping_fresh (fun _ ↦ rfl) fun _ ↦ ?_
    exact h₂ ▸ h₁ ▸ List.forall_mem_append.mpr ⟨hverifier, hoverride⟩
  | condition c =>
    cases c with
    | atom v => exact keeping_throw _
    | group origin k children =>
      have hitems : Ends (fun _ ↦ True) (ListsAll L) ((changed? changes "conditions").elim
          (.ok (children.map Value.ofCondition)) Value.items) := by
        cases hnew : changed? changes "conditions" with
        | none => exact fun x hx ↦ hv.part hx
        | some new => exact items_ends (changed_lists hchanges hnew)
      rw [copyWith_group]
      refine (keeping_of_retaining (retaining_ofExcept _)).bind fun L₁ _ _ h₁ ↦
        (keeping_of_retaining (retaining_ofExcept _)).bind fun L₂ c _ h₂ ↦ ?_
      obtain rfl : L₂ = L := h₂.trans h₁
      exact (keeping_ofExcept hitems).bind fun _ _ _ hdrawn ↦ keeping_newGroup _ _ hdrawn
  | settings origin s =>
    exact (keeping_of_retaining (retaining_ofExcept _)).bind fun _ _ _ _ ↦
      (keeping_of_retaining (retaining_ofExcept _)).bind fun _ _ _ _ ↦ keeping_newSettings _ _
  | _ => exact keeping_throw _

/-! ## Names -/

section

variable {Q : Ledger → Value → Prop} {α : Type} {R : Ledger → α → Prop}

theorem retaining_outcomeOf {m : Session α} (hm : Retaining m) : Retaining (outcomeOf m) := by
  intro w
  have hw := hm w
  unfold worldAfter at hw
  unfold worldAfter outcomeOf
  cases hrun : m w with
  | ok a w' =>
    rw [hrun] at hw
    exact hw
  | error e w' =>
    rw [hrun] at hw
    exact hw

theorem retaining_takeCalls : Retaining takeCalls :=
  retaining_store.bind fun _ ↦ Retaining.bind (fun _ ↦ { Store.Retains.refl _ with })
    fun _ ↦ retaining_pure _

theorem retaining_takeLog : Retaining takeLog :=
  Retaining.bind (fun _ ↦ .refl _) fun _ ↦ Retaining.bind (fun _ ↦ .refl _) fun _ ↦
    retaining_pure _

theorem retaining_namedSerial : (p : ValuePlan) → Retaining (namedSerial? p)
  | .node (.named _) => retaining_store.bind fun _ ↦ (retaining_find _ _).bind fun _ ↦
      retaining_pure _
  | .node (.raw p) => retaining_namedSerial p
  | .nothing | .bool _ | .int _ | .float _ | .text _ | .bytes _ | .list _ | .tuple _ | .dict _
  | .strategy _ | .connective _ | .settings _ _ | .namedSettings _ | .witness _
  | .node (.constant _) | .node (.leaf _ _) | .node (.group _ _) | .node (.tagged _ _ _)
  | .node (.ownLeaf _ _ _) | .node (.duck _ _ _) | .node (.classObject _) | .node (.reference _)
  | .node (.chain _ _ _ _ _) | .node (.wide _ _ _ _) => retaining_pure _
  termination_by structural p => p

/-- Listed values can be given names of any kind. -/
theorem keeping_naming {f : Store → Store} (hnextId : ∀ s, (f s).nextId = s.nextId)
    (hattributes : ∀ s, (f s).settingsOnObjects = s.settingsOnObjects)
    (hvalues : ∀ s, ∀ v ∈ (f s).values, v ∈ s.values ∨ L.Lists v) :
    Keeping allowed L (modifyStore f) fun _ _ ↦ True := by
  refine (keeping_modifyStore fun s hs ↦ ?_).mono fun _ _ _ _ ↦ trivial
  refine ⟨fun hv ↦ hnextId s ▸ hs.below hv, hnextId s ▸ hs.fresh, fun v hv ↦ ?_, fun a ha ↦ ?_,
    fun a ha ↦ hs.attributes a (hattributes s ▸ ha)⟩
  · exact (hvalues s v hv).elim (hs.held v) id
  · exact hnextId s ▸ hs.attributed a (hattributes s ▸ ha)

theorem keeping_nameNode {name : String} {serial : Nat} (hv : L.Lists v) :
    Keeping allowed L (modifyStore fun s ↦ { s with nodes := (name, ⟨serial, v⟩) :: s.nodes })
      fun _ _ ↦ True :=
  keeping_naming (fun _ ↦ rfl) (fun _ ↦ rfl) fun s x hx ↦ by
    simp only [Store.values, List.map_cons] at hx ⊢
    grind

theorem keeping_nameSettings {name : String} (hv : L.Lists v) :
    Keeping allowed L (modifyStore fun s ↦ { s with settings := (name, v) :: s.settings })
      fun _ _ ↦ True :=
  keeping_naming (fun _ ↦ rfl) (fun _ ↦ rfl) fun s x hx ↦ by
    simp only [Store.values, List.map_cons] at hx ⊢
    grind

theorem keeping_nameEvaluator {name : String} {e : Evaluator}
    (he : ∀ v, e.settings = some v → L.Lists v) :
    Keeping allowed L (modifyStore fun s ↦ { s with evaluators := (name, e) :: s.evaluators })
      fun _ _ ↦ True :=
  keeping_naming (fun _ ↦ rfl) (fun _ ↦ rfl) fun s x hx ↦ by
    simp only [Store.values, List.filterMap_cons] at hx ⊢
    grind

theorem keeping_defineList {name : String} {items : List Value} (hitems : ListsAll L items) :
    Keeping allowed L (defineList name items) fun _ _ ↦ True := by
  unfold defineList
  refine Keeping.bind (keeping_naming (fun _ ↦ rfl) (fun _ ↦ rfl) fun s x hx ↦ ?_)
    fun _ _ _ _ ↦ keeping_pure trivial
  simp only [Store.values, List.flatMap_cons] at hx ⊢
  grind

theorem keeping_nameIterator {name : String} {items : List Value} (hitems : ListsAll L items) :
    Keeping allowed L
      (modifyStore fun s ↦ { s with iterators := (name, items) :: s.iterators })
      fun _ _ ↦ True :=
  keeping_naming (fun _ ↦ rfl) (fun _ ↦ rfl) fun s x hx ↦ by
    simp only [Store.values, List.flatMap_cons] at hx ⊢
    grind

theorem keeping_newEvaluator (hv : L.Lists v) :
    Keeping allowed L (newEvaluator v) fun L' e ↦ ∀ x, e.settings = some x → L'.Lists x := by
  refine (keeping_of_retaining (retaining_ofExcept _)).bind fun L₁ holds _ h₁ ↦ ?_
  cases holds with
  | true =>
    refine (keeping_of_retaining retaining_store).bind fun L₂ s _ h₂ ↦
      (keeping_of_retaining (retaining_ofExcept _)).bind fun L₃ _ _ h₃ ↦
        (keeping_of_retaining (retaining_record _)).bind fun L₄ _ _ h₄ ↦
          keeping_pure fun x hx ↦ ?_
    cases hx
    exact h₄ ▸ h₃ ▸ h₂ ▸ h₁ ▸ hv
  | false =>
    refine (keeping_of_retaining (retaining_record _)).bind fun L₂ _ _ _ ↦
      (keeping_newSettings _ _).bind fun L₃ v _ hlists ↦ keeping_pure fun x hx ↦ ?_
    cases hx
    exact hlists

theorem keeping_keepCopy {target : Target} {name : String} (hv : L.Lists v) :
    Keeping allowed L (keepCopy target name v) fun _ _ ↦ True := by
  cases target with
  | node n =>
    exact (keeping_of_retaining retaining_freshId).bind fun _ serial _ h ↦
      keeping_nameNode (h ▸ hv)
  | settings n => exact keeping_nameSettings hv
  | evaluator n => exact keeping_pure trivial

theorem keeping_defineNode {name : String} {node : NodePlan} (hv : L.Lists v) :
    Keeping allowed L (defineNode name node v) fun _ _ ↦ True := by
  refine (keeping_of_retaining (retaining_namedSerial _)).bind fun L₁ serial _ h₁ ↦ ?_
  cases serial with
  | some serial =>
    exact (keeping_of_retaining (retaining_pure _)).bind fun _ _ _ h₂ ↦
      keeping_nameNode (h₂ ▸ h₁ ▸ hv)
  | none =>
    exact (keeping_of_retaining retaining_freshId).bind fun _ _ _ h₂ ↦
      keeping_nameNode (h₂ ▸ h₁ ▸ hv)

theorem keeping_targetValue (target : Target) :
    Keeping allowed L (targetValue target) Ledger.Lists := by
  cases target with
  | node n =>
    exact keeping_store.bind fun _ _ _ hs ↦
      (keeping_find (Q := fun L' (n : Held) ↦ L'.Lists n.value)
        (hs.1 ▸ (Store.forall_mem_values.mp hs.2.held).1)).bind fun _ _ _ hn ↦ keeping_pure hn
  | settings n =>
    exact keeping_store.bind fun _ _ _ hs ↦
      keeping_find (hs.1 ▸ (Store.forall_mem_values.mp hs.2.held).2.1)
  | evaluator n =>
    exact (keeping_of_retaining retaining_store).bind fun _ _ _ _ ↦
      (keeping_of_retaining (retaining_find _ _)).bind fun _ _ _ _ ↦ keeping_throw _

end

/-! ## Steps -/

/-- What is changed in a step on attributes is the value that the target names. -/
theorem setAttribute_eq {target : Target} (htarget : ∀ n, target ≠ .evaluator n) (name : String)
    (new : ValuePlan) :
    setAttribute target name new =
      targetValue target >>= fun v ↦ makeValue new >>= setOnValue v name := by
  cases target with
  | node n => simp [setAttribute, targetValue]
  | settings n => simp [setAttribute, targetValue]
  | evaluator n => exact absurd rfl (htarget n)

theorem deleteAttribute_eq {target : Target} (htarget : ∀ n, target ≠ .evaluator n)
    (name : String) :
    deleteAttribute target name = targetValue target >>= (deleteOnValue · name) := by
  cases target with
  | node n => simp [deleteAttribute, targetValue]
  | settings n => simp [deleteAttribute, targetValue]
  | evaluator n => exact absurd rfl (htarget n)

theorem find_cases {α : Type} (names : List (String × α)) (name : String) :
    (∃ a, find names name = pure a) ∨ ∃ e, find names name = throw e := by
  unfold find
  split
  · exact .inl ⟨_, rfl⟩
  · exact .inr ⟨_, rfl⟩

/-- Finding the value that a target names changes nothing. -/
theorem targetValue_cases (target : Target) (w : World Store) :
    (∃ v, targetValue target w = .ok v w) ∨ ∃ e, targetValue target w = .error e w := by
  cases target with
  | node n =>
    have htarget : targetValue (.node n) w =
        (find w.state.nodes n >>= fun held ↦ pure held.value) w := rfl
    rw [htarget]
    rcases find_cases w.state.nodes n with ⟨held, hfind⟩ | ⟨e, hfind⟩ <;> rw [hfind]
    · exact .inl ⟨held.value, rfl⟩
    · exact .inr ⟨e, rfl⟩
  | settings n =>
    have htarget : targetValue (.settings n) w = find w.state.settings n w := rfl
    rw [htarget]
    rcases find_cases w.state.settings n with ⟨v, hfind⟩ | ⟨e, hfind⟩ <;> rw [hfind]
    · exact .inl ⟨v, rfl⟩
    · exact .inr ⟨e, rfl⟩
  | evaluator n =>
    have htarget : targetValue (.evaluator n) w =
        (find w.state.evaluators n >>= fun _ ↦ throw .notReplaceable) w := rfl
    rw [htarget]
    rcases find_cases w.state.evaluators n with ⟨held, hfind⟩ | ⟨e, hfind⟩ <;> rw [hfind]
    · exact .inr ⟨_, rfl⟩
    · exact .inr ⟨e, rfl⟩

/-- Performed in the world, the step changes attributes only where that is allowed. -/
def Step.Permitted (allowed : Value → String → Prop) (w : World Store) : Step → Prop
  | .setAttribute target name _ | .deleteAttribute target name =>
    ∀ v, targetValue target w = .ok v w → Permits allowed v name
  | _ => True

/-- A change to the value that a target names keeps the ledger if it does so wherever the change is
permitted. -/
theorem keeps_of_target {target : Target} {f : Value → Session Unit} {w : World Store}
    (hw : L.Keeps allowed w.state)
    (hpermits : ∀ v, targetValue target w = .ok v w → Permits allowed v name)
    (hf : ∀ (L' : Ledger) (v : Value), L'.Lists v → Permits allowed v name →
      Keeping allowed L' (f v) fun _ _ ↦ True) :
    ∃ L' : Ledger, L.Extends L' ∧
      L'.Keeps allowed (worldAfter (targetValue target >>= f) w).state := by
  obtain ⟨L₁, h₁, hkept, hlists⟩ := keeping_targetValue target w hw
  simp only [worldAfter, bind, EStateM.bind] at hkept ⊢
  rcases targetValue_cases target w with ⟨v, htarget⟩ | ⟨e, htarget⟩ <;> rw [htarget] at hkept ⊢
  · obtain ⟨L₂, h₂, hkept', -⟩ := hf L₁ v (hlists v w htarget) (hpermits v htarget) w hkept
    exact ⟨L₂, h₁.trans h₂, hkept'⟩
  · exact ⟨L₁, h₁, hkept⟩

theorem keeps_setAttribute {target : Target} {new : ValuePlan} {w : World Store}
    (hw : L.Keeps allowed w.state)
    (hpermits : ∀ v, targetValue target w = .ok v w → Permits allowed v name) :
    ∃ L' : Ledger, L.Extends L' ∧
      L'.Keeps allowed (worldAfter (setAttribute target name new) w).state := by
  by_cases htarget : ∃ n, target = .evaluator n
  · obtain ⟨n, rfl⟩ := htarget
    have hkeeping : Keeping allowed L (setAttribute (.evaluator n) name new) fun _ _ ↦ True := by
      refine (keeping_of_retaining retaining_store).bind fun _ s _ _ ↦
        (keeping_of_retaining (retaining_find s.evaluators n)).bind fun _ _ _ _ ↦
          (keeping_makeValue new).bind fun _ v _ hv ↦ ?_
      split
      · exact keeping_nameEvaluator fun x hx ↦ by cases hx; exact hv
      · split
        · exact keeping_throw _
        · exact keeping_pure trivial
    obtain ⟨L', hL', hkept, -⟩ := hkeeping w hw
    exact ⟨L', hL', hkept⟩
  · rw [setAttribute_eq fun n hn ↦ htarget ⟨n, hn⟩]
    exact keeps_of_target hw hpermits fun _ v hv hpermits ↦
      (keeping_makeValue new).bind fun _ _ h hnew ↦ keeping_setOnValue (hv.mono h) hnew hpermits

theorem keeps_deleteAttribute {target : Target} {w : World Store} (hw : L.Keeps allowed w.state)
    (hpermits : ∀ v, targetValue target w = .ok v w → Permits allowed v name) :
    ∃ L' : Ledger, L.Extends L' ∧
      L'.Keeps allowed (worldAfter (deleteAttribute target name) w).state := by
  by_cases htarget : ∃ n, target = .evaluator n
  · obtain ⟨n, rfl⟩ := htarget
    have hkeeping : Keeping allowed L (deleteAttribute (.evaluator n) name) fun _ _ ↦ True := by
      refine (keeping_of_retaining retaining_store).bind fun _ s _ _ ↦
        (keeping_of_retaining (retaining_find s.evaluators n)).bind fun _ _ _ _ ↦ ?_
      split
      · split
        · exact keeping_nameEvaluator nofun
        · exact keeping_throw _
      · exact keeping_throw _
    obtain ⟨L', hL', hkept, -⟩ := hkeeping w hw
    exact ⟨L', hL', hkept⟩
  · rw [deleteAttribute_eq fun n hn ↦ htarget ⟨n, hn⟩]
    exact keeps_of_target hw hpermits fun _ _ hv hpermits ↦ keeping_deleteOnValue hv hpermits

theorem retaining_reportEvaluation (node : NodePlan) (evaluator : EvaluatorPlan) :
    Retaining (reportEvaluation node evaluator) := by
  refine (retaining_outcomeOf (retaining_evaluate _ _ _)).bind fun outcome ↦ ?_
  split
  · exact retaining_throw _
  · exact retaining_takeCalls.bind fun _ ↦ retaining_takeLog.bind fun _ ↦ retaining_pure _

theorem retaining_settingsFrom : (source : SettingsSource) → Retaining (settingsFrom source)
  | .fields fields => (retaining_makeFields fields).bind fun _ ↦ retaining_ofExcept _
  | .entries data => (retaining_makeValue data).bind fun _ ↦ retaining_ofExcept _
  | .file _ _ _ => retaining_ofExcept _

theorem retaining_verifyNode (node : NodePlan) : Retaining (verifyNode node) :=
  (retaining_makeNode node).bind fun v ↦
    (retaining_verify (retaining_evaluate nestingLimit) v).bind fun _ ↦
      (retaining_ofExcept _).bind fun _ ↦ retaining_pure _

theorem retaining_compareValues (a b : ValuePlan) : Retaining (compareValues a b) :=
  (retaining_makeValue a).bind fun _ ↦ (retaining_makeValue b).bind fun _ ↦
    (retaining_namedSerial a).bind fun _ ↦ (retaining_namedSerial b).bind fun _ ↦
      (retaining_ofExcept _).bind fun _ ↦ retaining_pure _

/-- A step that changes no attribute keeps the ledger, whatever the world. -/
theorem keeping_perform {step : Step}
    (hset : ∀ target name new, step ≠ .setAttribute target name new)
    (hdelete : ∀ target name, step ≠ .deleteAttribute target name) :
    Keeping allowed L (perform step) fun _ _ ↦ True := by
  have hretaining {m : Session Report} (h : Retaining m) : Keeping allowed L m fun _ _ ↦ True :=
    (keeping_of_retaining h).mono fun _ _ _ _ ↦ trivial
  have hreported (L' : Ledger) (report : Report) :
      Keeping allowed L' (pure report) fun _ _ ↦ True := keeping_pure trivial
  cases step with
  | define name node =>
    exact (keeping_makeNode node).bind fun _ v _ hv ↦
      (keeping_of_retaining (retaining_ofExcept _)).bind fun _ _ _ h ↦
        (keeping_defineNode (h ▸ hv)).bind fun _ _ _ _ ↦ hreported _ _
  | describe node =>
    exact hretaining <| (retaining_makeNode node).bind fun _ ↦ (retaining_ofExcept _).bind fun _ ↦
      retaining_pure _
  | verify node =>
    refine hretaining <| (retaining_outcomeOf (retaining_verifyNode node)).bind fun outcome ↦ ?_
    split
    · exact retaining_throw _
    · exact retaining_takeCalls.bind fun _ ↦ retaining_pure _
  | defineList name items =>
    exact (keeping_makeNodes items).bind fun _ _ _ hitems ↦ keeping_defineList hitems
  | append name node =>
    exact keeping_store.bind fun _ s _ hs ↦ (keeping_find (Q := ListsAll)
      (hs.1 ▸ (Store.forall_mem_values.mp hs.2.held).2.2.2.1)).bind fun _ items _ hitems ↦
        (keeping_makeNode node).bind fun _ _ h hv ↦ keeping_defineList
          (List.forall_mem_append.mpr ⟨listsAll_mono hitems h, listsAll_cons hv listsAll_nil⟩)
  | clear name =>
    exact (keeping_of_retaining retaining_store).bind fun _ s _ _ ↦
      (keeping_of_retaining (retaining_find s.lists name)).bind fun _ _ _ _ ↦
        keeping_defineList listsAll_nil
  | defineIterator name items =>
    exact (keeping_makeNodes items).bind fun _ _ _ hitems ↦
      (keeping_nameIterator hitems).bind fun _ _ _ _ ↦ hreported _ _
  | defineSettings name className source =>
    exact (keeping_of_retaining (retaining_settingsFrom source)).bind fun _ _ _ _ ↦
      (keeping_classOr _ className).bind fun _ _ _ _ ↦
        (keeping_newSettings _ _).bind fun _ _ _ hv ↦
          (keeping_nameSettings hv).bind fun _ _ _ _ ↦ hreported _ _
  | defineEvaluator name settings =>
    exact (keeping_makeValue settings).bind fun _ _ _ hv ↦
      (keeping_newEvaluator hv).bind fun _ _ _ he ↦
        (keeping_nameEvaluator he).bind fun _ _ _ _ ↦
          (keeping_of_retaining retaining_takeCalls).bind fun _ _ _ _ ↦
            (keeping_of_retaining retaining_takeLog).bind fun _ _ _ _ ↦ hreported _ _
  | evaluate node evaluator => exact hretaining (retaining_reportEvaluation node evaluator)
  | compare a b =>
    exact hretaining <| (retaining_compareValues a b).bind fun _ ↦ retaining_pure _
  | setAttribute target name new => exact absurd rfl (hset target name new)
  | deleteAttribute target name => exact absurd rfl (hdelete target name)
  | copy target name changes =>
    exact (keeping_targetValue target).bind fun _ _ _ hv ↦
      (keeping_makeFields changes).bind fun _ _ h hchanges ↦
        (keeping_copyWith (hv.mono h) hchanges).bind fun _ _ _ hcopied ↦
          (keeping_of_retaining (retaining_ofExcept _)).bind fun _ _ _ h' ↦
            (keeping_keepCopy (h' ▸ hcopied)).bind fun _ _ _ _ ↦ hreported _ _

theorem worldAfter_bind_pure {α β : Type} (m : Session α) (b : β) (w : World Store) :
    worldAfter (m >>= fun _ ↦ pure b) w = worldAfter m w := by
  simp only [worldAfter, bind, EStateM.bind]
  cases m w <;> rfl

/-- Whatever a step comes to, an extension of the ledger keeps the store that it leaves. -/
theorem keeps_perform {step : Step} {w : World Store} (hw : L.Keeps allowed w.state)
    (hstep : step.Permitted allowed w) :
    ∃ L' : Ledger, L.Extends L' ∧ L'.Keeps allowed (worldAfter (perform step) w).state := by
  by_cases hset : ∃ target name new, step = .setAttribute target name new
  · obtain ⟨target, name, new, rfl⟩ := hset
    rw [perform, worldAfter_bind_pure]
    exact keeps_setAttribute hw hstep
  · by_cases hdelete : ∃ target name, step = .deleteAttribute target name
    · obtain ⟨target, name, rfl⟩ := hdelete
      rw [perform, worldAfter_bind_pure]
      exact keeps_deleteAttribute hw hstep
    · have hkeeping : Keeping allowed L (perform step) fun _ _ ↦ True :=
        keeping_perform (fun _ _ _ h ↦ hset ⟨_, _, _, h⟩) fun _ _ h ↦ hdelete ⟨_, _, h⟩
      obtain ⟨L', hL', hkept, -⟩ := hkeeping w hw
      exact ⟨L', hL', hkept⟩

/-! ## Sessions -/

/-- Performed one after the other from the world, the steps change attributes only where that is
allowed. -/
def PermittedAll (allowed : Value → String → Prop) : List Step → World Store → Prop
  | [], _ => True
  | step :: rest, w =>
    step.Permitted allowed w ∧ PermittedAll allowed rest (worldAfter (perform step) w)

/-- The world that steps leave is the one that the last of them leaves. -/
theorem performAll_world (steps : List Step) (w : World Store) :
    (performAll steps w).2 = steps.foldl (fun w step ↦ worldAfter (perform step) w) w := by
  unfold performAll
  dsimp only
  generalize ([] : List Report) = reports
  induction steps generalizing w reports with
  | nil => rfl
  | cons step rest ih =>
    simp only [List.foldl_cons, worldAfter]
    cases perform step w with
    | ok report w' => exact ih w' _
    | error e w' => exact ih w' _

/-- Whatever the steps come to, an extension of the ledger keeps the store that they leave. -/
theorem keeps_performAll {steps : List Step} {w : World Store} (hw : L.Keeps allowed w.state)
    (hsteps : PermittedAll allowed steps w) :
    ∃ L' : Ledger, L.Extends L' ∧ L'.Keeps allowed (performAll steps w).2.state := by
  rw [performAll_world]
  induction steps generalizing L w with
  | nil => exact ⟨L, .refl L, hw⟩
  | cons step rest ih =>
    obtain ⟨L₁, h₁, hkept⟩ := keeps_perform hw hsteps.1
    obtain ⟨L₂, h₂, hkept'⟩ := ih hkept hsteps.2
    exact ⟨L₂, h₁.trans h₂, hkept'⟩

end Session

end ShortCircuit
