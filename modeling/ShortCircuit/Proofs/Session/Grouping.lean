import ShortCircuit.Proofs.Reading.Value
import ShortCircuit.Proofs.Session.Immutability

/-!
# Constructing groups

A group is made from a value for its connective, which is looked at first, and of what is drawn from
its children afterwards. `Session.MakesExactly` says when that succeeds, what the group holds, what
is left of an iterator, and which failure is met otherwise: a value that names no connective is
refused before anything is drawn. By `Session.makesExactly` groups are made so wherever a plan of a
node asks for one.
-/

namespace ShortCircuit

/-- The value stands for the connective: it is the connective, or the text of its word. -/
def Value.Names (v : Value) (c : Connective) : Prop :=
  v = .connective c ∨ v = .text (Text.ofString c.word)

/-- The value is not written as a node that is no group; what stands at such a node is the value of
its atom. -/
def Value.IsProper (v : Value) : Prop := ∀ a, v ≠ .condition (.atom a)

theorem Value.ofCondition_toCondition {v : Value} (hv : v.IsProper) :
    .ofCondition v.toCondition = v := by
  cases v with
  | condition c =>
    cases c with
    | atom a => exact absurd rfl (hv a)
    | group origin k children => rfl
  | _ => rfl

theorem Connective.ofValue?_eq_some {v : Value} {c : Connective} :
    Connective.ofValue? v = some c ↔ v.Names c := by
  constructor
  · intro hfound
    cases v with
    | connective k => exact .inl (congrArg _ (Option.some.inj hfound))
    | text t =>
      have hword := List.find?_some hfound
      exact .inr (congrArg _ (of_decide_eq_true hword).symm)
    | _ => exact nomatch hfound
  · rintro (rfl | rfl)
    · rfl
    · cases c <;> rfl

namespace Session

/-! ## Connectives -/

theorem connectiveOf_of_names {v : Value} {c : Connective} (hv : v.Names c) :
    connectiveOf v = .ok c := by
  rw [connectiveOf, Connective.ofValue?_eq_some.mpr hv]

theorem connectiveOf_of_not_names {v : Value} (hv : ∀ c, ¬ v.Names c) :
    ∃ e, connectiveOf v = .error e ∧
      (e.category = .value ∨ e = .stackExhausted ∧ v.shown = .error .stackExhausted) := by
  have hnone : Connective.ofValue? v = none :=
    Option.eq_none_iff_forall_ne_some.mpr fun c hc ↦ hv c (Connective.ofValue?_eq_some.mp hc)
  rw [connectiveOf, hnone]
  have hfault := v.showWithin_failsWith notationRoom
  cases hshown : v.shown with
  | ok shown => exact ⟨.invalidConnective shown, rfl, .inl rfl⟩
  | error e =>
    refine ⟨e, rfl, ?_⟩
    have he : Value.IsUnshowable e := hfault.error hshown
    cases e <;> first
      | exact he.elim
      | exact .inl rfl
      | exact .inr ⟨rfl, rfl⟩

/-! ## Groups -/

/-- The group holds the items under the connective: the same values, in the same order. -/
structure Holds (cls : ClassTag) (c : Connective) (items : List Value) (group : Value) : Prop where
  shape : ∃ i, group = .condition (.group ⟨i, cls⟩ c (items.map Value.toCondition))
  connective : group.attribute? "type" = some (.connective c)
  conditions (hitems : ∀ v ∈ items, v.IsProper) :
    group.attribute? "conditions" = some (.tuple items)

theorem newGroup_holds (cls : ClassTag) (c : Connective) (items : List Value) (w : World Store) :
    ∃ group w', newGroup cls c items w = .ok group w' ∧ Holds cls c items group ∧
      w'.state = { w.state with nextId := w.state.nextId + 1 } := by
  refine ⟨_, _, rfl, ⟨⟨w.state.nextId, rfl⟩, rfl, fun hitems ↦ ?_⟩, rfl⟩
  have hsame : (items.map Value.toCondition).map Value.ofCondition = items := by
    rw [List.map_map]
    exact (List.map_congr_left fun v hv ↦ Value.ofCondition_toCondition (hitems v hv)).trans
      (List.map_id' items)
  exact congrArg (some ∘ Value.tuple) hsame

/-- Makes a group from a value for its connective and of prepared children. -/
def makeGroup (cls : ClassTag) (t prepared : Value) (children : ChildrenPlan) : Session Value := do
  let c ← ofExcept (connectiveOf t)
  newGroup cls c (← draw prepared children)

theorem makeNode_tagged (tag : ValuePlan) (children : ChildrenPlan) (className : Option String) :
    makeNode (.tagged tag (some children) className) = (do
      let t ← makeValue tag
      let cls ← classOr .group className
      makeGroup cls t (← prepare children) children) := by
  cases className <;> rfl

theorem makeNode_group (isOr : Bool) (children : ChildrenPlan) :
    makeNode (.group isOr children) = (do
      let prepared ← prepare children
      makeGroup .group (.connective (if isOr then .or else .and)) prepared children) := by
  cases isOr <;> rfl

/-- What a group is made of, and how making it ends, in a world. -/
structure MakesExactly (cls : ClassTag) (t prepared : Value) (children : ChildrenPlan)
    (w : World Store) : Prop where
  succeeds : (∃ group w', makeGroup cls t prepared children w = .ok group w') ↔
    (∃ c, t.Names c) ∧ ∃ items w', draw prepared children w = .ok items w'
  /-- There is no condition on the items. -/
  made {c : Connective} {items : List Value} {w₁ : World Store} (hnames : t.Names c)
      (hdrawn : draw prepared children w = .ok items w₁) :
    ∃ group w', makeGroup cls t prepared children w = .ok group w' ∧ Holds cls c items group
  /-- A second group from the iterator has no children. -/
  exhausted {name : String} {group : Value} {w' : World Store}
      (hchildren : children = .namedIterator name)
      (hmade : makeGroup cls t prepared children w = .ok group w') {cls' : ClassTag}
      {t' prepared' : Value} {c' : Connective} (hnames : t'.Names c') :
    ∃ group' w'', makeGroup cls' t' prepared' children w' = .ok group' w'' ∧
      Holds cls' c' [] group'
  /-- The world stays as it is, so no item has been drawn. The report shows the value, and there may
  be no room for that. -/
  refused (hnames : ∀ c, ¬ t.Names c) :
    ∃ e, makeGroup cls t prepared children w = .error e w ∧
      (e.category = .value ∨ e = .stackExhausted ∧ t.shown = .error .stackExhausted)
  undrawn {c : Connective} {e : Failure} {w' : World Store} (hnames : t.Names c)
      (hdrawn : draw prepared children w = .error e w') :
    makeGroup cls t prepared children w = .error e w'
  notIterable {c : Connective} {p : ValuePlan} (hchildren : children = .value p)
      (hnames : t.Names c) (hitems : prepared.items? = none) :
    ∃ e, makeGroup cls t prepared children w = .error e w ∧ e.category = .type

/-- What is drawn from children that have been prepared. Preparing leads from the first world to the
second. -/
inductive Draws (w w' : World Store) :
    ChildrenPlan → EStateM.Result Failure (World Store) (List Value) → Prop
  | items {nodes : List NodePlan} {items : List Value} (hmade : makeNodes nodes w = .ok items w') :
    Draws w w' (.items nodes) (.ok items w')
  /-- The list as it was when it was prepared. -/
  | namedList {name : String} {items : List Value}
      (hfound : find w.state.lists name w = .ok items w') :
    Draws w w' (.namedList name) (.ok items w')
  /-- What is drawn is made only now, and the first failure ends the drawing. -/
  | drawn {nodes : List NodePlan} (hsame : w' = w) : Draws w w' (.drawn nodes) (makeNodes nodes w')
  /-- All that is left in an iterator, which has nothing left afterwards. -/
  | namedIterator {name : String} {items : List Value} (hsame : w' = w)
      (hfound : find w'.state.iterators name w' = .ok items w') :
    Draws w w' (.namedIterator name) (.ok items { w' with
      state := { w'.state with iterators := (name, []) :: w'.state.iterators } })
  | value {p : ValuePlan} {v : Value} {items : List Value} (hmade : makeValue p w = .ok v w')
      (hitems : v.items? = some items) : Draws w w' (.value p) (.ok items w')
  | notIterable {p : ValuePlan} {v : Value} (hmade : makeValue p w = .ok v w')
      (hitems : v.items? = none) : Draws w w' (.value p) (.error (.notIterable v.typeName) w')

section

variable {cls : ClassTag} {t prepared : Value} {children : ChildrenPlan} {c : Connective}
  {w : World Store}

theorem makeGroup_of_names (hnames : t.Names c) :
    makeGroup cls t prepared children = draw prepared children >>= newGroup cls c := by
  rw [makeGroup, connectiveOf_of_names hnames]
  rfl

theorem makeGroup_of_drawn {items : List Value} {w₁ : World Store} (hnames : t.Names c)
    (hdrawn : draw prepared children w = .ok items w₁) :
    makeGroup cls t prepared children w = newGroup cls c items w₁ := by
  rw [makeGroup_of_names hnames, bind_of_ok hdrawn]

theorem makeGroup_of_undrawn {e : Failure} {w' : World Store} (hnames : t.Names c)
    (hdrawn : draw prepared children w = .error e w') :
    makeGroup cls t prepared children w = .error e w' := by
  rw [makeGroup_of_names hnames]
  simp only [bind, EStateM.bind, hdrawn]

theorem makeGroup_of_not_names (hnames : ∀ c, ¬ t.Names c) :
    ∃ e, makeGroup cls t prepared children w = .error e w ∧
      (e.category = .value ∨ e = .stackExhausted ∧ t.shown = .error .stackExhausted) := by
  obtain ⟨e, he, hcategory⟩ := connectiveOf_of_not_names hnames
  refine ⟨e, ?_, hcategory⟩
  rw [makeGroup, he]
  rfl

/-- A group that has been made has drawn its children. -/
theorem drawn_of_makeGroup {group : Value} {w' : World Store}
    (hmade : makeGroup cls t prepared children w = .ok group w') :
    ∃ c items w₁, t.Names c ∧ draw prepared children w = .ok items w₁ ∧
      newGroup cls c items w₁ = .ok group w' := by
  by_cases hnames : ∃ c, t.Names c
  · obtain ⟨c, hnames⟩ := hnames
    rw [makeGroup_of_names hnames] at hmade
    obtain ⟨items, w₁, hdrawn, hnew⟩ := bind_ok hmade
    exact ⟨c, items, w₁, hnames, hdrawn, hnew⟩
  · obtain ⟨e, he, -⟩ : ∃ e, makeGroup cls t prepared children w = .error e w ∧ _ :=
      makeGroup_of_not_names (not_exists.mp hnames)
    exact nomatch hmade.symm.trans he

/-! ## Children -/

theorem find_ok {α : Type} {names : List (String × α)} {name : String} {a : α} {w' : World Store}
    (hfound : find names name w = .ok a w') : w' = w := by
  rcases find_cases names name with ⟨a', hfind⟩ | ⟨e, hfind⟩
  · rw [hfind] at hfound
    cases hfound
    rfl
  · rw [hfind] at hfound
    cases hfound

/-- Nothing is left of an iterator that has been drained. -/
theorem drain_ok {name : String} {items : List Value} {w' : World Store}
    (hdrained : drain name w = .ok items w') : ∃ rest, w'.state.iterators = (name, []) :: rest := by
  obtain ⟨s, w₁, hstore, hrest⟩ := bind_ok hdrained
  cases hstore
  obtain ⟨found, w₂, -, hrest'⟩ := bind_ok hrest
  cases hrest'
  exact ⟨_, rfl⟩

theorem drain_of_found {name : String} {items : List Value}
    (hfound : find w.state.iterators name w = .ok items w) :
    drain name w = .ok items { w with
      state := { w.state with iterators := (name, []) :: w.state.iterators } } :=
  (bind_of_ok rfl).trans ((bind_of_ok hfound).trans rfl)

theorem drain_of_drained {name : String} {rest : List (String × List Value)}
    (hdrained : w.state.iterators = (name, []) :: rest) : ∃ w', drain name w = .ok [] w' :=
  ⟨_, drain_of_found (by rw [hdrained, find_cons_self]; rfl)⟩

/-- Children of every kind give what they should. -/
theorem draws_of_prepared {w' : World Store} (hprepared : prepare children w = .ok prepared w') :
    Draws w w' children (draw prepared children w') := by
  cases children with
  | items nodes =>
    obtain ⟨items, w₁, hmade, hlist⟩ := bind_ok hprepared
    cases hlist
    exact .items hmade
  | drawn nodes =>
    cases hprepared
    exact .drawn rfl
  | namedList name =>
    obtain ⟨_, _, hstore, hrest⟩ := bind_ok hprepared
    cases hstore
    obtain ⟨items, _, hfound, hlist⟩ := bind_ok hrest
    cases hlist
    exact .namedList hfound
  | namedIterator name =>
    obtain ⟨_, _, hstore, hrest⟩ := bind_ok hprepared
    cases hstore
    obtain ⟨items, _, hfound, hnothing⟩ := bind_ok hrest
    cases hnothing
    obtain rfl := find_ok hfound
    rw [draw, drain_of_found hfound]
    exact .namedIterator rfl hfound
  | value p =>
    rw [draw, Value.items]
    cases hitems : prepared.items? with
    | some items => exact .value hprepared hitems
    | none => exact .notIterable hprepared hitems

theorem makesExactly_of (cls : ClassTag) (t prepared : Value) (children : ChildrenPlan)
    (w : World Store) : MakesExactly cls t prepared children w where
  succeeds := by
    constructor
    · rintro ⟨group, w', hmade⟩
      obtain ⟨c, items, w₁, hnames, hdrawn, -⟩ := drawn_of_makeGroup hmade
      exact ⟨⟨c, hnames⟩, items, w₁, hdrawn⟩
    · rintro ⟨⟨c, hnames⟩, items, w₁, hdrawn⟩
      obtain ⟨group, w', hnew, -⟩ := newGroup_holds cls c items w₁
      exact ⟨group, w', (makeGroup_of_drawn hnames hdrawn).trans hnew⟩
  made {c items w₁} hnames hdrawn := by
    obtain ⟨group, w', hnew, hholds, -⟩ := newGroup_holds cls c items w₁
    exact ⟨group, w', (makeGroup_of_drawn hnames hdrawn).trans hnew, hholds⟩
  exhausted {name group w'} hchildren hmade cls' t' prepared' c' hnames := by
    subst hchildren
    obtain ⟨c, items, w₁, -, hdrawn, hnew⟩ := drawn_of_makeGroup hmade
    obtain ⟨rest, hrest⟩ := drain_ok hdrawn
    obtain ⟨_, w₂, hnew₂, -, hstate⟩ := newGroup_holds cls c items w₁
    cases hnew.symm.trans hnew₂
    obtain ⟨w₃, hdrained⟩ : ∃ w₃, drain name w' = .ok [] w₃ :=
      drain_of_drained ((congrArg Store.iterators hstate).trans hrest)
    have hdrawn' : draw prepared' (.namedIterator name) w' = .ok [] w₃ := hdrained
    obtain ⟨group', w'', hnew', hholds, -⟩ := newGroup_holds cls' c' [] w₃
    exact ⟨group', w'', (makeGroup_of_drawn hnames hdrawn').trans hnew', hholds⟩
  refused := makeGroup_of_not_names
  undrawn := makeGroup_of_undrawn
  notIterable {c p} hchildren hnames hitems := by
    subst hchildren
    refine ⟨.notIterable prepared.typeName, makeGroup_of_undrawn hnames ?_, rfl⟩
    change ofExcept prepared.items w = _
    rw [Value.items, hitems]
    rfl

end

/-- Groups are made exactly of what is drawn from their children, under the connective that was
named, with the connective looked at first. What is drawn are the items that the children have, or
have left. -/
theorem makesExactly :
    (∀ tag children className, makeNode (.tagged tag (some children) className) = (do
      let t ← makeValue tag
      let cls ← classOr .group className
      makeGroup cls t (← prepare children) children)) ∧
    (∀ isOr children, makeNode (.group isOr children) = (do
      let prepared ← prepare children
      makeGroup .group (.connective (if isOr then .or else .and)) prepared children)) ∧
    (∀ cls t prepared children w, MakesExactly cls t prepared children w) ∧
    ∀ children prepared w w', prepare children w = .ok prepared w' →
      Draws w w' children (draw prepared children w') :=
  ⟨makeNode_tagged, makeNode_group, makesExactly_of, fun _ _ _ _ ↦ draws_of_prepared⟩

end Session

end ShortCircuit
