import Mathlib.Tactic.Choose
import ShortCircuit.Proofs.Session.Steps

/-!
# What cannot be changed

Plain leaves, plain groups and plain settings stay what they are through every session. `Immutable`
lists what that means for an object at one moment, and `performAll_immutable` says that it holds of
every such object at every later moment. In consequence a tree of plain nodes that are verified
purely is evaluated alike whenever, and by whichever evaluator, it is evaluated.
-/

namespace ShortCircuit

/-- The value is an object that cannot be changed: a plain leaf, a plain group or plain settings. -/
def Value.IsFixed : Value → Prop
  | .leaf l => l.origin.cls = .leaf
  | .condition (.group origin _ _) => origin.cls = .group
  | .settings origin _ => origin.cls = .settings
  | _ => False

theorem Value.exists_identity {v : Value} (hv : v.IsFixed) : ∃ i, v.identity? = some i := by
  cases v with
  | leaf l => exact ⟨_, rfl⟩
  | condition c =>
    cases c with
    | atom v => exact hv.elim
    | group origin k children => exact ⟨_, rfl⟩
  | settings origin s => exact ⟨_, rfl⟩
  | _ => exact hv.elim

/-- The value occurs in a session: in something that its store holds, or as one of the constant
conditions. -/
def Store.Has (s : Store) (v : Value) : Prop :=
  (∃ held ∈ s.values, v.Occurs held) ∨ ∃ b, v = Session.constantCondition b

theorem Ledger.Keeps.lists_of_has {L : Ledger} {allowed : Value → String → Prop} {s : Store}
    {v : Value} (h : L.Keeps allowed s) (hv : s.Has v) : L.Lists v := by
  rcases hv with ⟨held, hheld, hoccurs⟩ | ⟨b, rfl⟩
  · exact fun u hu ↦ h.held held hheld u (hu.trans hoccurs)
  · exact L.lists_constant b

namespace Session

/-! ## Fixed objects -/

/-- The attributes of objects that are not fixed, under any name. -/
def Changeable (v : Value) (_name : String) : Prop := ¬ v.IsFixed

theorem isFrozen_of_isFixed {v : Value} (hv : v.IsFixed) (name : String) :
    isFrozen v name = true := by
  cases v with
  | leaf l => simp [isFrozen, show l.origin.cls = .leaf from hv, ClassTag.isPlain, ClassTag.leaf]
  | condition c =>
    cases c with
    | atom v => exact hv.elim
    | group origin k children =>
      simp [isFrozen, show origin.cls = .group from hv, ClassTag.isPlain, ClassTag.group]
  | settings origin s =>
    simp [isFrozen, show origin.cls = .settings from hv, ClassTag.isPlain, ClassTag.settings]
  | _ => exact hv.elim

theorem permits_changeable (v : Value) (name : String) : Permits Changeable v name where
  change hfrozen hv := by simp [isFrozen_of_isFixed hv] at hfrozen
  replacement hfrozen _ _ hv := by simp [isFrozen_of_isFixed hv] at hfrozen

/-- No step changes an attribute of a fixed object. -/
theorem permittedAll_changeable (steps : List Step) (w : World Store) :
    PermittedAll Changeable steps w := by
  induction steps generalizing w with
  | nil => trivial
  | cons step rest ih =>
    refine ⟨?_, ih _⟩
    cases step with
    | setAttribute target name new => exact fun v _ ↦ permits_changeable v name
    | deleteAttribute target name => exact fun v _ ↦ permits_changeable v name
    | _ => trivial

/-- No attribute has been set on the value or deleted from it. -/
def Untouched (s : Store) (v : Value) : Prop := ∀ name, Store.attribute? s v name = none

theorem untouched_of_isFixed {L : Ledger} {s : Store} {v : Value} (h : L.Keeps Changeable s)
    (hlists : L.Lists v) (hv : v.IsFixed) : Untouched s v := by
  refine fun name ↦ h.attribute_eq_none hlists (fun i hi ↦ ?_) (not_not_intro hv)
  cases v with
  | leaf l => exact hi
  | condition c =>
    cases c with
    | atom v => exact hv.elim
    | group origin k children => exact hi
  | settings origin s => exact hi
  | _ => exact hv.elim

/-- The attribute of a value as it was made with it. -/
def madeAttribute (v : Value) (name : String) : Except Failure Value :=
  (v.attribute? name).elim (.error (v.lacks name)) .ok

/-- Settings have every field that their class provides something for. -/
theorem classAttribute_settings_eq_none {origin : Origin} {x : Settings} {name : String}
    (hnone : (Value.settings origin x).attribute? name = none) :
    (Value.settings origin x).classAttribute? name = none := by
  cases hfield : Settings.Field.ofName? name with
  | none => simp [Value.classAttribute?, hfield]
  | some f =>
    have hname : f.name = name := by simpa using List.find?_some hfield
    subst hname
    cases f <;> cases hnone

theorem readAttribute_of_untouched {s : Store} {v : Value} (hv : v.IsFixed)
    (huntouched : Untouched s v) (name : String) :
    readAttribute s v name = madeAttribute v name := by
  have hclass (hnone : v.attribute? name = none) : v.classAttribute? name = none := by
    cases v with
    | leaf l => rfl
    | condition c =>
      cases c with
      | atom v => exact hv.elim
      | group origin k children =>
        by_cases hname : name = "conditions"
        · subst hname
          cases hnone
        · simp [Value.classAttribute?, hname]
    | settings origin s => exact classAttribute_settings_eq_none hnone
    | _ => exact hv.elim
  simp only [readAttribute, huntouched name, Option.getD_none, madeAttribute]
  cases hmade : v.attribute? name with
  | none => simp [hclass hmade]
  | some x => rfl

/-! ## Runs -/

theorem bind_ok {α β : Type} {m : Session α} {f : α → Session β} {w w' : World Store} {b : β}
    (hrun : (m >>= f) w = .ok b w') : ∃ a w₁, m w = .ok a w₁ ∧ f a w₁ = .ok b w' := by
  simp only [bind, EStateM.bind] at hrun
  split at hrun
  · exact ⟨_, _, ‹_›, hrun⟩
  · cases hrun

theorem bind_error {α β : Type} {m : Session α} {f : α → Session β} {w w' : World Store}
    {e : Failure} (hrun : (m >>= f) w = .error e w') :
    m w = .error e w' ∨ ∃ a w₁, m w = .ok a w₁ ∧ f a w₁ = .error e w' := by
  simp only [bind, EStateM.bind] at hrun
  split at hrun
  · exact .inr ⟨_, _, ‹_›, hrun⟩
  · cases hrun
    exact .inl ‹_›

theorem bind_of_ok {α β : Type} {m : Session α} {f : α → Session β} {a : α} {w w' : World Store}
    (hrun : m w = .ok a w') : (m >>= f) w = f a w' := by
  simp only [bind, EStateM.bind, hrun]

theorem ofExcept_ok {α : Type} {x : Except Failure α} {a : α} {w w' : World Store}
    (hrun : ofExcept x w = .ok a w') : x = .ok a ∧ w' = w := by
  cases x <;> cases hrun
  exact ⟨rfl, rfl⟩

theorem worldAfter_of_ok {α : Type} {m : Session α} {a : α} {w w' : World Store}
    (hrun : m w = .ok a w') : worldAfter m w = w' := by
  rw [worldAfter, hrun]

/-- A copy of a fixed object is fixed, and it takes a new identity. -/
theorem copyWith_ok {o copy : Value} {changes : List (String × Value)} {w w' : World Store}
    (ho : o.IsFixed) (hrun : copyWith o changes w = .ok copy w') :
    copy.IsFixed ∧ copy.identity? = some w.state.nextId := by
  cases o with
  | leaf l =>
    rw [copyWith_leaf] at hrun
    obtain ⟨_, w₁, hcheck, hrest⟩ := bind_ok hrun
    obtain ⟨-, rfl⟩ := ofExcept_ok hcheck
    obtain ⟨b, w₂, hvalue, hnew⟩ := bind_ok hrest
    obtain ⟨-, rfl⟩ := ofExcept_ok hvalue
    cases hnew
    exact ⟨ho, rfl⟩
  | condition c =>
    cases c with
    | atom v => exact ho.elim
    | group origin k children =>
      rw [copyWith_group] at hrun
      obtain ⟨_, w₁, hcheck, hrest⟩ := bind_ok hrun
      obtain ⟨-, rfl⟩ := ofExcept_ok hcheck
      obtain ⟨c, w₂, htag, hrest'⟩ := bind_ok hrest
      obtain ⟨-, rfl⟩ := ofExcept_ok htag
      obtain ⟨items, w₃, hdrawn, hnew⟩ := bind_ok hrest'
      obtain ⟨-, rfl⟩ := ofExcept_ok hdrawn
      cases hnew
      exact ⟨ho, rfl⟩
  | settings origin s =>
    simp only [copyWith, constructorOf?] at hrun
    obtain ⟨_, w₁, hcheck, hrest⟩ := bind_ok hrun
    obtain ⟨-, rfl⟩ := ofExcept_ok hcheck
    obtain ⟨b, w₂, hvalue, hnew⟩ := bind_ok hrest
    obtain ⟨-, rfl⟩ := ofExcept_ok hvalue
    cases hnew
    exact ⟨ho, rfl⟩
  | _ => exact ho.elim

/-! ## Immutability -/

/-- The target of the same kind under another name. -/
def Target.renamed (name : String) : Target → Target
  | .node _ => .node name
  | .settings _ => .settings name
  | .evaluator _ => .evaluator name

/-- The object is what it was made as, and no step of the session can change it: in the given world,
attempts to set and to delete attributes of it fail, and a changed copy is another object. -/
structure Immutable (o : Value) (w : World Store) : Prop where
  /-- What occurs under the identity of the object is the object. -/
  same {u : Value} (hu : w.state.Has u) (hidentity : u.identity? = o.identity?) : u = o
  attributes (name : String) : readAttribute w.state o name = madeAttribute o name
  /-- An assignment fails once the new value has been made, and it leaves everything as it was. -/
  assignment {target : Target} (htarget : targetValue target w = .ok o w) (name : String)
      (new : ValuePlan) :
    perform (.setAttribute target name new) w =
        (makeValue new >>= fun _ ↦ throw (.frozenAssignment name)) w ∧
      w.state.Retains (worldAfter (perform (.setAttribute target name new)) w).state
  deletion {target : Target} (htarget : targetValue target w = .ok o w) (name : String) :
    perform (.deleteAttribute target name) w = .error (.frozenDeletion name) w
  /-- The copy that takes the name is an object that has not occurred before. -/
  copied {target : Target} {name : String} {changes : List (String × ValuePlan)} {report : Report}
      {w' : World Store} (htarget : targetValue target w = .ok o w)
      (hrun : perform (.copy target name changes) w = .ok report w') :
    ∃ copy, targetValue (target.renamed name) w' = .ok copy w' ∧ copy.IsFixed ∧
      ∀ u, w.state.Has u → u.identity? ≠ copy.identity?
  notCopied {target : Target} {name : String} {changes : List (String × ValuePlan)} {e : Failure}
      {w' : World Store} (htarget : targetValue target w = .ok o w)
      (hrun : perform (.copy target name changes) w = .error e w') :
    w.state.Retains w'.state

section

variable {L : Ledger} {w : World Store} {o : Value} {target : Target}

theorem find_cons_self {α : Type} (names : List (String × α)) (name : String) (a : α) :
    find ((name, a) :: names) name = pure a := by
  simp [find]

theorem not_evaluator_of_ok (htarget : targetValue target w = .ok o w) (n : String) :
    target ≠ .evaluator n := by
  rintro rfl
  obtain ⟨_, _, _, hrest⟩ := bind_ok htarget
  obtain ⟨_, _, _, hthrow⟩ := bind_ok hrest
  cases hthrow

theorem setAttribute_of_isFixed (ho : o.IsFixed) (htarget : targetValue target w = .ok o w)
    (name : String) (new : ValuePlan) :
    perform (.setAttribute target name new) w =
      (makeValue new >>= fun _ ↦ throw (.frozenAssignment name)) w := by
  have hset : setOnValue o name = fun _ ↦ throw (.frozenAssignment name) :=
    funext fun new ↦ setOnValue_of_frozen (isFrozen_of_isFixed ho name) new
  rw [perform, setAttribute_eq (not_evaluator_of_ok htarget), bind_assoc, bind_of_ok htarget, hset,
    bind_assoc]
  rfl

theorem deleteAttribute_of_isFixed (ho : o.IsFixed) (htarget : targetValue target w = .ok o w)
    (name : String) :
    perform (.deleteAttribute target name) w = .error (.frozenDeletion name) w := by
  rw [perform, deleteAttribute_eq (not_evaluator_of_ok htarget), bind_assoc, bind_of_ok htarget,
    deleteOnValue_of_frozen (isFrozen_of_isFixed ho name)]
  rfl

/-- The copy that a step has made of a fixed object has the name, and an identity that no object had
before. -/
theorem copy_ok {name : String} {changes : List (String × ValuePlan)} {report : Report}
    {w' : World Store} (ho : o.IsFixed) (htarget : targetValue target w = .ok o w)
    (hrun : perform (.copy target name changes) w = .ok report w') :
    ∃ copy i, targetValue (target.renamed name) w' = .ok copy w' ∧ copy.IsFixed ∧
      copy.identity? = some i ∧ w.state.nextId ≤ i := by
  rw [perform, bind_of_ok htarget] at hrun
  obtain ⟨fields, w₁, hfields, hrest⟩ := bind_ok hrun
  obtain ⟨copy, w₂, hcopy, hrest'⟩ := bind_ok hrest
  obtain ⟨d, w₃, -, hrest''⟩ := bind_ok hrest'
  obtain ⟨_, w₄, hkeep, hreport⟩ := bind_ok hrest''
  cases hreport
  obtain ⟨hfixed, hidentity⟩ := copyWith_ok ho hcopy
  refine ⟨copy, _, ?_, hfixed, hidentity, ?_⟩
  · cases target with
    | node n =>
      cases hkeep
      exact (bind_of_ok rfl).trans (by rw [find_cons_self, pure_bind]; rfl)
    | settings n =>
      cases hkeep
      exact (bind_of_ok rfl).trans (by rw [find_cons_self]; rfl)
    | evaluator n => exact absurd rfl (not_evaluator_of_ok htarget n)
  · have hretained := retaining_makeFields changes w
    rw [worldAfter_of_ok hfields] at hretained
    exact hretained.nextId

theorem Retaining.retains_of_error {α : Type} {m : Session α} {e : Failure} {w' : World Store}
    (hm : Retaining m) (hrun : m w = .error e w') : w.state.Retains w'.state := by
  have hw := hm w
  rwa [worldAfter, hrun] at hw

theorem Retaining.retains_of_ok {α : Type} {m : Session α} {a : α} {w' : World Store}
    (hm : Retaining m) (hrun : m w = .ok a w') : w.state.Retains w'.state := by
  have hw := hm w
  rwa [worldAfter, hrun] at hw

theorem keepCopy_ne_error {name : String} {v : Value} {e : Failure} {w' : World Store} :
    keepCopy target name v w ≠ .error e w' := by
  cases target <;> exact nofun

/-- A copy that fails has named nothing and changed no attribute. -/
theorem copy_error {name : String} {changes : List (String × ValuePlan)} {e : Failure}
    {w' : World Store} (htarget : targetValue target w = .ok o w)
    (hrun : perform (.copy target name changes) w = .error e w') : w.state.Retains w'.state := by
  rw [perform, bind_of_ok htarget] at hrun
  rcases bind_error hrun with hfields | ⟨fields, w₁, hfields, hrest⟩
  · exact (retaining_makeFields changes).retains_of_error hfields
  have h₁ := (retaining_makeFields changes).retains_of_ok hfields
  rcases bind_error hrest with hcopy | ⟨copy, w₂, hcopy, hrest'⟩
  · exact h₁.trans ((retaining_copyWith o fields).retains_of_error hcopy)
  have h₂ := h₁.trans ((retaining_copyWith o fields).retains_of_ok hcopy)
  rcases bind_error hrest' with hdescribe | ⟨d, w₃, hdescribe, hrest''⟩
  · exact h₂.trans ((retaining_ofExcept _).retains_of_error hdescribe)
  rcases bind_error hrest'' with hkeep | ⟨_, w₄, -, hreport⟩
  · exact absurd hkeep keepCopy_ne_error
  · cases hreport

/-- A fixed object is immutable in every world whose store is kept by a ledger that lists it. -/
theorem immutable_of_keeps (hw : L.Keeps Changeable w.state) (hlists : L.Lists o)
    (ho : o.IsFixed) : Immutable o w where
  same {u} hu hidentity := by
    have hu' := hw.lists_of_has hu
    obtain ⟨i, hi⟩ := Value.exists_identity ho
    exact Option.some.inj ((hu' u .refl i (hidentity.trans hi)).symm.trans (hlists o .refl i hi))
  attributes := readAttribute_of_untouched ho (untouched_of_isFixed hw hlists ho)
  assignment htarget name new := by
    rw [setAttribute_of_isFixed ho htarget]
    refine ⟨rfl, ?_⟩
    simp only [worldAfter, setAttribute_of_isFixed ho htarget]
    exact ((retaining_makeValue new).bind fun _ ↦ retaining_throw _) w
  deletion htarget name := deleteAttribute_of_isFixed ho htarget name
  copied htarget hrun := by
    obtain ⟨copy, i, hname, hfixed, hidentity, hnew⟩ := copy_ok ho htarget hrun
    refine ⟨copy, hname, hfixed, fun u hu hsame ↦ ?_⟩
    have hbelow := hw.below (hw.lists_of_has hu u .refl i (hsame.trans hidentity))
    omega
  notCopied htarget hrun := copy_error htarget hrun

end

end Session

end ShortCircuit
