import ShortCircuit.Proofs.Evaluation.Room
import ShortCircuit.Session.Step

/-!
# The meaning of a tree

A tree of atoms with truth values means a truth value: a disjunction that of some child, a
conjunction that of all children. `evaluate_eq_meaning` says that an evaluation finds the meaning
of its tree if every atom converts to its truth value whenever it is verified, whatever its
answers are and whatever else its verification does.
-/

namespace ShortCircuit

variable {α β σ ε : Type}

/-- What a connective makes of the truth values of the children. -/
def Connective.combine : Connective → List Bool → Bool
  | .or, values => values.any fun b ↦ b
  | .and, values => values.all fun b ↦ b

namespace Condition

mutual

/-- The truth value of a tree, given those of its atoms. -/
def meaning (value : α → Bool) : Condition α → Bool
  | .atom a => value a
  | .group _ k children => k.combine (meanings value children)

/-- The truth values of a list of trees. -/
def meanings (value : α → Bool) : List (Condition α) → List Bool
  | [] => []
  | c :: rest => meaning value c :: meanings value rest

end

mutual

/-- The atoms of a tree, from left to right. -/
def atoms : Condition α → List α
  | .atom a => [a]
  | .group _ _ children => atomsOfAll children

/-- The atoms of a list of trees. -/
def atomsOfAll : List (Condition α) → List α
  | [] => []
  | c :: rest => atoms c ++ atomsOfAll rest

end

theorem meanings_eq_map (value : α → Bool) (cs : List (Condition α)) :
    meanings value cs = cs.map (meaning value) := by
  induction cs with
  | nil => rfl
  | cons c rest ih => rw [meanings, List.map_cons, ih]

/-- An atom is one of a list of trees if it is one of some tree in the list. -/
theorem mem_atomsOfAll {a : α} {cs : List (Condition α)} :
    a ∈ atomsOfAll cs ↔ ∃ c ∈ cs, a ∈ c.atoms := by
  induction cs with
  | nil => simp [atomsOfAll]
  | cons c rest ih => simp [atomsOfAll, ih]

end Condition

namespace Connective

@[simp] theorem combine_nil (k : Connective) : k.combine [] = !k.deciding := by
  cases k <;> rfl

/-- A deciding value settles the combination. -/
@[simp] theorem combine_cons_deciding (k : Connective) (values : List Bool) :
    k.combine (k.deciding :: values) = k.deciding := by
  cases k <;> rfl

/-- The opposite of the deciding value leaves the combination to the other values. -/
@[simp] theorem combine_cons_opposite (k : Connective) (values : List Bool) :
    k.combine ((!k.deciding) :: values) = k.combine values := by
  cases k <;> simp [combine, deciding]

end Connective

namespace Host

variable {h : Host α β σ ε}

/-- In states of a kind, the atom offers something to call, the call gives the answer, the answer
converts to the truth value, and the state that is left is of the kind again. -/
def Constant (h : Host α β σ ε) (kind : σ → Prop) (a : α) (answer : β) (b : Bool) : Prop :=
  ∀ s, kind s → ∃ verify, (h.offer a s).outcome = .ok (some verify) ∧
    (verify (h.offer a s).state).outcome = .ok answer ∧
    (h.truth answer (verify (h.offer a s).state).state).outcome = .ok b ∧
    kind (h.truth answer (verify (h.offer a s).state).state).state

theorem Constant.verification {kind : σ → Prop} {a : α} {answer : β} {b : Bool} {s : σ}
    (ha : h.Constant kind a answer b) (hs : kind s) :
    (h.verification false a s).outcome = .ok b ∧ kind (h.verification false a s).state := by
  obtain ⟨verify, hoffer, hcall, htruth, hkind⟩ := ha s hs
  simp only [Host.verification, hoffer, hcall]
  exact ⟨htruth, hkind⟩

variable {kind : σ → Prop} {answer : α → β} {value : α → Bool}

mutual

/-- The traversal of a tree of constant atoms finds the meaning of the tree. -/
theorem Traversal.eq_meaning {p : Position} {c : Condition α} {s s' : σ} {vs : List (Visit α σ)}
    {r : Except ε Bool} : h.Traversal p c s vs r s' →
    (∀ a ∈ c.atoms, h.Constant kind a (answer a) (value a)) → kind s →
    r = .ok (c.meaning value) ∧ kind s'
  | .atom outcome state, hatoms, hs => by
    obtain ⟨houtcome, hkind⟩ := (hatoms _ (List.mem_singleton_self _)).verification hs
    rw [outcome] at houtcome
    rw [state] at hkind
    exact ⟨houtcome, hkind⟩
  | .group scan, hatoms, hs => scan.eq_meaning hatoms hs
  termination_by structural ht => ht

theorem Scan.eq_meaning {p : Position} {k : Connective} {i : Nat} {children : List (Condition α)}
    {s s' : σ} {vs : List (Visit α σ)} {r : Except ε Bool} : h.Scan p k i children s vs r s' →
    (∀ a ∈ Condition.atomsOfAll children, h.Constant kind a (answer a) (value a)) → kind s →
    r = .ok (k.combine (Condition.meanings value children)) ∧ kind s'
  | .exhausted, _, hs => ⟨by rw [Condition.meanings, Connective.combine_nil], hs⟩
  | .decided first, hatoms, hs => by
    obtain ⟨hfirst, hkind⟩ :=
      first.eq_meaning (fun a ha ↦ hatoms a (List.mem_append_left _ ha)) hs
    rw [Condition.meanings, ← Except.ok.inj hfirst, Connective.combine_cons_deciding]
    exact ⟨rfl, hkind⟩
  | .failed first, hatoms, hs => by
    obtain ⟨hfirst, -⟩ := first.eq_meaning (fun a ha ↦ hatoms a (List.mem_append_left _ ha)) hs
    cases hfirst
  | .passed first further, hatoms, hs => by
    obtain ⟨hfirst, hkind⟩ :=
      first.eq_meaning (fun a ha ↦ hatoms a (List.mem_append_left _ ha)) hs
    obtain ⟨hfurther, hkind'⟩ :=
      further.eq_meaning (fun a ha ↦ hatoms a (List.mem_append_right _ ha)) hkind
    rw [Condition.meanings, ← Except.ok.inj hfirst, Connective.combine_cons_opposite]
    exact ⟨hfurther, hkind'⟩
  termination_by structural hs => hs

end

/-- An evaluation of constant atoms within its room finds the meaning of the tree. -/
theorem evaluate_of_constant {settings : Settings} {room : Nat} {c : Condition α} {w : World σ}
    (hatoms : ∀ a ∈ c.atoms, h.Constant kind a (answer a) (value a)) (hw : kind w.state)
    (hroom : ¬ h.Exhausts settings room c w) :
    (h.evaluate settings room c w).1 = .ok (c.meaning value) := by
  obtain ⟨vs, r, s', ht⟩ := h.exists_traversal [] w.state c
  obtain ⟨hmeaning, -⟩ := ht.eq_meaning hatoms hw
  rw [evaluate_eq ht hroom]
  exact hmeaning

end Host

/-- The stack always finds the meaning of a tree of constant atoms, and recursion finds it within
its room. -/
theorem evaluate_eq_meaning (h : Host α β σ ε) (c : Condition α) (answer : α → β)
    (truth : β → Bool) (kind : σ → Prop) (w : World σ) (hw : kind w.state)
    (hatoms : ∀ a ∈ c.atoms, h.Constant kind a (answer a) (truth (answer a)))
    (trace : Bool) (room : Nat) :
    (h.evaluate ⟨.iterative, trace⟩ room c w).1 = .ok (c.meaning fun a ↦ truth (answer a)) ∧
      (¬ h.Exhausts ⟨.recursive, trace⟩ room c w →
        (h.evaluate ⟨.recursive, trace⟩ room c w).1 = .ok (c.meaning fun a ↦ truth (answer a))) := by
  obtain ⟨vs, r, s', ht⟩ := h.exists_traversal [] w.state c
  obtain ⟨hmeaning, -⟩ := ht.eq_meaning hatoms hw
  constructor
  · rw [Host.evaluate_eq ht (h.not_exhausts_iterative trace room c w)]
    exact hmeaning
  · intro hroom
    rw [Host.evaluate_eq ht hroom]
    exact hmeaning

namespace Session

/-- A group without children, of a class that has a method of its own. -/
def loudGroup : Condition Value := .group ⟨firstFreshId, ⟨firstFreshId + 1, "Loud"⟩⟩ .or []

/-- A leaf whose calls are recorded and answer with a value. -/
def steadyLeaf (v : Value) : Value :=
  .leaf ⟨⟨firstFreshId + 2, .leaf⟩, false, ⟨some "steady", .returns v⟩, none⟩

/-- A disjunction of the loud group and of a conjunction of a leaf that answers seven and a
constant. -/
def steadyTree : Condition Value :=
  .group ⟨firstFreshId + 3, .group⟩ .or
    [loudGroup, .group ⟨firstFreshId + 4, .group⟩ .and
      [.atom (steadyLeaf (.int 7)), .atom (constantCondition true)]]

/-- What a leaf answers if it answers the same at every call. -/
def steadyAnswer : Value → Value
  | .leaf ⟨_, stored, verifier, _⟩ =>
    match verifier.action with
    | .returns answer => answer
    | _ => .bool stored
  | v => v

/-- The truth value of an answer that has one. -/
def truthOf (answer : Value) : Bool := answer.holds.toOption.getD false

/-- A constant is constant as long as no attribute has been set. -/
theorem constantCondition_constant (b : Bool) :
    (host 0).Constant (fun s ↦ s.settingsOnObjects = []) (constantCondition b)
      (steadyAnswer (constantCondition b)) (truthOf (steadyAnswer (constantCondition b))) := by
  rintro ⟨nextId, nodes, settings, evaluators, lists, iterators, counters, settingsOnObjects,
    unpacked, calls⟩ hs
  obtain rfl : settingsOnObjects = [] := hs
  exact ⟨_, rfl, rfl, rfl, rfl⟩

/-- So is a leaf that answers with an integer. -/
theorem steadyLeaf_constant (n : Int) :
    (host 0).Constant (fun s ↦ s.settingsOnObjects = []) (steadyLeaf (.int n))
      (steadyAnswer (steadyLeaf (.int n))) (truthOf (steadyAnswer (steadyLeaf (.int n)))) := by
  rintro ⟨nextId, nodes, settings, evaluators, lists, iterators, counters, settingsOnObjects,
    unpacked, calls⟩ hs
  obtain rfl : settingsOnObjects = [] := hs
  exact ⟨_, rfl, rfl, rfl, rfl⟩

/-- The atoms of the steady tree are constant as long as no attribute has been set. -/
theorem steadyTree_constant : ∀ a ∈ steadyTree.atoms,
    (host 0).Constant (fun s ↦ s.settingsOnObjects = []) a (steadyAnswer a)
      (truthOf (steadyAnswer a)) := by
  intro a ha
  have hsteady : a = steadyLeaf (.int 7) ∨ a = constantCondition true := by
    simpa [steadyTree, loudGroup, Condition.atoms, Condition.atomsOfAll] using ha
  obtain rfl | rfl := hsteady
  · exact steadyLeaf_constant 7
  · exact constantCondition_constant true

theorem steadyTree_within (log : Array Record) :
    ¬ (host 0).Exhausts ⟨.recursive, true⟩ 3 steadyTree ⟨{}, log⟩ := by
  intro hexhausted
  have hanswer : ((host 0).telling.walk ⟨.recursive, true⟩ 3 steadyTree ⟨{}, log⟩).1 =
      .ok true := rfl
  cases hanswer.symm.trans hexhausted

end Session

/-- The method of the loud group would answer true, but the group is a disjunction of nothing. -/
theorem evaluate_eq_meaning_steadyTree :
    Session.start.state.settingsOnObjects = [] ∧
      (∀ a ∈ Session.steadyTree.atoms,
        (Session.host 0).Constant (fun s ↦ s.settingsOnObjects = []) a (Session.steadyAnswer a)
          (Session.truthOf (Session.steadyAnswer a))) ∧
      ((Session.host 0).evaluate ⟨.iterative, true⟩ 3 Session.steadyTree Session.start).1 =
        .ok true ∧
      ¬ (Session.host 0).Exhausts ⟨.recursive, true⟩ 3 Session.steadyTree Session.start ∧
      ((Session.host 0).evaluate ⟨.recursive, true⟩ 3 Session.steadyTree Session.start).1 =
        .ok true ∧
      Session.loudGroup.meaning (fun a ↦ Session.truthOf (Session.steadyAnswer a)) = false ∧
      ∃ w, Session.verify (fun _ _ ↦ throw .stackExhausted) (.condition Session.loudGroup)
        Session.start = .ok (.bool true) w := by
  have hroom := Session.steadyTree_within #[]
  obtain ⟨hiterative, hrecursive⟩ :=
    evaluate_eq_meaning (Session.host 0) Session.steadyTree Session.steadyAnswer Session.truthOf
      (fun s ↦ s.settingsOnObjects = []) Session.start rfl Session.steadyTree_constant true 3
  exact ⟨rfl, Session.steadyTree_constant, hiterative, hroom, hrecursive hroom, rfl, _, rfl⟩

end ShortCircuit
