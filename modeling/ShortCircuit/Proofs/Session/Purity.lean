import Mathlib.Tactic.Choose
import ShortCircuit.Proofs.Session.Immutability

/-!
# Pure verifiers and settled evaluations

A value is verified purely if its verification ends in one way and records the same calls whatever
the store, as long as no attribute of the value has been set or deleted. Attributes of plain leaves
never are. So every evaluation of a tree of plain nodes that are verified purely takes one course,
at any moment of the session and with any evaluator, as long as it does not run out of room.
-/

namespace ShortCircuit

namespace Condition

mutual

/-- All nodes of the tree are plain leaves and plain groups. -/
def IsPlain : Condition Value → Prop
  | .atom a => ∃ l : Leaf Value, a = .leaf l ∧ l.origin.cls = .leaf
  | .group origin _ children => origin.cls = .group ∧ ArePlain children

/-- All nodes of the trees are plain leaves and plain groups. -/
def ArePlain : List (Condition Value) → Prop
  | [] => True
  | c :: rest => IsPlain c ∧ ArePlain rest

end

mutual

theorem IsPlain.atoms : {c : Condition Value} → c.IsPlain →
    ∀ a ∈ c.atoms, ∃ l : Leaf Value, a = .leaf l ∧ l.origin.cls = .leaf
  | .atom _, h => fun _ ha ↦ List.mem_singleton.mp ha ▸ h
  | .group _ _ _, h => ArePlain.atoms h.2
  termination_by structural c => c

theorem ArePlain.atoms : {children : List (Condition Value)} → ArePlain children →
    ∀ a ∈ atomsOfAll children, ∃ l : Leaf Value, a = .leaf l ∧ l.origin.cls = .leaf
  | [], _ => nofun
  | _ :: _, h => fun a ha ↦ (List.mem_append.mp ha).elim (h.1.atoms a) (ArePlain.atoms h.2 a)
  termination_by structural children => children

end

mutual

/-- The atoms of a tree occur in it. -/
theorem occurs_of_mem_atoms : {c : Condition Value} → ∀ {a : Value}, a ∈ c.atoms →
    a.Occurs (.ofCondition c)
  | .atom _, _, ha => List.mem_singleton.mp ha ▸ .refl
  | .group _ _ children, _, ha => by
    obtain ⟨child, hchild, hoccurs⟩ := occurs_of_mem_atomsOfAll ha
    exact .part (List.mem_map_of_mem hchild) hoccurs
  termination_by structural c => c

theorem occurs_of_mem_atomsOfAll : {children : List (Condition Value)} → ∀ {a : Value},
    a ∈ atomsOfAll children → ∃ child ∈ children, a.Occurs (.ofCondition child)
  | child :: rest, _, ha => by
    rcases List.mem_append.mp ha with ha | ha
    · exact ⟨child, List.mem_cons_self, occurs_of_mem_atoms ha⟩
    · obtain ⟨c, hc, hoccurs⟩ := occurs_of_mem_atomsOfAll ha
      exact ⟨c, List.mem_cons_of_mem child hc, hoccurs⟩
  termination_by structural children => children

end

end Condition

/-- The atoms of the tree that a value stands for occur in the value. -/
theorem Value.occurs_of_mem_atoms {v a : Value} (ha : a ∈ v.toCondition.atoms) : a.Occurs v := by
  cases v with
  | condition c =>
    have hoccurs := Condition.occurs_of_mem_atoms ha
    cases c with
    | group origin k children => exact hoccurs
    | atom x => exact .part (List.mem_singleton_self x) hoccurs
  | _ =>
    cases List.mem_singleton.mp ha
    exact .refl

/-- The verifier does nothing but answer from the stored value, give a fixed answer or fail. -/
def Action.IsPure : Action Value → Prop
  | .stored | .negated | .returns _ | .raises _ _ => True
  | .sequence _ _ | .evaluates _ _ | .misplaced _ => False

namespace Session

/-! ## Pure verifiers -/

/-- The verification of the value has one outcome and records the same calls in every store in which
the attributes of the value are untouched, when at least `least` evaluations may still be nested. -/
def VerifiesPurely (least : Nat) (v : Value) : Prop :=
  ∃ (outcome : Except Failure Bool) (names : List String), ∀ nesting, least ≤ nesting →
    ∀ s : Store, Untouched s v →
      ((host nesting).verification false v s).outcome = outcome ∧
        ((host nesting).verification false v s).state.calls = names ++ s.calls

theorem Untouched.retains {s s' : Store} {v : Value} (hv : Untouched s v) (h : s.Retains s') :
    Untouched s' v := by
  intro name
  rw [← hv name]
  simp only [Store.attribute?, h.settingsOnObjects]

theorem host_eq (nesting : Nat) : ∃ evaluate, host nesting = hostWith evaluate := by
  cases nesting with
  | zero => exact ⟨_, rfl⟩
  | succ nesting => exact ⟨_, rfl⟩

/-- An untouched leaf offers its verifier. -/
theorem readVerify_leaf {s : Store} {l : Leaf Value} (hl : Untouched s (.leaf l)) :
    readVerify s (.leaf l) = .ok (.callable (.verifier (l.override.getD l.verifier))) := by
  have hprovision : (Value.leaf l).provision "verify" = .plain := rfl
  simp only [readVerify, hprovision, offerOr, hl "verify", madeOffer]

theorem readAttribute_value {s : Store} {l : Leaf Value} (hl : Untouched s (.leaf l)) :
    readAttribute s (.leaf l) "value" = .ok (.bool l.value) := by
  simp only [readAttribute, hl "value"]
  rfl

/-- What a pure verifier of a leaf comes to. -/
def pureAnswer (l : Leaf Value) : Action Value → Except Failure Value
  | .stored => .ok (.bool l.value)
  | .negated => .ok (.bool !l.value)
  | .returns answer => .ok answer
  | .raises kind message => .error (.raised kind message)
  | .sequence _ _ | .evaluates _ _ | .misplaced _ => .error .stackExhausted

theorem recordCall_eq (name : Option String) (w : World Store) :
    recordCall name w = .ok () { w with state := { w.state with
      calls := name.toList ++ w.state.calls } } := by
  cases name <;> rfl

theorem toAct_runVerifier {evaluate : NodePlan → EvaluatorPlan → Session Bool} {l : Leaf Value}
    {v : Verifier Value} (hv : v.action.IsPure) {s : Store} (hl : Untouched s (.leaf l)) :
    toAct (runVerifier evaluate (.leaf l) v) s =
      ⟨pureAnswer l v.action, { s with calls := v.name.toList ++ s.calls }, []⟩ := by
  obtain ⟨name, action⟩ := v
  have hvalue : readAttribute { s with calls := name.toList ++ s.calls } (.leaf l) "value" =
      .ok (.bool l.value) := readAttribute_value hl
  have hrun {f : Unit → Session Value} {w : World Store} :
      (recordCall name >>= f) w = f () { w with state := { w.state with
        calls := name.toList ++ w.state.calls } } := bind_of_ok (recordCall_eq name w)
  have hread {f : Store → Session Value} {w : World Store} : (store >>= f) w = f w.state w := rfl
  cases action with
  | stored => simp only [toAct, runVerifier, hrun, hread, hvalue, ofExcept]; rfl
  | negated =>
    simp only [toAct, runVerifier, hrun, hread, hvalue, ofExcept, pure_bind]
    rfl
  | returns answer => simp only [toAct, runVerifier, hrun]; rfl
  | raises kind message => simp only [toAct, runVerifier, hrun]; rfl
  | sequence counter answers => exact hv.elim
  | evaluates node evaluator => exact hv.elim
  | misplaced answer => exact hv.elim

/-- A leaf is verified purely if its verifier is pure. -/
theorem verifiesPurely_leaf {l : Leaf Value}
    (haction : (l.override.getD l.verifier).action.IsPure) :
    VerifiesPurely 0 (.leaf l) := by
  refine ⟨pureAnswer l (l.override.getD l.verifier).action >>= Value.holds,
    (l.override.getD l.verifier).name.toList, fun nesting _ s hl ↦ ?_⟩
  obtain ⟨evaluate, hhost⟩ := host_eq nesting
  have htruth (answer : Value) : (hostWith evaluate).truth answer = toAct (ofExcept answer.holds) :=
    rfl
  simp only [hhost, Host.verification, hostWith_offer, readVerify_leaf hl, call,
    toAct_runVerifier haction hl]
  cases pureAnswer l (l.override.getD l.verifier).action with
  | error e => exact ⟨rfl, rfl⟩
  | ok answer =>
    simp only [htruth, toAct_ofExcept]
    exact ⟨rfl, trivial⟩

/-! ## Settled evaluations -/

/-- Whatever evaluator evaluates the tree in the world, and however many evaluations may still be
nested above the least number, it has the outcome, calls the leaves in order and records the calls,
the latest first, unless it runs out of room. -/
def Settles (least : Nat) (tree : Condition Value) (outcome : Except Failure Bool)
    (leaves : List Value) (names : List String) (w : World Store) : Prop :=
  ∀ (nesting : Nat) (settings : Settings) (room : Nat), least ≤ nesting →
    ¬ (host nesting).Exhausts settings room tree w →
      ((host nesting).evaluate settings room tree w).1 = outcome ∧
        ((host nesting).recording.evaluate settings room tree w.recording).2.state.2 = leaves ∧
          ((host nesting).evaluate settings room tree w).2.state.calls = names ++ w.state.calls

/-- A tree of pure leaves takes one course in all stores in which its leaves are untouched. -/
theorem exists_settles {least : Nat} {tree : Condition Value}
    (hplain : ∀ a ∈ tree.atoms, ∃ l, a = .leaf l) (hpure : ∀ a ∈ tree.atoms, VerifiesPurely least a) :
    ∃ outcome leaves names, ∀ w : World Store, (∀ a ∈ tree.atoms, Untouched w.state a) →
      Settles least tree outcome leaves names w := by
  choose! outcome names hverifies using hpure
  refine ⟨(tree.course outcome).1, (tree.course outcome).2,
    (tree.course outcome).2.reverse.flatMap names, fun w hw nesting settings room hleast hroom ↦ ?_⟩
  -- What is known of a state on the way: the leaves are untouched, and the leaves called before have
  -- had their calls recorded.
  let kind (before : List Value) (s : Store) : Prop :=
    (∀ a ∈ tree.atoms, Untouched s a) ∧ s.calls = before.reverse.flatMap names ++ w.state.calls
  have hsteady : ∀ a ∈ tree.atoms, (host nesting).Steady kind outcome a := by
    intro a ha
    obtain ⟨l, rfl⟩ := hplain a ha
    refine ⟨fun hs ↦ ?_, fun hs ↦ (hverifies _ ha nesting hleast _ (hs.1 _ ha)).1, fun hs ↦ ⟨?_, ?_⟩⟩
    · obtain ⟨evaluate, hhost⟩ := host_eq nesting
      rw [hhost, hostWith_offer, readVerify_leaf (hs.1 _ ha)]
      exact ⟨_, rfl⟩
    · exact fun b hb ↦ (hs.1 b hb).retains (retains_host nesting false _ _)
    · rw [(hverifies _ ha nesting hleast _ (hs.1 _ ha)).2, hs.2]
      simp
  have hstart : kind [] w.state := ⟨hw, rfl⟩
  obtain ⟨houtcome, hleaves, hkind⟩ := Host.evaluate_steady hsteady hstart hroom
  exact ⟨houtcome, hleaves, by simpa using hkind.2⟩

end Session

open Session

theorem Session.performAll_append (earlier later : List Step) (w : World Store) :
    (performAll (earlier ++ later) w).2 = (performAll later (performAll earlier w).2).2 := by
  simp only [performAll_world, List.foldl_append]

/-- Whatever steps a session goes through, the plain leaves, plain groups and plain settings that
have been made stay what they are: every attempt on their attributes fails and changes nothing, and
copies of them are new objects. So a tree of plain nodes that are verified purely has one outcome and
one sequence of calls, at whatever moment of the session and with whatever evaluator. A moment is any
world that retains what the steps before it have left, so moments within a step are among them. -/
theorem performAll_immutable (earlier : List Step) :
    (∀ o : Value, o.IsFixed → (performAll earlier start).2.state.Has o →
      ∀ later, Immutable o (performAll (earlier ++ later) start).2) ∧
    ∀ (tree : Value) (least : Nat), (performAll earlier start).2.state.Has tree →
      tree.toCondition.IsPlain → (∀ a ∈ tree.toCondition.atoms, VerifiesPurely least a) →
      ∃ outcome leaves names, ∀ (later : List Step) (w : World Store),
        (performAll (earlier ++ later) start).2.state.Retains w.state →
          Settles least tree.toCondition outcome leaves names w := by
  obtain ⟨L, -, hL⟩ := keeps_performAll (w := start) (Ledger.initial_keeps Changeable)
    (permittedAll_changeable earlier start)
  have hlater (later : List Step) : ∃ L' : Ledger, L.Extends L' ∧
      L'.Keeps Changeable (performAll (earlier ++ later) start).2.state := by
    rw [performAll_append]
    exact keeps_performAll hL (permittedAll_changeable later _)
  constructor
  · intro o ho hhas later
    obtain ⟨L', hextends, hL'⟩ := hlater later
    exact immutable_of_keeps hL' ((hL.lists_of_has hhas).mono hextends) ho
  · intro tree least hhas hplain hpure
    have hleaves := hplain.atoms
    obtain ⟨outcome, leaves, names, hsettles⟩ :=
      exists_settles (fun a ha ↦ (hleaves a ha).imp fun _ h ↦ h.1) hpure
    refine ⟨outcome, leaves, names, fun later w hw ↦ hsettles w fun a ha ↦ ?_⟩
    obtain ⟨L', hextends, hL'⟩ := hlater later
    obtain ⟨l, rfl, hcls⟩ := hleaves a ha
    have hlists : L'.Lists (.leaf l) := fun u hu ↦
      (hL.lists_of_has hhas).mono hextends u (hu.trans (Value.occurs_of_mem_atoms ha))
    have hfixed : (Value.leaf l).IsFixed := hcls
    exact (untouched_of_isFixed hL' hlists hfixed).retains hw

namespace Session

/-- A leaf that answers with its value, and one that answers with the opposite of it. -/
def plainLeaf (negates : Bool) : Value :=
  .leaf ⟨⟨if negates then firstFreshId + 1 else firstFreshId, .leaf⟩, true,
    if negates then ⟨some "second", .negated⟩ else ⟨some "first", .stored⟩, none⟩

/-- A tree of two groups in which a list keeps the plain leaves and a constant condition. -/
def plainTree : Value :=
  .condition (.group ⟨firstFreshId + 3, .group⟩ .and
    [.atom (plainLeaf false), .group ⟨firstFreshId + 2, .group⟩ .or
      [.atom (plainLeaf true), .atom (constantCondition true)]])

/-- The step that makes the plain tree. -/
def plainSteps : List Step :=
  [.defineList "kept" [.group false (.items
    [.leaf (.bool true) (some (.mk (some "first") .stored)),
      .group true (.items [.leaf (.bool true) (some (.mk (some "second") .negated)),
        .constant true])])]]

theorem plainSteps_has : (performAll plainSteps start).2.state.Has plainTree :=
  .inl ⟨plainTree, List.mem_singleton_self plainTree, .refl⟩

theorem plainTree_pure : ∀ a ∈ plainTree.toCondition.atoms, VerifiesPurely 0 a := by
  have hatoms : plainTree.toCondition.atoms =
      [plainLeaf false, plainLeaf true, constantCondition true] := rfl
  rw [hatoms]
  exact List.forall_mem_cons.mpr ⟨verifiesPurely_leaf trivial, List.forall_mem_cons.mpr
    ⟨verifiesPurely_leaf trivial, List.forall_mem_cons.mpr ⟨verifiesPurely_leaf trivial, nofun⟩⟩⟩

theorem plainTree_isPlain : plainTree.toCondition.IsPlain :=
  ⟨rfl, ⟨_, rfl, rfl⟩, ⟨rfl, ⟨_, rfl, rfl⟩, ⟨_, rfl, rfl⟩, trivial⟩, trivial⟩

end Session

/-- The plain tree stays what it is, and it is true at every later moment, after calls of the two
leaves that record them and of the constant condition. -/
theorem performAll_immutable_plainTree :
    (performAll plainSteps start).2.state.Has plainTree ∧
      (∀ later, Immutable plainTree (performAll (plainSteps ++ later) start).2) ∧
      ∀ (later : List Step) (w : World Store),
        (performAll (plainSteps ++ later) start).2.state.Retains w.state →
          Settles 0 plainTree.toCondition (.ok true)
            [plainLeaf false, plainLeaf true, constantCondition true] ["second", "first"] w := by
  obtain ⟨himmutable, hsettled⟩ := performAll_immutable plainSteps
  obtain ⟨outcome, leaves, names, hsettles⟩ :=
    hsettled plainTree 0 plainSteps_has plainTree_isPlain plainTree_pure
  -- The course is the one that an evaluation takes right after the tree has been made.
  obtain ⟨houtcome, hleaves, hnames⟩ := hsettles [] (performAll plainSteps start).2 (.refl _) 0
    ⟨.recursive, false⟩ 3 (Nat.le_refl 0) (Host.not_exhausts_of_depth_le _ (Nat.le_refl 3))
  obtain rfl : .ok true = outcome := houtcome
  obtain rfl : [plainLeaf false, plainLeaf true, constantCondition true] = leaves := hleaves
  obtain rfl : ["second", "first"] = names := Eq.trans hnames (List.append_nil names)
  exact ⟨plainSteps_has, fun later ↦ himmutable plainTree rfl plainSteps_has later, hsettles⟩

end ShortCircuit
