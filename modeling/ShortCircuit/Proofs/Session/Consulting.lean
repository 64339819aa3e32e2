import ShortCircuit.Proofs.Evaluation.Matching
import ShortCircuit.Proofs.Evaluation.Reentrance
import ShortCircuit.Proofs.Session.Retention

/-!
# Leaves that evaluate named trees

A leaf of a session may do nothing but evaluate a named tree with a named evaluator. Names stay what
they are while an evaluation goes on, so the leaf evaluates one tree with one group of settings
whenever it is called. `evaluate_consulting` says that a session evaluates a tree with such leaves
as `Host.reentrant` evaluates the tree that spells out what they evaluate.
-/

namespace ShortCircuit.Session

/-! ## What a leaf evaluates -/

/-- The evaluation of a named tree with a named evaluator changes nothing but by evaluating. -/
theorem evaluateIn_named {nesting : Nat} {h : Host Value Value Store Failure} {w : World Store}
    {node evaluator : String} {held : Held} {e : Evaluator} {settings : Settings}
    (hnode : find w.state.nodes node = pure held)
    (hevaluator : find w.state.evaluators evaluator = pure e)
    (hsettings : Evaluator.current w.state e = .ok settings) :
    evaluateIn nesting h (.named node) (.named evaluator) w =
      ofWorld (h.evaluate settings (walkRoom nesting) held.value.toCondition) w := by
  have hstore : store w = .ok w.state w := rfl
  simp only [evaluateIn, makeEvaluator, makeNode, bind, EStateM.bind, hstore, hevaluator, pure,
    EStateM.pure]
  simp only [hnode, pure, EStateM.pure, hstore, hsettings, ofExcept]

/-- A leaf without a name that evaluates a named tree with a named evaluator does nothing else: a
session verifies it as `Host.verification_evaluating` says. -/
theorem verification_evaluates {nesting : Nat} {trace : Bool} {v : Value} {s : Store}
    {node evaluator : String} {held : Held} {e : Evaluator} {settings : Settings}
    (hverify : readVerify s v =
      .ok (.callable (.verifier ⟨none, .evaluates (.named node) (.named evaluator)⟩)))
    (hnode : find s.nodes node = pure held) (hevaluator : find s.evaluators evaluator = pure e)
    (hsettings : Evaluator.current s e = .ok settings) :
    (host (nesting + 1)).verification trace v s =
      let answer := (host nesting).evaluation settings (walkRoom nesting) held.value.toCondition s
      ⟨answer.outcome, answer.state,
        (if trace then [.enteredLeaf v.typeName] else []) ++ answer.records⟩ := by
  have hevaluate : evaluateIn nesting (host nesting) (.named node) (.named evaluator) ⟨s, #[]⟩ =
      ofWorld ((host nesting).evaluate settings (walkRoom nesting) held.value.toCondition) ⟨s, #[]⟩ :=
    evaluateIn_named hnode hevaluator hsettings
  simp only [Host.verification, host, hostWith, toAct, offer_eq, hverify]
  simp only [call, runVerifier, recordCall, bind, EStateM.bind, pure, EStateM.pure, hevaluate,
    ofWorld, Host.evaluation]
  cases (host nesting).evaluate settings (walkRoom nesting) held.value.toCondition ⟨s, #[]⟩ with
  | mk r w =>
    cases r with
    | error e => simp
    | ok b => simp [Value.holds, ofExcept, pure, EStateM.pure]

/-- The value does nothing but evaluate the tree with the settings when it is called: the tree and
the evaluator are named, and the verifier answers with the result. -/
def Consults (s : Store) (v : Value) (settings : Settings) (c : Condition Value) : Prop :=
  ∃ node evaluator held e,
    readVerify s v =
        .ok (.callable (.verifier ⟨none, .evaluates (.named node) (.named evaluator)⟩)) ∧
      find s.nodes node = pure held ∧ find s.evaluators evaluator = pure e ∧
        Evaluator.current s e = .ok settings ∧ held.value.toCondition = c

section

variable {s s' : Store} {v : Value} {settings : Settings} {c : Condition Value}

theorem readAttribute_retains (h : s.Retains s') (v : Value) (name : String) :
    readAttribute s' v name = readAttribute s v name := by
  simp only [readAttribute, Store.attribute?, h.settingsOnObjects]

theorem readVerify_retains (h : s.Retains s') (v : Value) : readVerify s' v = readVerify s v := by
  simp only [readVerify, offerOr, Store.attribute?, h.settingsOnObjects]

theorem current_retains (h : s.Retains s') (e : Evaluator) :
    Evaluator.current s' e = Evaluator.current s e := by
  simp only [Evaluator.current, settingsOf, readAttribute_retains h]

/-- What a value evaluates does not change while nothing is named or set. -/
theorem Consults.retains (hv : Consults s v settings c) (h : s.Retains s') :
    Consults s' v settings c := by
  obtain ⟨node, evaluator, held, e, hverify, hnode, hevaluator, hsettings, hc⟩ := hv
  refine ⟨node, evaluator, held, e, ?_, ?_, ?_, ?_, hc⟩
  · rw [readVerify_retains h, hverify]
  · rw [h.nodes, hnode]
  · rw [h.evaluators, hevaluator]
  · rw [current_retains h, hsettings]

end

/-! ## Other leaves -/

/-- The value is verified alike however many evaluations may still be nested. -/
def Unnested (s : Store) (v : Value) : Prop :=
  ∀ (nesting : Nat) (trace : Bool) (s' : Store), s.Retains s' →
    (host nesting).verification trace v s' = (host 0).verification trace v s'

theorem call_eq {evaluate evaluate' : NodePlan → EvaluatorPlan → Session Bool} {v : Value}
    {m : Method}
    (hm : ∀ name node evaluator, m ≠ .verifier ⟨name, .evaluates node evaluator⟩) :
    call evaluate v m = call evaluate' v m := by
  cases m with
  | verifier verifier =>
    obtain ⟨name, action⟩ := verifier
    cases action with
    | evaluates node evaluator => exact absurd rfl (hm name node evaluator)
    | misplaced held => cases held <;> rfl
    | _ => rfl
  | _ => rfl

/-- Whatever is verified without evaluating a tree. -/
theorem unnested_of_readVerify {s : Store} {v : Value} (hv : ∀ name node evaluator, readVerify s v ≠
      .ok (.callable (.verifier ⟨name, .evaluates node evaluator⟩))) : Unnested s v := by
  intro nesting trace s' h
  have hcall (evaluate evaluate' : NodePlan → EvaluatorPlan → Session Bool) :
      (hostWith evaluate).verification trace v s' =
        (hostWith evaluate').verification trace v s' := by
    simp only [Host.verification, hostWith_offer, readVerify_retains h]
    cases hread : readVerify s v with
    | error e => rfl
    | ok offered =>
      cases offered with
      | notCallable answer => rfl
      | callable m =>
        have hm : call evaluate v m = call evaluate' v m :=
          call_eq fun name node evaluator heq ↦ hv name node evaluator (heq ▸ hread)
        simp only [hm]
        rfl
  cases nesting with
  | zero => rfl
  | succ nesting => exact hcall _ _

/-! ## Trees -/

/-- The atom stands for the value: for one that is verified alike at every level, or for one that
evaluates a tree for which, in turn, the tree of the atom stands. -/
def Stands (s : Store) : (nesting : Nat) → Reentrant Value → Value → Prop
  | _, .ordinary u, v => u = v ∧ Unnested s v
  | 0, .evaluating _ _ _, _ => False
  | nesting + 1, .evaluating className settings tree, v =>
    className = v.typeName ∧ ∃ c, Consults s v settings c ∧ tree.Matches (Stands s nesting) c

theorem stands_ordinary {s : Store} {nesting : Nat} {u v : Value} :
    Stands s nesting (.ordinary u) v ↔ u = v ∧ Unnested s v := by
  cases nesting <;> rfl

/-- A leaf that evaluates a named constant condition. -/
example :
    let s : Store := { nodes := [("inner", ⟨firstFreshId, constantCondition true⟩)]
                       evaluators := [("own", ⟨some (.settings ⟨firstFreshId, .settings⟩ {})⟩)] }
    Stands s 1 (.evaluating LibraryClass.leaf.name {} (.atom (.ordinary (constantCondition true))))
      (.leaf ⟨⟨firstFreshId + 1, .leaf⟩, false, ⟨none, .evaluates (.named "inner") (.named "own")⟩,
        none⟩) :=
  ⟨rfl, .atom (constantCondition true), ⟨"inner", "own", _, _, rfl, rfl, rfl, rfl, rfl⟩,
    .atom ⟨rfl, unnested_of_readVerify nofun⟩⟩

/-- A session verifies a value as the atom is verified that stands for it, and is left with what it
held. -/
theorem agree_stands (s : Store) : (nesting : Nat) →
    Host.Agree (Stands s nesting) s.Retains ((host 0).reentrant walkRoom nesting) (host nesting) := by
  have hagree (nesting : Nat) (hverification : ∀ a v, Stands s nesting a v → ∀ s', s.Retains s' →
      ∀ trace, ((host 0).reentrant walkRoom nesting).verification trace a s' =
        (host nesting).verification trace v s') :
      Host.Agree (Stands s nesting) s.Retains ((host 0).reentrant walkRoom nesting)
        (host nesting) := by
    refine ⟨fun related s' h trace ↦ hverification _ _ related s' h trace, fun related s' h ↦ ?_, ?_⟩
    · rw [hverification _ _ related s' h false]
      exact h.trans (retains_host nesting false _ s')
    · cases nesting <;> rfl
  have hordinary {nesting : Nat} {u v : Value} (hv : Stands s nesting (.ordinary u) v) {s' : Store}
      (h : s.Retains s') (trace : Bool) :
      ((host 0).reentrant walkRoom nesting).verification trace (.ordinary u) s' =
        (host nesting).verification trace v s' := by
    obtain ⟨rfl, hunnested⟩ := stands_ordinary.mp hv
    rw [Host.reentrant_verification_ordinary, hunnested nesting trace s' h]
  intro nesting
  induction nesting with
  | zero =>
    refine hagree 0 fun a v hv s' h trace ↦ ?_
    cases a with
    | ordinary u => exact hordinary hv h trace
    | evaluating className settings tree => exact hv.elim
  | succ nesting ih =>
    refine hagree (nesting + 1) fun a v hv s' h trace ↦ ?_
    cases a with
    | ordinary u => exact hordinary hv h trace
    | evaluating className settings tree =>
      obtain ⟨rfl, c, hconsults, htree⟩ := hv
      obtain ⟨node, evaluator, held, e, hverify, hnode, hevaluator, hsettings, rfl⟩ :=
        hconsults.retains h
      have hevaluate := Host.evaluate_agree_of_matches ih htree settings (walkRoom nesting)
        (w := ⟨s', #[]⟩) h
      rw [verification_evaluates hverify hnode hevaluator hsettings, Host.reentrant,
        Host.verification_evaluating]
      simp only [Host.evaluation, hevaluate]

/-- A session evaluates a tree as the tree is evaluated whose atoms spell out what its leaves
evaluate. -/
theorem evaluate_consulting {nesting : Nat} {tree : Condition (Reentrant Value)}
    {c : Condition Value} {w : World Store} (hc : tree.Matches (Stands w.state nesting) c)
    (settings : Settings) (room : Nat) :
    (host nesting).evaluate settings room c w =
      ((host 0).reentrant walkRoom nesting).evaluate settings room tree w :=
  (Host.evaluate_agree_of_matches (agree_stands w.state nesting) hc settings room
    (.refl w.state)).symm

end ShortCircuit.Session
