import ShortCircuit.Proofs.Evaluation.Course
import ShortCircuit.Proofs.Evaluation.Failures
import ShortCircuit.Proofs.Reading.Ends
import ShortCircuit.Session.Verification

/-!
# What making and evaluating retain

Making a value, verifying one and evaluating a tree name nothing, and set and delete no attribute.
They may only take identities, draw what is left in iterators, count the calls of verifiers and
record them; `Store.Retains` is that bound, and every evaluation stays within it, however it ends.
-/

namespace ShortCircuit

/-- Between the two stores nothing has been named, and no attribute set or deleted. Identities may
have been taken, iterators drained, and calls counted and recorded. -/
structure Store.Retains (s s' : Store) : Prop where
  nextId : s.nextId ≤ s'.nextId
  nodes : s'.nodes = s.nodes
  settings : s'.settings = s.settings
  evaluators : s'.evaluators = s.evaluators
  lists : s'.lists = s.lists
  iterators : ∀ n ∈ s'.iterators, n ∈ s.iterators ∨ n.2 = []
  settingsOnObjects : s'.settingsOnObjects = s.settingsOnObjects
  unpacked : s'.unpacked = s.unpacked

namespace Store.Retains

theorem refl (s : Store) : s.Retains s :=
  ⟨Nat.le_refl _, rfl, rfl, rfl, rfl, fun _ hn ↦ .inl hn, rfl, rfl⟩

theorem trans {s s' s'' : Store} (h : s.Retains s') (h' : s'.Retains s'') : s.Retains s'' where
  nextId := Nat.le_trans h.nextId h'.nextId
  nodes := h'.nodes.trans h.nodes
  settings := h'.settings.trans h.settings
  evaluators := h'.evaluators.trans h.evaluators
  lists := h'.lists.trans h.lists
  iterators n hn := (h'.iterators n hn).elim (h.iterators n) .inr
  settingsOnObjects := h'.settingsOnObjects.trans h.settingsOnObjects
  unpacked := h'.unpacked.trans h.unpacked

end Store.Retains

namespace Session

variable {α β : Type}

/-- The world that a computation leaves, whether it succeeds or fails. -/
def worldAfter (m : Session α) (w : World Store) : World Store :=
  match m w with
  | .ok _ w | .error _ w => w

/-- Whatever the computation comes to, the store that it leaves retains what was held. -/
def Retaining (m : Session α) : Prop := ∀ w : World Store, w.state.Retains (worldAfter m w).state

/-! ## Rules -/

theorem retaining_pure (a : α) : Retaining (pure a) := fun _ ↦ .refl _

theorem retaining_throw (e : Failure) : Retaining (throw e : Session α) := fun _ ↦ .refl _

theorem Retaining.bind {m : Session α} {f : α → Session β} (hm : Retaining m)
    (hf : ∀ a, Retaining (f a)) : Retaining (m >>= f) := by
  intro w
  have hfirst := hm w
  simp only [worldAfter, Bind.bind, EStateM.bind] at hfirst ⊢
  cases hrun : m w with
  | ok a w' =>
    rw [hrun] at hfirst
    exact hfirst.trans (hf a w')
  | error e w' =>
    rw [hrun] at hfirst
    exact hfirst

theorem composes_retaining : Composes fun α (m : Session α) ↦ Retaining m :=
  ⟨retaining_pure, Retaining.bind⟩

theorem retaining_ofExcept (x : Except Failure α) : Retaining (ofExcept x) := by
  cases x with
  | ok a => exact retaining_pure a
  | error e => exact retaining_throw e

theorem retaining_store : Retaining store := fun _ ↦ .refl _

theorem retaining_find (names : List (String × α)) (name : String) :
    Retaining (find names name) := by
  unfold find
  split
  · exact retaining_pure _
  · exact retaining_throw _

theorem retaining_record (r : Record) : Retaining (record r) := fun _ ↦ .refl _

theorem retaining_freshId : Retaining freshId := fun _ ↦
  { Store.Retains.refl _ with nextId := Nat.le_succ _ }

theorem retaining_recordCall (name : Option String) : Retaining (recordCall name) := by
  cases name with
  | none => exact retaining_pure _
  | some name => exact fun _ ↦ { Store.Retains.refl _ with }

/-- An iterator that has nothing left holds nothing. -/
theorem retaining_drained (name : String) :
    Retaining (modifyStore fun s ↦ { s with iterators := (name, []) :: s.iterators }) := by
  refine fun w ↦ { Store.Retains.refl w.state with iterators := fun n hn ↦ ?_ }
  rcases List.mem_cons.mp hn with rfl | hn
  · exact .inr rfl
  · exact .inl hn

theorem retaining_drain (name : String) : Retaining (drain name) :=
  retaining_store.bind fun s ↦ (retaining_find s.iterators name).bind fun _ ↦
    (retaining_drained name).bind fun _ ↦ retaining_pure _

/-! ## Making -/

theorem retaining_newGroup (cls : ClassTag) (c : Connective) (items : List Value) :
    Retaining (newGroup cls c items) :=
  retaining_freshId.bind fun _ ↦ retaining_pure _

theorem retaining_newSettings (cls : ClassTag) (s : Settings) : Retaining (newSettings cls s) :=
  retaining_freshId.bind fun _ ↦ retaining_pure _

theorem retaining_newClass (name : String) : Retaining (newClass name) :=
  retaining_freshId.bind fun _ ↦ retaining_pure _

theorem retaining_classOr (cls : ClassTag) (className : Option String) :
    Retaining (classOr cls className) := by
  cases className with
  | none => exact retaining_pure _
  | some name => exact retaining_newClass name

theorem retaining_referenceTree : Retaining referenceTree := by
  unfold referenceTree
  repeat' refine Retaining.bind (retaining_newGroup _ _ _) fun _ ↦ ?_
  exact retaining_newGroup _ _ _

mutual

theorem retaining_makeValue : (p : ValuePlan) → Retaining (makeValue p)
  | .nothing | .bool _ | .int _ | .text _ | .bytes _ => retaining_pure _
  | .float _ | .witness _ => retaining_freshId.bind fun _ ↦ retaining_pure _
  | .list items | .tuple items => (retaining_makeValues items).bind fun _ ↦ retaining_pure _
  | .dict entries => (retaining_makeEntries [] entries).bind fun _ ↦ retaining_pure _
  | .strategy constant => by
    simp only [makeValue]
    split
    · exact retaining_pure _
    · exact retaining_throw _
  | .connective constant => by
    simp only [makeValue]
    split
    · exact retaining_pure _
    · exact retaining_throw _
  | .node n => retaining_makeNode n
  | .settings fields className =>
    (retaining_makeFields fields).bind fun _ ↦ (retaining_classOr _ className).bind fun _ ↦
      (retaining_ofExcept _).bind fun _ ↦ retaining_newSettings _ _
  | .namedSettings name => retaining_store.bind fun s ↦ retaining_find s.settings name
  termination_by structural p => p

theorem retaining_makeValues : (ps : List ValuePlan) → Retaining (makeValues ps)
  | [] => retaining_pure _
  | p :: rest => (retaining_makeValue p).bind fun _ ↦ (retaining_makeValues rest).bind fun _ ↦
      retaining_pure _
  termination_by structural ps => ps

theorem retaining_makeEntries (made : List (Value × Value)) :
    (entries : List (ValuePlan × ValuePlan)) → Retaining (makeEntries made entries)
  | [] => retaining_pure _
  | entry :: rest => (retaining_makeEntry entry).bind fun _ ↦ (retaining_ofExcept _).bind fun made ↦
      retaining_makeEntries made rest
  termination_by structural entries => entries

theorem retaining_makeEntry : (entry : ValuePlan × ValuePlan) → Retaining (makeEntry entry)
  | (k, v) => (retaining_makeValue k).bind fun _ ↦ (retaining_makeValue v).bind fun _ ↦
      retaining_pure _
  termination_by structural entry => entry

theorem retaining_makeFields : (fields : List (String × ValuePlan)) →
    Retaining (makeFields fields)
  | [] => retaining_pure _
  | field :: rest => (retaining_makeField field).bind fun _ ↦
      (retaining_makeFields rest).bind fun _ ↦ retaining_pure _
  termination_by structural fields => fields

theorem retaining_makeField : (field : String × ValuePlan) → Retaining (makeField field)
  | (_, p) => (retaining_makeValue p).bind fun _ ↦ retaining_pure _
  termination_by structural field => field

theorem retaining_makeNode : (p : NodePlan) → Retaining (makeNode p)
  | .constant _ => retaining_pure _
  | .leaf value none => (retaining_makeValue value).bind fun _ ↦ (retaining_pure _).bind fun _ ↦
      (retaining_ofExcept _).bind fun _ ↦ retaining_freshId.bind fun _ ↦ retaining_pure _
  | .leaf value (some verifier) =>
    (retaining_makeValue value).bind fun _ ↦ (retaining_makeVerifier verifier).bind fun _ ↦
      (retaining_ofExcept _).bind fun _ ↦ retaining_freshId.bind fun _ ↦ retaining_pure _
  | .group isOr children =>
    (retaining_prepare children).bind fun prepared ↦ (retaining_draw prepared children).bind fun _ ↦
      retaining_newGroup _ _ _
  | .tagged tag none className =>
    (retaining_makeValue tag).bind fun _ ↦ (retaining_classOr _ className).bind fun _ ↦
      (retaining_ofExcept _).bind fun _ ↦ retaining_newGroup _ _ _
  | .tagged tag (some children) className =>
    (retaining_makeValue tag).bind fun _ ↦ (retaining_classOr _ className).bind fun _ ↦
      (retaining_prepare children).bind fun prepared ↦ (retaining_ofExcept _).bind fun _ ↦
        (retaining_draw prepared children).bind fun _ ↦ retaining_newGroup _ _ _
  | .ownLeaf className value verify =>
    (retaining_makeValue value).bind fun _ ↦ (retaining_makeVerifier verify).bind fun _ ↦
      (retaining_newClass className).bind fun _ ↦ (retaining_ofExcept _).bind fun _ ↦
        retaining_freshId.bind fun _ ↦ retaining_pure _
  | .duck className none verify =>
    (retaining_pure _).bind fun _ ↦ (retaining_makeDuckVerify verify).bind fun _ ↦
      retaining_freshId.bind fun _ ↦ (retaining_newClass className).bind fun _ ↦ retaining_pure _
  | .duck className (some value) verify =>
    (retaining_makeValue value).bind fun _ ↦ (retaining_pure _).bind fun _ ↦
      (retaining_makeDuckVerify verify).bind fun _ ↦ retaining_freshId.bind fun _ ↦
        (retaining_newClass className).bind fun _ ↦ retaining_pure _
  | .raw p => retaining_makeValue p
  | .classObject name => by
    simp only [makeNode]
    split
    · exact retaining_pure _
    · exact retaining_throw _
  | .reference path =>
    retaining_referenceTree.bind fun v ↦
      composes_retaining.foldlM (fun _ _ ↦ retaining_ofExcept _) path v
  | .named name => retaining_store.bind fun s ↦ (retaining_find s.nodes name).bind fun _ ↦
      retaining_pure _
  | .chain length tags base before after => by
    refine (retaining_makeNode base).bind fun base ↦ (retaining_makeValues tags).bind fun tags ↦ ?_
    refine composes_retaining.foldlM (fun inner i ↦ ?_) _ _
    refine (retaining_makeNodes before).bind fun _ ↦ (retaining_makeNodes after).bind fun _ ↦ ?_
    split
    · exact (retaining_ofExcept _).bind fun _ ↦ retaining_newGroup _ _ _
    · exact retaining_throw _
  | .wide count tag item further =>
    (retaining_makeNode item).bind fun _ ↦ (retaining_makeNodes further).bind fun _ ↦
      (retaining_makeValue tag).bind fun _ ↦ (retaining_ofExcept _).bind fun _ ↦
        retaining_newGroup _ _ _
  termination_by structural p => p

theorem retaining_makeNodes : (ps : List NodePlan) → Retaining (makeNodes ps)
  | [] => retaining_pure _
  | p :: rest => (retaining_makeNode p).bind fun _ ↦ (retaining_makeNodes rest).bind fun _ ↦
      retaining_pure _
  termination_by structural ps => ps

theorem retaining_prepare : (children : ChildrenPlan) → Retaining (prepare children)
  | .items nodes => (retaining_makeNodes nodes).bind fun _ ↦ retaining_pure _
  | .drawn _ => retaining_pure _
  | .namedList name => retaining_store.bind fun s ↦ (retaining_find s.lists name).bind fun _ ↦
      retaining_pure _
  | .namedIterator name => retaining_store.bind fun s ↦
      (retaining_find s.iterators name).bind fun _ ↦ retaining_pure _
  | .value p => retaining_makeValue p
  termination_by structural children => children

theorem retaining_draw (prepared : Value) : (children : ChildrenPlan) →
    Retaining (draw prepared children)
  | .drawn nodes => retaining_makeNodes nodes
  | .namedIterator name => retaining_drain name
  | .items _ | .namedList _ | .value _ => retaining_ofExcept _
  termination_by structural children => children

theorem retaining_makeVerifier : (p : VerifierPlan) → Retaining (makeVerifier p)
  | .mk _ action => (retaining_makeAction action).bind fun _ ↦ retaining_pure _
  termination_by structural p => p

theorem retaining_makeAction : (p : ActionPlan) → Retaining (makeAction p)
  | .stored | .negated | .raises _ _ | .evaluates _ _ => retaining_pure _
  | .returns p => (retaining_makeValue p).bind fun _ ↦ retaining_pure _
  | .sequence answers => (retaining_makeValues answers).bind fun _ ↦
      retaining_freshId.bind fun _ ↦ retaining_pure _
  termination_by structural p => p

theorem retaining_makeDuckVerify : (p : DuckPlan) → Retaining (makeDuckVerify p)
  | .absent | .failing _ _ => retaining_pure _
  | .method verifier => (retaining_makeVerifier verifier).bind fun _ ↦ retaining_pure _
  | .holds p => (retaining_makeValue p).bind fun _ ↦ retaining_pure _
  termination_by structural p => p

end

/-! ## Verifying and evaluating -/

theorem retaining_newEvaluator (v : Value) : Retaining (newEvaluator v) := by
  refine (retaining_ofExcept _).bind fun holds ↦ ?_
  cases holds with
  | true =>
    exact retaining_store.bind fun s ↦ (retaining_ofExcept _).bind fun _ ↦
      (retaining_record _).bind fun _ ↦ retaining_pure _
  | false =>
    exact (retaining_record _).bind fun _ ↦ (retaining_newSettings _ _).bind fun _ ↦
      retaining_pure _

theorem retaining_makeEvaluator : (p : EvaluatorPlan) → Retaining (makeEvaluator p)
  | .shared => (retaining_newSettings _ _).bind fun _ ↦ retaining_pure _
  | .fresh p => (retaining_makeValue p).bind fun v ↦ retaining_newEvaluator v
  | .named name => retaining_store.bind fun s ↦ retaining_find s.evaluators name

theorem retaining_construct (c : LibraryClass) (argument : Option Value) :
    Retaining (construct c argument) := by
  unfold construct
  split
  · exact retaining_freshId.bind fun _ ↦ (retaining_ofExcept _).bind fun _ ↦ retaining_pure _
  · exact (retaining_ofExcept _).bind fun _ ↦ retaining_newGroup _ _ _
  · exact retaining_newSettings _ _
  · exact (retaining_ofExcept _).bind fun _ ↦ retaining_newSettings _ _
  · exact (retaining_newEvaluator _).bind fun _ ↦ retaining_freshId.bind fun _ ↦ retaining_pure _
  · exact retaining_freshId.bind fun _ ↦ retaining_pure _
  · split
    · exact retaining_pure _
    · exact (retaining_ofExcept _).bind fun _ ↦ retaining_throw _
  · split
    · exact retaining_pure _
    · exact (retaining_ofExcept _).bind fun _ ↦ retaining_throw _
  all_goals exact retaining_throw _

theorem retaining_nextAnswer (counter : Nat) (answers : List Value) :
    Retaining (nextAnswer counter answers) := by
  refine retaining_store.bind fun s ↦ Retaining.bind ?_ fun _ ↦ ?_
  · exact fun _ ↦ { Store.Retains.refl _ with }
  · split
    · exact retaining_pure _
    · exact retaining_throw _

section

variable {evaluate : NodePlan → EvaluatorPlan → Session Bool}
  (hevaluate : ∀ node evaluator, Retaining (evaluate node evaluator))
include hevaluate

theorem retaining_runVerifier (self : Value) (v : Verifier Value) :
    Retaining (runVerifier evaluate self v) := by
  refine (retaining_recordCall v.name).bind fun _ ↦ ?_
  split
  · exact retaining_store.bind fun _ ↦ retaining_ofExcept _
  · exact retaining_store.bind fun _ ↦ (retaining_ofExcept _).bind fun _ ↦
      (retaining_ofExcept _).bind fun _ ↦ retaining_pure _
  · exact retaining_pure _
  · exact retaining_throw _
  · exact retaining_nextAnswer _ _
  · exact (hevaluate _ _).bind fun _ ↦ retaining_pure _
  · exact retaining_construct _ _
  · exact retaining_throw _

theorem retaining_call (self : Value) (m : Method) : Retaining (call evaluate self m) := by
  cases m with
  | verifier v => exact retaining_runVerifier hevaluate self v
  | recording name => exact (retaining_recordCall _).bind fun _ ↦ retaining_pure _
  | unbound => exact retaining_throw _
  | construct c => exact retaining_construct c none

theorem retaining_verify (v : Value) : Retaining (verify evaluate v) := by
  refine retaining_store.bind fun s ↦ (retaining_ofExcept _).bind fun offer ↦ ?_
  cases offer with
  | callable m => exact retaining_call hevaluate v m
  | notCallable answer => exact retaining_throw _

end

theorem retains_toAct {m : Session α} (hm : Retaining m) (s : Store) :
    s.Retains (toAct m s).state := by
  have hs := hm ⟨s, #[]⟩
  unfold worldAfter at hs
  unfold toAct
  cases hrun : m ⟨s, #[]⟩ with
  | ok a w =>
    rw [hrun] at hs
    exact hs
  | error e w =>
    rw [hrun] at hs
    exact hs

theorem retaining_ofWorld {f : World Store → Except Failure α × World Store}
    (hf : ∀ w : World Store, w.state.Retains (f w).2.state) : Retaining (ofWorld f) := by
  intro w
  have hw := hf w
  unfold worldAfter ofWorld
  cases hrun : f w with
  | mk r w' =>
    rw [hrun] at hw
    cases r with
    | ok a => exact hw
    | error e => exact hw

/-- What a value of a session offers to be verified with is read off and changes nothing. -/
theorem hostWith_offer (evaluate : NodePlan → EvaluatorPlan → Session Bool) (v : Value)
    (s : Store) :
    (hostWith evaluate).offer v s = match readVerify s v with
      | .error e => ⟨.error e, s, []⟩
      | .ok (.notCallable _) => ⟨.ok none, s, []⟩
      | .ok (.callable m) => ⟨.ok (some (toAct (call evaluate v m))), s, []⟩ := by
  have hoffer : (hostWith evaluate).offer v s = toAct (offer evaluate v) s := rfl
  simp only [hoffer, toAct, offer_eq]
  cases readVerify s v with
  | error e => rfl
  | ok offered => cases offered <;> rfl

theorem retains_verification {evaluate : NodePlan → EvaluatorPlan → Session Bool}
    (hevaluate : ∀ node evaluator, Retaining (evaluate node evaluator)) (trace : Bool) (v : Value)
    (s : Store) : s.Retains ((hostWith evaluate).verification trace v s).state := by
  simp only [Host.verification, hostWith_offer]
  cases readVerify s v with
  | error e => exact .refl s
  | ok offer =>
    cases offer with
    | notCallable answer => exact .refl s
    | callable m =>
      have hcall := retains_toAct (retaining_call hevaluate v m) s
      simp only
      cases (toAct (call evaluate v m) s).outcome with
      | error e => exact hcall
      | ok answer => exact hcall.trans (retains_toAct (retaining_ofExcept answer.holds) _)

/-- An evaluation retains what is held if each verification does. -/
theorem retaining_evaluateIn {nesting : Nat} {h : Host Value Value Store Failure}
    (hverification : ∀ (v : Value) (s : Store), s.Retains (h.verification false v s).state)
    (node : NodePlan) (evaluator : EvaluatorPlan) : Retaining (evaluateIn nesting h node evaluator) := by
  refine (retaining_makeEvaluator evaluator).bind fun e ↦ (retaining_makeNode node).bind fun v ↦
    retaining_store.bind fun s ↦ (retaining_ofExcept _).bind fun settings ↦
      retaining_ofWorld fun w ↦ ?_
  refine Relation.ReflTransGen.trans_induction_on
    (Host.evaluate_verifies settings (walkRoom nesting) v.toCondition w) ?_ ?_ ?_
  · exact .refl
  · rintro s s' ⟨v, rfl⟩
    exact hverification v s
  · exact fun _ _ h h' ↦ h.trans h'

/-- Every verification retains what is held, however many evaluations may be nested in it. -/
theorem retains_host : (nesting : Nat) → ∀ (trace : Bool) (v : Value) (s : Store),
    s.Retains ((host nesting).verification trace v s).state
  | 0 => retains_verification fun _ _ ↦ retaining_throw _
  | nesting + 1 => retains_verification
      (retaining_evaluateIn (retains_host nesting false))

theorem retaining_evaluate (nesting : Nat) (node : NodePlan) (evaluator : EvaluatorPlan) :
    Retaining (evaluateIn nesting (host nesting) node evaluator) :=
  retaining_evaluateIn (retains_host nesting false) node evaluator

end Session

end ShortCircuit
