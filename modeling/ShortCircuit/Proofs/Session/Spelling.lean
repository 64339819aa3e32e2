import ShortCircuit.Proofs.Session.Retention
import ShortCircuit.Session.Step

/-!
# Words and constants

Connectives and strategies may be given by their words or by their constants. `resolved` puts the
constant in the place of every word that stands for one: where a group takes its connective and
where settings take their strategy, anywhere in a plan. What is made from the plan, and every step
that follows it, is the same: not only are the objects equal, the computations are. The trees that
verifiers evaluate are plans themselves until then, and are left as they are.
-/

namespace ShortCircuit

namespace Value

/-- The connective that a value stands for, in its place. -/
def asConnective (v : Value) : Value := (Connective.ofValue? v).elim v .connective

/-- The strategy that a value stands for, in its place. -/
def asStrategy (v : Value) : Value := (Strategy.ofValue? v).elim v .strategy

/-- The value of a field, if it is a connective or a strategy as a constant. -/
def asField (name : String) (v : Value) : Value :=
  if name = Settings.Field.strategy.name then v.asStrategy
  else if name = "type" then v.asConnective
  else v

end Value

namespace ValuePlan

/-- The plan of a connective by its constant, if the plan gives its word. -/
def asConnective : ValuePlan → ValuePlan
  | .text t => (Connective.ofValue? (.text t)).elim (.text t) fun c ↦ .connective c.constant
  | p => p

/-- The plan of a strategy by its constant, if the plan gives its word. -/
def asStrategy : ValuePlan → ValuePlan
  | .text t => (Strategy.ofValue? (.text t)).elim (.text t) fun s ↦ .strategy s.constant
  | p => p

def asField (name : String) (p : ValuePlan) : ValuePlan :=
  if name = Settings.Field.strategy.name then p.asStrategy
  else if name = "type" then p.asConnective
  else p

end ValuePlan

/-! ## Plans -/

mutual

/-- The plan with constants in the places of words. -/
def ValuePlan.resolved : ValuePlan → ValuePlan
  | .list items => .list (ValuePlan.resolvedAll items)
  | .tuple items => .tuple (ValuePlan.resolvedAll items)
  | .dict entries => .dict (ValuePlan.resolvedEntries entries)
  | .node n => .node n.resolved
  | .settings fields className => .settings (ValuePlan.resolvedFields fields) className
  | p => p
  termination_by structural p => p

def ValuePlan.resolvedAll : List ValuePlan → List ValuePlan
  | [] => []
  | p :: rest => p.resolved :: ValuePlan.resolvedAll rest
  termination_by structural ps => ps

def ValuePlan.resolvedEntries : List (ValuePlan × ValuePlan) → List (ValuePlan × ValuePlan)
  | [] => []
  | entry :: rest => ValuePlan.resolvedEntry entry :: ValuePlan.resolvedEntries rest
  termination_by structural entries => entries

def ValuePlan.resolvedEntry : ValuePlan × ValuePlan → ValuePlan × ValuePlan
  | (k, v) => (k.resolved, v.resolved)
  termination_by structural entry => entry

def ValuePlan.resolvedFields : List (String × ValuePlan) → List (String × ValuePlan)
  | [] => []
  | field :: rest => ValuePlan.resolvedField field :: ValuePlan.resolvedFields rest
  termination_by structural fields => fields

def ValuePlan.resolvedField : String × ValuePlan → String × ValuePlan
  | (name, p) => (name, p.resolved.asField name)
  termination_by structural field => field

/-- The plan with constants in the places of words. -/
def NodePlan.resolved : NodePlan → NodePlan
  | .leaf value none => .leaf value.resolved none
  | .leaf value (some verifier) => .leaf value.resolved (some verifier.resolved)
  | .group isOr children => .group isOr children.resolved
  | .tagged tag none className => .tagged tag.resolved.asConnective none className
  | .tagged tag (some children) className =>
    .tagged tag.resolved.asConnective (some children.resolved) className
  | .ownLeaf className value verify => .ownLeaf className value.resolved verify.resolved
  | .duck className none verify => .duck className none verify.resolved
  | .duck className (some value) verify => .duck className (some value.resolved) verify.resolved
  | .raw p => .raw p.resolved
  | .chain length tags base before after =>
    .chain length ((ValuePlan.resolvedAll tags).map ValuePlan.asConnective) base.resolved
      (NodePlan.resolvedAll before) (NodePlan.resolvedAll after)
  | .wide count tag item further =>
    .wide count tag.resolved.asConnective item.resolved (NodePlan.resolvedAll further)
  | p => p
  termination_by structural p => p

def NodePlan.resolvedAll : List NodePlan → List NodePlan
  | [] => []
  | p :: rest => p.resolved :: NodePlan.resolvedAll rest
  termination_by structural ps => ps

def ChildrenPlan.resolved : ChildrenPlan → ChildrenPlan
  | .items nodes => .items (NodePlan.resolvedAll nodes)
  | .drawn nodes => .drawn (NodePlan.resolvedAll nodes)
  | .value p => .value p.resolved
  | p => p
  termination_by structural p => p

def VerifierPlan.resolved : VerifierPlan → VerifierPlan
  | .mk name action => .mk name action.resolved
  termination_by structural p => p

def ActionPlan.resolved : ActionPlan → ActionPlan
  | .returns p => .returns p.resolved
  | .sequence answers => .sequence (ValuePlan.resolvedAll answers)
  | p => p
  termination_by structural p => p

def DuckPlan.resolved : DuckPlan → DuckPlan
  | .method verifier => .method verifier.resolved
  | .holds p => .holds p.resolved
  | p => p
  termination_by structural p => p

end

def EvaluatorPlan.resolved : EvaluatorPlan → EvaluatorPlan
  | .fresh p => .fresh p.resolved
  | p => p

namespace Session

/-! ## What depends on words -/

theorem ofConstant_constant (c : Connective) : Connective.ofConstant? c.constant = some c := by
  cases c <;> decide

theorem strategy_ofConstant_constant (s : Strategy) : Strategy.ofConstant? s.constant = some s := by
  cases s <;> decide

theorem connective_ofValue_asConnective (v : Value) :
    Connective.ofValue? v.asConnective = Connective.ofValue? v := by
  unfold Value.asConnective
  cases h : Connective.ofValue? v with
  | none => simpa using h
  | some c => rfl

theorem strategy_ofValue_asStrategy (v : Value) :
    Strategy.ofValue? v.asStrategy = Strategy.ofValue? v := by
  unfold Value.asStrategy
  cases h : Strategy.ofValue? v with
  | none => simpa using h
  | some c => rfl

/-- The connective of a tag does not depend on its spelling, nor does the failure of a tag that is
none. -/
theorem connectiveOf_asConnective (v : Value) : connectiveOf v.asConnective = connectiveOf v := by
  cases h : Connective.ofValue? v with
  | none => simp [Value.asConnective, h]
  | some c => simp [connectiveOf, connective_ofValue_asConnective, h]

theorem strategyOf_asStrategy (v : Value) :
    Settings.strategyOf v.asStrategy = Settings.strategyOf v := by
  cases h : Strategy.ofValue? v with
  | none => simp [Value.asStrategy, h]
  | some s => simp [Settings.strategyOf, strategy_ofValue_asStrategy, h]

/-- The field with its value as a constant. -/
def asConstant (field : String × Value) : String × Value := (field.1, field.2.asField field.1)

theorem map_fst_asConstant (fields : List (String × Value)) :
    (fields.map asConstant).map Prod.fst = fields.map Prod.fst := by
  rw [List.map_map]
  rfl

theorem changed_asConstant (fields : List (String × Value)) (name : String) :
    changed? (fields.map asConstant) name = (changed? fields name).map (·.asField name) := by
  have hfind : (fields.map asConstant).find? (fun f ↦ f.1 = name) =
      (fields.find? fun f ↦ f.1 = name).map asConstant := by
    rw [List.find?_map]
    rfl
  rw [changed?, changed?, hfind]
  cases hfound : fields.find? fun f ↦ f.1 = name with
  | none => rfl
  | some f =>
    have hname : f.1 = name := by simpa using List.find?_some hfound
    simp [asConstant, hname]

theorem fieldValue_eq_changed (fields : List (String × Value)) (f : Settings.Field) :
    Settings.fieldValue fields f = (changed? fields f.name).getD f.standard := by
  rw [Settings.fieldValue, changed?]
  cases fields.find? fun g ↦ g.1 = f.name <;> rfl

theorem asField_strategy (v : Value) : v.asField Settings.Field.strategy.name = v.asStrategy :=
  if_pos rfl

/-- Only the fields of two names depend on words. -/
theorem asField_of_ne {name : String} (hstrategy : name ≠ Settings.Field.strategy.name)
    (htype : name ≠ "type") (v : Value) : v.asField name = v := by
  rw [Value.asField, if_neg hstrategy, if_neg htype]

/-- Settings do not depend on how a strategy that changes is spelled. -/
theorem ofValues_changed (fields : List (String × Value)) (strategy trace : Value) :
    Settings.ofValues ((changed? (fields.map asConstant) Settings.Field.strategy.name).getD strategy)
        ((changed? (fields.map asConstant) Settings.Field.trace.name).getD trace) =
      Settings.ofValues ((changed? fields Settings.Field.strategy.name).getD strategy)
        ((changed? fields Settings.Field.trace.name).getD trace) := by
  have htrace : (changed? fields Settings.Field.trace.name).map
      (·.asField Settings.Field.trace.name) = changed? fields Settings.Field.trace.name := by
    have hsame (v : Value) : v.asField Settings.Field.trace.name = v :=
      asField_of_ne (by decide) (by decide) v
    simp only [hsame, Option.map_id']
  rw [changed_asConstant, changed_asConstant, htrace, Settings.ofValues, Settings.ofValues]
  congr 1
  cases changed? fields Settings.Field.strategy.name with
  | none => rfl
  | some v => exact (congrArg _ (asField_strategy v)).trans (strategyOf_asStrategy v)

theorem ofFields_asConstant (fields : List (String × Value)) :
    Settings.ofFields (fields.map asConstant) = Settings.ofFields fields := by
  simp only [Settings.ofFields, map_fst_asConstant, fieldValue_eq_changed, ofValues_changed]

/-- What follows two computations is the same if it only depends on something in which their results
agree. -/
theorem bind_eq_bind {α β γ : Type} {m m' : Session α} {k k' : α → Session β} (g : α → γ)
    (hm : g <$> m = g <$> m') (hk : ∀ a a', g a = g a' → k a = k' a') : m >>= k = m' >>= k' := by
  funext w
  have hw : (g <$> m) w = (g <$> m') w := congrFun hm w
  simp only [map_eq_pure_bind, bind, EStateM.bind, pure, EStateM.pure] at hw ⊢
  cases hr : m w with
  | error e w₁ =>
    cases hr' : m' w with
    | error e' w₂ => simpa [hr, hr'] using hw
    | ok a' w₂ => simp [hr, hr'] at hw
  | ok a w₁ =>
    cases hr' : m' w with
    | error e' w₂ => simp [hr, hr'] at hw
    | ok a' w₂ =>
      obtain ⟨ha, rfl⟩ : g a = g a' ∧ w₁ = w₂ := by simpa [hr, hr'] using hw
      exact congrFun (hk a a' ha) w₁

theorem bind_eq_of_map {α β : Type} {m m' : Session α} {g : α → α} {k : α → Session β}
    (hm : g <$> m = g <$> m') (hk : ∀ a, k (g a) = k a) : m >>= k = m' >>= k :=
  bind_eq_bind g hm fun a a' ha ↦ by rw [← hk a, ha, hk a']

theorem makeValue_asConnective (p : ValuePlan) :
    Value.asConnective <$> makeValue p.asConnective = Value.asConnective <$> makeValue p := by
  cases p with
  | text t =>
    cases h : Connective.ofValue? (.text t) with
    | none => simp [ValuePlan.asConnective, h]
    | some c =>
      have hvalue : (Value.text t).asConnective = .connective c := by simp [Value.asConnective, h]
      have hmember : (Value.connective c).asConnective = .connective c := rfl
      simp [ValuePlan.asConnective, h, makeValue, ofConstant_constant, hvalue, hmember]
  | _ => rfl

theorem makeValue_asStrategy (p : ValuePlan) :
    Value.asStrategy <$> makeValue p.asStrategy = Value.asStrategy <$> makeValue p := by
  cases p with
  | text t =>
    cases h : Strategy.ofValue? (.text t) with
    | none => simp [ValuePlan.asStrategy, h]
    | some c =>
      have hvalue : (Value.text t).asStrategy = .strategy c := by simp [Value.asStrategy, h]
      have hmember : (Value.strategy c).asStrategy = .strategy c := rfl
      simp [ValuePlan.asStrategy, h, makeValue, strategy_ofConstant_constant, hvalue, hmember]
  | _ => rfl

theorem makeValue_asField (name : String) (p : ValuePlan) :
    (·.asField name) <$> makeValue (p.asField name) = (·.asField name) <$> makeValue p := by
  unfold Value.asField ValuePlan.asField
  split
  · exact makeValue_asStrategy p
  · split
    · exact makeValue_asConnective p
    · rfl

/-- The tag of a group may be made from a plan that gives its constant. -/
theorem map_makeValue_tag {tag : ValuePlan} (h : makeValue tag.resolved = makeValue tag) :
    Value.asConnective <$> makeValue tag.resolved.asConnective =
      Value.asConnective <$> makeValue tag := by
  rw [makeValue_asConnective, h]

theorem makeValues_asConnective (ps : List ValuePlan) :
    List.map Value.asConnective <$> makeValues (ps.map ValuePlan.asConnective) =
      List.map Value.asConnective <$> makeValues ps := by
  induction ps with
  | nil => rfl
  | cons p rest ih =>
    have hcons (m : Session Value) (ms : Session (List Value)) :
        List.map Value.asConnective <$> (do return (← m) :: (← ms)) =
          (do return (← Value.asConnective <$> m) :: (← List.map Value.asConnective <$> ms)) := by
      simp
    simp only [List.map_cons, makeValues, hcons, makeValue_asConnective, ih]

mutual

/-- A plan makes the same value however connectives and strategies are spelled in it. -/
theorem makeValue_resolved : (p : ValuePlan) → makeValue p.resolved = makeValue p
  | .nothing | .bool _ | .int _ | .float _ | .text _ | .bytes _ | .strategy _ | .connective _
  | .namedSettings _ | .witness _ => rfl
  | .list items | .tuple items => by
    simp only [ValuePlan.resolved, makeValue, makeValues_resolved items]
  | .dict entries => by
    simp only [ValuePlan.resolved, makeValue, makeEntries_resolved [] entries]
  | .node n => makeNode_resolved n
  | .settings fields className => by
    simp only [ValuePlan.resolved, makeValue]
    exact bind_eq_of_map (makeFields_resolved fields) fun fields ↦ by
      simp only [ofFields_asConstant]
  termination_by structural p => p

theorem makeValues_resolved : (ps : List ValuePlan) →
    makeValues (ValuePlan.resolvedAll ps) = makeValues ps
  | [] => rfl
  | p :: rest => by
    simp only [ValuePlan.resolvedAll, makeValues, makeValue_resolved p, makeValues_resolved rest]
  termination_by structural ps => ps

theorem makeEntries_resolved (made : List (Value × Value)) :
    (entries : List (ValuePlan × ValuePlan)) →
      makeEntries made (ValuePlan.resolvedEntries entries) = makeEntries made entries
  | [] => rfl
  | entry :: rest => by
    simp only [ValuePlan.resolvedEntries, makeEntries, makeEntry_resolved entry]
    exact bind_congr fun made' ↦ bind_congr fun made ↦ makeEntries_resolved made rest
  termination_by structural entries => entries

theorem makeEntry_resolved : (entry : ValuePlan × ValuePlan) →
    makeEntry (ValuePlan.resolvedEntry entry) = makeEntry entry
  | (k, v) => by
    simp only [ValuePlan.resolvedEntry, makeEntry, makeValue_resolved k, makeValue_resolved v]
  termination_by structural entry => entry

theorem makeFields_resolved : (fields : List (String × ValuePlan)) →
    List.map asConstant <$> makeFields (ValuePlan.resolvedFields fields) =
      List.map asConstant <$> makeFields fields
  | [] => rfl
  | field :: rest => by
    have hcons (m : Session (String × Value)) (ms : Session (List (String × Value))) :
        List.map asConstant <$> (do return (← m) :: (← ms)) =
          (do return (← asConstant <$> m) :: (← List.map asConstant <$> ms)) := by
      simp
    simp only [ValuePlan.resolvedFields, makeFields, hcons, makeField_resolved field,
      makeFields_resolved rest]
  termination_by structural fields => fields

theorem makeField_resolved : (field : String × ValuePlan) →
    asConstant <$> makeField (ValuePlan.resolvedField field) = asConstant <$> makeField field
  | (name, p) => by
    have hfield (m : Session Value) : asConstant <$> (do return (name, ← m)) =
        (do return (name, ← (·.asField name) <$> m)) := by
      simp [asConstant]
    simp only [ValuePlan.resolvedField, makeField, hfield, makeValue_asField,
      makeValue_resolved p]
  termination_by structural field => field

theorem makeNode_resolved : (p : NodePlan) → makeNode p.resolved = makeNode p
  | .constant _ | .classObject _ | .reference _ | .named _ => rfl
  | .leaf value none => by
    simp only [NodePlan.resolved, makeNode, makeValue_resolved value]
  | .leaf value (some verifier) => by
    simp only [NodePlan.resolved, makeNode, makeValue_resolved value,
      makeVerifier_resolved verifier]
  | .group isOr children => by
    simp only [NodePlan.resolved, makeNode, prepare_resolved children,
      fun prepared ↦ draw_resolved prepared children]
  | .tagged tag none className => by
    simp only [NodePlan.resolved, makeNode]
    refine bind_eq_of_map (map_makeValue_tag (makeValue_resolved tag)) fun t ↦ ?_
    simp only [connectiveOf_asConnective]
  | .tagged tag (some children) className => by
    simp only [NodePlan.resolved, makeNode, prepare_resolved children,
      fun prepared ↦ draw_resolved prepared children]
    refine bind_eq_of_map (map_makeValue_tag (makeValue_resolved tag)) fun t ↦ ?_
    simp only [connectiveOf_asConnective]
  | .ownLeaf className value verify => by
    simp only [NodePlan.resolved, makeNode, makeValue_resolved value,
      makeVerifier_resolved verify]
  | .duck className none verify => by
    simp only [NodePlan.resolved, makeNode, makeDuckVerify_resolved verify]
  | .duck className (some value) verify => by
    simp only [NodePlan.resolved, makeNode, makeValue_resolved value,
      makeDuckVerify_resolved verify]
  | .raw p => makeValue_resolved p
  | .chain length tags base before after => by
    have htags : List.map Value.asConnective <$>
        makeValues ((ValuePlan.resolvedAll tags).map ValuePlan.asConnective) =
          List.map Value.asConnective <$> makeValues tags := by
      rw [makeValues_asConnective, makeValues_resolved tags]
    simp only [NodePlan.resolved, makeNode, makeNode_resolved base, makeNodes_resolved before,
      makeNodes_resolved after]
    refine bind_congr fun base ↦ bind_eq_of_map htags fun tags ↦ ?_
    congr 1
    funext inner i
    refine bind_congr fun before ↦ bind_congr fun after ↦ ?_
    rw [List.getElem?_map, List.length_map]
    cases tags[i % tags.length]? with
    | none => rfl
    | some tag => simp only [Option.map_some, connectiveOf_asConnective]
  | .wide count tag item further => by
    simp only [NodePlan.resolved, makeNode, makeNode_resolved item, makeNodes_resolved further]
    refine bind_congr fun item ↦ bind_congr fun further ↦
      bind_eq_of_map (map_makeValue_tag (makeValue_resolved tag)) fun t ↦ ?_
    rw [connectiveOf_asConnective]
  termination_by structural p => p

theorem makeNodes_resolved : (ps : List NodePlan) →
    makeNodes (NodePlan.resolvedAll ps) = makeNodes ps
  | [] => rfl
  | p :: rest => by
    simp only [NodePlan.resolvedAll, makeNodes, makeNode_resolved p, makeNodes_resolved rest]
  termination_by structural ps => ps

theorem prepare_resolved : (children : ChildrenPlan) → prepare children.resolved = prepare children
  | .items nodes => by
    simp only [ChildrenPlan.resolved, prepare, makeNodes_resolved nodes]
  | .drawn _ | .namedList _ | .namedIterator _ => rfl
  | .value p => makeValue_resolved p
  termination_by structural children => children

theorem draw_resolved (prepared : Value) : (children : ChildrenPlan) →
    draw prepared children.resolved = draw prepared children
  | .drawn nodes => makeNodes_resolved nodes
  | .items _ | .namedList _ | .namedIterator _ | .value _ => rfl
  termination_by structural children => children

theorem makeVerifier_resolved : (p : VerifierPlan) → makeVerifier p.resolved = makeVerifier p
  | .mk name action => by
    simp only [VerifierPlan.resolved, makeVerifier, makeAction_resolved action]
  termination_by structural p => p

theorem makeAction_resolved : (p : ActionPlan) → makeAction p.resolved = makeAction p
  | .stored | .negated | .raises _ _ | .evaluates _ _ => rfl
  | .returns p => by simp only [ActionPlan.resolved, makeAction, makeValue_resolved p]
  | .sequence answers => by
    simp only [ActionPlan.resolved, makeAction, makeValues_resolved answers]
  termination_by structural p => p

theorem makeDuckVerify_resolved : (p : DuckPlan) → makeDuckVerify p.resolved = makeDuckVerify p
  | .absent | .failing _ _ => rfl
  | .method verifier => by
    simp only [DuckPlan.resolved, makeDuckVerify, makeVerifier_resolved verifier]
  | .holds p => by simp only [DuckPlan.resolved, makeDuckVerify, makeValue_resolved p]
  termination_by structural p => p

end

/-! ## Dictionaries -/

/-- The plan of an entry of a dictionary of settings, a strategy being given by its constant. -/
def asEntry : ValuePlan × ValuePlan → ValuePlan × ValuePlan
  | (.text t, p) =>
    (.text t, if t = Text.ofString Settings.Field.strategy.name then p.asStrategy else p)
  | entry => entry

/-- The source with constants in the places of words. What a file holds is left as it is. -/
def SettingsSource.resolved : SettingsSource → SettingsSource
  | .fields given => .fields (ValuePlan.resolvedFields given)
  | .entries (.dict given) => .entries (.dict ((ValuePlan.resolvedEntries given).map asEntry))
  | .entries data => .entries data.resolved
  | .file C content path => .file C content path

/-- The step with constants in the places of words. -/
def Step.resolved : Step → Step
  | .define name node => .define name node.resolved
  | .describe node => .describe node.resolved
  | .verify node => .verify node.resolved
  | .defineList name items => .defineList name (NodePlan.resolvedAll items)
  | .append name node => .append name node.resolved
  | .clear name => .clear name
  | .defineIterator name items => .defineIterator name (NodePlan.resolvedAll items)
  | .defineSettings name className source => .defineSettings name className source.resolved
  | .defineEvaluator name settings => .defineEvaluator name settings.resolved
  | .evaluate node evaluator => .evaluate node.resolved evaluator.resolved
  | .compare a b => .compare a.resolved b.resolved
  | .setAttribute target name new => .setAttribute target name new.resolved
  | .deleteAttribute target name => .deleteAttribute target name
  | .copy target name changes => .copy target name (ValuePlan.resolvedFields changes)

end Session

end ShortCircuit
