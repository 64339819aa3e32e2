import ShortCircuit.Proofs.Session.Likeness

/-!
# Equality of trees

Plain trees are equal if and only if they have one shape, the same connectives and the same stored
values, whatever their leaves are verified by. Equal trees have equal hashes, and if the standard
verifier verifies all their leaves, evaluations find the same result and record the same visits.
`Structural` is this statement for the trees of a kind, and `trees_structural` says that it holds of
all trees that exist together, and of those of every session in particular.
-/

namespace ShortCircuit

/-- The standard verifier verifies all leaves of the tree. -/
def Condition.IsStandard (c : Condition Value) : Prop :=
  ∀ l, Value.leaf l ∈ c.atoms → l.override.getD l.verifier = ⟨none, .stored⟩

namespace Session

/-- A plain leaf that the standard verifier verifies answers with the value that it stores. -/
theorem answers_leaf {nesting : Nat} {s : Store} {l : Leaf Value} (hl : Untouched s (.leaf l))
    (hcls : l.origin.cls = .leaf) (hstandard : l.override.getD l.verifier = ⟨none, .stored⟩) :
    (host nesting).Answers s (.leaf l) l.value := by
  intro trace
  obtain ⟨evaluate, hhost⟩ := host_eq nesting
  have hname : (hostWith evaluate).className (.leaf l) = ClassTag.leaf.name :=
    congrArg ClassTag.name hcls
  have htruth (answer : Value) : (hostWith evaluate).truth answer = toAct (ofExcept answer.holds) :=
    rfl
  simp only [hhost, Host.verification, hostWith_offer, readVerify_leaf hl, hstandard, call,
    toAct_runVerifier (v := ⟨none, .stored⟩) trivial hl, hname, pureAnswer, htruth, toAct_ofExcept]
  cases trace <;> rfl

/-- Equality is structural on the trees of a kind, and it cannot be told from evaluations at the
given moments. -/
structure Structural (P : Condition Value → Prop) (moment : World Store → Prop) : Prop where
  /-- A comparison with room for the depth of a tree has an answer. -/
  answered {c c' : Condition Value} (hc : P c) (hc' : P c') {room : Nat}
    (hroom : groupComparisonRoom * c.depth ≤ room) :
    ∃ b, Value.equalWithin room (.ofCondition c) (.ofCondition c') = .ok b
  /-- A comparison without an answer has run out of room. -/
  exhausted {c c' : Condition Value} (hc : P c) (hc' : P c') {room : Nat} {e : Failure}
    (hfailure : Value.equalWithin room (.ofCondition c) (.ofCondition c') = .error e) :
    e = .stackExhausted
  /-- The answer is whether the trees have one outline. -/
  answer {c c' : Condition Value} (hc : P c) (hc' : P c') {room : Nat} {b : Bool}
    (hanswer : Value.equalWithin room (.ofCondition c) (.ofCondition c') = .ok b) :
    b = true ↔ c.outline Value.stored = c'.outline Value.stored
  equivalence (room : Nat) :
    Equivalence fun c c' : { c : Condition Value // P c ∧ groupComparisonRoom * c.depth ≤ room } ↦
      Value.equalWithin room (.ofCondition c) (.ofCondition c') = .ok true
  /-- The room is the one for comparisons when values are compared by themselves. -/
  compared {c c' : Condition Value} (hc : P c) (hc' : P c') :
    (Value.ofCondition c).equals (.ofCondition c') =
      Value.equalWithin comparisonRoom (.ofCondition c) (.ofCondition c')
  /-- Equal trees have equal hashes, however the runtime hashes texts and tuples, and if there is no
  room to hash the one, there is none to hash the other. -/
  hashed {c c' : Condition Value} (hc : P c) (hc' : P c') {room : Nat}
    (hequal : Value.equalWithin room (.ofCondition c) (.ofCondition c') = .ok true) (H : Hashing)
    (room' : Nat) :
    Value.hashWithin H room' (.ofCondition c) = Value.hashWithin H room' (.ofCondition c')
  /-- With room for its depth a tree has a hash. -/
  hashable {c : Condition Value} (hc : P c) (H : Hashing) {room : Nat}
    (hroom : groupHashRoom * c.depth ≤ room) :
    ∃ n, Value.hashWithin H room (.ofCondition c) = .ok n
  /-- Evaluations of two equal trees of standard leaves that do not run out of room have one result
  and record the same visits, with either strategy and whichever of the two trees is evaluated. -/
  evaluated {c c' : Condition Value} (hc : P c) (hc' : P c') {room : Nat}
    (hequal : Value.equalWithin room (.ofCondition c) (.ofCondition c') = .ok true)
    (hstandard : c.IsStandard) (hstandard' : c'.IsStandard) :
    ∃ (b : Bool) (records : List Record), ∀ tree ∈ [c, c'], ∀ (nesting : Nat) (settings : Settings)
      (room : Nat) (w : World Store), moment w → ¬ (host nesting).Exhausts settings room tree w →
        (host nesting).evaluate settings room tree w = (.ok b, w.extend w.state
          ((if settings.trace then records else []) ++ [.evaluated b settings.strategy]))

section

variable {P : Condition Value → Prop} {moment : World Store → Prop}

/-- Evaluations of a plain tree of standard leaves take the course of its outline. -/
theorem evaluate_standard {c : Condition Value} (hplain : c.IsPlain) (hstandard : c.IsStandard)
    {nesting room : Nat} {settings : Settings} {w : World Store}
    (huntouched : ∀ a ∈ c.atoms, Untouched w.state a)
    (hroom : ¬ (host nesting).Exhausts settings room c w) :
    (host nesting).evaluate settings room c w =
      (.ok (c.outline Value.stored).course.1, w.extend w.state
        ((if settings.trace then (c.outline Value.stored).course.2 else []) ++
          [.evaluated (c.outline Value.stored).course.1 settings.strategy])) := by
  refine Host.evaluate_course (fun a ha ↦ ?_) hroom
  obtain ⟨l, rfl, hcls⟩ := hplain.atoms a ha
  exact answers_leaf (huntouched _ ha) hcls (hstandard l ha)

/-- Equality is structural on plain trees that exist together, at moments at which no attribute of
their leaves has been set or deleted. -/
theorem structural (hplain : ∀ c, P c → c.IsPlain)
    (hcoherent : ∀ c c', P c → P c' → Value.Coherent (.ofCondition c) (.ofCondition c'))
    (huntouched : ∀ w, moment w → ∀ c, P c → ∀ a ∈ c.atoms, Untouched w.state a) :
    Structural P moment where
  answered {c c'} hc hc' room hroom := by
    have hends := Value.equalWithin_ends (hplain c hc) (hplain c' hc') (hcoherent c c' hc hc') room
    exact hends.exists_ok hroom
  exhausted {c c'} hc hc' room e hfailure := by
    have hends := Value.equalWithin_ends (hplain c hc) (hplain c' hc') (hcoherent c c' hc hc') room
    exact (hends.error hfailure).1
  answer {c c'} hc hc' room b hanswer :=
    (Value.equalWithin_ends (hplain c hc) (hplain c' hc') (hcoherent c c' hc hc') room).ok hanswer
  equivalence room := by
    -- Between trees that have room, being found equal and having one outline are the same.
    have hiff (c c' : { c : Condition Value // P c ∧ groupComparisonRoom * c.depth ≤ room }) :
        Value.equalWithin room (.ofCondition c) (.ofCondition c') = .ok true ↔
          c.1.outline Value.stored = c'.1.outline Value.stored := by
      obtain ⟨c, hc, hroom⟩ := c
      obtain ⟨c', hc', -⟩ := c'
      have hcoherent := hcoherent c c' hc hc'
      exact ⟨Value.outline_eq_of_equal (hplain c hc) (hplain c' hc') hcoherent,
        Value.equal_of_outline_eq (hplain c hc) (hplain c' hc') hcoherent hroom⟩
    exact
      { refl := fun c ↦ (hiff c c).mpr rfl
        symm := fun {c c'} h ↦ (hiff c' c).mpr ((hiff c c').mp h).symm
        trans := fun {c c' c''} h h' ↦
          (hiff c c'').mpr (((hiff c c').mp h).trans ((hiff c' c'').mp h')) }
  compared {c c'} hc _ := Value.equals_ofCondition (hplain c hc)
  hashed {c c'} hc hc' room hequal H room' := by
    have houtline := Value.outline_eq_of_equal (hplain c hc) (hplain c' hc')
      (hcoherent c c' hc hc') hequal
    rw [Value.hashWithin_ofCondition, Value.hashWithin_ofCondition]
    exact Value.hashCondition_eq_of_outline H (hplain c hc) (hplain c' hc') houtline room'
  hashable {c} hc H room hroom := by
    rw [Value.hashWithin_ofCondition]
    exact (Value.hashCondition_ends H (hplain c hc) room).exists_ok hroom
  evaluated {c c'} hc hc' room hequal hstandard hstandard' := by
    have houtline := Value.outline_eq_of_equal (hplain c hc) (hplain c' hc')
      (hcoherent c c' hc hc') hequal
    refine ⟨(c.outline Value.stored).course.1, (c.outline Value.stored).course.2,
      fun tree htree nesting settings room w hw hroom ↦ ?_⟩
    have hpair : tree = c ∨ tree = c' := by simpa using htree
    rcases hpair with rfl | rfl
    · exact evaluate_standard (hplain tree hc) hstandard (huntouched w hw tree hc) hroom
    · rw [houtline]
      exact evaluate_standard (hplain tree hc') hstandard' (huntouched w hw tree hc') hroom

end

/-- The plain trees that a session has made. -/
def Makes (steps : List Step) (c : Condition Value) : Prop :=
  c.IsPlain ∧ (performAll steps start).2.state.Has (.ofCondition c)

/-- The world is one that the session can be in after the steps and any later ones, or within one of
them. -/
def Later (steps : List Step) (w : World Store) : Prop :=
  ∃ later, (performAll (steps ++ later) start).2.state.Retains w.state

/-- The trees of a session exist together, and the attributes of their leaves stay untouched. -/
theorem structural_makes (steps : List Step) : Structural (Makes steps) (Later steps) := by
  obtain ⟨L, -, hL⟩ := keeps_performAll (w := start) (Ledger.initial_keeps Changeable)
    (permittedAll_changeable steps start)
  refine structural (fun c hc ↦ hc.1) (fun c c' hc hc' u u' hu hu' i hi hi' ↦ ?_)
    fun w ⟨later, hw⟩ c hc a ha ↦ ?_
  · have hlisted := hL.lists_of_has hc.2 u hu i hi
    exact Option.some.inj (hlisted.symm.trans (hL.lists_of_has hc'.2 u' hu' i hi'))
  · obtain ⟨L', hextends, hL'⟩ := keeps_performAll hL (permittedAll_changeable later _)
    rw [← performAll_append] at hL'
    obtain ⟨l, rfl, hcls⟩ := hc.1.atoms a ha
    have hlists : L'.Lists (.leaf l) := fun u hu ↦
      (hL.lists_of_has hc.2).mono hextends u (hu.trans (Condition.occurs_of_mem_atoms ha))
    have hfixed : (Value.leaf l).IsFixed := hcls
    exact (untouched_of_isFixed hL' hlists hfixed).retains hw

end Session

open Session

/-- Equality of plain trees is structural whenever the trees exist together, and so it is for all
trees of a session, from the moment on at which they have been made. A value is hashable if it has a
hash. -/
theorem trees_structural :
    (∀ (P : Condition Value → Prop) (moment : World Store → Prop), (∀ c, P c → c.IsPlain) →
      (∀ c c', P c → P c' → Value.Coherent (.ofCondition c) (.ofCondition c')) →
      (∀ w, moment w → ∀ c, P c → ∀ a ∈ c.atoms, Untouched w.state a) → Structural P moment) ∧
    (∀ steps : List Step, Structural (Makes steps) (Later steps)) ∧
    ∀ (H : Hashing) (v : Value), v.hashable = (fun _ ↦ ()) <$> v.hash H :=
  ⟨fun _ _ hplain hcoherent huntouched ↦ structural hplain hcoherent huntouched, structural_makes,
    fun H v ↦ v.checkHashable_eq H comparisonRoom⟩

namespace Session

/-- A leaf that stores true. -/
def trueLeaf (id : Nat) (verifier : Verifier Value) : Value :=
  .leaf ⟨⟨firstFreshId + id, .leaf⟩, true, verifier, none⟩

/-- A conjunction of two leaves that store true, the first of which answers the opposite. -/
def observedTree : Condition Value :=
  .group ⟨firstFreshId + 1, .group⟩ .and
    [.atom (trueLeaf 0 ⟨some "observed", .negated⟩), .atom (constantCondition true)]

/-- A conjunction of a new leaf and a constant. -/
def leadingTree : Condition Value :=
  .group ⟨firstFreshId + 3, .group⟩ .and
    [.atom (trueLeaf 2 ⟨none, .stored⟩), .atom (constantCondition true)]

/-- A conjunction of a constant and a new leaf. -/
def trailingTree : Condition Value :=
  .group ⟨firstFreshId + 5, .group⟩ .and
    [.atom (constantCondition true), .atom (trueLeaf 4 ⟨none, .stored⟩)]

/-- The step that makes the three trees. -/
def likeSteps : List Step :=
  [.defineList "kept"
    [.group false (.items [.leaf (.bool true) (some (.mk (some "observed") .negated)), .constant true]),
      .group false (.items [.leaf (.bool true) none, .constant true]),
      .group false (.items [.constant true, .leaf (.bool true) none])]]

theorem likeSteps_makes : ∀ c ∈ [observedTree, leadingTree, trailingTree], Makes likeSteps c := by
  have hplain : ∀ c ∈ [observedTree, leadingTree, trailingTree], c.IsPlain := by
    simp [observedTree, leadingTree, trailingTree, trueLeaf, constantCondition, Condition.IsPlain,
      Condition.ArePlain]
  have hvalues : (performAll likeSteps start).2.state.values =
      [observedTree, leadingTree, trailingTree].map Value.ofCondition := rfl
  refine fun c hc ↦ ⟨hplain c hc, .inl ⟨.ofCondition c, ?_, .refl⟩⟩
  rw [hvalues]
  exact List.mem_map_of_mem hc

end Session

/-- The three trees are equal and have one hash. The two whose leaves are standard ones are true,
after visits of the group and of both leaves. -/
theorem trees_structural_likeSteps :
    (Value.ofCondition observedTree).equals (.ofCondition leadingTree) = .ok true ∧
      (∀ H, (Value.ofCondition observedTree).hash H = (Value.ofCondition leadingTree).hash H) ∧
      (Value.ofCondition leadingTree).equals (.ofCondition trailingTree) = .ok true ∧
      ∀ tree ∈ [leadingTree, trailingTree],
        ∀ (nesting : Nat) (settings : Settings) (room : Nat) (w : World Store), Later likeSteps w →
          ¬ (host nesting).Exhausts settings room tree w →
            (host nesting).evaluate settings room tree w = (.ok true, w.extend w.state
              ((if settings.trace then [.enteredGroup .and 2, .enteredLeaf ClassTag.leaf.name,
                .enteredLeaf ClassTag.leaf.name] else []) ++
                  [.evaluated true settings.strategy])) := by
  have hstructural : Structural (Makes likeSteps) (Later likeSteps) := trees_structural.2.1 likeSteps
  have hobserved : Makes likeSteps observedTree := likeSteps_makes _ (by simp)
  have hleading : Makes likeSteps leadingTree := likeSteps_makes _ (by simp)
  have htrailing : Makes likeSteps trailingTree := likeSteps_makes _ (by simp)
  have hstandard : leadingTree.IsStandard := by
    simp [Condition.IsStandard, leadingTree, Condition.atoms, Condition.atomsOfAll, trueLeaf,
      constantCondition]
  have hstandard' : trailingTree.IsStandard := by
    simp [Condition.IsStandard, trailingTree, Condition.atoms, Condition.atomsOfAll, trueLeaf,
      constantCondition]
  obtain ⟨b, records, hevaluate⟩ := hstructural.evaluated hleading htrailing
    (show Value.equalWithin comparisonRoom _ _ = .ok true from rfl) hstandard hstandard'
  -- Result and records are those of one evaluation, right after the trees have been made.
  have hfirst := hevaluate leadingTree (by simp) 0 ⟨.recursive, true⟩ 2 (performAll likeSteps start).2
    ⟨[], .refl _⟩ (Host.not_exhausts_of_depth_le _ (Nat.le_refl 2))
  have hresult : true = b := Except.ok.inj (congrArg Prod.fst hfirst)
  have hlog : [.enteredGroup .and 2, .enteredLeaf ClassTag.leaf.name,
      .enteredLeaf ClassTag.leaf.name] ++ [.evaluated true .recursive] =
        records ++ [.evaluated b .recursive] := by
    have hlogs := congrArg (fun result ↦ result.2.log.toList) hfirst
    simp only [World.extend, Array.toList_appendList, if_true] at hlogs
    exact hlogs
  obtain rfl := (List.append_inj' hlog rfl).1
  subst hresult
  exact ⟨rfl, fun H ↦ hstructural.hashed hobserved hleading
    (show Value.equalWithin comparisonRoom _ _ = .ok true from rfl) H comparisonRoom, rfl, hevaluate⟩

end ShortCircuit
