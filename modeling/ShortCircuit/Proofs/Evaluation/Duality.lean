import ShortCircuit.Proofs.Evaluation.Transparency

/-!
# Duality

The dual of a tree has the other connective at every group, and its atoms answer with the negation
of what they stood for: `Host.negating` verifies an atom with all its effects and only turns its
truth value around. `evaluate_dual` says that the evaluation of the dual visits the same positions
in the same states and comes to the negation of the result, or to the same failure.
-/

namespace ShortCircuit

variable {α β σ ε : Type}

namespace Connective

@[simp] theorem deciding_dual (k : Connective) : k.dual.deciding = !k.deciding := by
  cases k <;> rfl

end Connective

namespace Condition

mutual

/-- The tree with the other connective at every group. -/
def dual : Condition α → Condition α
  | .atom a => .atom a
  | .group origin k children => .group origin k.dual (dualAll children)

/-- The duals of the children of a group. -/
def dualAll : List (Condition α) → List (Condition α)
  | [] => []
  | c :: rest => dual c :: dualAll rest

end

@[simp] theorem length_dualAll (children : List (Condition α)) :
    (dualAll children).length = children.length := by
  induction children with
  | nil => rfl
  | cons c rest ih => rw [dualAll, List.length_cons, List.length_cons, ih]

end Condition

/-- The visit of the node that stands at the position in the dual of the tree. -/
def Visit.dual (v : Visit α σ) : Visit α σ := ⟨v.position, v.node.dual, v.state⟩

/-- The record with the other connective, if it notes a group. -/
def Record.dual : Record → Record
  | .enteredGroup k width => .enteredGroup k.dual width
  | .initialized settings => .initialized settings
  | .enteredLeaf className => .enteredLeaf className
  | .evaluated b strategy => .evaluated b strategy

namespace Host

/-- Calls the atom, has its answer converted, and answers with the negation. -/
def negated (h : Host α β σ ε) (verify : Act σ ε β) : Act σ ε Bool := fun s ↦
  let called := verify s
  match called.outcome with
  | .error e => ⟨.error e, called.state, called.records⟩
  | .ok answer =>
    let converted := h.truth answer called.state
    ⟨converted.outcome.map (!·), converted.state, called.records ++ converted.records⟩

/-- The host of the same atoms, each of which answers with the negation of its truth value if it
answers at all. -/
def negating (h : Host α β σ ε) : Host α Bool σ ε where
  className := h.className
  offer a s :=
    let answer := h.offer a s
    ⟨answer.outcome.map (Option.map h.negated), answer.state, answer.records⟩
  meansAbsent := h.meansAbsent
  truth b := fun s ↦ ⟨.ok b, s, []⟩
  unrecognized := h.unrecognized
  exhausted := h.exhausted

variable {h : Host α β σ ε} {trace : Bool}

/-- The verification of an atom, turned around, fails where it failed and does what it did. -/
theorem verification_negating (h : Host α β σ ε) (trace : Bool) (a : α) (s : σ) :
    h.negating.verification trace a s = Act.map (h.verification trace a) (!·) s := by
  simp only [verification, negating, Act.map]
  cases (h.offer a s).outcome with
  | error e => rfl
  | ok offered =>
    cases offered with
    | none => rfl
    | some verify =>
      cases hcall : (verify (h.offer a s).state).outcome with
      | error e => simp [Except.map, negated, hcall]
      | ok answer =>
        cases hconvert : (h.truth answer (verify (h.offer a s).state).state).outcome with
        | error e => simp [Except.map, negated, hcall, hconvert]
        | ok b => simp [Except.map, negated, hcall, hconvert]

mutual

/-- The dual of a tree is traversed as the tree is, and comes to the negation. -/
theorem Traversal.dual {p : Position} {c : Condition α} {s s' : σ} {vs : List (Visit α σ)}
    {r : Except ε Bool} : h.Traversal p c s vs r s' →
    h.negating.Traversal p c.dual s (vs.map Visit.dual) (r.map (!·)) s'
  | .atom outcome state => by
    rw [Condition.dual]
    refine .atom ?_ ?_
    · rw [verification_negating]
      exact congrArg (Except.map (!·)) outcome
    · rw [verification_negating]
      exact state
  | .group scan => by
    rw [Condition.dual, List.map_cons, Visit.dual, Condition.dual]
    exact .group scan.dual
  termination_by structural ht => ht

/-- A child that decides in the group does so in the dual, and so does one that passes. -/
theorem Scan.dual {p : Position} {k : Connective} {i : Nat} {children : List (Condition α)}
    {s s' : σ} {vs : List (Visit α σ)} {r : Except ε Bool} : h.Scan p k i children s vs r s' →
    h.negating.Scan p k.dual i (Condition.dualAll children) s (vs.map Visit.dual)
      (r.map (!·)) s'
  | .exhausted => by
    have hdual : h.negating.Scan p k.dual i [] s [] (.ok !k.dual.deciding) s := .exhausted
    rwa [Connective.deciding_dual] at hdual
  | .decided first => by
    have hfirst := first.dual
    rw [Except.map, ← Connective.deciding_dual] at hfirst ⊢
    exact .decided hfirst
  | .failed first => .failed first.dual
  | .passed first further => by
    have hfirst := first.dual
    rw [Except.map, ← Connective.deciding_dual] at hfirst
    rw [List.map_append]
    exact .passed hfirst further.dual
  termination_by structural hs => hs

end

/-! ## The log of the dual -/

theorem preludeOf_dual (h : Host α β σ ε) (v : Visit α σ) :
    h.negating.preludeOf v.dual = h.preludeOf v := by
  obtain ⟨p, a | ⟨origin, k, children⟩, s⟩ := v <;> rfl

theorem noteOf_dual (h : Host α β σ ε) (v : Visit α σ) :
    h.negating.noteOf v.dual = (h.noteOf v).map Record.dual := by
  obtain ⟨p, a | ⟨origin, k, children⟩, s⟩ := v
  · simp only [noteOf, Visit.dual, Condition.dual, negating]
    cases (h.offer a s).outcome with
    | error e => rfl
    | ok offered => cases offered <;> rfl
  · simp only [noteOf, Visit.dual, Condition.dual, Condition.length_dualAll]
    rfl

theorem recordsOf_dual (h : Host α β σ ε) (v : Visit α σ) :
    h.negating.recordsOf false v.dual = h.recordsOf false v := by
  obtain ⟨p, a | ⟨origin, k, children⟩, s⟩ := v
  · simp only [recordsOf, Visit.dual, Condition.dual, verification_negating, Act.map]
  · rfl

/-- What an untraced visit logs behind its prelude is the sequel. -/
theorem sequelOf_dual (h : Host α β σ ε) (v : Visit α σ) :
    h.negating.sequelOf v.dual = h.sequelOf v := by
  have hrecords := h.recordsOf_dual v
  rw [recordsOf_untraced, recordsOf_untraced, preludeOf_dual] at hrecords
  exact List.append_cancel_left hrecords

theorem callsOf_dual (h : Host α β σ ε) (v : Visit α σ) :
    h.negating.callsOf v.dual = h.callsOf v := by
  obtain ⟨p, a | ⟨origin, k, children⟩, s⟩ := v
  · simp only [callsOf, Visit.dual, Condition.dual, negating]
    cases (h.offer a s).outcome with
    | error e => rfl
    | ok offered => cases offered <;> rfl
  · rfl

theorem calls_dual (h : Host α β σ ε) (vs : List (Visit α σ)) :
    h.negating.calls (vs.map Visit.dual) = h.calls vs := by
  rw [calls, List.flatMap_map, calls]
  exact List.flatMap_congr fun v _ ↦ h.callsOf_dual v

/-- The entry of the log of the dual. Only the notes, which are marked, name connectives of the
tree. -/
def dualEntry (entry : Record × Bool) : Record × Bool :=
  (if entry.2 then entry.1.dual else entry.1, entry.2)

theorem map_dualEntry_marked (records : List Record) :
    (records.map (·, true)).map dualEntry = (records.map Record.dual).map (·, true) := by
  rw [List.map_map, List.map_map]
  rfl

theorem map_dualEntry_unmarked (records : List Record) :
    (records.map (·, false)).map dualEntry = records.map (·, false) := by
  rw [List.map_map]
  rfl

theorem annotated_dual (h : Host α β σ ε) (trace : Bool) (vs : List (Visit α σ)) :
    h.negating.annotated trace (vs.map Visit.dual) = (h.annotated trace vs).map dualEntry := by
  have hvisit : ∀ v,
      h.negating.annotatedOf trace v.dual = (h.annotatedOf trace v).map dualEntry := by
    intro v
    simp only [annotatedOf, List.map_append, map_dualEntry_marked, map_dualEntry_unmarked,
      preludeOf_dual, sequelOf_dual, noteOf_dual]
    cases trace <;> rfl
  rw [annotated, List.flatMap_map, annotated, List.map_flatMap]
  exact List.flatMap_congr fun v _ ↦ hvisit v

/-- The dual of a tree takes the room of the tree. -/
theorem exhausts_dual {settings : Settings} {room : Nat} {c : Condition α} {w : World σ} :
    h.negating.Exhausts settings room c.dual w ↔ h.Exhausts settings room c w := by
  obtain ⟨vs, r, s', ht⟩ := h.exists_traversal [] w.state c
  rw [exhausts_iff ht, exhausts_iff ht.dual]
  simp [Visit.dual]

end Host

/-- The evaluation of the dual of a tree visits the positions that the evaluation of the tree
visits, finds the host in the same states there and leaves it in the same one, makes the same calls,
and ends with the negation of the result or with the same failure. The logs differ in the
connectives of the notes, and in the result. -/
theorem evaluate_dual (h : Host α β σ ε) (settings : Settings) (room : Nat) (c : Condition α)
    (w : World σ) (hroom : ¬ h.Exhausts settings room c w) :
    ∃ (outcome : Except ε Bool) (state : σ) (calls : List α) (entries : List (Record × Bool)),
      ¬ h.negating.Exhausts settings room c.dual w ∧
      h.negating.visits settings room c.dual w =
        (h.visits settings room c w).map Visit.dual ∧
      entries = h.annotated settings.trace (h.visits settings room c w) ∧
      h.evaluate settings room c w = (outcome, w.extend state
        (entries.map Prod.fst ++ settings.strategy.closing outcome)) ∧
      h.negating.evaluate settings room c.dual w = (outcome.map (!·), w.extend state
        ((entries.map Host.dualEntry).map Prod.fst ++
          settings.strategy.closing (outcome.map (!·)))) ∧
      (h.recording.evaluate settings room c w.recording).2.state = (state, calls) ∧
      (h.negating.recording.evaluate settings room c.dual w.recording).2.state =
        (state, calls) := by
  obtain ⟨vs, r, s', ht⟩ := h.exists_traversal [] w.state c
  have hdual := ht.dual
  have hroom' : ¬ h.negating.Exhausts settings room c.dual w := Host.exhausts_dual.not.mpr hroom
  refine ⟨r, s', h.calls vs, h.annotated settings.trace vs, hroom', ?_, ?_, ?_, ?_, ?_, ?_⟩
  · rw [(Host.walk_eq hdual hroom').2, (Host.walk_eq ht hroom).2]
  · rw [(Host.walk_eq ht hroom).2]
  · rw [Host.evaluate_eq ht hroom, Host.map_fst_annotated]
  · rw [Host.evaluate_eq hdual hroom', ← Host.annotated_dual, Host.map_fst_annotated]
  · rw [Host.evaluate_recording ht hroom]
    rfl
  · rw [Host.evaluate_recording hdual hroom', Host.calls_dual]
    rfl

namespace Session

/-- A leaf that evaluates the constant true condition when it is called. -/
def inquiringLeaf : Value :=
  .leaf ⟨⟨firstFreshId + 2, .leaf⟩, false, ⟨none, .evaluates (.constant true) .shared⟩, none⟩

/-- A conjunction of a disjunction that the turning leaf settles at its second visit, and of the
leaf that makes an evaluation. -/
def settlingTree : Condition Value :=
  .group ⟨firstFreshId + 3, .group⟩ .and
    [.group ⟨firstFreshId + 4, .group⟩ .or
      [.atom turningLeaf, .atom turningLeaf, .atom .nothing], .atom inquiringLeaf]

end Session

/-- The conjunction is true and its dual, a disjunction, is false. The same leaves are called for
it, and the record of the inner evaluation is the same. -/
theorem evaluate_dual_settlingTree :
    ¬ (Session.host 1).Exhausts ⟨.recursive, true⟩ 3 Session.settlingTree Session.start ∧
      ((Session.host 1).evaluate ⟨.recursive, true⟩ 3 Session.settlingTree Session.start).1 =
        .ok true ∧
      ((Session.host 1).negating.evaluate ⟨.recursive, true⟩ 3 Session.settlingTree.dual
        Session.start).1 = .ok false ∧
      ((Session.host 1).negating.recording.evaluate ⟨.recursive, true⟩ 3
        Session.settlingTree.dual Session.start.recording).2.state.2 =
          [Session.turningLeaf, Session.turningLeaf, Session.inquiringLeaf] ∧
      ((Session.host 1).negating.evaluate ⟨.recursive, true⟩ 3 Session.settlingTree.dual
        Session.start).2.log =
          #[.enteredGroup .or 2, .enteredGroup .and 3, .enteredLeaf "LeafCondition",
            .enteredLeaf "LeafCondition", .enteredLeaf "LeafCondition", .evaluated true .recursive,
            .evaluated false .recursive] := by
  have hroom : ¬ (Session.host 1).Exhausts ⟨.recursive, true⟩ 3 Session.settlingTree
      Session.start := Host.not_exhausts_of_ok (b := true) rfl
  obtain ⟨outcome, state, calls, entries, -, -, hentries, heval, hdual, hcalls, hcalls'⟩ :=
    evaluate_dual (Session.host 1) ⟨.recursive, true⟩ 3 Session.settlingTree Session.start hroom
  have houtcome : outcome = .ok true := (congrArg Prod.fst heval).symm.trans rfl
  have hmade : calls = [Session.turningLeaf, Session.turningLeaf, Session.inquiringLeaf] :=
    (congrArg Prod.snd hcalls).symm.trans rfl
  have hlog : entries = [(.enteredGroup .and 2, true), (.enteredGroup .or 3, true),
      (.enteredLeaf "LeafCondition", true), (.enteredLeaf "LeafCondition", true),
      (.enteredLeaf "LeafCondition", true), (.evaluated true .recursive, false)] :=
    hentries.trans rfl
  rw [heval, hdual, hcalls', houtcome, hmade, hlog]
  exact ⟨hroom, rfl, rfl, rfl, rfl⟩

end ShortCircuit
