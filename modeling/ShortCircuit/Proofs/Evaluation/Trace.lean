import ShortCircuit.Proofs.Evaluation.Mirror
import ShortCircuit.Proofs.Evaluation.Order

/-!
# The trace of an evaluation

A traced evaluation notes its visits in preorder. What a visit adds to the log is what reading the
offer of the atom logs, the note of the visit, and what the call and the conversion of its answer
log; a visit of an atom that offers nothing to call has no note. `evaluate_traced` also has the
calls announce themselves in the log, which shows that a call follows the note of its atom at once.
-/

namespace ShortCircuit

variable {α β σ ε : Type}

namespace Act

/-- The action with some records logged before its own. -/
def heralded (act : Act σ ε β) (records : List Record) : Act σ ε β := fun s ↦
  let answer := act s
  ⟨answer.outcome, answer.state, records ++ answer.records⟩

/-- The action with a function applied to its result. -/
def map {β' : Type} (act : Act σ ε β) (f : β → β') : Act σ ε β' := fun s ↦
  let answer := act s
  ⟨answer.outcome.map f, answer.state, answer.records⟩

end Act

namespace Host

/-- An evaluation as an action of a host, so that an atom may make it when it is called. -/
def evaluation (h : Host α β σ ε) (settings : Settings) (room : Nat) (c : Condition α) :
    Act σ ε Bool := fun s ↦
  let (outcome, w) := h.evaluate settings room c ⟨s, #[]⟩
  ⟨outcome, w.state, w.log.toList⟩

/-- The host whose calls announce themselves in the log before they do anything else. -/
def heralding (h : Host α β σ ε) (herald : α → List Record) : Host α β σ ε where
  className := h.className
  offer a s :=
    let answer := h.offer a s
    ⟨answer.outcome.map (Option.map (Act.heralded · (herald a))), answer.state, answer.records⟩
  meansAbsent := h.meansAbsent
  truth := h.truth
  unrecognized := h.unrecognized
  exhausted := h.exhausted

/-- What is logged by reading the offer of the atom that is visited. -/
def preludeOf (h : Host α β σ ε) (v : Visit α σ) : List Record :=
  match v.node with
  | .group _ _ _ => []
  | .atom a => (h.offer a v.state).records

/-- The record by which a traced evaluation notes a visit: a group is noted with the number of all
its children, an atom with its class if it offers something to call. -/
def noteOf (h : Host α β σ ε) (v : Visit α σ) : List Record :=
  match v.node with
  | .group _ k children => [.enteredGroup k children.length]
  | .atom a =>
    match (h.offer a v.state).outcome with
    | .ok (some _) => [.enteredLeaf (h.className a)]
    | .ok none | .error _ => []

/-- What is logged by calling the atom that is visited and by converting its answer. -/
def sequelOf (h : Host α β σ ε) (v : Visit α σ) : List Record :=
  match v.node with
  | .group _ _ _ => []
  | .atom a =>
    let offered := h.offer a v.state
    match offered.outcome with
    | .ok none | .error _ => []
    | .ok (some verify) =>
      let called := verify offered.state
      called.records ++
        match called.outcome with
        | .error _ => []
        | .ok answer => (h.truth answer called.state).records

/-- Announcements change neither outcomes nor states. -/
theorem mirrors_heralding (h : Host α β σ ε) (herald : α → List Record) :
    Mirrors id h (h.heralding herald) := by
  have hverification : ∀ a s,
      ((h.heralding herald).verification false a s).outcome = (h.verification false a s).outcome ∧
        ((h.heralding herald).verification false a s).state = (h.verification false a s).state := by
    intro a s
    simp only [verification, heralding]
    cases (h.offer a s).outcome with
    | error e => exact ⟨rfl, rfl⟩
    | ok offered =>
      cases offered with
      | none => exact ⟨rfl, rfl⟩
      | some verify =>
        cases hcall : (verify (h.offer a s).state).outcome with
        | error e => simp [Except.map, Act.heralded, hcall]
        | ok answer => simp [Except.map, Act.heralded, hcall]
  exact ⟨fun a s ↦ (hverification a s).1, fun a s ↦ (hverification a s).2, rfl⟩

/-- What a visit adds to the log of a traced evaluation, each call being announced. -/
theorem recordsOf_heralding (h : Host α β σ ε) (herald : α → List Record) (v : Visit α σ) :
    (h.heralding herald).recordsOf true v =
      h.preludeOf v ++ h.noteOf v ++ (h.callsOf v).flatMap herald ++ h.sequelOf v := by
  obtain ⟨p, a | ⟨origin, k, children⟩, s⟩ := v
  · simp only [recordsOf, verification, heralding, preludeOf, noteOf, callsOf, sequelOf]
    cases (h.offer a s).outcome with
    | error e => simp [Except.map]
    | ok offered =>
      cases offered with
      | none => simp [Except.map]
      | some verify =>
        cases hcall : (verify (h.offer a s).state).outcome with
        | error e => simp [Except.map, Act.heralded, hcall]
        | ok answer => simp [Except.map, Act.heralded, hcall]
  · simp [recordsOf, preludeOf, noteOf, callsOf, sequelOf]

/-- Announcements without records change nothing at all. -/
theorem heralding_nil (h : Host α β σ ε) : h.heralding (fun _ ↦ []) = h := by
  have hcall : ∀ verify : Act σ ε β, verify.heralded [] = verify := fun _ ↦ rfl
  have houtcome : ∀ r : Except ε (Option (Act σ ε β)),
      r.map (Option.map (Act.heralded · [])) = r := by
    intro r
    cases r <;> simp [Except.map, hcall]
  simp only [heralding, houtcome]

/-- What a visit adds to the log of a traced evaluation. -/
theorem recordsOf_traced (h : Host α β σ ε) (v : Visit α σ) :
    h.recordsOf true v = h.preludeOf v ++ h.noteOf v ++ h.sequelOf v := by
  have hheralded := h.recordsOf_heralding (fun _ ↦ []) v
  have hsilent : (h.callsOf v).flatMap (fun _ ↦ ([] : List Record)) = [] :=
    List.flatMap_eq_nil_iff.mpr fun _ _ ↦ rfl
  rwa [heralding_nil, hsilent, List.append_nil] at hheralded

/-- The call of an atom that makes an evaluation logs what that evaluation logs. -/
theorem sequelOf_evaluation {α' β' : Type} {h : Host α β σ ε} {g : Host α' β' σ ε}
    {settings : Settings} {room : Nat} {c : Condition α'} {answer : Bool → β} {v : Visit α σ}
    {a : α} (hnode : v.node = .atom a)
    (hoffer : (h.offer a v.state).outcome = .ok (some ((g.evaluation settings room c).map answer))) :
    h.sequelOf v = (g.evaluate settings room c ⟨(h.offer a v.state).state, #[]⟩).2.log.toList ++
      match (g.evaluate settings room c ⟨(h.offer a v.state).state, #[]⟩).1 with
      | .error _ => []
      | .ok b => (h.truth (answer b)
          (g.evaluate settings room c ⟨(h.offer a v.state).state, #[]⟩).2.state).records := by
  simp only [sequelOf, hnode, hoffer, Act.map, evaluation]
  cases (g.evaluate settings room c ⟨(h.offer a v.state).state, #[]⟩).1 with
  | error e => rfl
  | ok b => rfl

/-! ## Preorder -/

/-- What stands below a child comes before what stands below a later one. -/
theorem position_lt_of_index_lt {p q q' : Position} {i j : Nat} (hij : i < j) :
    p ++ i :: q < p ++ j :: q' :=
  List.append_left_lt (List.cons_lt_cons_iff.mpr (.inl hij))

mutual

/-- The visits of a traversal come in preorder: positions go up in the lexicographic order. -/
theorem Traversal.preorder {h : Host α β σ ε} {p : Position} {c : Condition α} {s s' : σ}
    {vs : List (Visit α σ)} {r : Except ε Bool} :
    h.Traversal p c s vs r s' → (vs.map Visit.position).Pairwise (· < ·)
  | .atom _ _ => List.pairwise_singleton ..
  | .group scan => by
    rw [List.map_cons, List.pairwise_cons]
    refine ⟨fun q hq ↦ ?_, scan.preorder⟩
    obtain ⟨v, hv, rfl⟩ := List.mem_map.mp hq
    obtain ⟨j, q, -, hposition, -⟩ := scan.placed v hv
    have hbelow : p ++ [] < p ++ (0 + j) :: q := List.append_left_lt (List.nil_lt_cons ..)
    rwa [List.append_nil, ← hposition] at hbelow
  termination_by structural ht => ht

theorem Scan.preorder {h : Host α β σ ε} {p : Position} {k : Connective} {i : Nat}
    {children : List (Condition α)} {s s' : σ} {vs : List (Visit α σ)} {r : Except ε Bool} :
    h.Scan p k i children s vs r s' → (vs.map Visit.position).Pairwise (· < ·)
  | .exhausted => .nil
  | .decided first => first.preorder
  | .failed first => first.preorder
  | .passed first further => by
    rw [List.map_append, List.pairwise_append]
    refine ⟨first.preorder, further.preorder, fun q hq q' hq' ↦ ?_⟩
    obtain ⟨v, hv, rfl⟩ := List.mem_map.mp hq
    obtain ⟨v', hv', rfl⟩ := List.mem_map.mp hq'
    obtain ⟨q, hposition, -⟩ := first.placed v hv
    obtain ⟨j, q', -, hposition', -⟩ := further.placed v' hv'
    rw [hposition, hposition', List.append_assoc, List.singleton_append]
    exact position_lt_of_index_lt (by omega)
  termination_by structural hs => hs

end

end Host

/-- A traced evaluation visits the nodes of the traversal in preorder, and its log grows by what
each of the visits adds and then by the record of the result, if there is one. However the calls
announce themselves, the announcement stands right behind the note of the atom. Between that note
and what follows it stand the records of an evaluation that the call makes. -/
theorem evaluate_traced (h : Host α β σ ε) (strategy : Strategy) (room : Nat) (c : Condition α)
    (w : World σ) (hroom : ¬ h.Exhausts ⟨strategy, true⟩ room c w) :
    h.Traversal [] c w.state (h.visits ⟨strategy, true⟩ room c w)
        (h.evaluate ⟨strategy, true⟩ room c w).1 (h.evaluate ⟨strategy, true⟩ room c w).2.state ∧
      ((h.visits ⟨strategy, true⟩ room c w).map Visit.position).Pairwise (· < ·) ∧
      (∀ v ∈ h.visits ⟨strategy, true⟩ room c w, c.at? v.position = some v.node) ∧
      (h.evaluate ⟨strategy, true⟩ room c w).2.log = w.log ++
        ((h.visits ⟨strategy, true⟩ room c w).flatMap (fun v ↦
            h.preludeOf v ++ h.noteOf v ++ h.sequelOf v) ++
          strategy.closing (h.evaluate ⟨strategy, true⟩ room c w).1) ∧
      (∀ herald : α → List Record,
        ((h.heralding herald).evaluate ⟨strategy, true⟩ room c w).2.log = w.log ++
          ((h.visits ⟨strategy, true⟩ room c w).flatMap (fun v ↦
              h.preludeOf v ++ h.noteOf v ++ (h.callsOf v).flatMap herald ++ h.sequelOf v) ++
            strategy.closing (h.evaluate ⟨strategy, true⟩ room c w).1)) ∧
      ∀ v ∈ h.visits ⟨strategy, true⟩ room c w, ∀ a, v.node = .atom a →
        ∀ (α' β' : Type) (g : Host α' β' σ ε) (settings : Settings) (room' : Nat)
          (c' : Condition α') (answer : Bool → β),
          (h.offer a v.state).outcome =
              .ok (some ((g.evaluation settings room' c').map answer)) →
            (g.evaluate settings room' c' ⟨(h.offer a v.state).state, #[]⟩).2.log.toList <+:
              h.sequelOf v := by
  obtain ⟨vs, r, s', ht⟩ := h.exists_traversal [] w.state c
  have hvisits : h.visits ⟨strategy, true⟩ room c w = vs := (Host.walk_eq ht hroom).2
  have hjournal : h.journal true vs =
      vs.flatMap fun v ↦ h.preludeOf v ++ h.noteOf v ++ h.sequelOf v :=
    congrArg vs.flatMap (funext h.recordsOf_traced)
  rw [hvisits, Host.evaluate_eq ht hroom]
  refine ⟨ht, ht.preorder, fun v hv ↦ ht.at?_position hv, ?_, ?_, ?_⟩
  · rw [← hjournal]
    rfl
  · intro herald
    have hmirror := h.mirrors_heralding herald
    have ht' : (h.heralding herald).Traversal [] c w.state vs r s' := by
      simpa using ht.mirror hmirror
    rw [Host.evaluate_eq ht' ((Host.exhausts_mirror hmirror _ room c rfl).not.mpr hroom)]
    have hheralded : (h.heralding herald).journal true vs = vs.flatMap fun v ↦
        h.preludeOf v ++ h.noteOf v ++ (h.callsOf v).flatMap herald ++ h.sequelOf v :=
      congrArg vs.flatMap (funext (h.recordsOf_heralding herald))
    rw [← hheralded]
    rfl
  · intro v _ a hnode α' β' g settings room' c' answer hoffer
    rw [Host.sequelOf_evaluation hnode hoffer]
    exact List.prefix_append ..

namespace Session

/-- A leaf that evaluates the constant true condition when it is called. -/
def consultingLeaf : Value :=
  .leaf ⟨⟨firstFreshId, .leaf⟩, false, ⟨some "consult", .evaluates (.constant true) .shared⟩, none⟩

/-- A tree whose first leaf makes an evaluation, and whose third child is not visited. -/
def consultingTree : Condition Value :=
  .group ⟨firstFreshId + 1, .group⟩ .and
    [.atom consultingLeaf, .group ⟨firstFreshId + 2, .group⟩ .or [], .atom .nothing]

theorem consultingTree_within :
    ¬ (host 1).Exhausts ⟨.recursive, true⟩ 2 consultingTree start := by
  intro hexhausted
  have hresult : ((host 1).telling.walk ⟨.recursive, true⟩ 2 consultingTree start).1 = .ok false :=
    rfl
  cases hresult.symm.trans hexhausted

end Session

/-- The record of the inner evaluation stands between the note of the leaf and that of the group
without children. -/
theorem evaluate_traced_consultingTree :
    ¬ (Session.host 1).Exhausts ⟨.recursive, true⟩ 2 Session.consultingTree Session.start ∧
      ((Session.host 1).visits ⟨.recursive, true⟩ 2 Session.consultingTree Session.start).map
        Visit.position = [[], [0], [1]] ∧
      ((Session.host 1).evaluate ⟨.recursive, true⟩ 2 Session.consultingTree
          Session.start).2.log =
        #[.enteredGroup .and 3, .enteredLeaf "LeafCondition", .evaluated true .recursive,
          .enteredGroup .or 0, .evaluated false .recursive] ∧
      (((Session.host 1).heralding fun _ ↦ [.initialized {}]).evaluate ⟨.recursive, true⟩ 2
          Session.consultingTree Session.start).2.log =
        #[.enteredGroup .and 3, .enteredLeaf "LeafCondition", .initialized {},
          .evaluated true .recursive, .enteredGroup .or 0, .evaluated false .recursive] := by
  have hroom := Session.consultingTree_within
  obtain ⟨-, -, -, hlog, hheralded, -⟩ :=
    evaluate_traced (Session.host 1) .recursive 2 Session.consultingTree Session.start hroom
  exact ⟨hroom, rfl, hlog.trans rfl, (hheralded _).trans rfl⟩

end ShortCircuit
