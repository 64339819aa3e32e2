import ShortCircuit.Proofs.Evaluation.Reentrance

/-!
# Tracing is transparent

`Host.annotated` lists what visits add to the log and marks the notes, which an evaluator writes
itself; all else is logged by the atoms. `evaluate_untraced` compares a traced evaluation with an
untraced one: they cannot be told apart but by the notes, and the untraced one writes none. It says
so of a host that logs nothing as well, under which all records are the evaluator's own.
-/

namespace ShortCircuit

variable {α β σ ε : Type}

/-- The action without what it logs. -/
def Act.silent (act : Act σ ε β) : Act σ ε β := fun s ↦
  let answer := act s
  ⟨answer.outcome, answer.state, []⟩

namespace Host

/-- The host that does the same and logs nothing. -/
def silent (h : Host α β σ ε) : Host α β σ ε where
  className := h.className
  offer a s :=
    let answer := h.offer a s
    ⟨answer.outcome.map (Option.map Act.silent), answer.state, []⟩
  meansAbsent := h.meansAbsent
  truth answer := (h.truth answer).silent
  unrecognized := h.unrecognized
  exhausted := h.exhausted

/-- Makes an evaluator with the settings and has it evaluate a tree. -/
def evaluateAnew (h : Host α β σ ε) (settings : Settings) (room : Nat) (c : Condition α)
    (w : World σ) : Except ε Bool × World σ :=
  h.evaluate settings room c (w.record (.initialized settings))

/-- The records that a visit adds to the log. The note of the visit is marked. -/
def annotatedOf (h : Host α β σ ε) (trace : Bool) (v : Visit α σ) : List (Record × Bool) :=
  (h.preludeOf v).map (·, false) ++ (if trace then h.noteOf v else []).map (·, true) ++
    (h.sequelOf v).map (·, false)

/-- The records that visits add to the log, one visit after the other. -/
def annotated (h : Host α β σ ε) (trace : Bool) (vs : List (Visit α σ)) : List (Record × Bool) :=
  vs.flatMap (h.annotatedOf trace)

/-- The records that are marked. -/
def marked (entries : List (Record × Bool)) : List Record :=
  (entries.filter fun entry ↦ entry.2).map Prod.fst

@[simp] theorem marked_append (l l' : List (Record × Bool)) :
    marked (l ++ l') = marked l ++ marked l' := by
  simp [marked]

@[simp] theorem marked_map_true (records : List Record) :
    marked (records.map (·, true)) = records := by
  simp [marked, List.filter_map, Function.comp_def]

@[simp] theorem marked_map_false (records : List Record) :
    marked (records.map (·, false)) = [] := by
  simp [marked, List.filter_map, Function.comp_def]

theorem unmarked_flatMap {γ : Type} (f : γ → List (Record × Bool)) (l : List γ) :
    unmarked (l.flatMap f) = l.flatMap fun x ↦ unmarked (f x) := by
  simp [unmarked, List.filter_flatMap, List.map_flatMap]

theorem marked_flatMap {γ : Type} (f : γ → List (Record × Bool)) (l : List γ) :
    marked (l.flatMap f) = l.flatMap fun x ↦ marked (f x) := by
  simp [marked, List.filter_flatMap, List.map_flatMap]

/-- If the marked records are the ones with a property, what is left without them are the records
that do not have it. -/
theorem unmarked_eq_filter {entries : List (Record × Bool)} {P : Record → Bool}
    (hmarked : ∀ r ∈ marked entries, P r = true) (hunmarked : ∀ r ∈ unmarked entries, P r = false) :
    unmarked entries = (entries.map Prod.fst).filter fun r ↦ !P r := by
  rw [unmarked, List.filter_map]
  refine congrArg _ (List.filter_congr fun entry hentry ↦ ?_)
  obtain ⟨r, mark⟩ := entry
  cases mark with
  | true =>
    have hr : P r = true := hmarked r (List.mem_map.mpr ⟨_, List.mem_filter.mpr ⟨hentry, rfl⟩, rfl⟩)
    simp [hr]
  | false =>
    have hr : P r = false :=
      hunmarked r (List.mem_map.mpr ⟨_, List.mem_filter.mpr ⟨hentry, rfl⟩, rfl⟩)
    simp [hr]

variable {h : Host α β σ ε} {trace : Bool} {v : Visit α σ} {vs : List (Visit α σ)}

/-! ## What a visit adds to the log -/

/-- Without tracing, a visit adds what its atom logs. -/
theorem recordsOf_untraced (h : Host α β σ ε) (v : Visit α σ) :
    h.recordsOf false v = h.preludeOf v ++ h.sequelOf v := by
  obtain ⟨p, a | ⟨origin, k, children⟩, s⟩ := v
  · simp only [recordsOf, verification, preludeOf, sequelOf]
    cases (h.offer a s).outcome with
    | error e => simp
    | ok offered =>
      cases offered with
      | none => simp
      | some verify => cases hcall : (verify (h.offer a s).state).outcome <;> simp [hcall]
  · simp [recordsOf, preludeOf, sequelOf]

theorem map_fst_annotatedOf (h : Host α β σ ε) (trace : Bool) (v : Visit α σ) :
    (h.annotatedOf trace v).map Prod.fst = h.recordsOf trace v := by
  simp only [annotatedOf, List.map_append, map_fst_marked]
  cases trace with
  | true => exact (h.recordsOf_traced v).symm
  | false =>
    rw [recordsOf_untraced]
    simp

theorem map_fst_annotated (h : Host α β σ ε) (trace : Bool) (vs : List (Visit α σ)) :
    (h.annotated trace vs).map Prod.fst = h.journal trace vs := by
  simp only [annotated, journal, List.map_flatMap, map_fst_annotatedOf]

/-- Without the notes, the log is that of an evaluation that is not traced. -/
theorem unmarked_annotated (h : Host α β σ ε) (trace : Bool) (vs : List (Visit α σ)) :
    unmarked (h.annotated trace vs) = h.journal false vs := by
  have hvisit : ∀ v, unmarked (h.annotatedOf trace v) = h.recordsOf false v := by
    intro v
    simp [annotatedOf, recordsOf_untraced]
  simp only [annotated, unmarked_flatMap, hvisit, journal]

/-- The notes are those of the visits, in order. -/
theorem marked_annotated (h : Host α β σ ε) (vs : List (Visit α σ)) :
    marked (h.annotated true vs) = vs.flatMap h.noteOf := by
  have hvisit : ∀ v, marked (h.annotatedOf true v) = h.noteOf v := by
    intro v
    simp [annotatedOf]
  simp only [annotated, marked_flatMap, hvisit]

/-- Notes are records of visits. -/
theorem isVisit_of_mem_noteOf {r : Record} (hr : r ∈ h.noteOf v) : r.isVisit = true := by
  obtain ⟨p, a | ⟨origin, k, children⟩, s⟩ := v
  · simp only [noteOf] at hr
    split at hr
    · obtain rfl := List.mem_singleton.mp hr
      rfl
    · cases hr
    · cases hr
  · obtain rfl := List.mem_singleton.mp hr
    rfl

/-! ## Without the atoms' records -/

/-- A silent host verifies as before, and only the note of the visit is logged. -/
theorem verification_silent (h : Host α β σ ε) (trace : Bool) (p : Position) (a : α) (s : σ) :
    h.silent.verification trace a s =
      ⟨(h.verification trace a s).outcome, (h.verification trace a s).state,
        if trace then h.noteOf ⟨p, .atom a, s⟩ else []⟩ := by
  simp only [verification, silent, noteOf]
  cases (h.offer a s).outcome with
  | error e => cases trace <;> rfl
  | ok offered =>
    cases offered with
    | none => cases trace <;> rfl
    | some verify =>
      cases hcall : (verify (h.offer a s).state).outcome with
      | error e => simp [Except.map, Act.silent, hcall]
      | ok answer => simp [Except.map, Act.silent, hcall]

theorem mirrors_silent (h : Host α β σ ε) : Mirrors id h h.silent where
  outcome a s := by rw [id, verification_silent h false []]
  state a s := by rw [id, verification_silent h false [], id]
  exhausted := rfl

/-- Under a silent host the log grows by the notes, if visits are traced, and by nothing else. -/
theorem journal_silent (h : Host α β σ ε) (trace : Bool) (vs : List (Visit α σ)) :
    h.silent.journal trace vs = if trace then vs.flatMap h.noteOf else [] := by
  have hvisit : h.silent.recordsOf trace = fun v ↦ if trace then h.noteOf v else [] := by
    funext ⟨p, node, s⟩
    cases node with
    | atom a => simp only [recordsOf, verification_silent h trace p]
    | group origin k children => simp only [recordsOf, noteOf]
  rw [journal, hvisit]
  cases trace <;> simp

/-! ## New evaluators -/

variable {strategy : Strategy} {room : Nat} {c : Condition α} {w : World σ} {s' : σ}
  {vs : List (Visit α σ)} {r : Except ε Bool}

/-- Whether there is room depends on the strategy and on the state, and neither on tracing nor on
the log. -/
theorem exhausts_trace (trace trace' : Bool) (w w' : World σ) (hw : w'.state = w.state) :
    h.Exhausts ⟨strategy, trace⟩ room c w' ↔ h.Exhausts ⟨strategy, trace'⟩ room c w := by
  obtain ⟨vs, r, s', ht⟩ := h.exists_traversal [] w.state c
  rw [exhausts_iff ht]
  rw [← hw] at ht
  rw [exhausts_iff ht]

/-- What a new evaluator comes to is what the traversal comes to, and its first record is that of
its settings. -/
theorem evaluateAnew_eq (trace : Bool) (ht : h.Traversal [] c w.state vs r s')
    (hroom : ¬ h.Exhausts ⟨strategy, true⟩ room c w) :
    h.evaluateAnew ⟨strategy, trace⟩ room c w = (r, w.extend s'
      (.initialized ⟨strategy, trace⟩ :: h.journal trace vs ++ strategy.closing r)) := by
  have hroom' : ¬ h.Exhausts ⟨strategy, trace⟩ room c (w.record (.initialized ⟨strategy, trace⟩)) :=
    (exhausts_trace trace true w (w.record _) rfl).not.mpr hroom
  rw [evaluateAnew, evaluate_eq (w := w.record _) ht hroom', World.record_extend]
  rfl

end Host

/-- An evaluation comes to the same with and without tracing: the outcome, the state that is left
and the calls. The records of the untraced one are those of the traced one without the marked ones,
which are the notes of the visits; so they are those without records of visits, unless atoms log
such records themselves. If nothing is logged by the atoms, the traced evaluation logs the notes,
and the untraced one nothing before its result. -/
theorem evaluate_untraced (h : Host α β σ ε) (strategy : Strategy) (room : Nat) (c : Condition α)
    (w : World σ) (hroom : ¬ h.Exhausts ⟨strategy, true⟩ room c w) :
    ∃ (outcome : Except ε Bool) (state : σ) (calls : List α) (entries : List (Record × Bool)),
      (h.evaluateAnew ⟨strategy, true⟩ room c w = (outcome, w.extend state
          (.initialized ⟨strategy, true⟩ :: entries.map Prod.fst ++ strategy.closing outcome)) ∧
        h.evaluateAnew ⟨strategy, false⟩ room c w = (outcome, w.extend state
          (.initialized ⟨strategy, false⟩ :: Host.unmarked entries ++ strategy.closing outcome))) ∧
      (∀ trace, (h.recording.evaluateAnew ⟨strategy, trace⟩ room c w.recording).2.state =
        (state, calls)) ∧
      (∀ trace, entries = h.annotated true (h.visits ⟨strategy, trace⟩ room c w)) ∧
      (∀ r ∈ Host.marked entries, r.isVisit = true) ∧
      ((∀ r ∈ Host.unmarked entries, r.isVisit = false) →
        Host.unmarked entries = (entries.map Prod.fst).filter fun r ↦ !r.isVisit) ∧
      h.silent.evaluateAnew ⟨strategy, true⟩ room c w = (outcome, w.extend state
        (.initialized ⟨strategy, true⟩ :: Host.marked entries ++ strategy.closing outcome)) ∧
      h.silent.evaluateAnew ⟨strategy, false⟩ room c w = (outcome, w.extend state
        (.initialized ⟨strategy, false⟩ :: strategy.closing outcome)) := by
  obtain ⟨vs, r, s', ht⟩ := h.exists_traversal [] w.state c
  have hmirror := h.mirrors_silent
  have hsilent : h.silent.Traversal [] c w.state vs r s' := by simpa using ht.mirror hmirror
  have hroom' : ¬ h.silent.Exhausts ⟨strategy, true⟩ room c w :=
    (Host.exhausts_mirror hmirror _ room c rfl).not.mpr hroom
  have hrooms : ∀ trace, ¬ h.Exhausts ⟨strategy, trace⟩ room c w :=
    fun trace ↦ (Host.exhausts_trace trace true w w rfl).not.mpr hroom
  have hnotes : ∀ r ∈ Host.marked (h.annotated true vs), r.isVisit = true := by
    intro r hr
    rw [Host.marked_annotated, List.mem_flatMap] at hr
    obtain ⟨v, -, hr⟩ := hr
    exact Host.isVisit_of_mem_noteOf hr
  refine ⟨r, s', h.calls vs, h.annotated true vs, ⟨?_, ?_⟩, fun trace ↦ ?_, fun trace ↦ ?_, hnotes,
    Host.unmarked_eq_filter hnotes, ?_, ?_⟩
  · rw [Host.map_fst_annotated, Host.evaluateAnew_eq true ht hroom]
  · rw [Host.unmarked_annotated, Host.evaluateAnew_eq false ht hroom]
  · rw [Host.evaluateAnew]
    have hmade : ¬ h.Exhausts ⟨strategy, trace⟩ room c
        (w.record (.initialized ⟨strategy, trace⟩)) :=
      (Host.exhausts_trace trace true w (w.record _) rfl).not.mpr hroom
    exact congrArg (fun x ↦ x.2.state) (Host.evaluate_recording (w := w.record _) ht hmade)
  · rw [(Host.walk_eq ht (hrooms trace)).2]
  · rw [Host.marked_annotated, Host.evaluateAnew_eq true hsilent hroom', Host.journal_silent]
    rfl
  · rw [Host.evaluateAnew_eq false hsilent hroom', Host.journal_silent]
    rfl

namespace Session

/-- A leaf that makes a traced evaluation of the constant true condition when it is called. -/
def tracingLeaf : Value :=
  .leaf ⟨⟨firstFreshId, .leaf⟩, false,
    ⟨none, .evaluates (.constant true) (.fresh (.settings [("trace", .bool true)] none))⟩, none⟩

/-- A tree whose first leaf logs a record of a visit itself. -/
def tracingTree : Condition Value :=
  .group ⟨firstFreshId + 1, .group⟩ .and
    [.atom tracingLeaf, .group ⟨firstFreshId + 2, .group⟩ .or [], .atom .nothing]

end Session

/-- The record of the visit that the leaf makes stays in the log without tracing. -/
theorem evaluate_untraced_tracingTree :
    ¬ (Session.host 1).Exhausts ⟨.recursive, true⟩ 2 Session.tracingTree Session.start ∧
      ((Session.host 1).evaluateAnew ⟨.recursive, true⟩ 2 Session.tracingTree
          Session.start).2.log =
        #[.initialized ⟨.recursive, true⟩, .enteredGroup .and 3, .enteredLeaf "LeafCondition",
          .initialized ⟨.recursive, true⟩, .enteredLeaf "LeafCondition", .evaluated true .recursive,
          .enteredGroup .or 0, .evaluated false .recursive] ∧
      ((Session.host 1).evaluateAnew ⟨.recursive, false⟩ 2 Session.tracingTree
          Session.start).2.log =
        #[.initialized ⟨.recursive, false⟩, .initialized ⟨.recursive, true⟩,
          .enteredLeaf "LeafCondition", .evaluated true .recursive,
          .evaluated false .recursive] := by
  have hroom : ¬ (Session.host 1).Exhausts ⟨.recursive, true⟩ 2 Session.tracingTree Session.start :=
    Host.not_exhausts_of_ok (b := false) rfl
  obtain ⟨outcome, state, calls, entries, ⟨htraced, huntraced⟩, -, hentries, -⟩ :=
    evaluate_untraced (Session.host 1) .recursive 2 Session.tracingTree Session.start hroom
  have houtcome : outcome = .ok false := (congrArg Prod.fst htraced).symm.trans rfl
  have hvisits : entries = [(.enteredGroup .and 3, true), (.enteredLeaf "LeafCondition", true),
      (.initialized ⟨.recursive, true⟩, false), (.enteredLeaf "LeafCondition", false),
      (.evaluated true .recursive, false), (.enteredGroup .or 0, true)] := (hentries true).trans rfl
  rw [htraced, huntraced, houtcome, hvisits]
  exact ⟨hroom, rfl, rfl⟩

end ShortCircuit
