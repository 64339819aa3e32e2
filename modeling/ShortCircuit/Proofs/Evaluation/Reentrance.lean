import Mathlib.Data.List.Basic
import ShortCircuit.Proofs.Evaluation.Failures
import ShortCircuit.Proofs.Evaluation.Trace

/-!
# Evaluations within evaluations

An atom may do nothing but evaluate a tree of its own when it is called, with an evaluator that may
be any, and atoms of that tree may do so again. `evaluate_inlined` says that such an atom is as good
as its tree: if the tree stands in its place, the outcome, the state and the calls of the other
atoms are the same. Without tracing, the logs differ by the records of the inner results. Leaves of
a session that evaluate named trees are such atoms; `Session.evaluate_consulting` says so.
-/

namespace ShortCircuit

variable {α β σ ε : Type}

/-- An atom of a tree in which atoms may evaluate trees. -/
inductive Reentrant (α : Type) where
  | ordinary (a : α)
  /-- An atom of the named class that answers with the result of an evaluation of the tree. -/
  | evaluating (className : String) (settings : Settings) (tree : Condition (Reentrant α))

mutual

/-- The tree that an atom stands for. -/
def Reentrant.inlined : Reentrant α → Condition α
  | .ordinary a => .atom a
  | .evaluating _ _ tree => tree.inlined

/-- The tree in which each atom that evaluates a tree is replaced by that tree. -/
def Condition.inlined : Condition (Reentrant α) → Condition α
  | .atom a => a.inlined
  | .group origin k children => .group origin k (Condition.inlinedAll children)

def Condition.inlinedAll : List (Condition (Reentrant α)) → List (Condition α)
  | [] => []
  | c :: rest => c.inlined :: Condition.inlinedAll rest

end

namespace Host

/-- The host whose atoms evaluate trees in the given way. -/
def reentrantWith (h : Host α β σ ε)
    (evaluate : Settings → Condition (Reentrant α) → Act σ ε Bool) :
    Host (Reentrant α) (β ⊕ Bool) σ ε where
  className
    | .ordinary a => h.className a
    | .evaluating className _ _ => className
  offer
    | .ordinary a => fun s ↦
      let answer := h.offer a s
      ⟨answer.outcome.map (Option.map (Act.map · .inl)), answer.state, answer.records⟩
    | .evaluating _ settings c => fun s ↦ ⟨.ok (some ((evaluate settings c).map .inr)), s, []⟩
  meansAbsent := h.meansAbsent
  truth
    | .inl answer => h.truth answer
    | .inr b => fun s ↦ ⟨.ok b, s, []⟩
  unrecognized
    | .ordinary a => h.unrecognized a
    | .evaluating _ _ _ => h.exhausted
  exhausted := h.exhausted

/-- The host whose atoms evaluate trees with itself, up to a number of evaluations nested in each
other. The room of a walk depends on how many may still be nested in it. -/
def reentrant (h : Host α β σ ε) (room : Nat → Nat) :
    (nesting : Nat) → Host (Reentrant α) (β ⊕ Bool) σ ε
  | 0 => h.reentrantWith fun _ _ s ↦ ⟨.error h.exhausted, s, []⟩
  | nesting + 1 => h.reentrantWith fun settings c ↦
    (h.reentrant room nesting).evaluation settings (room nesting) c

theorem verification_ordinary (h : Host α β σ ε)
    (evaluate : Settings → Condition (Reentrant α) → Act σ ε Bool) (trace : Bool) (a : α) (s : σ) :
    (h.reentrantWith evaluate).verification trace (.ordinary a) s = h.verification trace a s := by
  simp only [verification, reentrantWith]
  cases (h.offer a s).outcome with
  | error e => rfl
  | ok offered =>
    cases offered with
    | none => rfl
    | some verify =>
      cases hcall : (verify (h.offer a s).state).outcome with
      | error e => simp [Except.map, Act.map, hcall]
      | ok answer => simp [Except.map, Act.map, hcall]

/-- An atom that evaluates a tree fails or answers as the evaluation does. -/
theorem verification_evaluating (h : Host α β σ ε)
    (evaluate : Settings → Condition (Reentrant α) → Act σ ε Bool) (trace : Bool)
    (className : String) (settings : Settings) (c : Condition (Reentrant α)) (s : σ) :
    (h.reentrantWith evaluate).verification trace (.evaluating className settings c) s =
      ⟨(evaluate settings c s).outcome, (evaluate settings c s).state,
        (if trace then [.enteredLeaf className] else []) ++ (evaluate settings c s).records⟩ := by
  simp only [verification, reentrantWith, Act.map]
  cases (evaluate settings c s).outcome with
  | error e => simp [Except.map]
  | ok b => simp [Except.map]

theorem reentrant_verification_ordinary (h : Host α β σ ε) (room : Nat → Nat) (nesting : Nat)
    (trace : Bool) (a : α) (s : σ) :
    (h.reentrant room nesting).verification trace (.ordinary a) s = h.verification trace a s := by
  cases nesting <;> exact verification_ordinary h _ trace a s

/-! ## All evaluations that are made -/

/-- A property holds of an evaluation and, in turn, of every evaluation that one of its visits
makes; no evaluation is visited that cannot be nested any more. -/
def Throughout (h : Host α β σ ε) (room : Nat → Nat)
    (P : Nat → Settings → Condition (Reentrant α) → σ → Prop) :
    (nesting : Nat) → Settings → Condition (Reentrant α) → σ → Prop
  | 0, settings, c, s => P 0 settings c s ∧
    ∀ v ∈ (h.reentrant room 0).visits settings (room 0) c ⟨s, #[]⟩,
      ∀ className settings' c', v.node ≠ .atom (.evaluating className settings' c')
  | nesting + 1, settings, c, s => P (nesting + 1) settings c s ∧
    ∀ v ∈ (h.reentrant room (nesting + 1)).visits settings (room (nesting + 1)) c ⟨s, #[]⟩,
      ∀ className settings' c', v.node = .atom (.evaluating className settings' c') →
        h.Throughout room P nesting settings' c' v.state

/-- Neither the evaluation of a tree nor any that is made in it runs out of room. -/
def HasRoom (h : Host α β σ ε) (room : Nat → Nat) :
    (nesting : Nat) → Settings → Condition (Reentrant α) → σ → Prop :=
  h.Throughout room fun nesting settings c s ↦
    ¬ (h.reentrant room nesting).Exhausts settings (room nesting) c ⟨s, #[]⟩

/-- Neither the evaluation of a tree nor any that is made in it is traced. -/
def Untraced (h : Host α β σ ε) (room : Nat → Nat) :
    (nesting : Nat) → Settings → Condition (Reentrant α) → σ → Prop :=
  h.Throughout room fun _ settings _ _ ↦ settings.trace = false

/-! ## The log without tracing -/

/-- The records that a visit adds to the log without tracing, `inner` being those of an evaluation.
A record that is marked tells the result of an inner evaluation. -/
def entries (h : Host α β σ ε)
    (inner : Settings → Condition (Reentrant α) → σ → List (Record × Bool))
    (v : Visit (Reentrant α) σ) : List (Record × Bool) :=
  match v.node with
  | .group _ _ _ => []
  | .atom (.ordinary a) => (h.verification false a v.state).records.map (·, false)
  | .atom (.evaluating _ settings c) => inner settings c v.state

/-- The records that the visits of an evaluation add to the log without tracing. An inner evaluation
that is completed adds its own ones and then a marked record of its result. -/
def chronicle (h : Host α β σ ε) (room : Nat → Nat) :
    (nesting : Nat) → Settings → Condition (Reentrant α) → σ → List (Record × Bool)
  | 0, settings, c, s =>
    ((h.reentrant room 0).visits settings (room 0) c ⟨s, #[]⟩).flatMap
      (h.entries fun _ _ _ ↦ [])
  | nesting + 1, settings, c, s =>
    ((h.reentrant room (nesting + 1)).visits settings (room (nesting + 1)) c ⟨s, #[]⟩).flatMap
      (h.entries fun settings' c' s' ↦ h.chronicle room nesting settings' c' s' ++
        (settings'.strategy.closing
          ((h.reentrant room nesting).evaluate settings' (room nesting) c' ⟨s', #[]⟩).1).map
            (·, true))

/-- The records that are not marked. -/
def unmarked (entries : List (Record × Bool)) : List Record :=
  (entries.filter fun entry ↦ !entry.2).map Prod.fst

/-- Marks are taken off without a trace. -/
theorem map_fst_marked (records : List Record) (mark : Bool) :
    (records.map (·, mark)).map Prod.fst = records := by
  rw [List.map_map]
  exact List.map_id records

@[simp] theorem unmarked_nil : unmarked [] = [] := rfl

@[simp] theorem unmarked_append (l l' : List (Record × Bool)) :
    unmarked (l ++ l') = unmarked l ++ unmarked l' := by
  simp [unmarked]

@[simp] theorem unmarked_map_false (records : List Record) :
    unmarked (records.map (·, false)) = records := by
  simp [unmarked, List.filter_map, Function.comp_def]

@[simp] theorem unmarked_map_true (records : List Record) :
    unmarked (records.map (·, true)) = [] := by
  simp [unmarked, List.filter_map, Function.comp_def]

/-! ## Traversals -/

/-- An atom visited is matched by a traversal of the tree that it stands for, at whatever position
that tree is put; and the records of that traversal are those of the visit that are not marked. -/
def Matched (h : Host α β σ ε) {β' : Type} (g : Host (Reentrant α) β' σ ε)
    (entries : Visit (Reentrant α) σ → List (Record × Bool)) (v : Visit (Reentrant α) σ) : Prop :=
  match v.node with
  | .group _ _ _ => entries v = []
  | .atom a => ∀ q, ∃ us,
    h.Traversal q a.inlined v.state us (g.verification false a v.state).outcome
        (g.verification false a v.state).state ∧
      h.journal false us = unmarked (entries v)

variable {β' : Type} {h : Host α β σ ε} {g : Host (Reentrant α) β' σ ε}
  {entries : Visit (Reentrant α) σ → List (Record × Bool)}

theorem matched_ordinary {room : Nat → Nat} {nesting : Nat} {p : Position} {a : α} {s : σ}
    {inner : Settings → Condition (Reentrant α) → σ → List (Record × Bool)} :
    h.Matched (h.reentrant room nesting) (h.entries inner) ⟨p, .atom (.ordinary a), s⟩ := by
  intro q
  rw [reentrant_verification_ordinary]
  refine ⟨[⟨q, .atom a, s⟩], .atom rfl rfl, ?_⟩
  simp [recordsOf, entries]

mutual

/-- If all atoms visited are matched, so is the tree. -/
theorem Traversal.inlined {p : Position} {c : Condition (Reentrant α)} {s s' : σ}
    {vs : List (Visit (Reentrant α) σ)} {r : Except ε Bool} : g.Traversal p c s vs r s' →
    (∀ v ∈ vs, h.Matched g entries v) → ∀ q, ∃ us, h.Traversal q c.inlined s us r s' ∧
      h.journal false us = unmarked (vs.flatMap entries)
  | .atom outcome state, hmatched, q => by
    obtain ⟨us, ht, hjournal⟩ := hmatched _ (List.mem_singleton_self _) q
    rw [outcome, state] at ht
    refine ⟨us, ?_, ?_⟩
    · rw [Condition.inlined]
      exact ht
    · rw [hjournal, List.flatMap_singleton]
  | .group scan, hmatched, q => by
    rename_i origin k children vs
    obtain ⟨hgroup, hchildren⟩ := List.forall_mem_cons.mp hmatched
    obtain ⟨us, hscan, hjournal⟩ := scan.inlined hchildren q
    have hnone : entries ⟨p, .group origin k children, s⟩ = [] := hgroup
    refine ⟨⟨q, .group origin k (Condition.inlinedAll children), s⟩ :: us, ?_, ?_⟩
    · rw [Condition.inlined]
      exact .group hscan
    · rw [journal_cons, hjournal, List.flatMap_cons, hnone]
      rfl
  termination_by structural ht => ht

theorem Scan.inlined {p : Position} {k : Connective} {i : Nat}
    {children : List (Condition (Reentrant α))} {s s' : σ} {vs : List (Visit (Reentrant α) σ)}
    {r : Except ε Bool} : g.Scan p k i children s vs r s' →
    (∀ v ∈ vs, h.Matched g entries v) → ∀ q, ∃ us,
      h.Scan q k i (Condition.inlinedAll children) s us r s' ∧
        h.journal false us = unmarked (vs.flatMap entries)
  | .exhausted, _, q => ⟨[], .exhausted, rfl⟩
  | .decided first, hmatched, q => by
    obtain ⟨us, hfirst, hjournal⟩ := first.inlined hmatched (q ++ [i])
    exact ⟨us, .decided hfirst, hjournal⟩
  | .failed first, hmatched, q => by
    obtain ⟨us, hfirst, hjournal⟩ := first.inlined hmatched (q ++ [i])
    exact ⟨us, .failed hfirst, hjournal⟩
  | .passed first further, hmatched, q => by
    obtain ⟨hhere, hthere⟩ := List.forall_mem_append.mp hmatched
    obtain ⟨us, hfirst, hjournal⟩ := first.inlined hhere (q ++ [i])
    obtain ⟨us', hfurther, hjournal'⟩ := further.inlined hthere q
    refine ⟨us ++ us', .passed hfirst hfurther, ?_⟩
    rw [journal_append, hjournal, hjournal', List.flatMap_append, unmarked_append]
  termination_by structural hs => hs

end

/-- What an evaluation with room leaves behind, as a host sees it that makes it. -/
theorem evaluation_eq {g : Host α β σ ε} {settings : Settings} {room : Nat} {c : Condition α}
    {s s' : σ} {vs : List (Visit α σ)} {r : Except ε Bool} (ht : g.Traversal [] c s vs r s')
    (hroom : ¬ g.Exhausts settings room c ⟨s, #[]⟩) :
    g.evaluation settings room c s =
      ⟨r, s', g.journal settings.trace vs ++ settings.strategy.closing r⟩ := by
  simp only [evaluation, evaluate_eq (w := ⟨s, #[]⟩) ht hroom, World.extend]
  simp

variable {room : Nat → Nat}

/-- A walk with a result has not run out of room. -/
theorem not_exhausts_of_ok {g : Host α β σ ε} {settings : Settings} {room : Nat}
    {c : Condition α} {w : World σ} {b : Bool}
    (hresult : (g.telling.walk settings room c w).1 = .ok b) :
    ¬ g.Exhausts settings room c w :=
  fun hexhausted ↦ nomatch hresult.symm.trans hexhausted

theorem HasRoom.not_exhausts {nesting : Nat} {settings : Settings} {c : Condition (Reentrant α)}
    {s : σ} (hroom : h.HasRoom room nesting settings c s) :
    ¬ (h.reentrant room nesting).Exhausts settings (room nesting) c ⟨s, #[]⟩ := by
  cases nesting <;> exact hroom.1

/-- Whether there is room does not depend on what has been logged. -/
theorem HasRoom.within {nesting : Nat} {settings : Settings} {c : Condition (Reentrant α)}
    {w : World σ} (hroom : h.HasRoom room nesting settings c w.state) :
    ¬ (h.reentrant room nesting).Exhausts settings (room nesting) c w := by
  obtain ⟨vs, r, s', ht⟩ := (h.reentrant room nesting).exists_traversal [] w.state c
  have hwithin := hroom.not_exhausts
  rwa [exhausts_iff (w := ⟨w.state, #[]⟩) ht, ← exhausts_iff (w := w) ht] at hwithin

theorem Untraced.settings {nesting : Nat} {settings : Settings} {c : Condition (Reentrant α)}
    {s : σ} (huntraced : h.Untraced room nesting settings c s) : settings.trace = false := by
  cases nesting <;> exact huntraced.1

/-- A tree whose evaluation has room has the same traversal with all trees in their places. -/
theorem HasRoom.inlined : (nesting : Nat) → ∀ {settings : Settings} {c : Condition (Reentrant α)}
    {s s' : σ} {vs : List (Visit (Reentrant α) σ)} {r : Except ε Bool},
    h.HasRoom room nesting settings c s →
    (h.reentrant room nesting).Traversal [] c s vs r s' → ∀ q, ∃ us,
      h.Traversal q c.inlined s us r s' ∧
        h.journal false us = unmarked (h.chronicle room nesting settings c s)
  | 0, settings, c, s, s', vs, r, hroom, ht => by
    have hvisits := (walk_eq (w := ⟨s, #[]⟩) ht hroom.not_exhausts).2
    rw [chronicle, hvisits]
    refine ht.inlined fun v hv ↦ ?_
    have hnone := hroom.2 v (hvisits ▸ hv)
    obtain ⟨p, (a | ⟨className, settings', c'⟩) | ⟨origin, k, children⟩, t⟩ := v
    · exact matched_ordinary
    · exact absurd rfl (hnone className settings' c')
    · rfl
  | nesting + 1, settings, c, s, s', vs, r, hroom, ht => by
    have hvisits := (walk_eq (w := ⟨s, #[]⟩) ht hroom.not_exhausts).2
    rw [chronicle, hvisits]
    refine ht.inlined fun v hv ↦ ?_
    have hinner := hroom.2 v (hvisits ▸ hv)
    obtain ⟨p, (a | ⟨className, settings', c'⟩) | ⟨origin, k, children⟩, t⟩ := v
    · exact matched_ordinary
    · intro q
      have hroom' : h.HasRoom room nesting settings' c' t := hinner className settings' c' rfl
      obtain ⟨us', r', t', ht'⟩ := exists_traversal (h.reentrant room nesting) [] t c'
      obtain ⟨us, hinlined, hjournal⟩ := HasRoom.inlined nesting hroom' ht' q
      refine ⟨us, ?_, ?_⟩
      · rw [reentrant, verification_evaluating, evaluation_eq ht' hroom'.not_exhausts]
        exact hinlined
      · rw [hjournal]
        simp [entries]
    · rfl

/-- Without tracing, an evaluation logs its chronicle. -/
theorem HasRoom.journal : (nesting : Nat) → ∀ {settings : Settings}
    {c : Condition (Reentrant α)} {s s' : σ} {vs : List (Visit (Reentrant α) σ)}
    {r : Except ε Bool}, h.HasRoom room nesting settings c s →
    h.Untraced room nesting settings c s →
    (h.reentrant room nesting).Traversal [] c s vs r s' →
      (h.reentrant room nesting).journal false vs =
        (h.chronicle room nesting settings c s).map Prod.fst
  | 0, settings, c, s, s', vs, r, hroom, huntraced, ht => by
    have hvisits := (walk_eq (w := ⟨s, #[]⟩) ht hroom.not_exhausts).2
    rw [chronicle, hvisits, Host.journal, List.map_flatMap]
    refine List.flatMap_congr fun v hv ↦ ?_
    have hnone := hroom.2 v (hvisits ▸ hv)
    obtain ⟨p, (a | ⟨className, settings', c'⟩) | ⟨origin, k, children⟩, t⟩ := v
    · simp only [recordsOf, entries, reentrant_verification_ordinary, map_fst_marked]
    · exact absurd rfl (hnone className settings' c')
    · rfl
  | nesting + 1, settings, c, s, s', vs, r, hroom, huntraced, ht => by
    have hvisits := (walk_eq (w := ⟨s, #[]⟩) ht hroom.not_exhausts).2
    rw [chronicle, hvisits, Host.journal, List.map_flatMap]
    refine List.flatMap_congr fun v hv ↦ ?_
    have hinner := hroom.2 v (hvisits ▸ hv)
    have hinner' := huntraced.2 v (hvisits ▸ hv)
    obtain ⟨p, (a | ⟨className, settings', c'⟩) | ⟨origin, k, children⟩, t⟩ := v
    · simp only [recordsOf, entries, reentrant_verification_ordinary, map_fst_marked]
    · have hroom' : h.HasRoom room nesting settings' c' t := hinner className settings' c' rfl
      have huntraced' : h.Untraced room nesting settings' c' t :=
        hinner' className settings' c' rfl
      obtain ⟨us', r', t', ht'⟩ := exists_traversal (h.reentrant room nesting) [] t c'
      have hjournal := HasRoom.journal nesting hroom' huntraced' ht'
      simp only [recordsOf, entries, reentrant, verification_evaluating,
        evaluation_eq ht' hroom'.not_exhausts, huntraced'.settings, hjournal,
        evaluate_eq (w := ⟨t, #[]⟩) ht' hroom'.not_exhausts, List.map_append, map_fst_marked]
      rfl
    · rfl

/-! ## Calls -/

/-- Recording the calls of the ordinary atoms changes nothing else, wherever these are called. -/
theorem mirrors_reentrant_recording (h : Host α β σ ε) (room : Nat → Nat) (nesting : Nat) :
    Mirrors Prod.fst (h.recording.reentrant room nesting) (h.reentrant room nesting) := by
  have hordinary : ∀ a (s : σ × List α),
      (h.verification false a s.1).outcome = (h.recording.verification false a s).outcome ∧
        (h.verification false a s.1).state = (h.recording.verification false a s).state.1 := by
    rintro a ⟨s, made⟩
    rw [verification_recording h false a []]
    exact ⟨rfl, rfl⟩
  induction nesting with
  | zero =>
    refine ⟨?_, ?_, rfl⟩
    · rintro (a | ⟨className, settings, c⟩) s
      · simp only [reentrant_verification_ordinary, (hordinary a s).1]
      · rfl
    · rintro (a | ⟨className, settings, c⟩) s
      · simp only [reentrant_verification_ordinary, (hordinary a s).2]
      · rfl
  | succ nesting ih =>
    have hinner : ∀ settings c (s : σ × List α),
        ((h.reentrant room nesting).evaluation settings (room nesting) c s.1).outcome =
            ((h.recording.reentrant room nesting).evaluation settings (room nesting) c s).outcome ∧
          ((h.reentrant room nesting).evaluation settings (room nesting) c s.1).state =
            ((h.recording.reentrant room nesting).evaluation settings (room nesting) c
              s).state.1 := by
      rintro ⟨strategy, trace⟩ c s
      exact evaluate_mirror ih strategy (room nesting) c rfl
    refine ⟨?_, ?_, rfl⟩
    · rintro (a | ⟨className, settings, c⟩) s
      · simp only [reentrant_verification_ordinary, (hordinary a s).1]
      · simp only [reentrant, verification_evaluating, (hinner settings c s).1]
    · rintro (a | ⟨className, settings, c⟩) s
      · simp only [reentrant_verification_ordinary, (hordinary a s).2]
      · simp only [reentrant, verification_evaluating, (hinner settings c s).2]

/-- The visits under a mirrored host, if there is room for them. -/
theorem visits_mirror {f : σ → τ} {h : Host α β σ ε} {g : Host α β' τ ε} (hfg : Mirrors f h g)
    {settings : Settings} {room : Nat} {c : Condition α} {w : World σ} {v : World τ}
    (hv : v.state = f w.state) (hroom : ¬ h.Exhausts settings room c w) :
    g.visits settings room c v = (h.visits settings room c w).map (Visit.mapState f) := by
  obtain ⟨vs, r, s', ht⟩ := h.exists_traversal [] w.state c
  have hmirror := ht.mirror hfg
  rw [← hv] at hmirror
  rw [(walk_eq ht hroom).2, (walk_eq hmirror ((exhausts_mirror hfg _ _ c hv).not.mpr hroom)).2]

/-- Recording takes no room. -/
theorem HasRoom.recording : (nesting : Nat) → ∀ {settings : Settings}
    {c : Condition (Reentrant α)} {s : σ × List α}, h.HasRoom room nesting settings c s.1 →
    h.recording.HasRoom room nesting settings c s
  | 0, settings, c, s, hroom => by
    have hmirrors := h.mirrors_reentrant_recording room 0
    have hwithin : ¬ (h.recording.reentrant room 0).Exhausts settings (room 0) c ⟨s, #[]⟩ :=
      (exhausts_mirror hmirrors settings (room 0) c rfl).not.mp hroom.not_exhausts
    refine ⟨hwithin, fun v hv ↦ ?_⟩
    have hmem := List.mem_map_of_mem (f := Visit.mapState Prod.fst) hv
    rw [← visits_mirror (v := ⟨s.1, #[]⟩) hmirrors rfl hwithin] at hmem
    exact hroom.2 _ hmem
  | nesting + 1, settings, c, s, hroom => by
    have hmirrors := h.mirrors_reentrant_recording room (nesting + 1)
    have hwithin :
        ¬ (h.recording.reentrant room (nesting + 1)).Exhausts settings (room (nesting + 1)) c
          ⟨s, #[]⟩ :=
      (exhausts_mirror hmirrors settings (room (nesting + 1)) c rfl).not.mp hroom.not_exhausts
    refine ⟨hwithin, fun v hv className settings' c' hnode ↦ ?_⟩
    have hmem := List.mem_map_of_mem (f := Visit.mapState Prod.fst) hv
    rw [← visits_mirror (v := ⟨s.1, #[]⟩) hmirrors rfl hwithin] at hmem
    exact HasRoom.recording nesting (hroom.2 _ hmem className settings' c' hnode)

end Host

/-- Atoms that evaluate trees are as good as their trees: the evaluation of a tree that holds such
atoms and the evaluation of the tree in which all of them are replaced have the same outcome, leave
the same state, and make the same calls of the other atoms in the same order. If none of the
evaluations is traced, the one logs what the other logs and, when an inner evaluation is completed,
the record of its result. -/
theorem evaluate_inlined (h : Host α β σ ε) (room : Nat → Nat) (nesting : Nat)
    (settings : Settings) (room' : Nat) (c : Condition (Reentrant α)) (w : World σ)
    (hroom : h.HasRoom room nesting settings c w.state)
    (hinlined : ¬ h.Exhausts settings room' c.inlined w) :
    ((h.reentrant room nesting).evaluate settings (room nesting) c w).1 =
        (h.evaluate settings room' c.inlined w).1 ∧
      ((h.reentrant room nesting).evaluate settings (room nesting) c w).2.state =
        (h.evaluate settings room' c.inlined w).2.state ∧
      ((h.recording.reentrant room nesting).evaluate settings (room nesting) c
          w.recording).2.state =
        (h.recording.evaluate settings room' c.inlined w.recording).2.state ∧
      (h.Untraced room nesting settings c w.state →
        ((h.reentrant room nesting).evaluate settings (room nesting) c w).2.log =
            w.log ++ ((h.chronicle room nesting settings c w.state).map Prod.fst ++
              settings.strategy.closing (h.evaluate settings room' c.inlined w).1) ∧
          (h.evaluate settings room' c.inlined w).2.log =
            w.log ++ (Host.unmarked (h.chronicle room nesting settings c w.state) ++
              settings.strategy.closing (h.evaluate settings room' c.inlined w).1)) := by
  obtain ⟨vs, r, s', ht⟩ := (h.reentrant room nesting).exists_traversal [] w.state c
  obtain ⟨us, ht', hjournal⟩ := hroom.inlined nesting ht []
  have hnested := Host.evaluate_eq ht hroom.within
  have hflat := Host.evaluate_eq ht' hinlined
  rw [hnested, hflat]
  refine ⟨rfl, rfl, ?_, fun huntraced ↦ ?_⟩
  · obtain ⟨vs, r, s', ht⟩ :=
      (h.recording.reentrant room nesting).exists_traversal [] (w.state, []) c
    have hrecording : h.recording.HasRoom room nesting settings c (w.state, []) :=
      Host.HasRoom.recording nesting hroom
    obtain ⟨us, ht', -⟩ := hrecording.inlined nesting ht []
    rw [Host.evaluate_eq (w := w.recording) ht hrecording.within,
      Host.evaluate_eq (w := w.recording) ht' ((Host.exhausts_recording ..).not.mpr hinlined)]
    rfl
  · rw [huntraced.settings, hjournal, hroom.journal nesting huntraced ht]
    exact ⟨rfl, rfl⟩

namespace Session

/-- A tree with a leaf that evaluates a tree in which another leaf evaluates a tree. -/
def reentrantTree : Condition (Reentrant Value) :=
  let consulting (c : Condition (Reentrant Value)) : Condition (Reentrant Value) :=
    .atom (.evaluating LibraryClass.leaf.name {} c)
  .group ⟨firstFreshId + 4, .group⟩ .and
    [consulting (.group ⟨firstFreshId + 5, .group⟩ .or
        [.atom (.ordinary turningLeaf), consulting (.atom (.ordinary turningLeaf))]),
      .atom (.ordinary (constantCondition false)), .atom (.ordinary .nothing)]

theorem reentrantTree_hasRoom : (host 0).HasRoom walkRoom 2 {} reentrantTree start.state := by
  refine ⟨Host.not_exhausts_of_ok (b := false) rfl, List.forall_mem_cons.mpr
    ⟨nofun, List.forall_mem_cons.mpr ⟨?_, List.forall_mem_cons.mpr ⟨nofun, nofun⟩⟩⟩⟩
  intro className settings c hnode
  cases hnode
  refine ⟨Host.not_exhausts_of_ok (b := true) rfl, List.forall_mem_cons.mpr
    ⟨nofun, List.forall_mem_cons.mpr ⟨nofun, List.forall_mem_cons.mpr ⟨?_, nofun⟩⟩⟩⟩
  intro className settings c hnode
  cases hnode
  exact ⟨Host.not_exhausts_of_ok (b := true) rfl, List.forall_mem_cons.mpr ⟨nofun, nofun⟩⟩

theorem reentrantTree_untraced : (host 0).Untraced walkRoom 2 {} reentrantTree start.state := by
  refine ⟨rfl, List.forall_mem_cons.mpr
    ⟨nofun, List.forall_mem_cons.mpr ⟨?_, List.forall_mem_cons.mpr ⟨nofun, nofun⟩⟩⟩⟩
  intro className settings c hnode
  cases hnode
  refine ⟨rfl, List.forall_mem_cons.mpr
    ⟨nofun, List.forall_mem_cons.mpr ⟨nofun, List.forall_mem_cons.mpr ⟨?_, nofun⟩⟩⟩⟩
  intro className settings c hnode
  cases hnode
  exact ⟨rfl, List.forall_mem_cons.mpr ⟨nofun, nofun⟩⟩

end Session

/-- The turning leaf is called twice, the second time two evaluations deep, and both of the inner
results are recorded before the outer one. -/
theorem evaluate_inlined_reentrantTree :
    (Session.host 0).HasRoom Session.walkRoom 2 {} Session.reentrantTree Session.start.state ∧
      ¬ (Session.host 0).Exhausts {} 4 Session.reentrantTree.inlined Session.start ∧
      (Session.host 0).Untraced Session.walkRoom 2 {} Session.reentrantTree
        Session.start.state ∧
      (((Session.host 0).reentrant Session.walkRoom 2).evaluate {} (Session.walkRoom 2)
        Session.reentrantTree Session.start).1 = .ok false ∧
      (((Session.host 0).recording.reentrant Session.walkRoom 2).evaluate {} (Session.walkRoom 2)
        Session.reentrantTree Session.start.recording).2.state.2 =
          [Session.turningLeaf, Session.turningLeaf, Session.constantCondition false] ∧
      (((Session.host 0).reentrant Session.walkRoom 2).evaluate {} (Session.walkRoom 2)
        Session.reentrantTree Session.start).2.log =
          #[.evaluated true .recursive, .evaluated true .recursive, .evaluated false .recursive] := by
  have hroom := Session.reentrantTree_hasRoom
  have hinlined : ¬ (Session.host 0).Exhausts {} 4 Session.reentrantTree.inlined Session.start :=
    Host.not_exhausts_of_ok (b := false) rfl
  obtain ⟨houtcome, -, hcalls, hlog⟩ := evaluate_inlined (Session.host 0) Session.walkRoom 2 {} 4
    Session.reentrantTree Session.start hroom hinlined
  exact ⟨hroom, hinlined, Session.reentrantTree_untraced, houtcome.trans rfl,
    (congrArg Prod.snd hcalls).trans rfl, (hlog Session.reentrantTree_untraced).1.trans rfl⟩

end ShortCircuit
