import Mathlib.Logic.Basic
import ShortCircuit.Proofs.Evaluation.Room

/-!
# Calls of atoms

`Host.recording` is a host that also keeps the atoms called, in order. Recording changes nothing
else: `Host.evaluate_recording` gives the calls of an evaluation as those of the visits of the
traversal, one for each visit of an atom that offers something to call. A recursion that runs out
of room is not changed either, as `Host.recurse_recording` says.
-/

namespace ShortCircuit

variable {α β σ ε : Type} {h : Host α β σ ε} {trace : Bool}

/-- The world in which no call has been recorded. -/
def World.recording (w : World σ) : World (σ × List α) := ⟨(w.state, []), w.log⟩

/-- The world without the calls that have been recorded. -/
def World.unrecorded (w : World (σ × List α)) : World σ := ⟨w.state.1, w.log⟩

@[simp] theorem World.unrecorded_visit (w : World (σ × List α)) (trace : Bool) (r : Record) :
    (w.visit trace r).unrecorded = w.unrecorded.visit trace r := by
  cases trace <;> rfl

/-- The action beside a list of calls, to which it adds some. -/
def Act.calling (act : Act σ ε β) (calls : List α) : Act (σ × List α) ε β := fun s ↦
  let answer := act s.1
  ⟨answer.outcome, (answer.state, s.2 ++ calls), answer.records⟩

namespace Host

/-- The host that also keeps the list of the atoms called, the latest last. -/
def recording (h : Host α β σ ε) : Host α β (σ × List α) ε where
  className := h.className
  offer a s :=
    let answer := h.offer a s.1
    ⟨answer.outcome.map (Option.map (Act.calling · [a])), (answer.state, s.2), answer.records⟩
  meansAbsent := h.meansAbsent
  truth answer := (h.truth answer).calling []
  unrecognized := h.unrecognized
  exhausted := h.exhausted

/-- The atom that is called at a visit: the atom visited, if it offers something to call. -/
def callsOf (h : Host α β σ ε) (v : Visit α σ) : List α :=
  match v.node with
  | .group _ _ _ => []
  | .atom a =>
    match (h.offer a v.state).outcome with
    | .ok (some _) => [a]
    | .ok none | .error _ => []

/-- The atoms that are called at visits, one visit after the other. -/
def calls (h : Host α β σ ε) (vs : List (Visit α σ)) : List α := vs.flatMap h.callsOf

@[simp] theorem calls_nil (h : Host α β σ ε) : h.calls [] = [] := rfl

@[simp] theorem calls_cons (h : Host α β σ ε) (v : Visit α σ) (vs : List (Visit α σ)) :
    h.calls (v :: vs) = h.callsOf v ++ h.calls vs := List.flatMap_cons

@[simp] theorem calls_append (h : Host α β σ ε) (vs vs' : List (Visit α σ)) :
    h.calls (vs ++ vs') = h.calls vs ++ h.calls vs' := List.flatMap_append

theorem verification_recording (h : Host α β σ ε) (trace : Bool) (a : α) (p : Position) (s : σ)
    (made : List α) :
    h.recording.verification trace a (s, made) =
      Act.calling (h.verification trace a) (h.callsOf ⟨p, .atom a, s⟩) (s, made) := by
  simp only [verification, recording, callsOf, Act.calling]
  cases (h.offer a s).outcome with
  | error e =>
    rw [List.append_nil]
    rfl
  | ok offered =>
    cases offered with
    | none =>
      rw [List.append_nil]
      rfl
    | some verify =>
      cases hcall : (verify (h.offer a s).state).outcome with
      | error e => simp [Except.map, Act.calling, hcall]
      | ok answer => simp [Except.map, Act.calling, hcall]

mutual

/-- A traversal under recording visits the same positions, logs the same records, and leaves the
calls of its visits after those made before. -/
theorem Traversal.recording {p : Position} {c : Condition α} {s s' : σ} {vs : List (Visit α σ)}
    {r : Except ε Bool} : h.Traversal p c s vs r s' → ∀ made : List α, ∃ us,
      h.recording.Traversal p c (s, made) us r (s', made ++ h.calls vs) ∧
      us.map Visit.position = vs.map Visit.position ∧
      ∀ trace, h.recording.journal trace us = h.journal trace vs
  | .atom outcome state, made => by
    refine ⟨_, .atom ?_ ?_, rfl, ?_⟩
    · rw [verification_recording h false _ p]
      exact outcome
    · rw [verification_recording h false _ p]
      simp [Act.calling, state]
    · intro trace
      simp only [journal_cons, journal_nil, recordsOf, verification_recording h trace _ p]
      rfl
  | .group scan, made => by
    obtain ⟨us, hscan, hpositions, hjournal⟩ := scan.recording made
    refine ⟨_, .group hscan, ?_, ?_⟩
    · simp [hpositions]
    · simp [hjournal, recordsOf]
  termination_by structural ht => ht

theorem Scan.recording {p : Position} {k : Connective} {i : Nat} {children : List (Condition α)}
    {s s' : σ} {vs : List (Visit α σ)} {r : Except ε Bool} :
    h.Scan p k i children s vs r s' → ∀ made : List α, ∃ us,
      h.recording.Scan p k i children (s, made) us r (s', made ++ h.calls vs) ∧
      us.map Visit.position = vs.map Visit.position ∧
      ∀ trace, h.recording.journal trace us = h.journal trace vs
  | .exhausted, made => ⟨[], by simpa using Scan.exhausted, rfl, fun _ ↦ rfl⟩
  | .decided first, made => by
    obtain ⟨us, hfirst, hpositions, hjournal⟩ := first.recording made
    exact ⟨us, .decided hfirst, hpositions, hjournal⟩
  | .failed first, made => by
    obtain ⟨us, hfirst, hpositions, hjournal⟩ := first.recording made
    exact ⟨us, .failed hfirst, hpositions, hjournal⟩
  | .passed first further, made => by
    obtain ⟨us, hfirst, hpositions, hjournal⟩ := first.recording made
    obtain ⟨us', hfurther, hpositions', hjournal'⟩ := further.recording (made ++ h.calls _)
    rw [List.append_assoc, ← calls_append] at hfurther
    refine ⟨us ++ us', .passed hfirst hfurther, ?_, ?_⟩
    · rw [List.map_append, List.map_append, hpositions, hpositions']
    · intro trace
      rw [journal_append, journal_append, hjournal, hjournal']
  termination_by structural hs => hs

end

variable {settings : Settings} {room : Nat} {c : Condition α} {w : World σ} {s' : σ}
  {vs : List (Visit α σ)} {r : Except ε Bool}

/-- Recording takes no room. -/
theorem exhausts_recording (h : Host α β σ ε) (settings : Settings) (room : Nat)
    (c : Condition α) (w : World σ) :
    h.recording.Exhausts settings room c w.recording ↔ h.Exhausts settings room c w := by
  obtain ⟨vs, r, s', ht⟩ := exists_traversal h [] w.state c
  obtain ⟨us, hrecording, hpositions, -⟩ := ht.recording []
  have hdeep : (∃ u ∈ us, room ≤ u.position.length) ↔ ∃ v ∈ vs, room ≤ v.position.length := by
    have hmap := congrArg (fun ps : List Position ↦ ∃ p ∈ ps, room ≤ p.length) hpositions
    simpa using hmap
  rw [exhausts_iff ht, exhausts_iff hrecording, hdeep]

/-- An evaluation within its room calls the atoms that the visits of the traversal call. -/
theorem evaluate_recording (ht : h.Traversal [] c w.state vs r s')
    (hroom : ¬ h.Exhausts settings room c w) :
    h.recording.evaluate settings room c w.recording =
      (r, w.recording.extend (s', h.calls vs)
        (h.journal settings.trace vs ++ settings.strategy.closing r)) := by
  obtain ⟨us, hrecording, -, hjournal⟩ := ht.recording []
  rw [← exhausts_recording] at hroom
  rw [evaluate_eq hrecording hroom, hjournal, List.nil_append]

/-! ## Recursion under recording -/

theorem settle_recording (h : Host α β σ ε) (trace : Bool) (a : α) (w : World (σ × List α)) :
    h.settle trace a w.unrecorded =
      ((h.recording.settle trace a w).1, (h.recording.settle trace a w).2.unrecorded) := by
  obtain ⟨⟨s, made⟩, log⟩ := w
  rw [settle_eq_verification, settle_eq_verification, verification_recording h trace a []]
  rfl

mutual

/-- Recording changes neither what a recursion does, however much room it has, nor what it
visits. -/
theorem recurse_recording : (c : Condition α) → ∀ (room : Nat) (p : Position)
      (w : World (σ × List α)),
    h.recurse trace room c w.unrecorded =
        ((h.recording.recurse trace room c w).1, (h.recording.recurse trace room c w).2.unrecorded) ∧
      (h.recording.recurseVisits trace room p c w).map Visit.position =
        (h.recurseVisits trace room p c w.unrecorded).map Visit.position
  | _, 0, _, _ => by
    simp only [recurse, recurseVisits, List.map_nil, and_true]
    rfl
  | .atom a, room + 1, p, w => by
    simp only [recurse, recurseVisits, List.map_cons, List.map_nil, and_true]
    exact settle_recording h trace a w
  | .group origin k children, room + 1, p, w => by
    obtain ⟨hrecurse, hvisits⟩ := recurseList_recording children room k p 0
      (w.visit trace (.enteredGroup k children.length))
    rw [World.unrecorded_visit] at hrecurse hvisits
    simp only [recurse, recurseVisits, List.map_cons, hrecurse, hvisits, and_self]
  termination_by structural c => c

theorem recurseList_recording : (children : List (Condition α)) → ∀ (room : Nat) (k : Connective)
      (p : Position) (i : Nat) (w : World (σ × List α)),
    h.recurseList trace room k children w.unrecorded =
        ((h.recording.recurseList trace room k children w).1,
          (h.recording.recurseList trace room k children w).2.unrecorded) ∧
      (h.recording.recurseListVisits trace room k p i children w).map Visit.position =
        (h.recurseListVisits trace room k p i children w.unrecorded).map Visit.position
  | [], room, k, p, i, w => by
    simp only [recurseList, recurseListVisits, List.map_nil, and_self]
  | child :: rest, room, k, p, i, w => by
    obtain ⟨hchild, hvisits⟩ := recurse_recording child room (p ++ [i]) w
    simp only [recurseList, recurseListVisits, List.map_append, hvisits, hchild]
    cases hr : h.recording.recurse trace room child w with
    | mk r v =>
      cases r with
      | error e => simp
      | ok b =>
        obtain ⟨hrest, hvisits'⟩ := recurseList_recording rest room k p (i + 1) v
        by_cases hb : b = k.deciding
        · simp [hb]
        · simp [hb, hrest, hvisits']
  termination_by structural children => children

end

/-- Recording does not change the positions of the visits of a walk. -/
theorem visits_recording (h : Host α β σ ε) (settings : Settings) (room : Nat) (c : Condition α)
    (w : World σ) :
    (h.recording.visits settings room c w.recording).map Visit.position =
      (h.visits settings room c w).map Visit.position := by
  obtain ⟨strategy, trace⟩ := settings
  cases strategy with
  | recursive => exact (recurse_recording c room [] w.recording).2
  | iterative =>
    have hroom := h.not_exhausts_iterative trace room c w
    obtain ⟨vs, r, s', ht⟩ := h.exists_traversal [] w.state c
    obtain ⟨us, hrecording, hpositions, -⟩ := ht.recording []
    rw [(walk_eq (w := w.recording) hrecording
      ((exhausts_recording ..).not.mpr hroom)).2, (walk_eq ht hroom).2, hpositions]

end Host

end ShortCircuit
