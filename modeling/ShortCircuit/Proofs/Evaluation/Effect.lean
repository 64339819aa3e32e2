import ShortCircuit.Evaluation.Evaluate

/-!
# Effects on the world

Everything that happens in an evaluation replaces the state of the host and appends to the log.
`World.extend` is that effect, and the verification of an atom is one action of the host, whose
outcome and new state do not depend on whether visits are traced.
-/

namespace ShortCircuit

variable {α β σ ε : Type}

namespace World

/-- The world with another state and more records at the end of its log. -/
def extend (w : World σ) (s : σ) (records : List Record) : World σ := ⟨s, w.log ++ records⟩

@[simp] theorem extend_state (w : World σ) (s : σ) (records : List Record) :
    (w.extend s records).state = s := rfl

@[simp] theorem extend_extend (w : World σ) (s s' : σ) (records records' : List Record) :
    (w.extend s records).extend s' records' = w.extend s' (records ++ records') := by
  simp only [extend, mk.injEq, true_and]
  apply Array.toList_inj.mp
  simp

@[simp] theorem extend_nil (w : World σ) : w.extend w.state [] = w := by
  simp [extend]

theorem record_eq_extend (w : World σ) (r : Record) : w.record r = w.extend w.state [r] := by
  simp [record, extend]

@[simp] theorem record_extend (w : World σ) (r : Record) (s : σ) (records : List Record) :
    (w.record r).extend s records = w.extend s (r :: records) := by
  rw [record_eq_extend, extend_extend, List.singleton_append]

@[simp] theorem visit_state (w : World σ) (trace : Bool) (r : Record) :
    (w.visit trace r).state = w.state := by
  cases trace <;> rfl

/-- A visit adds its record if visits are traced, and nothing otherwise. -/
theorem visit_eq_extend (w : World σ) (trace : Bool) (r : Record) :
    w.visit trace r = w.extend w.state (if trace then [r] else []) := by
  cases trace
  · simp [visit]
  · simp [visit, record_eq_extend]

end World

namespace Act

theorem perform_eq_extend (act : Act σ ε α) (w : World σ) :
    act.perform w =
      ((act w.state).outcome, w.extend (act w.state).state (act w.state).records) := rfl

end Act

namespace Host

/-- The verification of an atom as an action of the host. The record of the visit stands between
what was logged by reading the offer and what is logged by calling it. -/
def verification (h : Host α β σ ε) (trace : Bool) (a : α) (s : σ) : Answer σ ε Bool :=
  let offered := h.offer a s
  match offered.outcome with
  | .error e =>
    ⟨.error (if h.meansAbsent e then h.unrecognized a else e), offered.state, offered.records⟩
  | .ok none => ⟨.error (h.unrecognized a), offered.state, offered.records⟩
  | .ok (some verify) =>
    let called := verify offered.state
    let records := offered.records ++ (if trace then [.enteredLeaf (h.className a)] else []) ++
      called.records
    match called.outcome with
    | .error e => ⟨.error e, called.state, records⟩
    | .ok answer =>
      let converted := h.truth answer called.state
      ⟨converted.outcome, converted.state, records ++ converted.records⟩

/-- Settling an atom is its verification, performed on the world. -/
theorem settle_eq_verification (h : Host α β σ ε) (trace : Bool) (a : α) (w : World σ) :
    h.settle trace a w = ((h.verification trace a w.state).outcome,
      w.extend (h.verification trace a w.state).state (h.verification trace a w.state).records) := by
  simp only [settle, verification, Act.perform_eq_extend]
  cases (h.offer a w.state).outcome with
  | error e => simp only
  | ok offered =>
    cases offered with
    | none => simp only
    | some verify =>
      simp only [World.visit_eq_extend, World.extend_state, World.extend_extend]
      cases (verify (h.offer a w.state).state).outcome with
      | error e => simp only
      | ok answer => simp only [World.extend_extend, World.extend_state]

/-- Tracing changes neither the outcome of a verification nor the state that it leaves. -/
theorem verification_trace (h : Host α β σ ε) (trace : Bool) (a : α) (s : σ) :
    (h.verification trace a s).outcome = (h.verification false a s).outcome ∧
      (h.verification trace a s).state = (h.verification false a s).state := by
  simp only [verification]
  cases (h.offer a s).outcome with
  | error e => exact ⟨rfl, rfl⟩
  | ok offered =>
    cases offered with
    | none => exact ⟨rfl, rfl⟩
    | some verify =>
      cases hcall : (verify (h.offer a s).state).outcome with
      | error e => simp only [hcall, and_self]
      | ok answer => simp only [hcall, and_self]

/-- Settling an atom has the outcome and the state of an untraced verification, and logs what the
verification logs. -/
theorem settle_eq_extend (h : Host α β σ ε) (trace : Bool) (a : α) (w : World σ) :
    h.settle trace a w = ((h.verification false a w.state).outcome,
      w.extend (h.verification false a w.state).state (h.verification trace a w.state).records) := by
  obtain ⟨houtcome, hstate⟩ := h.verification_trace trace a w.state
  rw [settle_eq_verification, houtcome, hstate]

end Host

end ShortCircuit
