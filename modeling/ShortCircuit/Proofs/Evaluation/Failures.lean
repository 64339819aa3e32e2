import ShortCircuit.Proofs.Evaluation.Strategies

/-!
# The first failure

`Host.Fails` lists the ways in which the visit of an atom fails: the visits of groups never do.
`evaluate_error_iff` says that an evaluation within its room fails if and only if its traversal
comes to a visit that fails. That visit is then its last one, and its failure the outcome.
-/

namespace ShortCircuit

variable {α β σ ε : Type}

/-- The atom that is visited, if the node is one. -/
def Visit.atoms (v : Visit α σ) : List α :=
  match v.node with
  | .atom a => [a]
  | .group _ _ _ => []

namespace Host

/-- A visit fails with a failure. Only the failure to read an offer is ever replaced, and only if
it means that there is none. -/
inductive Fails (h : Host α β σ ε) : Visit α σ → ε → Prop where
  | absent {p : Position} {a : α} {s : σ} {e : ε} (offer : (h.offer a s).outcome = .error e)
      (means : h.meansAbsent e = true) : Fails h ⟨p, .atom a, s⟩ (h.unrecognized a)
  | unreadable {p : Position} {a : α} {s : σ} {e : ε} (offer : (h.offer a s).outcome = .error e)
      (means : h.meansAbsent e = false) : Fails h ⟨p, .atom a, s⟩ e
  | uncallable {p : Position} {a : α} {s : σ} (offer : (h.offer a s).outcome = .ok none) :
    Fails h ⟨p, .atom a, s⟩ (h.unrecognized a)
  | raised {p : Position} {a : α} {s : σ} {e : ε} {verify : Act σ ε β}
      (offer : (h.offer a s).outcome = .ok (some verify))
      (call : (verify (h.offer a s).state).outcome = .error e) : Fails h ⟨p, .atom a, s⟩ e
  | unconvertible {p : Position} {a : α} {s : σ} {e : ε} {verify : Act σ ε β} {answer : β}
      (offer : (h.offer a s).outcome = .ok (some verify))
      (call : (verify (h.offer a s).state).outcome = .ok answer)
      (truth : (h.truth answer (verify (h.offer a s).state).state).outcome = .error e) :
    Fails h ⟨p, .atom a, s⟩ e

/-- No visit of the list fails. -/
def Unfailing (h : Host α β σ ε) (vs : List (Visit α σ)) : Prop := ∀ v ∈ vs, ∀ e, ¬ h.Fails v e

variable {h : Host α β σ ε} {trace : Bool}

/-- The visit of an atom fails as its verification does. -/
theorem fails_atom_iff {p : Position} {a : α} {s : σ} {e : ε} :
    h.Fails ⟨p, .atom a, s⟩ e ↔ (h.verification false a s).outcome = .error e := by
  constructor
  · intro hfails
    cases hfails with
    | absent offer means => simp [verification, offer, means]
    | unreadable offer means => simp [verification, offer, means]
    | uncallable offer => simp [verification, offer]
    | raised offer call => simp [verification, offer, call]
    | unconvertible offer call truth => simp [verification, offer, call, truth]
  · intro houtcome
    simp only [verification] at houtcome
    cases hoffer : (h.offer a s).outcome with
    | error e' =>
      cases hmeans : h.meansAbsent e' with
      | false =>
        obtain rfl : e' = e := by simpa [hoffer, hmeans] using houtcome
        exact .unreadable hoffer hmeans
      | true =>
        obtain rfl : h.unrecognized a = e := by simpa [hoffer, hmeans] using houtcome
        exact .absent hoffer hmeans
    | ok offered =>
      cases offered with
      | none =>
        obtain rfl : h.unrecognized a = e := by simpa [hoffer] using houtcome
        exact .uncallable hoffer
      | some verify =>
        cases hcall : (verify (h.offer a s).state).outcome with
        | error e' =>
          obtain rfl : e' = e := by simpa [hoffer, hcall] using houtcome
          exact .raised hoffer hcall
        | ok answer => exact .unconvertible hoffer hcall (by simpa [hoffer, hcall] using houtcome)

/-- A visit fails with one failure at most. -/
theorem Fails.unique {v : Visit α σ} {e e' : ε} (hv : h.Fails v e) (hv' : h.Fails v e') :
    e = e' := by
  obtain ⟨p, a | ⟨origin, k, children⟩, s⟩ := v
  · have houtcome := (fails_atom_iff.mp hv).symm.trans (fails_atom_iff.mp hv')
    exact Except.error.inj houtcome
  · cases hv

@[simp] theorem unfailing_nil : h.Unfailing [] := nofun

@[simp] theorem unfailing_cons {v : Visit α σ} {vs : List (Visit α σ)} :
    h.Unfailing (v :: vs) ↔ (∀ e, ¬ h.Fails v e) ∧ h.Unfailing vs := List.forall_mem_cons

@[simp] theorem unfailing_append {vs vs' : List (Visit α σ)} :
    h.Unfailing (vs ++ vs') ↔ h.Unfailing vs ∧ h.Unfailing vs' := List.forall_mem_append

/-- Visits explain an outcome: none of them fails if there is a result, and a failure is that of the
last one, which is the first to fail. -/
def Explains (h : Host α β σ ε) (vs : List (Visit α σ)) : Except ε Bool → Prop
  | .ok _ => h.Unfailing vs
  | .error e => ∃ before last, vs = before ++ [last] ∧ h.Unfailing before ∧ h.Fails last e

theorem Unfailing.append_explains {vs vs' : List (Visit α σ)} {r : Except ε Bool}
    (hvs : h.Unfailing vs) (hvs' : h.Explains vs' r) : h.Explains (vs ++ vs') r := by
  cases r with
  | ok b => exact unfailing_append.mpr ⟨hvs, hvs'⟩
  | error e =>
    obtain ⟨before, last, rfl, hbefore, hlast⟩ := hvs'
    exact ⟨vs ++ before, last, (List.append_assoc ..).symm, unfailing_append.mpr ⟨hvs, hbefore⟩,
      hlast⟩

/-- The visit of a group never fails. -/
theorem unfailing_group {p : Position} {origin : Origin} {k : Connective}
    {children : List (Condition α)} {s : σ} : h.Unfailing [⟨p, .group origin k children, s⟩] :=
  unfailing_cons.mpr ⟨nofun, unfailing_nil⟩

mutual

/-- The visits of a traversal explain its outcome. -/
theorem Traversal.explains {p : Position} {c : Condition α} {s s' : σ} {vs : List (Visit α σ)}
    {r : Except ε Bool} : h.Traversal p c s vs r s' → h.Explains vs r
  | .atom outcome _ => by
    cases r with
    | ok b =>
      refine unfailing_cons.mpr ⟨fun e hfails ↦ ?_, unfailing_nil⟩
      cases (fails_atom_iff.mp hfails).symm.trans outcome
    | error e => exact ⟨[], _, rfl, unfailing_nil, fails_atom_iff.mpr outcome⟩
  | .group scan => unfailing_group.append_explains scan.explains
  termination_by structural ht => ht

theorem Scan.explains {p : Position} {k : Connective} {i : Nat} {children : List (Condition α)}
    {s s' : σ} {vs : List (Visit α σ)} {r : Except ε Bool} :
    h.Scan p k i children s vs r s' → h.Explains vs r
  | .exhausted => unfailing_nil
  | .decided first => first.explains
  | .failed first => first.explains
  | .passed first further =>
    Unfailing.append_explains first.explains further.explains
  termination_by structural hs => hs

end

/-- A traversal fails with a failure if and only if it visits something that fails with it. -/
theorem Traversal.error_iff {p : Position} {c : Condition α} {s s' : σ} {vs : List (Visit α σ)}
    {r : Except ε Bool} (ht : h.Traversal p c s vs r s') (e : ε) :
    r = .error e ↔ ∃ v ∈ vs, h.Fails v e := by
  constructor
  · intro hr
    obtain rfl : r = .error e := hr
    obtain ⟨before, last, rfl, -, hlast⟩ := ht.explains
    have hmem : last ∈ before ++ [last] := List.mem_append_right _ (List.mem_singleton_self _)
    exact ⟨last, hmem, hlast⟩
  · rintro ⟨v, hv, hfails⟩
    cases r with
    | ok b => exact absurd hfails (ht.explains v hv e)
    | error e' =>
      obtain ⟨before, last, rfl, hbefore, hlast⟩ := ht.explains
      rcases List.mem_append.mp hv with hv | hv
      · exact absurd hfails (hbefore v hv e)
      · obtain rfl : v = last := List.mem_singleton.mp hv
        rw [hlast.unique hfails]

/-- An atom is called at every visit that does not fail. -/
theorem callsOf_of_not_fails {v : Visit α σ} (hv : ∀ e, ¬ h.Fails v e) :
    h.callsOf v = v.atoms := by
  obtain ⟨p, a | ⟨origin, k, children⟩, s⟩ := v
  · simp only [callsOf, Visit.atoms]
    cases hoffer : (h.offer a s).outcome with
    | error e =>
      cases hmeans : h.meansAbsent e with
      | false => exact absurd (.unreadable hoffer hmeans) (hv e)
      | true => exact absurd (.absent hoffer hmeans) (hv _)
    | ok offered =>
      cases offered with
      | none => exact absurd (.uncallable hoffer) (hv _)
      | some verify => rfl
  · rfl

theorem calls_of_unfailing {vs : List (Visit α σ)} (hvs : h.Unfailing vs) :
    h.calls vs = vs.flatMap Visit.atoms := by
  induction vs with
  | nil => rfl
  | cons v rest ih =>
    obtain ⟨hv, hrest⟩ := unfailing_cons.mp hvs
    rw [calls_cons, callsOf_of_not_fails hv, ih hrest, List.flatMap_cons]

/-- A record that a verification adds to the log notes a visit, or is logged untraced as well. -/
theorem isVisit_or_mem_verification {a : α} {s : σ} {record : Record} :
    record ∈ (h.verification trace a s).records →
      record.isVisit ∨ record ∈ (h.verification false a s).records := by
  -- The record of the visit is the only one between those of the offer and those of the call.
  have hnoted : ∀ noted, noted ∈ (if trace then [Record.enteredLeaf (h.className a)] else []) →
      noted.isVisit := by
    cases trace <;> simp +contextual [Record.isVisit]
  simp only [verification]
  cases (h.offer a s).outcome with
  | error e => exact .inr
  | ok offered =>
    cases offered with
    | none => exact .inr
    | some verify =>
      cases hcall : (verify (h.offer a s).state).outcome with
      | error e => grind
      | ok answer => grind

/-- A record that a visit adds to the log notes the visit, or is logged by the atom itself. -/
theorem isVisit_or_mem_recordsOf {v : Visit α σ} {record : Record}
    (hrecord : record ∈ h.recordsOf trace v) : record.isVisit ∨ record ∈ h.recordsOf false v := by
  obtain ⟨p, a | ⟨origin, k, children⟩, s⟩ := v
  · exact isVisit_or_mem_verification hrecord
  · cases trace with
    | false => exact .inr hrecord
    | true =>
      obtain rfl : record = .enteredGroup k children.length := List.mem_singleton.mp hrecord
      exact .inl rfl

theorem isVisit_or_mem_journal {vs : List (Visit α σ)} {record : Record}
    (hrecord : record ∈ h.journal trace vs) : record.isVisit ∨ record ∈ h.journal false vs := by
  obtain ⟨v, hv, hrecord⟩ := List.mem_flatMap.mp hrecord
  rcases isVisit_or_mem_recordsOf hrecord with hvisit | hown
  · exact .inl hvisit
  · exact .inr (List.mem_flatMap.mpr ⟨v, hv, hown⟩)

end Host

namespace Session

/-- Reading an offer changes nothing. -/
theorem offer_eq (evaluate : NodePlan → EvaluatorPlan → Session Bool) (v : Value)
    (w : World Store) :
    offer evaluate v w = match readVerify w.state v with
      | .error e => .error e w
      | .ok (.notCallable _) => .ok none w
      | .ok (.callable m) => .ok (some (toAct (call evaluate v m))) w := by
  have hstore : store w = .ok w.state w := rfl
  simp only [offer, bind, EStateM.bind, hstore]
  cases readVerify w.state v with
  | error e => rfl
  | ok offered => cases offered <;> rfl

theorem toAct_ofExcept {α : Type} (r : Except Failure α) (s : Store) :
    toAct (ofExcept r) s = ⟨r, s, []⟩ := by
  cases r <;> rfl

/-- The ways in which the visit of a value fails. The failure of a value that offers nothing to
call keeps that value. -/
theorem fails_iff {evaluate : NodePlan → EvaluatorPlan → Session Bool} {p : Position} {v : Value}
    {s : Store} {e : Failure} :
    (hostWith evaluate).Fails ⟨p, .atom v, s⟩ e ↔
      match readVerify s v with
      | .error e' => (if meansAbsent e' then .unrecognizedNode v else e') = e
      | .ok (.notCallable _) => .unrecognizedNode v = e
      | .ok (.callable m) =>
        (toAct (call evaluate v m) s).outcome = .error e ∨
          ∃ answer, (toAct (call evaluate v m) s).outcome = .ok answer ∧
            answer.holds = .error e := by
  have hoffer : (hostWith evaluate).offer v = toAct (offer evaluate v) := rfl
  have htruth : ∀ answer, (hostWith evaluate).truth answer = toAct (ofExcept answer.holds) :=
    fun _ ↦ rfl
  have hmeans : (hostWith evaluate).meansAbsent = meansAbsent := rfl
  have hunrecognized : (hostWith evaluate).unrecognized = .unrecognizedNode := rfl
  rw [Host.fails_atom_iff]
  simp only [Host.verification, hoffer, htruth, hmeans, hunrecognized, toAct_ofExcept]
  simp only [toAct, offer_eq]
  cases readVerify s v with
  | error e' => simp
  | ok offered =>
    cases offered with
    | notCallable held => simp
    | callable m =>
      cases hcall : call evaluate v m ⟨s, #[]⟩ with
      | error e' w => simp [toAct, hcall]
      | ok answer w => simp [toAct, hcall]

end Session

/-- An evaluation fails with a failure if and only if its traversal visits something that fails with
it. That is then the last visit, and no visit before it fails. Every atom visited before has been
called, and no record of a result is logged but by an evaluation that an atom has made. -/
theorem evaluate_error_iff (h : Host α β σ ε) (settings : Settings) (room : Nat)
    (c : Condition α) (w : World σ) (hroom : ¬ h.Exhausts settings room c w) :
    h.Traversal [] c w.state (h.visits settings room c w) (h.evaluate settings room c w).1
        (h.evaluate settings room c w).2.state ∧
      (∀ e, (h.evaluate settings room c w).1 = .error e ↔
        ∃ v ∈ h.visits settings room c w, h.Fails v e) ∧
      ∀ e, (h.evaluate settings room c w).1 = .error e →
        (∃ before last, h.visits settings room c w = before ++ [last] ∧ h.Unfailing before ∧
          h.Fails last e ∧
          (h.recording.evaluate settings room c w.recording).2.state.2 =
            before.flatMap Visit.atoms ++ h.callsOf last) ∧
        (h.evaluate settings room c w).2.log =
          w.log ++ h.journal settings.trace (h.visits settings room c w) ∧
        ∀ record ∈ h.journal settings.trace (h.visits settings room c w),
          record.isVisit ∨ record ∈ h.journal false (h.visits settings room c w) := by
  obtain ⟨vs, r, s', ht⟩ := h.exists_traversal [] w.state c
  have hvisits : h.visits settings room c w = vs := (Host.walk_eq ht hroom).2
  rw [hvisits, Host.evaluate_eq ht hroom, Host.evaluate_recording ht hroom]
  refine ⟨ht, ht.error_iff, ?_⟩
  intro e he
  obtain rfl : r = .error e := he
  refine ⟨?_, ?_, ?_⟩
  · obtain ⟨before, last, rfl, hbefore, hlast⟩ := ht.explains
    have hcalls : h.calls (before ++ [last]) = before.flatMap Visit.atoms ++ h.callsOf last := by
      rw [Host.calls_append, Host.calls_of_unfailing hbefore]
      simp
    exact ⟨before, last, rfl, hbefore, hlast, hcalls⟩
  · simp [World.extend, Strategy.closing]
  · intro record hrecord
    exact Host.isVisit_or_mem_journal hrecord

/-- The text is no condition, so the evaluation fails with a failure that keeps it. -/
theorem evaluate_error_iff_turningTree :
    ¬ (Session.host 0).Exhausts ⟨.recursive, true⟩ 3 Session.turningTree Session.start ∧
      ((Session.host 0).evaluate ⟨.recursive, true⟩ 3 Session.turningTree Session.start).1 =
        .error (.unrecognizedNode (.text [])) ∧
      ∃ before last,
        (Session.host 0).visits ⟨.recursive, true⟩ 3 Session.turningTree Session.start =
            before ++ [last] ∧
          (Session.host 0).Unfailing before ∧
          (Session.host 0).Fails last (.unrecognizedNode (.text [])) ∧
          before.flatMap Visit.atoms ++ (Session.host 0).callsOf last =
            [Session.turningLeaf, Session.turningLeaf] := by
  have hroom := Session.turningTree_within #[]
  have hfailure :
      ((Session.host 0).evaluate ⟨.recursive, true⟩ 3 Session.turningTree Session.start).1 =
        .error (.unrecognizedNode (.text [])) := rfl
  obtain ⟨-, -, hfirst⟩ :=
    evaluate_error_iff (Session.host 0) ⟨.recursive, true⟩ 3 Session.turningTree Session.start hroom
  obtain ⟨⟨before, last, hvisits, hbefore, hlast, hcalls⟩, -, -⟩ := hfirst _ hfailure
  exact ⟨hroom, hfailure, before, last, hvisits, hbefore, hlast, hcalls.symm.trans rfl⟩

end ShortCircuit
