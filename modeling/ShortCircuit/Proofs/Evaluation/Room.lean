import ShortCircuit.Proofs.Evaluation.Stack

/-!
# Recursion within its room

`Host.telling` is a host whose own failures differ from that of a recursion without room, and a
walk exhausts its room if it fails with the latter under that host. `Host.exhausts_iff` says when:
the strategy is recursion and the traversal visits a node that is nested too deep. Any other walk
has the visits, the outcome and the state of the traversal, as `Host.evaluate_eq` says for whole
evaluations.
-/

namespace ShortCircuit

variable {α β σ ε ε' : Type} {h : Host α β σ ε} {trace : Bool}

@[simp] theorem mapError_ok (f : ε → ε') (a : α) :
    (Except.ok a : Except ε α).mapError f = .ok a := rfl

@[simp] theorem mapError_error (f : ε → ε') (e : ε) :
    (Except.error e : Except ε α).mapError f = .error (f e) := rfl

namespace Act

/-- The action with its failures renamed. -/
def mapFailure (f : ε → ε') (act : Act σ ε α) : Act σ ε' α := fun s ↦
  let answer := act s
  ⟨answer.outcome.mapError f, answer.state, answer.records⟩

end Act

/-- The records that end an evaluation: one of the result, and none of a failure. -/
def Strategy.closing (strategy : Strategy) : Except ε Bool → List Record
  | .ok b => [.evaluated b strategy]
  | .error _ => []

namespace Host

/-- The host with its failures told apart from that of a recursion that runs out of room. -/
def telling (h : Host α β σ ε) : Host α β σ (Option ε) where
  className := h.className
  offer a s :=
    let answer := h.offer a s
    ⟨(answer.outcome.map (Option.map (Act.mapFailure some))).mapError some, answer.state,
      answer.records⟩
  meansAbsent e := e.elim false h.meansAbsent
  truth answer := (h.truth answer).mapFailure some
  unrecognized a := some (h.unrecognized a)
  exhausted := none

/-- Whether a walk fails because its recursion finds no room for a visit. -/
def Exhausts (h : Host α β σ ε) (settings : Settings) (room : Nat) (c : Condition α)
    (w : World σ) : Prop :=
  (h.telling.walk settings room c w).1 = .error none

theorem verification_telling (h : Host α β σ ε) (trace : Bool) (a : α) (s : σ) :
    h.telling.verification trace a s = Act.mapFailure some (h.verification trace a) s := by
  simp only [verification, telling, Act.mapFailure]
  cases (h.offer a s).outcome with
  | error e => cases hmeans : h.meansAbsent e <;> simp [Except.map, hmeans]
  | ok offered =>
    cases offered with
    | none => rfl
    | some verify =>
      cases hcall : (verify (h.offer a s).state).outcome with
      | error e => simp [Except.map, Act.mapFailure, hcall]
      | ok answer => simp [Except.map, Act.mapFailure, hcall]

mutual

/-- Telling failures apart changes a traversal in its failure only. -/
theorem Traversal.telling {p : Position} {c : Condition α} {s s' : σ} {vs : List (Visit α σ)}
    {r : Except ε Bool} :
    h.Traversal p c s vs r s' → h.telling.Traversal p c s vs (r.mapError some) s'
  | .atom outcome state =>
    .atom (by rw [verification_telling]; exact congrArg (Except.mapError some) outcome)
      (by rw [verification_telling]; exact state)
  | .group scan => .group scan.telling
  termination_by structural ht => ht

theorem Scan.telling {p : Position} {k : Connective} {i : Nat} {children : List (Condition α)}
    {s s' : σ} {vs : List (Visit α σ)} {r : Except ε Bool} :
    h.Scan p k i children s vs r s' → h.telling.Scan p k i children s vs (r.mapError some) s'
  | .exhausted => .exhausted
  | .decided first => .decided first.telling
  | .failed first => .failed first.telling
  | .passed first further => .passed first.telling further.telling
  termination_by structural hs => hs

end

/-! ## Visits within and beyond the room -/

mutual

/-- A recursion with room for every visit follows the traversal. -/
theorem recurse_eq {p : Position} {c : Condition α} {s s' : σ} {vs : List (Visit α σ)}
    {r : Except ε Bool} : h.Traversal p c s vs r s' →
    ∀ (room : Nat) (w : World σ), w.state = s →
      (∀ v ∈ vs, v.position.length < p.length + room) →
      h.recurse trace room c w = (r, w.extend s' (h.journal trace vs)) ∧
        h.recurseVisits trace room p c w = vs
  | .atom _ _, 0, _, _, hroom => absurd (hroom _ (List.mem_singleton_self _)) (Nat.lt_irrefl _)
  | .atom outcome state, room + 1, w, hs, _ => by
    rw [recurse, recurseVisits, settle_eq_extend, hs, outcome, state]
    simp [recordsOf]
  | .group _, 0, _, _, hroom => absurd (hroom _ (List.mem_cons_self ..)) (Nat.lt_irrefl _)
  | .group scan, room + 1, w, hs, hroom => by
    rename_i origin k children us
    have hstate : (w.visit trace (.enteredGroup k children.length)).state = s := by
      rw [World.visit_state, hs]
    have hwithin : ∀ v ∈ us, v.position.length < p.length + 1 + room := by
      intro v hv
      have hlt := hroom v (List.mem_cons_of_mem _ hv)
      omega
    obtain ⟨hrecurse, hvisits⟩ := recurseList_eq scan room _ hstate hwithin
    rw [recurse, recurseVisits, hrecurse, hvisits, World.visit_eq_extend, World.extend_extend, hs]
    exact ⟨rfl, rfl⟩
  termination_by structural ht => ht

theorem recurseList_eq {p : Position} {k : Connective} {i : Nat} {children : List (Condition α)}
    {s s' : σ} {vs : List (Visit α σ)} {r : Except ε Bool} : h.Scan p k i children s vs r s' →
    ∀ (room : Nat) (w : World σ), w.state = s →
      (∀ v ∈ vs, v.position.length < p.length + 1 + room) →
      h.recurseList trace room k children w = (r, w.extend s' (h.journal trace vs)) ∧
        h.recurseListVisits trace room k p i children w = vs
  | .exhausted, room, w, hs, _ => by
    rw [recurseList, recurseListVisits, ← hs]
    simp
  | .decided first, room, w, hs, hroom => by
    obtain ⟨hrecurse, hvisits⟩ := recurse_eq first room w hs (by simpa using hroom)
    rw [recurseList, recurseListVisits, hrecurse, hvisits]
    simp
  | .failed first, room, w, hs, hroom => by
    obtain ⟨hrecurse, hvisits⟩ := recurse_eq first room w hs (by simpa using hroom)
    rw [recurseList, recurseListVisits, hrecurse, hvisits]
    simp
  | .passed first further, room, w, hs, hroom => by
    rename_i t us us'
    have hwithin : ∀ v ∈ us, v.position.length < (p ++ [i]).length + room := by
      intro v hv
      simpa using hroom v (List.mem_append_left _ hv)
    have hfirst := recurse_eq first room w hs hwithin
    -- The rest of the children is scanned in the world that the first one has left.
    have hfurther := recurseList_eq further room (w.extend t (h.journal trace us)) rfl
      (fun v hv ↦ hroom v (List.mem_append_right _ hv))
    rw [recurseList, recurseListVisits, hfirst.1, hfirst.2]
    simp [hfurther.1, hfurther.2]
  termination_by structural hs => hs

end

/-- A child that fails makes the group fail. -/
theorem recurseList_of_error {room : Nat} {k : Connective} {child : Condition α}
    {rest : List (Condition α)} {w : World σ} {e : ε}
    (hchild : (h.recurse trace room child w).1 = .error e) :
    (h.recurseList trace room k (child :: rest) w).1 = .error e := by
  rw [recurseList, ← Prod.eta (h.recurse trace room child w), hchild]

mutual

/-- A recursion without room for some visit of the traversal fails for lack of room. -/
theorem recurse_exhausted {p : Position} {c : Condition α} {s s' : σ} {vs : List (Visit α σ)}
    {r : Except ε Bool} : h.Traversal p c s vs r s' →
    ∀ (room : Nat) (w : World σ), w.state = s →
      (∃ v ∈ vs, p.length + room ≤ v.position.length) →
      (h.recurse trace room c w).1 = .error h.exhausted
  | _, 0, _, _, _ => by rw [recurse]
  | .atom _ _, room + 1, _, _, ⟨v, hv, hdeep⟩ => by
    rw [List.mem_singleton.mp hv] at hdeep
    exact absurd hdeep (by simp)
  | .group scan, room + 1, w, hs, ⟨v, hv, hdeep⟩ => by
    rename_i origin k children us
    have hstate : (w.visit trace (.enteredGroup k children.length)).state = s := by
      rw [World.visit_state, hs]
    rw [recurse]
    cases hv with
    | head => exact absurd hdeep (by simp)
    | tail _ hv => exact recurseList_exhausted scan room _ hstate ⟨v, hv, by omega⟩
  termination_by structural ht => ht

theorem recurseList_exhausted {p : Position} {k : Connective} {i : Nat}
    {children : List (Condition α)} {s s' : σ} {vs : List (Visit α σ)} {r : Except ε Bool} :
    h.Scan p k i children s vs r s' → ∀ (room : Nat) (w : World σ), w.state = s →
      (∃ v ∈ vs, p.length + 1 + room ≤ v.position.length) →
      (h.recurseList trace room k children w).1 = .error h.exhausted
  | .exhausted, _, _, _, ⟨_, hv, _⟩ => absurd hv List.not_mem_nil
  | .decided first, room, w, hs, ⟨v, hv, hdeep⟩ =>
    recurseList_of_error (recurse_exhausted first room w hs ⟨v, hv, by simpa using hdeep⟩)
  | .failed first, room, w, hs, ⟨v, hv, hdeep⟩ =>
    recurseList_of_error (recurse_exhausted first room w hs ⟨v, hv, by simpa using hdeep⟩)
  | .passed first further, room, w, hs, ⟨v, hv, hdeep⟩ => by
    rename_i t us us'
    by_cases hfirst : ∃ u ∈ us, p.length + 1 + room ≤ u.position.length
    · obtain ⟨u, hu, hdeep⟩ := hfirst
      exact recurseList_of_error (recurse_exhausted first room w hs ⟨u, hu, by simpa using hdeep⟩)
    · have hwithin : ∀ u ∈ us, u.position.length < (p ++ [i]).length + room := by
        simpa using hfirst
      have hv' : v ∈ us' :=
        (List.mem_append.mp hv).resolve_left fun hu ↦ hfirst ⟨v, hu, hdeep⟩
      have hfurther := recurseList_exhausted further room (w.extend t (h.journal trace us)) rfl
        ⟨v, hv', hdeep⟩
      rw [recurseList, (recurse_eq first room w hs hwithin).1]
      simpa using hfurther
  termination_by structural hs => hs

end

/-! ## Walks and evaluations -/

variable {settings : Settings} {room : Nat} {c : Condition α} {w : World σ} {s' : σ}
  {vs : List (Visit α σ)} {r : Except ε Bool}

/-- The failure that tells of a lack of room is none of the traversal's. -/
theorem mapError_some_ne (r : Except ε Bool) : r.mapError some ≠ .error none := by
  cases r <;> simp

theorem exhausts_iff (ht : h.Traversal [] c w.state vs r s') :
    h.Exhausts settings room c w ↔
      settings.strategy = .recursive ∧ ∃ v ∈ vs, room ≤ v.position.length := by
  unfold Exhausts walk
  cases hstrategy : settings.strategy with
  | iterative =>
    simp only [(iterate_eq ht.telling).1, reduceCtorEq, false_and, iff_false]
    exact mapError_some_ne r
  | recursive =>
    simp only [true_and]
    constructor
    · intro hexhausted
      refine Classical.byContradiction fun hwithin ↦ ?_
      rw [(recurse_eq ht.telling room w rfl (by simpa using hwithin)).1] at hexhausted
      exact mapError_some_ne r hexhausted
    · rintro ⟨v, hv, hdeep⟩
      exact recurse_exhausted ht.telling room w rfl ⟨v, hv, by simpa using hdeep⟩

theorem not_exhausts_iterative (h : Host α β σ ε) (trace : Bool) (room : Nat) (c : Condition α)
    (w : World σ) : ¬ h.Exhausts ⟨.iterative, trace⟩ room c w := by
  obtain ⟨vs, r, s', ht⟩ := exists_traversal h [] w.state c
  rw [exhausts_iff ht]
  exact fun hexhausted ↦ nomatch hexhausted.1

/-- A walk within its room has the visits, the outcome and the state of the traversal. -/
theorem walk_eq (ht : h.Traversal [] c w.state vs r s') (hroom : ¬ h.Exhausts settings room c w) :
    h.walk settings room c w = (r, w.extend s' (h.journal settings.trace vs)) ∧
      h.visits settings room c w = vs := by
  rw [exhausts_iff ht] at hroom
  unfold walk visits
  cases hstrategy : settings.strategy with
  | iterative => exact iterate_eq ht
  | recursive =>
    have hwithin : ∀ v ∈ vs, v.position.length < room := by simpa [hstrategy] using hroom
    exact recurse_eq ht room w rfl (by simpa using hwithin)

/-- An evaluation within its room adds the record of its result, if it has one. -/
theorem evaluate_eq (ht : h.Traversal [] c w.state vs r s')
    (hroom : ¬ h.Exhausts settings room c w) :
    h.evaluate settings room c w =
      (r, w.extend s' (h.journal settings.trace vs ++ settings.strategy.closing r)) := by
  rw [evaluate, (walk_eq ht hroom).1]
  cases r with
  | error e => simp [Strategy.closing]
  | ok b => simp [Strategy.closing, World.record_eq_extend]

end Host

end ShortCircuit
