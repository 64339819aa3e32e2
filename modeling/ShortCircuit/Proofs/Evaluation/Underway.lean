import ShortCircuit.Proofs.Evaluation.Halting

/-!
# The machine under way

`Machine.Underway` says where a running machine stands in the evaluation of its tree. The groups on
the stack lead from the root down to one node, which is about to be visited, has just been entered,
or has just been completed; the children that were started before on the way down have been
traversed, and none of them decided. Every step keeps this, and so does every run.
-/

namespace ShortCircuit

variable {α β σ ε : Type} {h : Host α β σ ε} {trace : Bool}

/-- The group that the frame was pushed for. -/
def Frame.group (f : Frame α) : Condition α := .group f.origin f.connective f.children

namespace Host

/-- Children of a group at a position have been traversed one after the other, each with the
opposite of the deciding value. -/
inductive Passes (h : Host α β σ ε) (p : Position) (k : Connective) :
    List (Condition α) → σ → List (Visit α σ) → σ → Prop where
  | nil {s : σ} : Passes h p k [] s [] s
  | snoc {done : List (Condition α)} {child : Condition α} {s s' s'' : σ}
      {vs vs' : List (Visit α σ)} (before : Passes h p k done s vs s')
      (last : Traversal h (p ++ [done.length]) child s' vs' (.ok !k.deciding) s'') :
    Passes h p k (done ++ [child]) s (vs ++ vs') s''

/-- What is scanned after the children that were passed is scanned after them. -/
theorem Passes.scan {p : Position} {k : Connective} {done : List (Condition α)} {s s' : σ}
    {vs : List (Visit α σ)} (hpasses : h.Passes p k done s vs s') :
    ∀ {rest : List (Condition α)} {vs' : List (Visit α σ)} {r : Except ε Bool} {s'' : σ},
      h.Scan p k done.length rest s' vs' r s'' → h.Scan p k 0 (done ++ rest) s (vs ++ vs') r s'' := by
  induction hpasses with
  | nil => exact id
  | snoc before last ih =>
    intro rest vs' r s'' hscan
    rw [List.append_assoc, List.append_assoc]
    rw [List.length_append, List.length_singleton] at hscan
    exact ih (.passed last hscan)

end Host

namespace Machine

/-- The visits of the machine in a number of steps. -/
def trail (h : Host α β σ ε) (trace : Bool) : (steps : Nat) → Machine α → World σ →
    List (Visit α σ)
  | 0, _, _ => []
  | steps + 1, m, w => m.visit w ++
    match step h trace m w with
    | .running m' w' => trail h trace steps m' w'
    | .halted _ _ => []

/-- The stack leads from the root to the node: of every group on it, some children have been passed,
and the one after these is the next group above, or the node if there is none. The visits are those
before the node is visited. -/
inductive Descends (h : Host α β σ ε) (root : Condition α) (start : σ) :
    List (Frame α) → Condition α → σ → List (Visit α σ) → Prop where
  | root : Descends h root start [] root start []
  | child {f : Frame α} {stack : List (Frame α)} {done : List (Condition α)} {node : Condition α}
      {s s' : σ} {vs us : List (Visit α σ)} (below : Descends h root start stack f.group s vs)
      (passed : h.Passes (position stack) f.connective done s us s')
      (children : f.children = done ++ node :: f.pending) :
    Descends h root start (f :: stack) node s' (vs ++ ⟨position stack, f.group, s⟩ :: us)

/-- Where a running machine stands after the given visits, in a state of the host. -/
inductive Underway (h : Host α β σ ε) (root : Condition α) (start : σ) (vs : List (Visit α σ)) :
    Machine α → σ → Prop where
  | visiting {node : Condition α} {stack : List (Frame α)} {s : σ}
      (descends : Descends h root start stack node s vs) :
    Underway h root start vs (.visiting node stack) s
  /-- The group on top has been visited, and none of its children has been started. -/
  | entered {f : Frame α} {stack : List (Frame α)} {s : σ} {us : List (Visit α σ)}
      {settled : f :: stack = [] → (none : Option Bool).isSome}
      (descends : Descends h root start stack f.group s us) (unstarted : f.pending = f.children)
      (visits : vs = us ++ [⟨position stack, f.group, s⟩]) :
    Underway h root start vs (.resuming none (f :: stack) settled) s
  /-- A node has been completed, and its result is in the register. -/
  | completed {node : Condition α} {b : Bool} {stack : List (Frame α)} {s s' : σ}
      {us us' : List (Visit α σ)} {settled : stack = [] → (some b).isSome}
      (descends : Descends h root start stack node s us)
      (traversal : h.Traversal (position stack) node s us' (.ok b) s') (visits : vs = us ++ us') :
    Underway h root start vs (.resuming (some b) stack settled) s'

/-- The index of the child that has been taken after some have been passed. -/
theorem latest_of_children {f : Frame α} {done : List (Condition α)} {node : Condition α}
    (hchildren : f.children = done ++ node :: f.pending) : f.latest = done.length := by
  rw [Frame.latest, hchildren, List.length_append, List.length_cons]
  omega

variable {root : Condition α} {start : σ} {vs : List (Visit α σ)}

/-- The group on top goes on to its first child, or is left if it has none. -/
theorem Underway.step_entered {f : Frame α} {stack : List (Frame α)}
    {settled : f :: stack = [] → (none : Option Bool).isSome} {w w' : World σ} {m' : Machine α}
    (hm : Underway h root start vs (.resuming none (f :: stack) settled) w.state)
    (hstep : step h trace (.resuming none (f :: stack) settled) w = .running m' w') :
    Underway h root start vs m' w'.state := by
  cases hm with
  | entered descends unstarted visits =>
    obtain ⟨origin, k, children, pending⟩ := f
    obtain rfl : pending = children := unstarted
    cases pending with
    | nil =>
      cases hstep
      exact .completed descends (.group .exhausted) visits
    | cons child rest =>
      cases hstep
      subst visits
      have hdescends := Descends.child (f := ⟨origin, k, child :: rest, rest⟩) descends .nil rfl
      exact .visiting hdescends

section

variable {f : Frame α} {stack : List (Frame α)} {node : Condition α} {s s' : σ}
  {us us' : List (Visit α σ)}

/-- A child that decides completes its group with the deciding value. -/
theorem Descends.decided (hdescends : Descends h root start (f :: stack) node s us)
    (htraversal : h.Traversal (position (f :: stack)) node s us' (.ok f.connective.deciding) s') :
    Underway h root start (us ++ us')
      (.resuming (some f.connective.deciding) stack (settled_some _ stack)) s' := by
  cases hdescends with
  | child below passed children =>
    rw [position, latest_of_children children] at htraversal
    have hscan := passed.scan (.decided htraversal : h.Scan _ _ _ (node :: f.pending) _ _ _ _)
    rw [← children] at hscan
    exact .completed below (.group hscan) (by simp [Frame.group])

/-- The last child completes its group with the opposite of the deciding value if it has it too. -/
theorem Descends.exhausted (hdescends : Descends h root start (f :: stack) node s us)
    (hpending : f.pending = [])
    (htraversal : h.Traversal (position (f :: stack)) node s us' (.ok !f.connective.deciding) s') :
    Underway h root start (us ++ us')
      (.resuming (some !f.connective.deciding) stack (settled_some _ stack)) s' := by
  cases hdescends with
  | child below passed children =>
    rw [position, latest_of_children children] at htraversal
    have hscan := passed.scan (.passed htraversal .exhausted)
    rw [hpending] at children
    rw [← children, List.append_nil] at hscan
    exact .completed below (.group hscan) (by simp [Frame.group])

/-- After any other child the next one is started. -/
theorem Descends.next (hdescends : Descends h root start (f :: stack) node s us)
    {child : Condition α} {rest : List (Condition α)} (hpending : f.pending = child :: rest)
    (htraversal : h.Traversal (position (f :: stack)) node s us' (.ok !f.connective.deciding) s') :
    Descends h root start ({ f with pending := rest } :: stack) child s' (us ++ us') := by
  cases hdescends with
  | child below passed children =>
    rename_i done _ _ _
    rw [position, latest_of_children children] at htraversal
    have hchildren : f.children = (done ++ [node]) ++ child :: rest := by
      rw [children, hpending, List.append_assoc, List.singleton_append]
    have hdescends := Descends.child (f := { f with pending := rest }) below
      (passed.snoc htraversal) hchildren
    rwa [List.append_assoc, List.cons_append]

end

/-- A result that decides completes the group on top, and so does that of the last child; after any
other result the next child is started. -/
theorem Underway.step_completed {b : Bool} {f : Frame α} {stack : List (Frame α)}
    {settled : f :: stack = [] → (some b).isSome} {w w' : World σ} {m' : Machine α}
    (hm : Underway h root start vs (.resuming (some b) (f :: stack) settled) w.state)
    (hstep : step h trace (.resuming (some b) (f :: stack) settled) w = .running m' w') :
    Underway h root start vs m' w'.state := by
  cases hm with
  | completed descends traversal visits =>
    subst visits
    by_cases hb : b = f.connective.deciding
    · subst hb
      simp only [step, dite_true] at hstep
      cases hstep
      exact descends.decided traversal
    · obtain rfl : b = !f.connective.deciding := Bool.eq_not_of_ne hb
      have hother : ¬ some (!f.connective.deciding) = some f.connective.deciding := by simp
      simp only [step, hother, dite_false] at hstep
      cases hpending : f.pending with
      | nil =>
        simp only [hpending] at hstep
        cases hstep
        exact descends.exhausted hpending traversal
      | cons child rest =>
        simp only [hpending] at hstep
        cases hstep
        exact .visiting (descends.next hpending traversal)

/-- A group that is visited has been entered, and an atom that is verified has been completed. -/
theorem Underway.step_visiting {node : Condition α} {stack : List (Frame α)} {w w' : World σ}
    {m' : Machine α} (hm : Underway h root start vs (.visiting node stack) w.state)
    (hstep : step h trace (.visiting node stack) w = .running m' w') :
    Underway h root start (vs ++ [⟨position stack, node, w.state⟩]) m' w'.state := by
  cases hm with
  | visiting descends =>
    cases node with
    | group origin k children =>
      cases hstep
      rw [World.visit_state]
      exact .entered (f := ⟨origin, k, children, children⟩) descends rfl rfl
    | atom a =>
      simp only [step, h.settle_eq_extend trace a w] at hstep
      cases houtcome : (h.verification false a w.state).outcome with
      | error e => simp [houtcome] at hstep
      | ok b =>
        simp only [houtcome] at hstep
        cases hstep
        exact .completed descends (.atom houtcome rfl) rfl

/-- One step keeps the machine under way. -/
theorem Underway.step {m m' : Machine α} {w w' : World σ}
    (hm : Underway h root start vs m w.state) (hstep : step h trace m w = .running m' w') :
    Underway h root start (vs ++ m.visit w) m' w'.state := by
  match m with
  | .visiting node stack => exact hm.step_visiting hstep
  | .resuming none (f :: stack) settled =>
    rw [visit, List.append_nil]
    exact hm.step_entered hstep
  | .resuming (some b) (f :: stack) settled =>
    rw [visit, List.append_nil]
    exact hm.step_completed hstep
  | .resuming register [] settled => exact nomatch hstep

/-- A run keeps the machine under way. -/
theorem Underway.advance {n : Nat} {m m' : Machine α} {w w' : World σ}
    (hm : Underway h root start vs m w.state) (hn : advance h trace n m w = .running m' w') :
    Underway h root start (vs ++ trail h trace n m w) m' w'.state := by
  induction n generalizing vs m w with
  | zero =>
    cases hn
    rwa [trail, List.append_nil]
  | succ n ih =>
    cases hstep : Machine.step h trace m w with
    | running l v =>
      rw [advance_of_running hstep] at hn
      rw [trail, hstep, ← List.append_assoc]
      exact ih (hm.step hstep) hn
    | halted r v => simp [Machine.advance, hstep] at hn

/-- Whatever an evaluation has come to, the machine is under way from the root. -/
theorem underway_of_advance {n : Nat} {m : Machine α} {w w' : World σ}
    (hn : Machine.advance h trace n (.visiting root []) w = .running m w') :
    Underway h root w.state (trail h trace n (.visiting root []) w) m w'.state := by
  have hstart : Underway h root w.state [] (.visiting root []) w.state := .visiting .root
  exact hstart.advance hn

end Machine

end ShortCircuit
