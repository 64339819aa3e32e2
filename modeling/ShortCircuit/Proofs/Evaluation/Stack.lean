import ShortCircuit.Proofs.Evaluation.Traversal

/-!
# The machine follows the traversal

A node that is visited above a stack is traversed as it is on its own; then either the machine
halts with the failure, or it goes on with the result in the register and the stack as it was.
`Host.iterate_eq` is the case of the empty stack.
-/

namespace ShortCircuit

variable {α β σ ε : Type} {h : Host α β σ ε} {trace : Bool}

namespace Machine

/-- The visits of the machine from a state on, the outcome, and the world that is left. -/
def course (h : Host α β σ ε) (trace : Bool) (m : Machine α) (w : World σ) :
    List (Visit α σ) × Except ε Bool × World σ :=
  (visits h trace m w, run h trace m w)

theorem settled_some (b : Bool) (stack : List (Frame α)) : stack = [] → (some b).isSome :=
  fun _ ↦ rfl

/-- The course of the machine after a node above the stack has been completed. -/
def onward (h : Host α β σ ε) (trace : Bool) (stack : List (Frame α)) (vs : List (Visit α σ))
    (r : Except ε Bool) (w : World σ) : List (Visit α σ) × Except ε Bool × World σ :=
  match r with
  | .error e => (vs, .error e, w)
  | .ok b => (course h trace (.resuming (some b) stack (settled_some b stack)) w).map (vs ++ ·) id

/-! ## One step -/

theorem course_of_running {m m' : Machine α} {w w' : World σ}
    (hstep : step h trace m w = .running m' w') :
    course h trace m w = (course h trace m' w').map (m.visit w ++ ·) id := by
  simp only [course, visits_of_running hstep, run_of_running hstep, Prod.map_apply, id_eq]

theorem course_of_halted {m : Machine α} {w w' : World σ} {r : Except ε Bool}
    (hstep : step h trace m w = .halted r w') : course h trace m w = (m.visit w, r, w') := by
  simp only [course, visits_of_halted hstep, run_of_halted hstep]

/-- A step between nodes adds no visit. -/
theorem course_of_resuming {register : Option Bool} {stack : List (Frame α)}
    {settled : stack = [] → register.isSome} {m : Machine α} {w : World σ}
    (hstep : step h trace (.resuming register stack settled) w = .running m w) :
    course h trace (.resuming register stack settled) w = course h trace m w := by
  rw [course_of_running hstep]
  rfl

theorem course_halting (b : Bool) (w : World σ) :
    course h trace (.resuming (some b) [] fun _ ↦ rfl) w = ([], .ok b, w) :=
  course_of_halted rfl

theorem course_atom (a : α) (stack : List (Frame α)) (w : World σ) :
    course h trace (.visiting (.atom a) stack) w =
      onward h trace stack [⟨position stack, .atom a, w.state⟩]
        (h.verification false a w.state).outcome
        (w.extend (h.verification false a w.state).state
          (h.verification trace a w.state).records) := by
  have hsettle := h.settle_eq_extend trace a w
  cases hr : (h.verification false a w.state).outcome with
  | error e =>
    rw [hr] at hsettle
    exact course_of_halted (by simp only [step, hsettle])
  | ok b =>
    rw [hr] at hsettle
    exact course_of_running (by simp only [step, hsettle])

theorem course_group (origin : Origin) (k : Connective) (children : List (Condition α))
    (stack : List (Frame α)) (w : World σ) :
    course h trace (.visiting (.group origin k children) stack) w =
      (course h trace (.resuming none (⟨origin, k, children, children⟩ :: stack) nofun)
        (w.visit trace (.enteredGroup k children.length))).map
          (⟨position stack, .group origin k children, w.state⟩ :: ·) id :=
  course_of_running rfl

/-- A deciding result leaves the group on top of the stack. -/
theorem course_deciding (top : Frame α) (stack : List (Frame α)) (w : World σ) :
    course h trace (.resuming (some top.connective.deciding) (top :: stack) nofun) w =
      course h trace (.resuming (some top.connective.deciding) stack fun _ ↦ rfl) w :=
  course_of_resuming (by simp [step])

/-- A group without further children leaves the stack with the opposite of its deciding value. -/
theorem course_exhausting {register : Option Bool} {top : Frame α} {stack : List (Frame α)}
    {w : World σ} (hregister : register ≠ some top.connective.deciding)
    (hpending : top.pending = []) :
    course h trace (.resuming register (top :: stack) nofun) w =
      course h trace (.resuming (some !top.connective.deciding) stack fun _ ↦ rfl) w :=
  course_of_resuming (by simp only [step, hregister, hpending, dite_false])

theorem course_advancing {register : Option Bool} {top : Frame α} {child : Condition α}
    {rest : List (Condition α)} {stack : List (Frame α)} {w : World σ}
    (hregister : register ≠ some top.connective.deciding) (hpending : top.pending = child :: rest) :
    course h trace (.resuming register (top :: stack) nofun) w =
      course h trace (.visiting child ({ top with pending := rest } :: stack)) w :=
  course_of_resuming (by simp only [step, hregister, hpending, dite_false])

/-! ## A whole node -/

/-- What is visited before the course goes on stands before everything that is visited later. -/
theorem map_onward (vs vs' : List (Visit α σ)) (stack : List (Frame α)) (r : Except ε Bool)
    (w : World σ) :
    (onward h trace stack vs' r w).map (vs ++ ·) id = onward h trace stack (vs ++ vs') r w := by
  cases r with
  | error e => simp only [onward, Prod.map_apply, id_eq]
  | ok b => simp [onward, Prod.map]

/-- The position of a child that has just been taken from the group on top of the stack. -/
theorem position_advanced {origin : Origin} {k : Connective} {children rest : List (Condition α)}
    {child : Condition α} {stack : List (Frame α)} {p : Position} {i : Nat}
    (hp : position stack = p) (hi : children.length - (child :: rest).length = i) :
    position (⟨origin, k, children, rest⟩ :: stack) = p ++ [i] := by
  rw [List.length_cons] at hi
  have hindex : children.length - rest.length - 1 = i := by omega
  simp only [position, Frame.latest, hp, hindex]

-- The position and the state of the traversal are tied to the machine's by equations, so that the
-- derivation keeps variables for indices and both proofs can recurse on it.
mutual

/-- The machine traverses the node above a stack, whatever the stack is. -/
theorem course_visiting {p : Position} {c : Condition α} {s s' : σ} {vs : List (Visit α σ)}
    {r : Except ε Bool} : h.Traversal p c s vs r s' →
    ∀ (stack : List (Frame α)) (w : World σ), position stack = p → w.state = s →
      course h trace (.visiting c stack) w =
        onward h trace stack vs r (w.extend s' (h.journal trace vs))
  | .atom outcome state => by
    intro stack w hp hs
    rw [course_atom, hp, hs, outcome, state]
    simp [Host.recordsOf]
  | .group scan => by
    intro stack w hp hs
    rename_i origin k children us
    have hstate : (w.visit trace (.enteredGroup k children.length)).state = s := by
      rw [World.visit_state, hs]
    rw [course_group, course_scanning scan origin children stack none _ hp hstate (Nat.sub_self _)
      (Nat.le_refl _) nofun]
    rw [World.visit_eq_extend, World.extend_extend, hp, hs]
    exact map_onward [_] us stack r _
  termination_by structural ht => ht

/-- The machine scans the children of the group on top of the stack, if the register does not hold
the deciding value yet. -/
theorem course_scanning {p : Position} {k : Connective} {i : Nat} {pending : List (Condition α)}
    {s s' : σ} {vs : List (Visit α σ)} {r : Except ε Bool} : h.Scan p k i pending s vs r s' →
    ∀ (origin : Origin) (children : List (Condition α)) (stack : List (Frame α))
      (register : Option Bool) (w : World σ), position stack = p → w.state = s →
      children.length - pending.length = i → pending.length ≤ children.length →
      register ≠ some k.deciding →
      course h trace (.resuming register (⟨origin, k, children, pending⟩ :: stack) nofun) w =
        onward h trace stack vs r (w.extend s' (h.journal trace vs))
  | .exhausted => by
    intro origin children stack register w _ hs _ _ hregister
    rw [course_exhausting hregister rfl, ← hs]
    simp [onward, Prod.map]
  | .decided first => by
    intro origin children stack register w hp hs hi _ hregister
    rw [course_advancing hregister rfl,
      course_visiting first _ w (position_advanced hp hi) hs]
    exact congrArg (Prod.map _ id) (course_deciding ⟨origin, k, children, _⟩ stack _)
  | .failed first => by
    intro origin children stack register w hp hs hi _ hregister
    rw [course_advancing hregister rfl,
      course_visiting first _ w (position_advanced hp hi) hs]
    rfl
  | .passed first further => by
    intro origin children stack register w hp hs hi hlength hregister
    rw [course_advancing hregister rfl,
      course_visiting first _ w (position_advanced hp hi) hs]
    rw [List.length_cons] at hi hlength
    rw [onward, course_scanning further origin children stack (some !k.deciding) _ hp
      (World.extend_state ..) (by omega) (by omega) (by simp)]
    rw [map_onward, World.extend_extend, Host.journal_append]
  termination_by structural hs => hs

end

end Machine

namespace Host

/-- The machine has the visits, the outcome and the state of the traversal, and the log grows by
the records of the visits. -/
theorem iterate_eq {c : Condition α} {w : World σ} {s' : σ} {vs : List (Visit α σ)}
    {r : Except ε Bool} (ht : h.Traversal [] c w.state vs r s') :
    h.iterate trace c w = (r, w.extend s' (h.journal trace vs)) ∧
      Machine.visits h trace (.visiting c []) w = vs := by
  have hcourse : Machine.course h trace (.visiting c []) w =
      (vs, r, w.extend s' (h.journal trace vs)) := by
    rw [Machine.course_visiting ht [] w rfl rfl]
    cases r with
    | error e => rfl
    | ok b =>
      rw [Machine.onward, Machine.course_halting]
      simp only [Prod.map_apply, List.append_nil, id_eq]
  exact ⟨congrArg Prod.snd hcourse, congrArg Prod.fst hcourse⟩

end Host

end ShortCircuit
