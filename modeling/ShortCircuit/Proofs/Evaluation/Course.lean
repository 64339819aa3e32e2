import Mathlib.Logic.Relation
import ShortCircuit.Proofs.Evaluation.Calls
import ShortCircuit.Proofs.Evaluation.Limit
import ShortCircuit.Proofs.Evaluation.Meaning

/-!
# The course of an evaluation

To the state of the host an evaluation is a sequence of verifications, whether it comes to its end
or not. If each atom is verified with one outcome in all states that the evaluation can come
through, the whole course is fixed by the tree: `Condition.course` computes the outcome and the
atoms that are called, and `evaluate_steady` says that no evaluation takes another one.
-/

namespace ShortCircuit

variable {α β σ ε : Type}

namespace Condition

mutual

/-- The outcome of a tree whose atoms have fixed outcomes, and the atoms verified for it, in
order. -/
def course (outcome : α → Except ε Bool) : Condition α → Except ε Bool × List α
  | .atom a => (outcome a, [a])
  | .group _ connective children => courseOfAll outcome connective children

/-- The outcome of the children of a group, and the atoms verified for it. -/
def courseOfAll (outcome : α → Except ε Bool) (connective : Connective) :
    List (Condition α) → Except ε Bool × List α
  | [] => (.ok !connective.deciding, [])
  | child :: rest =>
    match course outcome child with
    | (.error e, atoms) => (.error e, atoms)
    | (.ok b, atoms) =>
      if b = connective.deciding then (.ok b, atoms)
      else
        let further := courseOfAll outcome connective rest
        (further.1, atoms ++ further.2)

end

variable {outcome : α → Except ε Bool} {k : Connective} {child : Condition α}

theorem courseOfAll_of_error {e : ε} (hchild : (course outcome child).1 = .error e)
    (rest : List (Condition α)) :
    courseOfAll outcome k (child :: rest) = (.error e, (course outcome child).2) := by
  simp only [courseOfAll]
  split
  · simp_all
  · simp_all

theorem courseOfAll_of_deciding (hchild : (course outcome child).1 = .ok k.deciding)
    (rest : List (Condition α)) :
    courseOfAll outcome k (child :: rest) = (.ok k.deciding, (course outcome child).2) := by
  simp only [courseOfAll]
  split
  · simp_all
  · simp_all

theorem courseOfAll_of_opposite (hchild : (course outcome child).1 = .ok !k.deciding)
    (rest : List (Condition α)) :
    courseOfAll outcome k (child :: rest) = ((courseOfAll outcome k rest).1,
      (course outcome child).2 ++ (courseOfAll outcome k rest).2) := by
  simp only [courseOfAll]
  split
  · simp_all
  · simp_all

end Condition

namespace Host

variable {h : Host α β σ ε}

/-! ## Every evaluation -/

/-- The verification of an atom leads from the one state to the other. -/
def Verifies (h : Host α β σ ε) (s s' : σ) : Prop := ∃ a, (h.verification false a s).state = s'

open Relation (ReflTransGen)

theorem settle_verifies (trace : Bool) (a : α) (w : World σ) :
    h.Verifies w.state (h.settle trace a w).2.state := by
  rw [settle_eq_extend]
  exact ⟨a, rfl⟩

mutual

/-- A recursion is a sequence of verifications, even if it runs out of room. -/
theorem recurse_verifies (trace : Bool) : (c : Condition α) → ∀ (room : Nat) (w : World σ),
    ReflTransGen h.Verifies w.state (h.recurse trace room c w).2.state
  | _, 0, w => by rw [recurse]
  | .atom a, room + 1, w => by
    rw [recurse]
    exact .single (settle_verifies trace a w)
  | .group _ k children, room + 1, w => by
    rw [recurse]
    have hchildren := recurseList_verifies trace children room k
      (w.visit trace (.enteredGroup k children.length))
    rwa [World.visit_state] at hchildren
  termination_by structural c => c

theorem recurseList_verifies (trace : Bool) : (children : List (Condition α)) →
    ∀ (room : Nat) (k : Connective) (w : World σ),
      ReflTransGen h.Verifies w.state (h.recurseList trace room k children w).2.state
  | [], room, k, w => by rw [recurseList]
  | child :: rest, room, k, w => by
    have hfirst := recurse_verifies trace child room w
    rw [recurseList]
    cases hchild : h.recurse trace room child w with
    | mk r w' =>
      rw [hchild] at hfirst
      cases r with
      | error e => exact hfirst
      | ok b =>
        simp only
        split
        · exact hfirst
        · exact hfirst.trans (recurseList_verifies trace rest room k w')
  termination_by structural children => children

end

/-- Every evaluation is a sequence of verifications. -/
theorem evaluate_verifies (settings : Settings) (room : Nat) (c : Condition α) (w : World σ) :
    ReflTransGen h.Verifies w.state (h.evaluate settings room c w).2.state := by
  have hwalk : ReflTransGen h.Verifies w.state (h.walk settings room c w).2.state := by
    obtain ⟨strategy, trace⟩ := settings
    cases strategy with
    | recursive => exact recurse_verifies trace c room w
    | iterative =>
      have hiterative := (walk_recursive_eq_iterative h trace w (Nat.le_refl c.depth)).1
      have hrecursive := recurse_verifies (h := h) trace c c.depth w
      rwa [show h.recurse trace c.depth c w = h.walk ⟨.iterative, trace⟩ room c w from
        hiterative] at hrecursive
  rw [evaluate]
  cases hw : h.walk settings room c w with
  | mk r w' =>
    rw [hw] at hwalk
    cases r with
    | error e => exact hwalk
    | ok b => exact hwalk

/-! ## Steady atoms -/

/-- An atom is called in every state of a kind, and verified with one outcome. The kind tells which
atoms have been verified on the way to the state. -/
structure Steady (h : Host α β σ ε) (kind : List α → σ → Prop) (outcome : α → Except ε Bool)
    (a : α) : Prop where
  called {before : List α} {s : σ} (hs : kind before s) :
    ∃ verify, (h.offer a s).outcome = .ok (some verify)
  outcome {before : List α} {s : σ} (hs : kind before s) :
    (h.verification false a s).outcome = outcome a
  state {before : List α} {s : σ} (hs : kind before s) :
    kind (before ++ [a]) (h.verification false a s).state

variable {kind : List α → σ → Prop} {outcome : α → Except ε Bool}

mutual

/-- The traversal of a tree of steady atoms takes the course of the tree. -/
theorem Traversal.steady {p : Position} {c : Condition α} {s s' : σ} {vs : List (Visit α σ)}
    {r : Except ε Bool} {before : List α} (hsteady : ∀ a ∈ c.atoms, h.Steady kind outcome a)
    (hs : kind before s) : h.Traversal p c s vs r s' →
    r = (c.course outcome).1 ∧ h.calls vs = (c.course outcome).2 ∧
      kind (before ++ (c.course outcome).2) s'
  | .atom (a := a) rfl rfl => by
    have ha := hsteady a (by simp [Condition.atoms])
    obtain ⟨verify, hoffer⟩ := ha.called hs
    exact ⟨ha.outcome hs, by simp [callsOf, hoffer, Condition.course], ha.state hs⟩
  | .group scan => by
    obtain ⟨houtcome, hcalls, hs'⟩ := scan.steady hsteady hs
    exact ⟨houtcome, by simpa [callsOf, Condition.course] using hcalls, hs'⟩
  termination_by structural ht => ht

theorem Scan.steady {p : Position} {k : Connective} {i : Nat} {children : List (Condition α)}
    {s s' : σ} {vs : List (Visit α σ)} {r : Except ε Bool} {before : List α}
    (hsteady : ∀ a ∈ Condition.atomsOfAll children, h.Steady kind outcome a)
    (hs : kind before s) : h.Scan p k i children s vs r s' →
    r = (Condition.courseOfAll outcome k children).1 ∧
      h.calls vs = (Condition.courseOfAll outcome k children).2 ∧
        kind (before ++ (Condition.courseOfAll outcome k children).2) s'
  | .exhausted => ⟨rfl, rfl, by simpa [Condition.courseOfAll] using hs⟩
  | .decided first => by
    obtain ⟨houtcome, hcalls, hs'⟩ :=
      first.steady (fun a ha ↦ hsteady a (by simp [Condition.atomsOfAll, ha])) hs
    rw [Condition.courseOfAll_of_deciding houtcome.symm]
    exact ⟨rfl, hcalls, hs'⟩
  | .failed first => by
    obtain ⟨houtcome, hcalls, hs'⟩ :=
      first.steady (fun a ha ↦ hsteady a (by simp [Condition.atomsOfAll, ha])) hs
    rw [Condition.courseOfAll_of_error houtcome.symm]
    exact ⟨rfl, hcalls, hs'⟩
  | .passed first further => by
    obtain ⟨houtcome, hcalls, hs'⟩ :=
      first.steady (fun a ha ↦ hsteady a (by simp [Condition.atomsOfAll, ha])) hs
    obtain ⟨houtcome', hcalls', hs''⟩ :=
      further.steady (fun a ha ↦ hsteady a (by simp [Condition.atomsOfAll, ha])) hs'
    rw [Condition.courseOfAll_of_opposite houtcome.symm]
    rw [List.append_assoc] at hs''
    exact ⟨houtcome', by rw [calls_append, hcalls, hcalls'], hs''⟩
  termination_by structural hs => hs

end

/-- An evaluation of steady atoms has the outcome and the calls of the course of the tree, whatever
the settings and whatever the state that it starts from. -/
theorem evaluate_steady {settings : Settings} {room : Nat} {c : Condition α} {w : World σ}
    {before : List α} (hsteady : ∀ a ∈ c.atoms, h.Steady kind outcome a)
    (hw : kind before w.state) (hroom : ¬ h.Exhausts settings room c w) :
    (h.evaluate settings room c w).1 = (c.course outcome).1 ∧
      (h.recording.evaluate settings room c w.recording).2.state.2 = (c.course outcome).2 ∧
        kind (before ++ (c.course outcome).2) (h.evaluate settings room c w).2.state := by
  obtain ⟨vs, r, s', ht⟩ := h.exists_traversal [] w.state c
  obtain ⟨houtcome, hcalls, hs'⟩ := ht.steady hsteady hw
  rw [evaluate_eq ht hroom, evaluate_recording ht hroom]
  exact ⟨houtcome, hcalls, hs'⟩

end Host

end ShortCircuit
