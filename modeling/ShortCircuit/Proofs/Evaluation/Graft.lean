import ShortCircuit.Proofs.Evaluation.Limit

/-!
# Parts that are not visited

`Condition.graft` puts other trees in place of any subtrees. `evaluate_graft` says that an
evaluation does not change if no visited node is replaced: what stands where it does not come to is
of no consequence, be it malformed, or too deep for a recursion.
-/

namespace ShortCircuit

variable {α β σ ε : Type}

namespace Condition

mutual

/-- The tree at a position, with the trees that `f` gives in place of its subtrees. What is put in
place of a subtree is left as it is. -/
def graft (f : Position → Option (Condition α)) (p : Position) : Condition α → Condition α
  | .atom a => (f p).getD (.atom a)
  | .group origin k children => (f p).getD (.group origin k (graftAll f p 0 children))

/-- The children of a group, each with what replaces it or a part of it. -/
def graftAll (f : Position → Option (Condition α)) (p : Position) (index : Nat) :
    List (Condition α) → List (Condition α)
  | [] => []
  | c :: rest => graft f (p ++ [index]) c :: graftAll f p (index + 1) rest

end

variable {f : Position → Option (Condition α)} {p : Position}

theorem graft_atom (hp : f p = none) (a : α) : (atom a).graft f p = .atom a := by
  rw [graft, hp, Option.getD_none]

theorem graft_group (hp : f p = none) (origin : Origin) (k : Connective)
    (children : List (Condition α)) :
    (group origin k children).graft f p = .group origin k (graftAll f p 0 children) := by
  rw [graft, hp, Option.getD_none]

/-- No group has more or fewer children than before, unless it is replaced itself. -/
@[simp] theorem length_graftAll (f : Position → Option (Condition α)) (p : Position) (index : Nat)
    (children : List (Condition α)) : (graftAll f p index children).length = children.length := by
  induction children generalizing index with
  | nil => rfl
  | cons c rest ih => rw [graftAll, List.length_cons, List.length_cons, ih]

end Condition

namespace Host

variable {h : Host α β σ ε} {trace : Bool}

mutual

/-- A recursion does not change if no node that it visits is replaced. -/
theorem recurse_graft (f : Position → Option (Condition α)) : (c : Condition α) →
    ∀ (room : Nat) (p : Position) (w : World σ),
      (∀ v ∈ h.recurseVisits trace room p c w, f v.position = none) →
      h.recurse trace room (c.graft f p) w = h.recurse trace room c w
  -- Without room it does not matter what the node is.
  | _, 0, _, _, _ => by simp only [recurse]
  | .atom a, room + 1, p, w, hf => by
    have hp : f p = none := hf _ (List.mem_singleton_self _)
    rw [Condition.graft_atom hp]
  | .group origin k children, room + 1, p, w, hf => by
    rw [recurseVisits] at hf
    have hp : f p = none := hf _ (List.mem_cons_self ..)
    have hchildren := recurseList_graft f children room k p 0
      (w.visit trace (.enteredGroup k children.length)) fun v hv ↦ hf v (List.mem_cons_of_mem _ hv)
    rw [Condition.graft_group hp, recurse, recurse, Condition.length_graftAll, hchildren]
  termination_by structural c => c

theorem recurseList_graft (f : Position → Option (Condition α)) : (children : List (Condition α)) →
    ∀ (room : Nat) (k : Connective) (p : Position) (i : Nat) (w : World σ),
      (∀ v ∈ h.recurseListVisits trace room k p i children w, f v.position = none) →
      h.recurseList trace room k (Condition.graftAll f p i children) w =
        h.recurseList trace room k children w
  | [], _, _, _, _, _, _ => by rw [Condition.graftAll]
  | child :: rest, room, k, p, i, w, hf => by
    rw [recurseListVisits] at hf
    have hchild := recurse_graft f child room (p ++ [i]) w fun v hv ↦
      hf v (List.mem_append_left _ hv)
    rw [Condition.graftAll, recurseList, recurseList, hchild]
    cases hr : h.recurse trace room child w with
    | mk r w' =>
      cases r with
      | error e => rfl
      | ok b =>
        by_cases hb : b = k.deciding
        · simp only [hb, if_true]
        · have hrest := recurseList_graft f rest room k p (i + 1) w' fun v hv ↦
            hf v (List.mem_append_right _ (by simpa only [hr, hb, if_false] using hv))
          simp only [hb, if_false, hrest]
  termination_by structural children => children

end

/-- A walk does not change either. For the stack this follows from a recursion with room for both
trees. -/
theorem walk_graft {settings : Settings} {room : Nat} {c : Condition α} {w : World σ}
    {f : Position → Option (Condition α)}
    (hf : ∀ v ∈ h.visits settings room c w, f v.position = none) :
    h.walk settings room (c.graft f []) w = h.walk settings room c w := by
  obtain ⟨strategy, trace⟩ := settings
  cases strategy with
  | recursive => exact recurse_graft f c room [] w hf
  | iterative =>
    let ample := max c.depth (c.graft f []).depth
    obtain ⟨hwalk, hvisits⟩ :=
      h.walk_recursive_eq_iterative trace w (Nat.le_max_left .. : c.depth ≤ ample)
    have hgrafted :=
      (h.walk_recursive_eq_iterative trace w (Nat.le_max_right .. :
        (c.graft f []).depth ≤ ample)).1
    have hample : h.walk ⟨.recursive, trace⟩ ample (c.graft f []) w =
        h.walk ⟨.recursive, trace⟩ ample c w := by
      refine recurse_graft f c ample [] w fun v hv ↦ hf v ?_
      have hmem : v ∈ h.visits ⟨.iterative, trace⟩ ample c w := hvisits ▸ hv
      exact hmem
    calc
      h.walk ⟨.iterative, trace⟩ room (c.graft f []) w =
          h.walk ⟨.recursive, trace⟩ ample (c.graft f []) w := hgrafted.symm
      _ = h.walk ⟨.recursive, trace⟩ ample c w := hample
      _ = h.walk ⟨.iterative, trace⟩ room c w := hwalk

end Host

/-- An evaluation has the same outcome, state, log and calls if trees are put in place of parts
that it does not visit. -/
theorem evaluate_graft (h : Host α β σ ε) (settings : Settings) (room : Nat) (c : Condition α)
    (w : World σ) (f : Position → Option (Condition α))
    (hf : ∀ v ∈ h.visits settings room c w, f v.position = none) :
    h.evaluate settings room (c.graft f []) w = h.evaluate settings room c w ∧
      h.recording.evaluate settings room (c.graft f []) w.recording =
        h.recording.evaluate settings room c w.recording := by
  have hrecorded : ∀ v ∈ h.recording.visits settings room c w.recording, f v.position = none := by
    intro v hv
    have hmem := List.mem_map_of_mem (f := Visit.position) hv
    rw [Host.visits_recording] at hmem
    obtain ⟨u, hu, hposition⟩ := List.mem_map.mp hmem
    rw [← hposition]
    exact hf u hu
  constructor
  · rw [Host.evaluate, Host.evaluate, Host.walk_graft hf]
  · rw [Host.evaluate, Host.evaluate, Host.walk_graft hrecorded]

namespace Session

/-- What is put in place of the two nodes of the turning tree that are not visited: a tree that is
too deep for the recursion, and an integer. -/
def overgrowth : Position → Option (Condition Value)
  | [0, 2] => some (buried 5)
  | [2] => some (.atom (.int 7))
  | _ => none

end Session

/-- The tree that results is deeper than the room, which is that of its evaluation before. -/
theorem evaluate_graft_turningTree :
    (∀ v ∈ (Session.host 0).visits ⟨.recursive, true⟩ 3 Session.turningTree Session.start,
        Session.overgrowth v.position = none) ∧
      (Session.turningTree.graft Session.overgrowth []).depth = 8 ∧
      (Session.host 0).evaluate ⟨.recursive, true⟩ 3
          (Session.turningTree.graft Session.overgrowth []) Session.start =
        (Session.host 0).evaluate ⟨.recursive, true⟩ 3 Session.turningTree Session.start ∧
      (Session.host 0).recording.evaluate ⟨.recursive, true⟩ 3
          (Session.turningTree.graft Session.overgrowth []) Session.start.recording =
        (Session.host 0).recording.evaluate ⟨.recursive, true⟩ 3 Session.turningTree
          Session.start.recording := by
  have hpositions :
      ((Session.host 0).visits ⟨.recursive, true⟩ 3 Session.turningTree Session.start).map
        Visit.position = [[], [0], [0, 0], [0, 1], [1]] := rfl
  have hf : ∀ v ∈ (Session.host 0).visits ⟨.recursive, true⟩ 3 Session.turningTree Session.start,
      Session.overgrowth v.position = none := by
    intro v hv
    have hmem := List.mem_map_of_mem (f := Visit.position) hv
    rw [hpositions] at hmem
    have hall : ∀ p ∈ [[], [0], [0, 0], [0, 1], [1]], (Session.overgrowth p).isNone := by decide
    exact Option.isNone_iff_eq_none.mp (hall _ hmem)
  exact ⟨hf, rfl, evaluate_graft _ _ _ _ _ _ hf⟩

end ShortCircuit
