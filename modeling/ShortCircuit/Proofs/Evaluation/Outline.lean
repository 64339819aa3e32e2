import ShortCircuit.Proofs.Evaluation.Meaning
import ShortCircuit.Value.Basic

/-!
# Outlines

The outline of a tree is what is left of it without its objects: the shape, the connectives, and the
truth values of the atoms. If the atoms are verified to these values and to no effect, an evaluation
is fixed by the outline: `Outline.course` computes its result and the visits that it records, and
`evaluate_course` says that every evaluation takes this course.
-/

namespace ShortCircuit

variable {α β σ ε : Type}

/-- A tree of connectives over truth values. -/
inductive Outline where
  | leaf (value : Bool)
  | group (connective : Connective) (children : List Outline)

namespace Outline

mutual

/-- The result of evaluating leaves of an outline in order, and the records of the visits. -/
def course : Outline → Bool × List Record
  | .leaf value => (value, [.enteredLeaf ClassTag.leaf.name])
  | .group k children =>
    let (b, records) := courseOfAll k children
    (b, .enteredGroup k children.length :: records)

/-- The result of the children of a group, and the records of the visits made for it. -/
def courseOfAll (k : Connective) : List Outline → Bool × List Record
  | [] => (!k.deciding, [])
  | child :: rest =>
    if (course child).1 = k.deciding then course child
    else ((courseOfAll k rest).1, (course child).2 ++ (courseOfAll k rest).2)

end

variable {k : Connective} {child : Outline}

theorem courseOfAll_of_deciding (hchild : child.course.1 = k.deciding) (rest : List Outline) :
    courseOfAll k (child :: rest) = (k.deciding, child.course.2) := by
  rw [courseOfAll, if_pos hchild, ← hchild]

theorem courseOfAll_of_opposite (hchild : child.course.1 = !k.deciding) (rest : List Outline) :
    courseOfAll k (child :: rest) =
      ((courseOfAll k rest).1, child.course.2 ++ (courseOfAll k rest).2) := by
  rw [courseOfAll, if_neg (by simp [hchild])]

end Outline

namespace Condition

mutual

/-- The outline of a tree whose atoms have the given truth values. -/
def outline (value : α → Bool) : Condition α → Outline
  | .atom a => .leaf (value a)
  | .group _ k children => .group k (outlines value children)

/-- The outlines of a list of trees. -/
def outlines (value : α → Bool) : List (Condition α) → List Outline
  | [] => []
  | c :: rest => outline value c :: outlines value rest

end

@[simp] theorem length_outlines (value : α → Bool) (cs : List (Condition α)) :
    (outlines value cs).length = cs.length := by
  induction cs with
  | nil => rfl
  | cons c rest ih => rw [outlines, List.length_cons, List.length_cons, ih]

end Condition

namespace Host

variable {h : Host α β σ ε}

/-- In the state, the atom is verified to the value to no effect, as a plain leaf. -/
def Answers (h : Host α β σ ε) (s : σ) (a : α) (value : Bool) : Prop :=
  ∀ trace, h.verification trace a s =
    ⟨.ok value, s, if trace then [.enteredLeaf ClassTag.leaf.name] else []⟩

variable {value : α → Bool}

mutual

/-- The traversal of a tree whose atoms answer takes the course of its outline. -/
theorem Traversal.course {p : Position} {c : Condition α} {s s' : σ} {vs : List (Visit α σ)}
    {r : Except ε Bool} (hatoms : ∀ a ∈ c.atoms, h.Answers s a (value a)) :
    h.Traversal p c s vs r s' →
    r = .ok (c.outline value).course.1 ∧ s' = s ∧
      ∀ trace, h.journal trace vs = if trace then (c.outline value).course.2 else []
  | .atom (a := a) rfl rfl => by
    have ha := hatoms a (List.mem_singleton_self a)
    refine ⟨?_, ?_, fun trace ↦ ?_⟩
    · rw [ha false]
      rfl
    · rw [ha false]
    · simp only [journal_cons, recordsOf, ha trace, journal_nil, List.append_nil]
      rfl
  | .group scan => by
    obtain ⟨houtcome, hstate, hjournal⟩ := scan.course hatoms
    refine ⟨houtcome, hstate, fun trace ↦ ?_⟩
    rw [journal_cons, recordsOf, hjournal trace, Condition.outline, Outline.course,
      Condition.length_outlines]
    cases trace <;> rfl
  termination_by structural ht => ht

theorem Scan.course {p : Position} {k : Connective} {i : Nat} {children : List (Condition α)}
    {s s' : σ} {vs : List (Visit α σ)} {r : Except ε Bool}
    (hatoms : ∀ a ∈ Condition.atomsOfAll children, h.Answers s a (value a)) :
    h.Scan p k i children s vs r s' →
    r = .ok (Outline.courseOfAll k (Condition.outlines value children)).1 ∧ s' = s ∧
      ∀ trace, h.journal trace vs =
        if trace then (Outline.courseOfAll k (Condition.outlines value children)).2 else []
  | .exhausted => ⟨rfl, rfl, fun trace ↦ by cases trace <;> rfl⟩
  | .decided first => by
    obtain ⟨houtcome, hstate, hjournal⟩ :=
      first.course fun a ha ↦ hatoms a (List.mem_append_left _ ha)
    rw [Condition.outlines, Outline.courseOfAll_of_deciding (Except.ok.inj houtcome).symm]
    exact ⟨rfl, hstate, hjournal⟩
  | .failed first => by
    obtain ⟨houtcome, -⟩ := first.course fun a ha ↦ hatoms a (List.mem_append_left _ ha)
    cases houtcome
  | .passed first further => by
    obtain ⟨houtcome, rfl, hjournal⟩ :=
      first.course fun a ha ↦ hatoms a (List.mem_append_left _ ha)
    obtain ⟨houtcome', hstate, hjournal'⟩ :=
      further.course fun a ha ↦ hatoms a (List.mem_append_right _ ha)
    rw [Condition.outlines, Outline.courseOfAll_of_opposite (Except.ok.inj houtcome).symm]
    refine ⟨houtcome', hstate, fun trace ↦ ?_⟩
    rw [journal_append, hjournal, hjournal']
    cases trace <;> rfl
  termination_by structural hs => hs

end

/-- An evaluation of atoms that answer has the result and the records of the course of the outline,
with either strategy, and leaves the state as it was. -/
theorem evaluate_course {settings : Settings} {room : Nat} {c : Condition α} {w : World σ}
    (hatoms : ∀ a ∈ c.atoms, h.Answers w.state a (value a))
    (hroom : ¬ h.Exhausts settings room c w) :
    h.evaluate settings room c w =
      (.ok (c.outline value).course.1, w.extend w.state
        ((if settings.trace then (c.outline value).course.2 else []) ++
          [.evaluated (c.outline value).course.1 settings.strategy])) := by
  obtain ⟨vs, r, s', ht⟩ := h.exists_traversal [] w.state c
  obtain ⟨rfl, rfl, hjournal⟩ := ht.course hatoms
  rw [evaluate_eq ht hroom, hjournal]
  rfl

end Host

end ShortCircuit
