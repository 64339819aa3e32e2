import ShortCircuit.Proofs.Evaluation.Calls

/-!
# What comes of a tree

The upshot of a tree from a state is the outcome, the state that is left and the atoms that are
called, with nothing said of where they stand. Children of a group are sequenced by
`Upshot.followedBy`, which goes on as long as nothing decides. This is a monoid up to the state that
is handed on, so the upshot of a list of children is that of its parts, whichever they are.
`Host.evaluate_upshot` ties it to evaluations within their room.
-/

namespace ShortCircuit

variable {α β σ ε : Type}

/-- The outcome of a tree, the state that is left and the atoms called on the way. -/
structure Upshot (α σ ε : Type) where
  outcome : Except ε Bool
  state : σ
  calls : List α

namespace Upshot

variable {k : Connective} {u : Upshot α σ ε} {f g : σ → Upshot α σ ε} {s : σ}

/-- What comes of a part of the children that does not decide. -/
def passed (k : Connective) (s : σ) : Upshot α σ ε := ⟨.ok !k.deciding, s, []⟩

/-- The upshot with calls that were made before. -/
def after (calls : List α) (u : Upshot α σ ε) : Upshot α σ ε := { u with calls := calls ++ u.calls }

/-- What comes of a part of the children of a group and of the part behind it, which is only come to
if the first one neither decides nor fails. -/
def followedBy (k : Connective) (u : Upshot α σ ε) (f : σ → Upshot α σ ε) : Upshot α σ ε :=
  match u.outcome with
  | .error _ => u
  | .ok b => if b = k.deciding then u else (f u.state).after u.calls

theorem after_after (calls calls' : List α) (u : Upshot α σ ε) :
    (u.after calls').after calls = u.after (calls ++ calls') := by
  simp only [after, List.append_assoc]

theorem followedBy_of_error {e : ε} (hu : u.outcome = .error e) : u.followedBy k f = u := by
  simp only [followedBy, hu]

theorem followedBy_of_deciding (hu : u.outcome = .ok k.deciding) : u.followedBy k f = u := by
  simp only [followedBy, hu, if_true]

theorem followedBy_of_opposite (hu : u.outcome = .ok !k.deciding) :
    u.followedBy k f = (f u.state).after u.calls := by
  simp only [followedBy, hu, Bool.not_eq_eq_eq_not, Bool.eq_not_self, if_false]

/-- An outcome is a failure, the deciding value, or the opposite of it. -/
theorem outcome_cases (k : Connective) (u : Upshot α σ ε) :
    (∃ e, u.outcome = .error e) ∨ u.outcome = .ok k.deciding ∨ u.outcome = .ok !k.deciding := by
  cases hu : u.outcome with
  | error e => exact .inl ⟨e, rfl⟩
  | ok b =>
    by_cases hb : b = k.deciding
    · exact .inr (.inl (congrArg Except.ok hb))
    · exact .inr (.inr (congrArg Except.ok (Bool.eq_not_of_ne hb)))

/-- Nothing comes before the first part. -/
@[simp] theorem passed_followedBy : (passed k s).followedBy k f = f s :=
  followedBy_of_opposite rfl

/-- Nothing comes behind the last part. -/
@[simp] theorem followedBy_passed (k : Connective) (u : Upshot α σ ε) :
    u.followedBy k (passed k) = u := by
  obtain ⟨e, hu⟩ | hu | hu := u.outcome_cases k
  · exact followedBy_of_error hu
  · exact followedBy_of_deciding hu
  · rw [followedBy_of_opposite hu]
    simp only [passed, after, List.append_nil, ← hu]

/-- What was called before changes nothing about where a part ends. -/
theorem after_followedBy (calls : List α) :
    (u.after calls).followedBy k f = (u.followedBy k f).after calls := by
  obtain ⟨e, hu⟩ | hu | hu := u.outcome_cases k
  · rw [followedBy_of_error (u := u.after calls) hu, followedBy_of_error hu]
  · rw [followedBy_of_deciding (u := u.after calls) hu, followedBy_of_deciding hu]
  · rw [followedBy_of_opposite (u := u.after calls) hu, followedBy_of_opposite hu, after_after]
    rfl

/-- Three parts come to the same however they are taken together. -/
theorem followedBy_assoc (k : Connective) (u : Upshot α σ ε) (f g : σ → Upshot α σ ε) :
    (u.followedBy k f).followedBy k g = u.followedBy k fun s ↦ (f s).followedBy k g := by
  obtain ⟨e, hu⟩ | hu | hu := u.outcome_cases k
  · simp only [followedBy_of_error hu]
  · simp only [followedBy_of_deciding hu]
  · simp only [followedBy_of_opposite hu, after_followedBy]

end Upshot

namespace Host

mutual

/-- What comes of a tree from a state. -/
def upshot (h : Host α β σ ε) : Condition α → σ → Upshot α σ ε
  | .atom a, s =>
    ⟨(h.verification false a s).outcome, (h.verification false a s).state,
      h.callsOf ⟨[], .atom a, s⟩⟩
  | .group _ k children, s => upshotOfAll h k children s
  termination_by structural c => c

/-- What comes of the children of a group from a state. -/
def upshotOfAll (h : Host α β σ ε) (k : Connective) : List (Condition α) → σ → Upshot α σ ε
  | [], s => .passed k s
  | child :: rest, s => (upshot h child s).followedBy k (upshotOfAll h k rest)
  termination_by structural children => children

end

variable {h : Host α β σ ε} {k : Connective}

theorem upshot_group (origin : Origin) (children : List (Condition α)) :
    h.upshot (.group origin k children) = h.upshotOfAll k children :=
  funext fun s ↦ by rw [upshot]

@[simp] theorem upshotOfAll_nil : h.upshotOfAll k [] = .passed k :=
  funext fun s ↦ by rw [upshotOfAll]

theorem upshotOfAll_cons (child : Condition α) (rest : List (Condition α)) (s : σ) :
    h.upshotOfAll k (child :: rest) s =
      (h.upshot child s).followedBy k (h.upshotOfAll k rest) := by
  rw [upshotOfAll]

/-- A single child stands for the whole group. -/
@[simp] theorem upshotOfAll_singleton (child : Condition α) :
    h.upshotOfAll k [child] = h.upshot child := by
  funext s
  rw [upshotOfAll_cons, upshotOfAll_nil, Upshot.followedBy_passed]

/-- The children of a group may be taken in two parts. -/
theorem upshotOfAll_append (children children' : List (Condition α)) (s : σ) :
    h.upshotOfAll k (children ++ children') s =
      (h.upshotOfAll k children s).followedBy k (h.upshotOfAll k children') := by
  induction children generalizing s with
  | nil => simp
  | cons child rest ih =>
    calc
      h.upshotOfAll k (child :: (rest ++ children')) s =
          (h.upshot child s).followedBy k (h.upshotOfAll k (rest ++ children')) :=
        upshotOfAll_cons ..
      _ = (h.upshot child s).followedBy k fun s' ↦
          (h.upshotOfAll k rest s').followedBy k (h.upshotOfAll k children') := by
        rw [funext ih]
      _ = ((h.upshot child s).followedBy k (h.upshotOfAll k rest)).followedBy k
          (h.upshotOfAll k children') := (Upshot.followedBy_assoc ..).symm
      _ = (h.upshotOfAll k (child :: rest) s).followedBy k (h.upshotOfAll k children') := by
        rw [upshotOfAll_cons]

mutual

/-- The upshot is what the traversal comes to. -/
theorem Traversal.upshot_eq {p : Position} {c : Condition α} {s s' : σ} {vs : List (Visit α σ)}
    {r : Except ε Bool} : h.Traversal p c s vs r s' → h.upshot c s = ⟨r, s', h.calls vs⟩
  | .atom outcome state => by
    rw [upshot, outcome, state, calls_cons, calls_nil, List.append_nil]
    rfl
  | .group scan => by
    rw [upshot_group, scan.upshot_eq]
    rfl
  termination_by structural ht => ht

theorem Scan.upshot_eq {p : Position} {k : Connective} {i : Nat} {children : List (Condition α)}
    {s s' : σ} {vs : List (Visit α σ)} {r : Except ε Bool} :
    h.Scan p k i children s vs r s' → h.upshotOfAll k children s = ⟨r, s', h.calls vs⟩
  | .exhausted => by rw [upshotOfAll_nil, calls_nil, Upshot.passed]
  | .decided first => by
    rw [upshotOfAll_cons, first.upshot_eq, Upshot.followedBy_of_deciding rfl]
  | .failed first => by
    rw [upshotOfAll_cons, first.upshot_eq, Upshot.followedBy_of_error rfl]
  | .passed first further => by
    rw [upshotOfAll_cons, first.upshot_eq, Upshot.followedBy_of_opposite rfl, further.upshot_eq,
      calls_append]
    rfl
  termination_by structural hs => hs

end

/-- An evaluation within its room comes to the upshot of its tree. -/
theorem evaluate_upshot {settings : Settings} {room : Nat} {c : Condition α} {w : World σ}
    (hroom : ¬ h.Exhausts settings room c w) :
    (h.evaluate settings room c w).1 = (h.upshot c w.state).outcome ∧
      (h.evaluate settings room c w).2.state = (h.upshot c w.state).state ∧
      (h.recording.evaluate settings room c w.recording).2.state.2 =
        (h.upshot c w.state).calls := by
  obtain ⟨vs, r, s', ht⟩ := h.exists_traversal [] w.state c
  rw [ht.upshot_eq, evaluate_eq ht hroom, evaluate_recording ht hroom]
  exact ⟨rfl, rfl, rfl⟩

end Host

end ShortCircuit
