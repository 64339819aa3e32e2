import ShortCircuit.Proofs.Evaluation.Calls
import ShortCircuit.Proofs.Evaluation.Placement
import ShortCircuit.Proofs.Evaluation.Strategies

/-!
# The limit of recursion

A recursion needs room for the nodes that it visits, and not for the whole tree. So it is as good
as the stack if the tree is no deeper than the room, and `evaluate_limited` says what it does in
any other case: it runs out of room if and only if the traversal comes to a node that is nested
beyond the limit, and otherwise it cannot be told apart from the stack.
-/

namespace ShortCircuit

variable {α β σ ε : Type}

namespace Condition

theorem depth_le_depths {children : List (Condition α)} {i : Nat} {child : Condition α}
    (hchild : children[i]? = some child) : child.depth ≤ depths children := by
  induction children generalizing i with
  | nil => simp at hchild
  | cons c rest ih =>
    rw [depths]
    cases i with
    | zero =>
      obtain rfl : c = child := by simpa using hchild
      exact Nat.le_max_left ..
    | succ i =>
      have hrest := ih (by simpa using hchild)
      exact Nat.le_trans hrest (Nat.le_max_right ..)

/-- No node stands deeper than the tree is. -/
theorem length_lt_depth {c n : Condition α} {p : Position} (hn : c.at? p = some n) :
    p.length < c.depth := by
  induction p generalizing c with
  | nil => cases c <;> simp only [depth, List.length_nil] <;> omega
  | cons i p ih =>
    cases c with
    | atom a => simp [at?] at hn
    | group origin k children =>
      obtain ⟨child, hchild, hn⟩ : ∃ child, children[i]? = some child ∧ child.at? p = some n := by
        simpa [at?, Option.bind_eq_some_iff] using hn
      have hlength := ih hn
      have hdepth := depth_le_depths hchild
      rw [depth, List.length_cons]
      omega

end Condition

namespace Host

variable {h : Host α β σ ε} {trace : Bool} {room : Nat} {c : Condition α} {w : World σ}

/-- A walk never runs out of room in a tree that is no deeper than the room. -/
theorem not_exhausts_of_depth_le (settings : Settings) (hdepth : c.depth ≤ room) :
    ¬ h.Exhausts settings room c w := by
  obtain ⟨vs, r, s', ht⟩ := h.exists_traversal [] w.state c
  rw [exhausts_iff ht]
  rintro ⟨-, v, hv, hdeep⟩
  have hlength := Condition.length_lt_depth (ht.at?_position hv)
  omega

/-- In such a tree recursion and stack are one walk. -/
theorem walk_recursive_eq_iterative (h : Host α β σ ε) (trace : Bool) (w : World σ)
    (hdepth : c.depth ≤ room) :
    h.walk ⟨.recursive, trace⟩ room c w = h.walk ⟨.iterative, trace⟩ room c w ∧
      h.visits ⟨.recursive, trace⟩ room c w = h.visits ⟨.iterative, trace⟩ room c w := by
  obtain ⟨vs, r, s', ht⟩ := h.exists_traversal [] w.state c
  obtain ⟨hrecursive, hvisits⟩ :=
    walk_eq ht (not_exhausts_of_depth_le ⟨.recursive, trace⟩ hdepth)
  obtain ⟨hiterative, hvisits'⟩ :=
    walk_eq ht (not_exhausts_of_depth_le ⟨.iterative, trace⟩ hdepth)
  exact ⟨hrecursive.trans hiterative.symm, hvisits.trans hvisits'.symm⟩

/-- An exhausted walk fails for lack of room, and so does the evaluation. -/
theorem evaluate_of_exhausts {settings : Settings} (hexhausts : h.Exhausts settings room c w) :
    (h.evaluate settings room c w).1 = .error h.exhausted := by
  obtain ⟨vs, r, s', ht⟩ := h.exists_traversal [] w.state c
  obtain ⟨hstrategy, v, hv, hdeep⟩ := (exhausts_iff ht).mp hexhausts
  have hwalk : (h.walk settings room c w).1 = .error h.exhausted := by
    unfold walk
    rw [hstrategy]
    exact recurse_exhausted ht room w rfl ⟨v, hv, by simpa using hdeep⟩
  rw [evaluate, ← Prod.eta (h.walk settings room c w), hwalk]

end Host

/-- The recursion runs out of room if and only if the traversal comes to a node with more than
`limit` nodes on the path to it. Otherwise it has the outcome, the state, the calls and the visits
of the stack. -/
theorem evaluate_limited (h : Host α β σ ε) (trace : Bool) (limit : Nat) (c : Condition α)
    (w : World σ) :
    ∃ vs r s', h.Traversal [] c w.state vs r s' ∧
      (h.Exhausts ⟨.recursive, trace⟩ limit c w ↔ ∃ v ∈ vs, limit < v.position.length + 1) ∧
      (h.Exhausts ⟨.recursive, trace⟩ limit c w →
        (h.evaluate ⟨.recursive, trace⟩ limit c w).1 = .error h.exhausted) ∧
      (¬ h.Exhausts ⟨.recursive, trace⟩ limit c w →
        (h.evaluate ⟨.recursive, trace⟩ limit c w).1 =
            (h.evaluate ⟨.iterative, trace⟩ limit c w).1 ∧
          (h.evaluate ⟨.recursive, trace⟩ limit c w).2.state =
            (h.evaluate ⟨.iterative, trace⟩ limit c w).2.state ∧
          (h.recording.evaluate ⟨.recursive, trace⟩ limit c w.recording).2.state.2 =
            (h.recording.evaluate ⟨.iterative, trace⟩ limit c w.recording).2.state.2 ∧
          h.visits ⟨.recursive, trace⟩ limit c w = h.visits ⟨.iterative, trace⟩ limit c w) := by
  obtain ⟨vs, r, s', ht⟩ := h.exists_traversal [] w.state c
  have hiterative := h.not_exhausts_iterative trace limit c w
  have hlimit : h.Exhausts ⟨.recursive, trace⟩ limit c w ↔
      ∃ v ∈ vs, limit < v.position.length + 1 := by
    simp only [Host.exhausts_iff ht, true_and, Nat.lt_succ_iff]
  refine ⟨vs, r, s', ht, hlimit, Host.evaluate_of_exhausts, ?_⟩
  intro hroom
  refine ⟨?_, ?_, ?_, ?_⟩
  · rw [Host.evaluate_eq ht hroom, Host.evaluate_eq ht hiterative]
  · rw [Host.evaluate_eq ht hroom, Host.evaluate_eq ht hiterative]
    rfl
  · rw [Host.evaluate_recording ht hroom, Host.evaluate_recording ht hiterative]
    rfl
  · exact (Host.walk_eq ht hroom).2.trans (Host.walk_eq ht hiterative).2.symm

namespace Session

/-- A value that is no condition, below a number of groups of one child each. -/
def buried : (groups : Nat) → Condition Value
  | 0 => .atom .nothing
  | groups + 1 => .group ⟨firstFreshId, .group⟩ .or [buried groups]

/-- A disjunction that is settled before it comes to what is buried in it. -/
def shelteringTree : Condition Value :=
  .group ⟨firstFreshId + 1, .group⟩ .or [.atom (constantCondition true), buried 5]

theorem shelteringTree_within (log : Array Record) :
    ¬ (host 0).Exhausts ⟨.recursive, true⟩ 2 shelteringTree ⟨{}, log⟩ := by
  intro hexhausted
  have hanswer : ((host 0).telling.walk ⟨.recursive, true⟩ 2 shelteringTree ⟨{}, log⟩).1 =
      .ok true := rfl
  cases hanswer.symm.trans hexhausted

end Session

/-- Two levels are enough for a tree of seven that is settled by its first leaf, and not enough for
one of three whose leaves on the third level are visited. -/
theorem evaluate_limited_shelteringTree :
    Session.shelteringTree.depth = 7 ∧
      ((Session.host 0).evaluate ⟨.recursive, true⟩ 2 Session.shelteringTree Session.start).1 =
        ((Session.host 0).evaluate ⟨.iterative, true⟩ 2 Session.shelteringTree
          Session.start).1 ∧
      (Session.host 0).Exhausts ⟨.recursive, true⟩ 2 Session.turningTree Session.start ∧
      ((Session.host 0).evaluate ⟨.recursive, true⟩ 2 Session.turningTree Session.start).1 =
        .error .stackExhausted := by
  obtain ⟨-, -, -, -, -, -, hwithin⟩ :=
    evaluate_limited (Session.host 0) true 2 Session.shelteringTree Session.start
  obtain ⟨-, -, -, -, -, hbeyond, -⟩ :=
    evaluate_limited (Session.host 0) true 2 Session.turningTree Session.start
  have hexhausts :
      (Session.host 0).Exhausts ⟨.recursive, true⟩ 2 Session.turningTree Session.start := rfl
  exact ⟨rfl, (hwithin (Session.shelteringTree_within #[])).1, hexhausts, hbeyond hexhausts⟩

end ShortCircuit
