import ShortCircuit.Proofs.Evaluation.Strategies
import ShortCircuit.Proofs.Evaluation.Trace
import ShortCircuit.Proofs.Evaluation.Underway

/-!
# The invariant of the stack

At the head of its inner loop the machine has a register and a stack. `Machine.Invariant` says what
these stand for: the groups on the stack are a path that leads down from the root, each with the
children that remain to be started, and the register holds the result of the node that was completed
last, unless the group on top has just been pushed. `resuming_invariant` says that this holds
whenever the machine is there, whatever the tree and however its atoms answer.
-/

namespace ShortCircuit

variable {α β σ ε : Type} {h : Host α β σ ε} {trace : Bool}

namespace Condition

mutual

/-- The number of groups on a path from the root that has most of them. -/
def height : Condition α → Nat
  | .atom _ => 0
  | .group _ _ children => 1 + heights children

/-- The greatest height of a list of trees. -/
def heights : List (Condition α) → Nat
  | [] => 0
  | c :: rest => max (height c) (heights rest)

end

theorem height_le_heights {c : Condition α} {cs : List (Condition α)} (hc : c ∈ cs) :
    c.height ≤ heights cs := by
  induction cs with
  | nil => exact absurd hc List.not_mem_nil
  | cons d rest ih =>
    rw [heights]
    rcases List.mem_cons.mp hc with rfl | hc
    · exact Nat.le_max_left ..
    · exact Nat.le_trans (ih hc) (Nat.le_max_right ..)

end Condition

/-- Among the visits are those of a whole traversal of the node at a position, with the result. -/
def Host.Completed (h : Host α β σ ε) (vs : List (Visit α σ)) (p : Position) (c : Condition α)
    (b : Bool) : Prop :=
  ∃ s us s', us <:+: vs ∧ h.Traversal p c s us (.ok b) s'

namespace Frame

/-- The number of children that have been started. -/
def started (f : Frame α) : Nat := f.children.length - f.pending.length

/-- The child that was started last. -/
def last? (f : Frame α) : Option (Condition α) := (f.children.take f.started).getLast?

/-- What is known after the given visits of a group on the stack that stands at a position. -/
structure Sound (h : Host α β σ ε) (vs : List (Visit α σ)) (p : Position) (f : Frame α) :
    Prop where
  /-- The children that remain are those that have not been started, in order. -/
  pending : f.pending = f.children.drop f.started
  /-- The children that have been started are those that have been visited. -/
  started {i : Nat} (hi : i < f.children.length) :
    i < f.started ↔ ∃ v ∈ vs, v.position = p ++ [i]
  /-- All that have been started but the last one have been completed, and none of them decided. -/
  passed {i : Nat} {child : Condition α} (hi : i + 1 < f.started)
      (hchild : f.children[i]? = some child) :
    h.Completed vs (p ++ [i]) child (!f.connective.deciding)

variable {f : Frame α} {done : List (Condition α)} {node : Condition α}

theorem started_of_children (hchildren : f.children = done ++ node :: f.pending) :
    f.started = done.length + 1 := by
  rw [started, hchildren, List.length_append, List.length_cons]
  omega

theorem last?_of_children (hchildren : f.children = done ++ node :: f.pending) :
    f.last? = some node := by
  have htake : f.children.take f.started = done ++ [node] := by
    rw [started_of_children hchildren, hchildren, List.take_append, List.take_of_length_le (by omega)]
    simp
  rw [last?, htake, List.getLast?_concat]

end Frame

/-! ## Visits of children that were passed -/

namespace Host

variable {p : Position} {k : Connective} {done : List (Condition α)} {s s' : σ}
  {vs : List (Visit α σ)}

/-- A traversal visits its node. -/
theorem Traversal.visits_self {c : Condition α} {r : Except ε Bool}
    (ht : h.Traversal p c s vs r s') : ∃ v ∈ vs, v.position = p := by
  cases ht with
  | atom outcome state => exact ⟨_, List.mem_singleton_self _, rfl⟩
  | group scan => exact ⟨_, List.mem_cons_self, rfl⟩

/-- What has been visited while children were passed stands below one of them. -/
theorem Passes.placed (hpasses : h.Passes p k done s vs s') :
    ∀ v ∈ vs, ∃ i q, i < done.length ∧ v.position = p ++ i :: q := by
  induction hpasses with
  | nil => exact nofun
  | @snoc done child _ _ _ us us' before last ih =>
    intro v hv
    rw [List.length_append, List.length_singleton]
    rcases List.mem_append.mp hv with hv | hv
    · obtain ⟨i, q, hi, hposition⟩ := ih v hv
      exact ⟨i, q, by omega, hposition⟩
    · obtain ⟨q, hposition, -⟩ := last.placed v hv
      refine ⟨done.length, q, by omega, ?_⟩
      rw [hposition, List.append_assoc, List.singleton_append]

/-- A child that has been passed has been completed with the opposite of the deciding value. -/
theorem Passes.completed (hpasses : h.Passes p k done s vs s') {i : Nat} {child : Condition α}
    (hchild : done[i]? = some child) : h.Completed vs (p ++ [i]) child (!k.deciding) := by
  induction hpasses with
  | nil => exact nomatch hchild
  | @snoc done last _ t t' us us' before traversal ih =>
    by_cases hi : i < done.length
    · rw [List.getElem?_append_left hi] at hchild
      obtain ⟨t, ws, t', hws, ht⟩ := ih hchild
      exact ⟨t, ws, t', hws.trans (List.prefix_append ..).isInfix, ht⟩
    · obtain ⟨rfl, rfl⟩ : i = done.length ∧ last = child := by
        rw [List.getElem?_append_right (by omega)] at hchild
        have hlast := List.getElem?_eq_some_iff.mp hchild
        obtain ⟨hlt, hlast⟩ := hlast
        rw [List.length_singleton] at hlt
        exact ⟨by omega, by simpa using hlast⟩
      exact ⟨t, us', t', (List.suffix_append ..).isInfix, traversal⟩

theorem Completed.mono {p : Position} {c : Condition α} {b : Bool} {us : List (Visit α σ)}
    (hc : h.Completed us p c b) (hus : us <:+: vs) : h.Completed vs p c b := by
  obtain ⟨s, ws, s', hws, ht⟩ := hc
  exact ⟨s, ws, s', hws.trans hus, ht⟩

theorem Completed.visited {p : Position} {c : Condition α} {b : Bool}
    (hc : h.Completed vs p c b) : ∃ v ∈ vs, v.position = p := by
  obtain ⟨s, ws, s', hws, ht⟩ := hc
  obtain ⟨v, hv, hposition⟩ := ht.visits_self
  exact ⟨v, hws.subset hv, hposition⟩

end Host

/-! ## The path -/

namespace Machine

/-- The node that was started last beneath a stack: a child of the group on top, or the root. -/
def latest? (root : Condition α) : List (Frame α) → Option (Condition α)
  | [] => some root
  | f :: _ => f.last?

/-- The groups on the stack lead down from the root: each is the node that was started last beneath
those below it. -/
def IsPath (root : Condition α) : List (Frame α) → Prop
  | [] => True
  | f :: below => latest? root below = some f.group ∧ IsPath root below

variable {root node : Condition α} {start s : σ} {stack below : List (Frame α)} {f : Frame α}
  {vs : List (Visit α σ)}

theorem Descends.isPath (hd : Descends h root start stack node s vs) :
    IsPath root stack ∧ latest? root stack = some node := by
  induction hd with
  | root => exact ⟨trivial, rfl⟩
  | child below passed children ih => exact ⟨⟨ih.2, ih.1⟩, Frame.last?_of_children children⟩

/-- The groups of a path and those on a path below it are on one path from the root. -/
theorem length_add_height_le (hpath : IsPath root stack) (hnode : latest? root stack = some node) :
    stack.length + node.height ≤ root.height := by
  induction stack generalizing node with
  | nil =>
    obtain rfl : root = node := Option.some.inj hnode
    simp
  | cons f below ih =>
    have hchild : node ∈ f.children := List.mem_of_mem_take (List.mem_of_getLast? hnode)
    have hheight : f.group.height = 1 + Condition.heights f.children := rfl
    have hle := Condition.height_le_heights hchild
    have hbelow := ih hpath.2 hpath.1
    rw [List.length_cons]
    omega

/-- Every group on the stack has passed some of its children. -/
theorem Descends.passed (hd : Descends h root start stack node s vs) (hf : f :: below <:+ stack) :
    ∃ done child t us t', f.children = done ++ child :: f.pending ∧
      h.Passes (position below) f.connective done t us t' ∧ us <:+: vs := by
  induction hd with
  | root => exact absurd (List.suffix_nil.mp hf) (List.cons_ne_nil f below)
  | @child g stack done node t t' us us' hbelow passed children ih =>
    rcases List.suffix_cons_iff.mp hf with heq | hf
    · cases heq
      exact ⟨done, node, t, us', t', children, passed,
        ((List.suffix_cons ..).trans (List.suffix_append ..)).isInfix⟩
    · obtain ⟨done', child, u, ws, u', hchildren, hpassed, hws⟩ := ih hf
      exact ⟨done', child, u, ws, u', hchildren, hpassed, hws.trans (List.prefix_append ..).isInfix⟩

/-- Every group on the stack has been visited. -/
theorem Descends.visited (hd : Descends h root start stack node s vs) (hbelow : below <:+ stack)
    (hne : below ≠ stack) : ∃ v ∈ vs, v.position = position below := by
  induction hd with
  | root => exact absurd (List.suffix_nil.mp hbelow) hne
  | @child g stack done node t t' us us' _ passed children ih =>
    rcases List.suffix_cons_iff.mp hbelow with heq | hbelow
    · exact absurd heq hne
    · by_cases hstack : below = stack
      · subst hstack
        exact ⟨_, List.mem_append_right _ List.mem_cons_self, rfl⟩
      · obtain ⟨v, hv, hposition⟩ := ih hbelow hstack
        exact ⟨v, List.mem_append_left _ hv, hposition⟩

/-- A node comes before what stands below it. -/
theorem position_lt_below (p : Position) (i : Nat) (q : Position) : p < p ++ i :: q := by
  have hbelow : p ++ [] < p ++ i :: q := List.append_left_lt (List.nil_lt_cons i q)
  rwa [List.append_nil] at hbelow

/-- The visits so far come before the node in preorder. -/
theorem Descends.position_lt (hd : Descends h root start stack node s vs) :
    ∀ v ∈ vs, v.position < position stack := by
  induction hd with
  | root => exact nofun
  | @child g stack done node t t' us us' _ passed children ih =>
    intro v hv
    have hself := position_lt_below (position stack) g.latest []
    rw [position]
    rcases List.mem_append.mp hv with hv | hv
    · exact List.lt_trans (ih v hv) hself
    · rcases List.mem_cons.mp hv with rfl | hv
      · exact hself
      · obtain ⟨i, q, hi, hposition⟩ := passed.placed v hv
        rw [hposition, latest_of_children children]
        exact Host.position_lt_of_index_lt hi

/-- The node beneath a stack stands below the child that was started last of each group on it. -/
theorem position_of_suffix (hf : f :: below <:+ stack) :
    ∃ q, position stack = position below ++ f.latest :: q := by
  induction stack with
  | nil => exact absurd (List.suffix_nil.mp hf) (List.cons_ne_nil f below)
  | cons g rest ih =>
    rcases List.suffix_cons_iff.mp hf with heq | hf
    · cases heq
      exact ⟨[], rfl⟩
    · obtain ⟨q, hq⟩ := ih hf
      exact ⟨q ++ [g.latest], by rw [position, hq, List.append_assoc, List.cons_append]⟩

/-- What is known of the groups on the stack when the node beneath it has been visited as well. -/
theorem Descends.sound {us : List (Visit α σ)} (hd : Descends h root start stack node s vs)
    (hself : ∃ v ∈ us, v.position = position stack)
    (hplaced : ∀ v ∈ us, ∃ q, v.position = position stack ++ q) (hf : f :: below <:+ stack) :
    f.Sound h (vs ++ us) (position below) := by
  obtain ⟨done, child, t, ws, t', hchildren, hpassed, hws⟩ := hd.passed hf
  have hstarted := Frame.started_of_children hchildren
  have hlatest := latest_of_children hchildren
  have hcompleted {i : Nat} {c : Condition α} (hi : done[i]? = some c) :
      h.Completed (vs ++ us) (position below ++ [i]) c (!f.connective.deciding) :=
    (hpassed.completed hi).mono (hws.trans (List.prefix_append ..).isInfix)
  refine ⟨?_, fun {i} hi ↦ ⟨fun hlt ↦ ?_, ?_⟩, fun {i c} hi hc ↦ hcompleted ?_⟩
  · rw [hstarted, hchildren, List.drop_append, List.drop_of_length_le (by omega)]
    simp
  · rw [hstarted] at hlt
    rcases Nat.lt_succ_iff_lt_or_eq.mp hlt with hlt | rfl
    · exact (hcompleted (List.getElem?_eq_getElem hlt)).visited
    · -- The child that was started last is the next group on the stack, or the node beneath it.
      rw [← hlatest]
      by_cases htop : f :: below = stack
      · subst htop
        obtain ⟨v, hv, hposition⟩ := hself
        exact ⟨v, List.mem_append_right _ hv, hposition⟩
      · obtain ⟨v, hv, hposition⟩ := hd.visited hf htop
        exact ⟨v, List.mem_append_left _ hv, hposition⟩
  · rintro ⟨v, hv, hposition⟩
    rw [hstarted]
    refine Nat.lt_of_not_le fun hge ↦ ?_
    obtain ⟨q, hq⟩ := position_of_suffix hf
    rcases List.mem_append.mp hv with hv | hv
    · have hbefore := hd.position_lt v hv
      have hafter : position stack < position below ++ [i] := by
        rw [hq, hlatest]
        exact Host.position_lt_of_index_lt (by omega)
      rw [hposition] at hbefore
      exact List.lt_irrefl _ (List.lt_trans hbefore hafter)
    · obtain ⟨q', hq'⟩ := hplaced v hv
      rw [hposition, hq, List.append_assoc, List.cons_append] at hq'
      have hindex := List.head_eq_of_cons_eq (List.append_cancel_left hq')
      omega
  · rw [hchildren, List.getElem?_append_left (by omega)] at hc
    exact hc

/-- What is known of the group on top when it has just been pushed. -/
theorem Descends.sound_top (hd : Descends h root start stack f.group s vs)
    (hunstarted : f.pending = f.children) :
    f.Sound h (vs ++ [⟨position stack, f.group, s⟩]) (position stack) := by
  have hstarted : f.started = 0 := by rw [Frame.started, hunstarted, Nat.sub_self]
  refine ⟨?_, fun {i} hi ↦ ⟨fun hlt ↦ ?_, ?_⟩, fun {i c} hi hc ↦ ?_⟩
  · rw [hstarted, hunstarted, List.drop_zero]
  · omega
  · rintro ⟨v, hv, hposition⟩
    rcases List.mem_append.mp hv with hv | hv
    · have hbefore := hd.position_lt v hv
      rw [hposition] at hbefore
      exact absurd (List.lt_trans (position_lt_below ..) hbefore) (List.lt_irrefl _)
    · obtain rfl := List.mem_singleton.mp hv
      simp at hposition
  · omega

/-! ## The invariant -/

/-- What holds at the head of the inner loop, after the given visits. -/
structure Invariant (h : Host α β σ ε) (trace : Bool) (root : Condition α)
    (register : Option Bool) (stack : List (Frame α)) (settled : stack = [] → register.isSome)
    (vs : List (Visit α σ)) (w : World σ) : Prop where
  path : IsPath root stack
  frames {f : Frame α} {below : List (Frame α)} (hf : f :: below <:+ stack) :
    f.Sound h vs (position below)
  /-- The register is empty if and only if the last visit was that of the group on top. -/
  entered : register = none ↔
    ∃ f below, stack = f :: below ∧ vs.getLast? = some ⟨position below, f.group, w.state⟩
  /-- What the register holds is the result of the node that was started last beneath the stack, and
  which has been completed just now. -/
  completed {b : Bool} (hb : register = some b) :
    ∃ node s us, latest? root stack = some node ∧ us <:+ vs ∧
      h.Traversal (position stack) node s us (.ok b) w.state
  height : stack.length ≤ root.height
  /-- When the stack is empty the loop is left with a truth value. -/
  left (hempty : stack = []) :
    ∃ b, register = some b ∧ step h trace (.resuming register stack settled) w = .halted (.ok b) w

/-- A machine that is under way keeps the invariant. -/
theorem Underway.invariant {register : Option Bool} {settled : stack = [] → register.isSome}
    {w : World σ} (hm : Underway h root start vs (.resuming register stack settled) w.state) :
    Invariant h trace root register stack settled vs w := by
  cases hm with
  | @entered f stack _ us _ descends unstarted visits =>
    obtain ⟨hpath, hlatest⟩ := descends.isPath
    have hheight := length_add_height_le hpath hlatest
    have hgroup : f.group.height = 1 + Condition.heights f.children := rfl
    have hlast : vs.getLast? = some ⟨position stack, f.group, w.state⟩ := by
      rw [visits, List.getLast?_concat]
    refine ⟨⟨hlatest, hpath⟩, fun {g below} hg ↦ ?_, ?_, fun {b} hb ↦ ?_, ?_, fun hempty ↦ ?_⟩
    · rw [visits]
      rcases List.suffix_cons_iff.mp hg with heq | hg
      · cases heq
        exact descends.sound_top unstarted
      · refine descends.sound ⟨_, List.mem_singleton_self _, rfl⟩ (fun v hv ↦ ?_) hg
        rw [List.mem_singleton.mp hv]
        exact ⟨[], (List.append_nil _).symm⟩
    · exact ⟨fun _ ↦ ⟨f, stack, rfl, hlast⟩, fun _ ↦ rfl⟩
    · cases hb
    · rw [List.length_cons]
      omega
    · cases hempty
  | @completed node b _ s _ us us' _ descends traversal visits =>
    obtain ⟨hpath, hlatest⟩ := descends.isPath
    have hheight := length_add_height_le hpath hlatest
    refine ⟨hpath, fun {g below} hg ↦ ?_, ⟨fun hnone ↦ ?_, ?_⟩, fun {b'} hb ↦ ?_, by omega, ?_⟩
    · rw [visits]
      refine descends.sound traversal.visits_self (fun v hv ↦ ?_) hg
      obtain ⟨q, hposition, -⟩ := traversal.placed v hv
      exact ⟨q, hposition⟩
    · cases hnone
    · -- The last visit was below the group on top, so it was not that group.
      rintro ⟨f, below, rfl, hlast⟩
      rw [visits, List.getLast?_append] at hlast
      obtain ⟨v, hv, -⟩ := traversal.visits_self
      cases hend : us'.getLast? with
      | none => simp [List.getLast?_eq_none_iff.mp hend] at hv
      | some last =>
        obtain ⟨q, hposition, -⟩ := traversal.placed last (List.mem_of_getLast? hend)
        rw [hend, Option.some_or, Option.some.injEq] at hlast
        subst hlast
        simp [position] at hposition
    · cases hb
      exact ⟨node, s, us', hlatest, visits ▸ List.suffix_append .., traversal⟩
    · rintro rfl
      exact ⟨b, rfl, rfl⟩

end Machine

/-- Whenever the machine is at the head of its inner loop, it keeps the invariant, whatever the tree
and however its atoms answer. -/
theorem resuming_invariant (h : Host α β σ ε) (trace : Bool) (c : Condition α) (w : World σ)
    {n : Nat} {register : Option Bool} {stack : List (Frame α)}
    {settled : stack = [] → register.isSome} {v : World σ}
    (hreached : Machine.advance h trace n (.visiting c []) w =
      .running (.resuming register stack settled) v) :
    Machine.Invariant h trace c register stack settled
      (Machine.trail h trace n (.visiting c []) w) v :=
  (Machine.underway_of_advance hreached).invariant

namespace Session

/-- The stack above the second visit of the turning leaf, the disjunction on top. -/
def turningStack : List (Frame Value) :=
  [⟨⟨firstFreshId + 3, .group⟩, .or, [.atom turningLeaf, .atom turningLeaf, .atom .nothing],
      [.atom .nothing]⟩,
    ⟨⟨firstFreshId + 2, .group⟩, .and,
      [.group ⟨firstFreshId + 3, .group⟩ .or
        [.atom turningLeaf, .atom turningLeaf, .atom .nothing], .atom (.text []),
        .atom turningLeaf],
      [.atom (.text []), .atom turningLeaf]⟩]

end Session

/-- After seven steps the turning leaf has been completed twice: first without deciding, and just now
with the result that is in the register. The stack is as high as the tree. -/
theorem resuming_invariant_turningTree :
    ∃ v, Machine.advance (Session.host 0) true 7 (.visiting Session.turningTree []) Session.start =
        .running (.resuming (some true) Session.turningStack nofun) v ∧
      Session.turningStack.length = Session.turningTree.height ∧
      Machine.IsPath Session.turningTree Session.turningStack ∧
      (Session.host 0).Completed
        (Machine.trail (Session.host 0) true 7 (.visiting Session.turningTree []) Session.start)
        [0, 0] (.atom Session.turningLeaf) false ∧
      ∃ node s us, Machine.latest? Session.turningTree Session.turningStack = some node ∧
        us <:+ Machine.trail (Session.host 0) true 7 (.visiting Session.turningTree [])
          Session.start ∧
        (Session.host 0).Traversal [0, 1] node s us (.ok true) v.state := by
  have hreached : Machine.advance (Session.host 0) true 7 (.visiting Session.turningTree [])
      Session.start = .running (.resuming (some true) Session.turningStack nofun) _ := rfl
  have hinvariant := resuming_invariant (Session.host 0) true Session.turningTree Session.start
    hreached
  have htop := hinvariant.frames List.suffix_rfl
  exact ⟨_, hreached, rfl, hinvariant.path, htop.passed (i := 0) (by decide) rfl,
    hinvariant.completed rfl⟩

end ShortCircuit
