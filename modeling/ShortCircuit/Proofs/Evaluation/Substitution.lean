import ShortCircuit.Proofs.Evaluation.Limit
import ShortCircuit.Proofs.Evaluation.Upshot
import ShortCircuit.Proofs.Session.Retention

/-!
# Trees with holes

`Condition.plug` puts a tree in the holes of a context, a tree with holes at any depth.
`evaluate_plug` says that trees that evaluate alike when they stand alone may be put for each other
in any context, and that a constant leaf may be put for a tree that changes nothing and always has
its value: what is called outside the holes stays the same.

Both follow from one fact about what is put for the atoms of a tree. Two trees are interchangeable
at a position if their traversals there, as far as they fit into the room, end alike and show alike;
and then so are the trees that they are parts of.
-/

namespace ShortCircuit

variable {ι α β σ ε γ : Type}

namespace Condition

mutual

/-- The tree with the trees that `f` gives in place of its atoms. -/
def bind (f : ι → Condition α) : Condition ι → Condition α
  | .atom i => f i
  | .group origin k children => .group origin k (bindAll f children)

/-- The trees, each with what `f` gives in place of its atoms. -/
def bindAll (f : ι → Condition α) : List (Condition ι) → List (Condition α)
  | [] => []
  | c :: rest => bind f c :: bindAll f rest

end

/-- The context with a tree in its holes, which are the atoms that are none. -/
def plug (c : Condition (Option α)) (x : Condition α) : Condition α :=
  c.bind fun a ↦ a.elim x .atom

/-- Whether a position is that of a hole, or lies below one. -/
def inHole (c : Condition (Option α)) : Position → Bool
  | [] =>
    match c with
    | .atom a => a.isNone
    | .group _ _ _ => false
  | i :: p =>
    match c with
    | .atom a => a.isNone
    | .group _ _ children => children[i]?.any fun child ↦ child.inHole p

/-- What stands below a child is found by its index. -/
theorem at?_of_child {origin : Origin} {k : Connective} {children : List (Condition α)} {i : Nat}
    {child c : Condition α} {p : Position} (hchild : children[i]? = some child)
    (hc : child.at? p = some c) : (group origin k children).at? (i :: p) = some c := by
  rw [at?, hchild, Option.bind_some, hc]

/-- All positions below a hole are in it. -/
theorem inHole_of_at? {c : Condition (Option α)} {p : Position} (hp : c.at? p = some (.atom none))
    (q : Position) : c.inHole (p ++ q) = true := by
  induction p generalizing c with
  | nil =>
    obtain rfl : c = .atom none := Option.some.inj hp
    cases q <;> rfl
  | cons i p ih =>
    cases c with
    | atom a => cases hp
    | group origin k children =>
      obtain ⟨child, hchild, hhole⟩ : ∃ child, children[i]? = some child ∧
          child.at? p = some (.atom none) := Option.bind_eq_some_iff.mp hp
      rw [List.cons_append, inHole, hchild]
      exact ih hhole

end Condition

/-- The visit as it is made in a tree that stands at a position. -/
def Visit.under (p : Position) (v : Visit α σ) : Visit α σ := ⟨p ++ v.position, v.node, v.state⟩

/-- A recursion has room for the visit, or there is no recursion. -/
def Visit.Fits (settings : Settings) (room : Nat) (v : Visit α σ) : Prop :=
  settings.strategy = .recursive → v.position.length < room

namespace Host

/-- No verification leaves the states of a kind. -/
def Keeps (h : Host α β σ ε) (kind : σ → Prop) : Prop :=
  ∀ a s, kind s → kind (h.verification false a s).state

/-- The visit of a group does not show what its children are. -/
def Shallow (shows : Visit α σ → List γ) : Prop :=
  ∀ p origin k children children' s,
    shows ⟨p, .group origin k children, s⟩ = shows ⟨p, .group origin k children', s⟩

variable {h : Host α β σ ε} {kind : σ → Prop}

/-! ## Traversals from other positions -/

mutual

/-- A traversal does not depend on where its tree stands. -/
theorem Traversal.under (p : Position) {q : Position} {c : Condition α} {s s' : σ}
    {vs : List (Visit α σ)} {r : Except ε Bool} : h.Traversal q c s vs r s' →
    h.Traversal (p ++ q) c s (vs.map (Visit.under p)) r s'
  | .atom outcome state => .atom outcome state
  | .group scan => .group (scan.under p)
  termination_by structural ht => ht

theorem Scan.under (p : Position) {q : Position} {k : Connective} {i : Nat}
    {children : List (Condition α)} {s s' : σ} {vs : List (Visit α σ)} {r : Except ε Bool} :
    h.Scan q k i children s vs r s' →
    h.Scan (p ++ q) k i children s (vs.map (Visit.under p)) r s'
  | .exhausted => .exhausted
  | .decided first => .decided (List.append_assoc p q [i] ▸ first.under p)
  | .failed first => .failed (List.append_assoc p q [i] ▸ first.under p)
  | .passed first further => by
    rw [List.map_append]
    exact .passed (List.append_assoc p q [i] ▸ first.under p) (further.under p)
  termination_by structural hs => hs

end

/-- The traversal of a part of a tree is that of the part alone. -/
theorem Traversal.alone {p : Position} {c : Condition α} {s s' : σ} {vs : List (Visit α σ)}
    {r : Except ε Bool} (ht : h.Traversal p c s vs r s') :
    ∃ us, h.Traversal [] c s us r s' ∧ vs = us.map (Visit.under p) := by
  obtain ⟨us, q, t, halone⟩ := h.exists_traversal [] s c
  have hunder : h.Traversal p c s (us.map (Visit.under p)) q t := by
    simpa using halone.under p
  obtain ⟨hvisits, rfl, rfl⟩ := ht.unique hunder
  exact ⟨us, halone, hvisits⟩

/-- A scan begins with its first child, and goes on behind it if that child is passed. -/
theorem Scan.of_cons {p : Position} {k : Connective} {i : Nat} {child : Condition α}
    {rest : List (Condition α)} {s s' : σ} {vs : List (Visit α σ)} {r : Except ε Bool}
    (hs : h.Scan p k i (child :: rest) s vs r s') :
    ∃ us q t, h.Traversal (p ++ [i]) child s us q t ∧ us ⊆ vs ∧
      (q ≠ .ok (!k.deciding) ∧ vs = us ∧ r = q ∧ s' = t ∨
        q = .ok (!k.deciding) ∧ ∃ us', vs = us ++ us' ∧ h.Scan p k (i + 1) rest t us' r s') := by
  cases hs with
  | decided first => exact ⟨_, _, _, first, fun _ ↦ id, .inl ⟨by simp, rfl, rfl, rfl⟩⟩
  | failed first => exact ⟨_, _, _, first, fun _ ↦ id, .inl ⟨by simp, rfl, rfl, rfl⟩⟩
  | passed first further =>
    exact ⟨_, _, _, first, List.subset_append_left _ _, .inr ⟨rfl, _, rfl, further⟩⟩

mutual

/-- What every verification keeps, a traversal keeps. -/
theorem Traversal.kept (hkind : h.Keeps kind)
    {p : Position} {c : Condition α} {s s' : σ} {vs : List (Visit α σ)} {r : Except ε Bool} :
    h.Traversal p c s vs r s' → kind s → kind s'
  | .atom _ state, hs => state ▸ hkind _ _ hs
  | .group scan, hs => scan.kept hkind hs
  termination_by structural ht => ht

theorem Scan.kept (hkind : h.Keeps kind) {p : Position} {k : Connective} {i : Nat}
    {children : List (Condition α)} {s s' : σ} {vs : List (Visit α σ)} {r : Except ε Bool} :
    h.Scan p k i children s vs r s' → kind s → kind s'
  | .exhausted, hs => hs
  | .decided first, hs => first.kept hkind hs
  | .failed first, hs => first.kept hkind hs
  | .passed first further, hs => further.kept hkind (first.kept hkind hs)
  termination_by structural hs => hs

end

/-! ## Interchangeable trees -/

/-- From states of a kind, runs end alike and show alike if all their visits fit. -/
def RunAlike (kind : σ → Prop) (fits : Visit α σ → Prop) (shows : Visit α σ → List γ)
    (run run' : σ → List (Visit α σ) → Except ε Bool → σ → Prop) : Prop :=
  ∀ ⦃s vs r t vs' r' t'⦄, kind s → run s vs r t → run' s vs' r' t' →
    (∀ v ∈ vs, fits v) → (∀ v ∈ vs', fits v) →
    r = r' ∧ t = t' ∧ vs.flatMap shows = vs'.flatMap shows

/-- The traversals of the two trees at a position run alike. -/
def Interchangeable (h : Host α β σ ε) (kind : σ → Prop) (fits : Visit α σ → Prop)
    (shows : Visit α σ → List γ) (p : Position) (c c' : Condition α) : Prop :=
  RunAlike kind fits shows (h.Traversal p c) (h.Traversal p c')

variable {fits : Visit α σ → Prop} {shows : Visit α σ → List γ}

/-- Every tree is interchangeable with itself. -/
theorem Interchangeable.refl (p : Position) (c : Condition α) :
    h.Interchangeable kind fits shows p c c := by
  intro s vs r t vs' r' t' _ ht ht' _ _
  obtain ⟨rfl, rfl, rfl⟩ := ht.unique ht'
  exact ⟨rfl, rfl, rfl⟩

variable {f f' : ι → Condition α}

mutual

/-- Interchangeable trees may be put for the atoms of a tree if a visit of a group does not show
what its children are. -/
theorem interchangeable_bind (hkind : h.Keeps kind) (hshows : Shallow shows) :
    (c : Condition ι) → ∀ p,
      (∀ q i, c.at? q = some (.atom i) →
        h.Interchangeable kind fits shows (p ++ q) (f i) (f' i)) →
      h.Interchangeable kind fits shows p (c.bind f) (c.bind f')
  | .atom i, p, hatoms => by simpa [Condition.bind] using hatoms [] i rfl
  | .group origin k children, p, hatoms => by
    intro s vs r t vs' r' t' hs ht ht' hfits hfits'
    rw [Condition.bind] at ht ht'
    cases ht with | group scan =>
    cases ht' with | group scan' =>
    have hchildren := interchangeable_bindAll hkind hshows children p k 0
      fun j child hchild q i hq ↦ by
        simpa using hatoms (j :: q) i (Condition.at?_of_child hchild hq)
    obtain ⟨hr, ht, hshow⟩ := hchildren hs scan scan'
      (fun v hv ↦ hfits v (List.mem_cons_of_mem _ hv))
      (fun v hv ↦ hfits' v (List.mem_cons_of_mem _ hv))
    refine ⟨hr, ht, ?_⟩
    rw [List.flatMap_cons, List.flatMap_cons, hshow, hshows]
  termination_by structural c => c

theorem interchangeable_bindAll (hkind : h.Keeps kind) (hshows : Shallow shows) :
    (children : List (Condition ι)) → ∀ p k index,
      (∀ (j : Nat) child, children[j]? = some child → ∀ q i, child.at? q = some (.atom i) →
        h.Interchangeable kind fits shows (p ++ (index + j) :: q) (f i) (f' i)) →
      RunAlike kind fits shows (h.Scan p k index (Condition.bindAll f children))
        (h.Scan p k index (Condition.bindAll f' children))
  | [], p, k, index, _ => by
    intro s vs r t vs' r' t' _ hscan hscan' _ _
    obtain ⟨rfl, rfl, rfl⟩ := hscan.unique hscan'
    exact ⟨rfl, rfl, rfl⟩
  | child :: rest, p, k, index, hatoms => by
    intro s vs r t vs' r' t' hs hscan hscan' hfits hfits'
    have hchild := interchangeable_bind hkind hshows child (p ++ [index]) fun q i hq ↦ by
      simpa using hatoms 0 child rfl q i hq
    have hrest := interchangeable_bindAll hkind hshows rest p k (index + 1)
      fun j child' hchild' q i hq ↦ by
        simpa [Nat.add_assoc, Nat.add_comm 1] using hatoms (j + 1) child' hchild' q i hq
    rw [Condition.bindAll] at hscan hscan'
    obtain ⟨us, x, y, first, hus, hscan⟩ := hscan.of_cons
    obtain ⟨us', x', y', first', hus', hscan'⟩ := hscan'.of_cons
    obtain ⟨rfl, rfl, hshow⟩ := hchild hs first first' (fun v hv ↦ hfits v (hus hv))
      fun v hv ↦ hfits' v (hus' hv)
    -- The two scans stop at this child together, or pass it together.
    obtain ⟨hx, rfl, rfl, rfl⟩ | ⟨hx, us₁, rfl, further⟩ := hscan
    · obtain ⟨-, rfl, rfl, rfl⟩ | ⟨hx', -⟩ := hscan'
      · exact ⟨rfl, rfl, hshow⟩
      · exact absurd hx' hx
    · obtain ⟨hx', -⟩ | ⟨-, us₁', rfl, further'⟩ := hscan'
      · exact absurd hx hx'
      · obtain ⟨hr, ht, hshow'⟩ := hrest (first.kept hkind hs) further further'
          (fun v hv ↦ hfits v (List.mem_append_right _ hv))
          (fun v hv ↦ hfits' v (List.mem_append_right _ hv))
        refine ⟨hr, ht, ?_⟩
        rw [List.flatMap_append, List.flatMap_append, hshow, hshow']
  termination_by structural children => children

end

/-- Trees that are interchangeable at the holes of a context may be put in them. -/
theorem interchangeable_plug (hkind : h.Keeps kind) (hshows : Shallow shows)
    {c : Condition (Option α)} {x x' : Condition α}
    (hholes : ∀ p, c.at? p = some (.atom none) →
      h.Interchangeable kind fits shows p x x') :
    h.Interchangeable kind fits shows [] (c.plug x) (c.plug x') := by
  refine interchangeable_bind hkind hshows c [] fun p a hp ↦ ?_
  rw [List.nil_append]
  cases a with
  | none => exact hholes p hp
  | some a => exact .refl p _

/-! ## Evaluations -/

/-- Two trees are evaluated alike: with the same outcome, the same state and the same calls. -/
structure Alike (h : Host α β σ ε) (settings : Settings) (room : Nat) (c c' : Condition α)
    (w : World σ) : Prop where
  outcome : (h.evaluate settings room c w).1 = (h.evaluate settings room c' w).1
  state : (h.evaluate settings room c w).2.state = (h.evaluate settings room c' w).2.state
  calls : (h.recording.evaluate settings room c w.recording).2.state.2 =
    (h.recording.evaluate settings room c' w.recording).2.state.2

variable {settings : Settings} {room : Nat} {c : Condition α} {w : World σ}

/-- An evaluation has room if all visits of the traversal fit. -/
theorem not_exhausts_iff {s' : σ} {vs : List (Visit α σ)} {r : Except ε Bool}
    (ht : h.Traversal [] c w.state vs r s') :
    ¬ h.Exhausts settings room c w ↔ ∀ v ∈ vs, v.Fits settings room := by
  rw [exhausts_iff ht]
  constructor
  · intro hroom v hv hrecursive
    exact Nat.lt_of_not_le fun hdeep ↦ hroom ⟨hrecursive, v, hv, hdeep⟩
  · rintro hfits ⟨hrecursive, v, hv, hdeep⟩
    exact absurd (hfits v hv hrecursive) (Nat.not_lt_of_le hdeep)

/-- What fits in a part of a tree fits in the part alone, which takes less room. -/
theorem fits_alone {p : Position} {us : List (Visit α σ)}
    (hfits : ∀ v ∈ us.map (Visit.under p), v.Fits settings room) :
    ∀ u ∈ us, u.Fits settings room := by
  intro u hu hrecursive
  have hdeep : (p ++ u.position).length < room :=
    hfits _ (List.mem_map_of_mem hu) hrecursive
  rw [List.length_append] at hdeep
  omega

/-- What is recorded within the room is what the visits call. -/
theorem recorded_eq_calls (hroom : ¬ h.Exhausts settings room c w) :
    (h.recording.evaluate settings room c w.recording).2.state.2 =
      h.calls (h.visits settings room c w) := by
  obtain ⟨vs, r, s', ht⟩ := h.exists_traversal [] w.state c
  rw [evaluate_recording ht hroom, (walk_eq ht hroom).2]
  rfl

/-- Trees are interchangeable at a position if their evaluations alone end alike, and show alike
there. -/
theorem interchangeable_of_alone {p : Position} {x x' : Condition α}
    (halone : ∀ w, kind w.state → ¬ h.Exhausts settings room x w →
      ¬ h.Exhausts settings room x' w →
      (h.evaluate settings room x w).1 = (h.evaluate settings room x' w).1 ∧
        (h.evaluate settings room x w).2.state = (h.evaluate settings room x' w).2.state ∧
        ((h.visits settings room x w).map (Visit.under p)).flatMap shows =
          ((h.visits settings room x' w).map (Visit.under p)).flatMap shows) :
    h.Interchangeable kind (Visit.Fits settings room) shows p x x' := by
  intro s vs r t vs' r' t' hs ht ht' hfits hfits'
  obtain ⟨us, hus, rfl⟩ := ht.alone
  obtain ⟨us', hus', rfl⟩ := ht'.alone
  let w : World σ := ⟨s, #[]⟩
  have hroom : ¬ h.Exhausts settings room x w := (not_exhausts_iff hus).mpr (fits_alone hfits)
  have hroom' : ¬ h.Exhausts settings room x' w := (not_exhausts_iff hus').mpr (fits_alone hfits')
  have hends := halone w hs hroom hroom'
  rw [evaluate_eq hus hroom, evaluate_eq hus' hroom', (walk_eq hus hroom).2,
    (walk_eq hus' hroom').2] at hends
  exact hends

/-- Trees that are interchangeable at the root are evaluated alike, and their visits show alike. -/
theorem Interchangeable.evaluate {c' : Condition α}
    (hc : h.Interchangeable kind (Visit.Fits settings room) shows [] c c') (hw : kind w.state)
    (hroom : ¬ h.Exhausts settings room c w) (hroom' : ¬ h.Exhausts settings room c' w) :
    (h.evaluate settings room c w).1 = (h.evaluate settings room c' w).1 ∧
      (h.evaluate settings room c w).2.state = (h.evaluate settings room c' w).2.state ∧
      (h.visits settings room c w).flatMap shows = (h.visits settings room c' w).flatMap shows := by
  obtain ⟨vs, r, t, ht⟩ := h.exists_traversal [] w.state c
  obtain ⟨vs', r', t', ht'⟩ := h.exists_traversal [] w.state c'
  have hends := hc hw ht ht' ((not_exhausts_iff ht).mp hroom) ((not_exhausts_iff ht').mp hroom')
  rw [evaluate_eq ht hroom, evaluate_eq ht' hroom', (walk_eq ht hroom).2, (walk_eq ht' hroom').2]
  exact hends

/-- Trees that are evaluated alike alone are interchangeable wherever they stand. -/
theorem Alike.interchangeable {x x' : Condition α}
    (halike : ∀ w, kind w.state → ¬ h.Exhausts settings room x w →
      ¬ h.Exhausts settings room x' w → h.Alike settings room x x' w) (p : Position) :
    h.Interchangeable kind (Visit.Fits settings room) h.callsOf p x x' := by
  have hmoved (vs : List (Visit α σ)) : (vs.map (Visit.under p)).flatMap h.callsOf = h.calls vs :=
    List.flatMap_map ..
  apply interchangeable_of_alone
  intro w hw hroom hroom'
  obtain ⟨houtcome, hstate, hcalls⟩ := halike w hw hroom hroom'
  rw [recorded_eq_calls hroom, recorded_eq_calls hroom'] at hcalls
  rw [hmoved, hmoved]
  exact ⟨houtcome, hstate, hcalls⟩

/-- The tree, when evaluated alone, has a value and leaves the state as it was. -/
def Yields (h : Host α β σ ε) (kind : σ → Prop) (settings : Settings) (room : Nat)
    (c : Condition α) (b : Bool) : Prop :=
  ∀ w, kind w.state → ¬ h.Exhausts settings room c w →
    (h.evaluate settings room c w).1 = .ok b ∧ (h.evaluate settings room c w).2.state = w.state

/-- Trees that yield the same value are interchangeable where it does not matter what they call. -/
theorem Yields.interchangeable {x x' : Condition α} {b : Bool}
    (hx : h.Yields kind settings room x b) (hx' : h.Yields kind settings room x' b) {p : Position}
    (hsilent : ∀ v : Visit α σ, shows (v.under p) = []) :
    h.Interchangeable kind (Visit.Fits settings room) shows p x x' := by
  have hnothing (vs : List (Visit α σ)) : (vs.map (Visit.under p)).flatMap shows = [] := by
    simp [List.flatMap_eq_nil_iff, hsilent]
  apply interchangeable_of_alone
  intro w hw hroom hroom'
  obtain ⟨houtcome, hstate⟩ := hx w hw hroom
  obtain ⟨houtcome', hstate'⟩ := hx' w hw hroom'
  rw [hnothing, hnothing]
  exact ⟨houtcome.trans houtcome'.symm, hstate.trans hstate'.symm, rfl⟩

/-- A leaf that answers with a value and changes nothing yields that value. -/
theorem yields_leaf {leaf : α} {b : Bool}
    (hleaf : ∀ s, kind s → (h.verification false leaf s).outcome = .ok b ∧
      (h.verification false leaf s).state = s) : h.Yields kind settings room (.atom leaf) b := by
  intro w hw hroom
  obtain ⟨houtcome, hstate⟩ := hleaf w.state hw
  rw [evaluate_eq (.atom houtcome hstate) hroom]
  exact ⟨rfl, rfl⟩

/-- The calls that an evaluation makes outside the holes of a context. -/
def callsOutside (h : Host α β σ ε) (settings : Settings) (room : Nat) (c : Condition (Option α))
    (x : Condition α) (w : World σ) : List α :=
  h.calls ((h.visits settings room (c.plug x) w).filter fun v ↦ !c.inHole v.position)

/-- The calls that a visit shows outside the holes of a context. -/
def showsOutside (h : Host α β σ ε) (c : Condition (Option α)) (v : Visit α σ) : List α :=
  if c.inHole v.position then [] else h.callsOf v

theorem flatMap_showsOutside (c : Condition (Option α)) (vs : List (Visit α σ)) :
    vs.flatMap (h.showsOutside c) = h.calls (vs.filter fun v ↦ !c.inHole v.position) := by
  induction vs with
  | nil => rfl
  | cons v vs ih =>
    rw [List.flatMap_cons, ih, showsOutside]
    cases hv : c.inHole v.position <;> simp [hv]

end Host

/-- Trees that are evaluated alike alone, as far as there is room, are evaluated alike in every
context. A tree that always has a value and leaves the state as it was may be replaced by a leaf
that does so too, with the same outcome, the same state and the same calls outside. -/
theorem evaluate_plug (h : Host α β σ ε) (kind : σ → Prop) (hkind : h.Keeps kind)
    (settings : Settings) (room : Nat) (c : Condition (Option α)) :
    (∀ x x', (∀ w, kind w.state → ¬ h.Exhausts settings room x w →
        ¬ h.Exhausts settings room x' w → h.Alike settings room x x' w) →
      ∀ w, kind w.state → ¬ h.Exhausts settings room (c.plug x) w →
        ¬ h.Exhausts settings room (c.plug x') w →
        h.Alike settings room (c.plug x) (c.plug x') w) ∧
    (∀ x b leaf, (∀ s, kind s → (h.verification false leaf s).outcome = .ok b ∧
        (h.verification false leaf s).state = s) → h.Yields kind settings room x b →
      ∀ w, kind w.state → ¬ h.Exhausts settings room (c.plug x) w →
        ¬ h.Exhausts settings room (c.plug (.atom leaf)) w →
        (h.evaluate settings room (c.plug x) w).1 =
            (h.evaluate settings room (c.plug (.atom leaf)) w).1 ∧
          (h.evaluate settings room (c.plug x) w).2.state =
            (h.evaluate settings room (c.plug (.atom leaf)) w).2.state ∧
          h.callsOutside settings room c x w = h.callsOutside settings room c (.atom leaf) w) := by
  constructor
  · intro x x' halike w hw hroom hroom'
    have hplug : h.Interchangeable kind (Visit.Fits settings room) h.callsOf [] (c.plug x)
        (c.plug x') :=
      Host.interchangeable_plug hkind (fun _ _ _ _ _ _ ↦ rfl) fun p _ ↦
        Host.Alike.interchangeable halike p
    obtain ⟨houtcome, hstate, hcalls⟩ := hplug.evaluate hw hroom hroom'
    refine ⟨houtcome, hstate, ?_⟩
    rw [Host.recorded_eq_calls hroom, Host.recorded_eq_calls hroom']
    exact hcalls
  · intro x b leaf hleaf hx w hw hroom hroom'
    have hplug : h.Interchangeable kind (Visit.Fits settings room) (h.showsOutside c) []
        (c.plug x) (c.plug (.atom leaf)) :=
      Host.interchangeable_plug hkind (fun _ _ _ _ _ _ ↦ rfl) fun p hp ↦
        hx.interchangeable (Host.yields_leaf hleaf) fun v ↦
          if_pos (Condition.inHole_of_at? hp v.position)
    obtain ⟨houtcome, hstate, hcalls⟩ := hplug.evaluate hw hroom hroom'
    rw [Host.flatMap_showsOutside, Host.flatMap_showsOutside] at hcalls
    exact ⟨houtcome, hstate, hcalls⟩

namespace Session

/-- A context with a hole behind a leaf in a disjunction, and another one behind that. -/
def holedTree : Condition (Option Value) :=
  .group ⟨firstFreshId + 2, .group⟩ .and
    [.group ⟨firstFreshId + 3, .group⟩ .or [.atom (some turningLeaf), .atom none], .atom none,
      .atom (some turningLeaf)]

/-- The turning leaf in a group of its own. -/
def boxedLeaf : Condition Value := .group ⟨firstFreshId + 5, .group⟩ .or [.atom turningLeaf]

/-- A disjunction of the two constants. -/
def excludedMiddle : Condition Value :=
  .group ⟨firstFreshId + 6, .group⟩ .or
    [.atom (constantCondition false), .atom (constantCondition true)]

/-- No verification sets an attribute of an object. -/
theorem settingsOnObjects_kept (a : Value) (s : Store) (hs : s.settingsOnObjects = []) :
    ((host 0).verification false a s).state.settingsOnObjects = [] := by
  rw [(retains_host 0 false a s).settingsOnObjects, hs]

/-- A constant leaf has its value as long as no attribute has been set. -/
theorem constantCondition_verification (b : Bool) (s : Store) (hs : s.settingsOnObjects = []) :
    ((host 0).verification false (constantCondition b) s).outcome = .ok b ∧
      ((host 0).verification false (constantCondition b) s).state = s := by
  obtain ⟨nextId, nodes, settings, evaluators, lists, iterators, counters, settingsOnObjects,
    unpacked, calls⟩ := s
  obtain rfl : settingsOnObjects = [] := hs
  exact ⟨rfl, rfl⟩

/-- The leaf comes to the same in a group of its own, in whatever world. -/
theorem boxedLeaf_alike (settings : Settings) (room : Nat) (w : World Store)
    (hroom : ¬ (host 0).Exhausts settings room (.atom turningLeaf) w)
    (hroom' : ¬ (host 0).Exhausts settings room boxedLeaf w) :
    (host 0).Alike settings room (.atom turningLeaf) boxedLeaf w := by
  have hupshot : (host 0).upshot boxedLeaf = (host 0).upshot (.atom turningLeaf) := by
    rw [boxedLeaf, Host.upshot_group, Host.upshotOfAll_singleton]
  obtain ⟨houtcome, hstate, hcalls⟩ := Host.evaluate_upshot hroom
  obtain ⟨houtcome', hstate', hcalls'⟩ := Host.evaluate_upshot hroom'
  rw [hupshot] at houtcome' hstate' hcalls'
  exact ⟨houtcome.trans houtcome'.symm, hstate.trans hstate'.symm, hcalls.trans hcalls'.symm⟩

/-- One of the two constants is true, and asking them changes nothing. -/
theorem excludedMiddle_yields (settings : Settings) (room : Nat) :
    (host 0).Yields (fun s ↦ s.settingsOnObjects = []) settings room excludedMiddle true := by
  intro w hw hroom
  obtain ⟨⟨nextId, nodes, objects, evaluators, lists, iterators, counters, settingsOnObjects,
    unpacked, calls⟩, log⟩ := w
  obtain rfl : settingsOnObjects = [] := hw
  obtain ⟨houtcome, hstate, -⟩ := Host.evaluate_upshot hroom
  exact ⟨houtcome.trans rfl, hstate.trans rfl⟩

end Session

/-- In both holes, one below a disjunction and one beside it, the turning leaf may stand in a group
of its own, and a constant may stand for the two. -/
theorem evaluate_plug_holedTree :
    (Session.host 0).Alike ⟨.recursive, true⟩ 4 (Session.holedTree.plug (.atom Session.turningLeaf))
        (Session.holedTree.plug Session.boxedLeaf) Session.start ∧
      ((Session.host 0).recording.evaluate ⟨.recursive, true⟩ 4
        (Session.holedTree.plug Session.boxedLeaf) Session.start.recording).2.state.2 =
        [Session.turningLeaf, Session.turningLeaf, Session.turningLeaf, Session.turningLeaf] ∧
      (Session.host 0).Yields (fun s ↦ s.settingsOnObjects = []) ⟨.recursive, true⟩ 4
        Session.excludedMiddle true ∧
      ((Session.host 0).evaluate ⟨.recursive, true⟩ 4
        (Session.holedTree.plug Session.excludedMiddle) Session.start).1 = .ok true ∧
      (Session.host 0).callsOutside ⟨.recursive, true⟩ 4 Session.holedTree Session.excludedMiddle
        Session.start = [Session.turningLeaf, Session.turningLeaf] := by
  have hroom {x : Condition Value} (hdepth : (Session.holedTree.plug x).depth ≤ 4) :
      ¬ (Session.host 0).Exhausts ⟨.recursive, true⟩ 4 (Session.holedTree.plug x) Session.start :=
    Host.not_exhausts_of_depth_le _ hdepth
  obtain ⟨hinterchange, hreplace⟩ :=
    evaluate_plug (Session.host 0) (fun s ↦ s.settingsOnObjects = [])
      Session.settingsOnObjects_kept
      ⟨.recursive, true⟩ 4 Session.holedTree
  have halike := hinterchange (.atom Session.turningLeaf) Session.boxedLeaf
    (fun w _ ↦ Session.boxedLeaf_alike _ _ w) Session.start rfl (hroom (by decide))
    (hroom (by decide))
  have hyields := Session.excludedMiddle_yields ⟨.recursive, true⟩ 4
  obtain ⟨houtcome, -, hcalls⟩ := hreplace Session.excludedMiddle true
    (Session.constantCondition true) (Session.constantCondition_verification true) hyields
    Session.start rfl (hroom (by decide)) (hroom (by decide))
  have hconstant : ((Session.host 0).evaluate ⟨.recursive, true⟩ 4
      (Session.holedTree.plug (.atom (Session.constantCondition true))) Session.start).1 =
        .ok true := rfl
  have houtside : (Session.host 0).callsOutside ⟨.recursive, true⟩ 4 Session.holedTree
      (.atom (Session.constantCondition true)) Session.start =
        [Session.turningLeaf, Session.turningLeaf] := rfl
  exact ⟨halike, halike.calls.symm.trans rfl, hyields, houtcome.trans hconstant,
    hcalls.trans houtside⟩

end ShortCircuit
