import Mathlib.Logic.Relation
import ShortCircuit.Proofs.Evaluation.Strategies
import ShortCircuit.Proofs.Evaluation.Upshot

/-!
# Regrouping

A group in a group of the same connective is as good as its children in its place, and a group of
one child is as good as the child. `Condition.Regroups` is one such change anywhere in a tree, and
`evaluate_regrouped` says that any number of them, made or undone, leave the outcome, the state and
the calls of an evaluation as they are, whatever the atoms do.
-/

namespace ShortCircuit

variable {α β σ ε : Type}

namespace Condition

/-- A group is dissolved somewhere in a tree. The groups above it are new objects. -/
inductive Regroups : Condition α → Condition α → Prop where
  /-- A group gives way to its children, if it stands in a group of the same connective. -/
  | splice (before : List (Condition α)) {origin origin' inner : Origin} {k : Connective}
      {children further : List (Condition α)} :
    Regroups (.group origin k (before ++ .group inner k children :: further))
      (.group origin' k (before ++ children ++ further))
  /-- A group of one child gives way to the child. -/
  | unwrap {origin : Origin} {k : Connective} {child : Condition α} :
    Regroups (.group origin k [child]) child
  | within (before : List (Condition α)) {origin origin' : Origin} {k : Connective}
      {child child' : Condition α} {further : List (Condition α)}
      (regroups : Regroups child child') :
    Regroups (.group origin k (before ++ child :: further))
      (.group origin' k (before ++ child' :: further))

variable {h : Host α β σ ε} {c c' : Condition α}

/-- Trees with the same upshot may stand for each other among the children of a group. -/
theorem upshotOfAll_congr {k : Connective} {before further : List (Condition α)}
    (hc : h.upshot c = h.upshot c') :
    h.upshotOfAll k (before ++ c :: further) = h.upshotOfAll k (before ++ c' :: further) := by
  have htail : h.upshotOfAll k (c :: further) = h.upshotOfAll k (c' :: further) := by
    funext s
    rw [Host.upshotOfAll_cons, Host.upshotOfAll_cons, hc]
  funext s
  rw [Host.upshotOfAll_append, Host.upshotOfAll_append, htail]

/-- The children of an inner group may stand in its place. -/
theorem upshotOfAll_splice {k : Connective} {inner : Origin}
    {before children further : List (Condition α)} :
    h.upshotOfAll k (before ++ .group inner k children :: further) =
      h.upshotOfAll k (before ++ children ++ further) := by
  have hinner : h.upshotOfAll k (.group inner k children :: further) =
      h.upshotOfAll k (children ++ further) := by
    funext s
    rw [Host.upshotOfAll_cons, Host.upshot_group, Host.upshotOfAll_append]
  funext s
  rw [Host.upshotOfAll_append, hinner, ← Host.upshotOfAll_append, List.append_assoc]

theorem Regroups.upshot_eq (hc : c.Regroups c') : h.upshot c = h.upshot c' := by
  induction hc with
  | splice => rw [Host.upshot_group, Host.upshot_group, upshotOfAll_splice]
  | unwrap => rw [Host.upshot_group, Host.upshotOfAll_singleton]
  | within _ _ ih => rw [Host.upshot_group, Host.upshot_group, upshotOfAll_congr ih]

/-- Groups may be dissolved and put together again any number of times. -/
theorem upshot_of_eqvGen (hc : Relation.EqvGen Regroups c c') : h.upshot c = h.upshot c' := by
  induction hc with
  | rel _ _ hc => exact hc.upshot_eq
  | refl _ => rfl
  | symm _ _ _ ih => exact ih.symm
  | trans _ _ _ _ _ ih ih' => exact ih.trans ih'

end Condition

/-- Trees that come out of each other by regrouping have the same outcome, leave the same state and
make the same calls, whatever the settings of either evaluation. -/
theorem evaluate_regrouped (h : Host α β σ ε) (settings settings' : Settings) (room room' : Nat)
    (c c' : Condition α) (w : World σ) (hc : Relation.EqvGen Condition.Regroups c c')
    (hroom : ¬ h.Exhausts settings room c w) (hroom' : ¬ h.Exhausts settings' room' c' w) :
    (h.evaluate settings room c w).1 = (h.evaluate settings' room' c' w).1 ∧
      (h.evaluate settings room c w).2.state = (h.evaluate settings' room' c' w).2.state ∧
      (h.recording.evaluate settings room c w.recording).2.state.2 =
        (h.recording.evaluate settings' room' c' w.recording).2.state.2 := by
  obtain ⟨houtcome, hstate, hcalls⟩ := Host.evaluate_upshot hroom
  obtain ⟨houtcome', hstate', hcalls'⟩ := Host.evaluate_upshot hroom'
  have hupshot : h.upshot c = h.upshot c' := Condition.upshot_of_eqvGen hc
  rw [houtcome, hstate, hcalls, houtcome', hstate', hcalls', hupshot]
  exact ⟨rfl, rfl, rfl⟩

namespace Session

open Condition (Regroups)
open Relation (EqvGen)

/-- The turning tree with other children in its disjunction. -/
def turningTreeOf (children : List (Condition Value)) : Condition Value :=
  .group ⟨firstFreshId + 2, .group⟩ .and
    [.group ⟨firstFreshId + 3, .group⟩ .or children, .atom (.text []), .atom turningLeaf]

/-- The turning leaf in a group of its own, behind an empty group. -/
def wrappedLeaf : Condition Value :=
  .group ⟨firstFreshId + 5, .group⟩ .or
    [.group ⟨firstFreshId + 6, .group⟩ .or [],
      .group ⟨firstFreshId + 7, .group⟩ .and [.atom turningLeaf]]

/-- The turning tree with its first two children taken together, and one of its leaves wrapped. -/
def wrappedTree : Condition Value :=
  .group ⟨firstFreshId + 4, .group⟩ .and
    [.group ⟨firstFreshId + 8, .group⟩ .and
      [.group ⟨firstFreshId + 3, .group⟩ .or
        [.atom turningLeaf, wrappedLeaf, .atom .nothing], .atom (.text [])], .atom turningLeaf]

/-- The turning tree with the two leaves of its disjunction taken together. -/
def pairedTree : Condition Value :=
  turningTreeOf
    [.group ⟨firstFreshId + 9, .group⟩ .or [.atom turningLeaf, .atom turningLeaf], .atom .nothing]

/-- All groups that were put into the wrapped tree are dissolved, and two leaves are paired. -/
theorem wrappedTree_regroups : EqvGen Regroups wrappedTree pairedTree := by
  have houter : Regroups wrappedTree
      (turningTreeOf [.atom turningLeaf, wrappedLeaf, .atom .nothing]) := .splice []
  have hwrapped : Regroups (turningTreeOf [.atom turningLeaf, wrappedLeaf, .atom .nothing])
      (turningTreeOf [.atom turningLeaf, .group ⟨firstFreshId + 6, .group⟩ .or [],
        .group ⟨firstFreshId + 7, .group⟩ .and [.atom turningLeaf], .atom .nothing]) :=
    .within [] (.splice [.atom turningLeaf])
  have hempty : Regroups
      (turningTreeOf [.atom turningLeaf, .group ⟨firstFreshId + 6, .group⟩ .or [],
        .group ⟨firstFreshId + 7, .group⟩ .and [.atom turningLeaf], .atom .nothing])
      (turningTreeOf [.atom turningLeaf,
        .group ⟨firstFreshId + 7, .group⟩ .and [.atom turningLeaf], .atom .nothing]) :=
    .within [] (.splice [.atom turningLeaf])
  have hsingle : Regroups
      (turningTreeOf [.atom turningLeaf,
        .group ⟨firstFreshId + 7, .group⟩ .and [.atom turningLeaf], .atom .nothing]) turningTree :=
    .within [] (.within [.atom turningLeaf] .unwrap)
  have hpaired : Regroups pairedTree turningTree := .within [] (.splice [])
  have hdissolved : EqvGen Regroups wrappedTree turningTree :=
    .trans _ _ _ (.rel _ _ houter) (.trans _ _ _ (.rel _ _ hwrapped)
      (.trans _ _ _ (.rel _ _ hempty) (.rel _ _ hsingle)))
  exact .trans _ _ _ hdissolved (.symm _ _ (.rel _ _ hpaired))

theorem wrappedTree_within : ¬ (host 0).Exhausts ⟨.recursive, true⟩ 6 wrappedTree start := by
  intro hexhausted
  have hfailure : ((host 0).telling.walk ⟨.recursive, true⟩ 6 wrappedTree start).1 =
      .error (some (.unrecognizedNode (.text []))) := rfl
  cases hfailure.symm.trans hexhausted

end Session

/-- Both trees call the turning leaf twice and fail at the text, the one by a recursion six levels
deep and the other on the stack. -/
theorem evaluate_regrouped_wrappedTree :
    Relation.EqvGen Condition.Regroups Session.wrappedTree Session.pairedTree ∧
      ¬ (Session.host 0).Exhausts ⟨.recursive, true⟩ 6 Session.wrappedTree Session.start ∧
      ¬ (Session.host 0).Exhausts ⟨.iterative, false⟩ 0 Session.pairedTree Session.start ∧
      ((Session.host 0).evaluate ⟨.recursive, true⟩ 6 Session.wrappedTree Session.start).1 =
        .error (.unrecognizedNode (.text [])) ∧
      ((Session.host 0).evaluate ⟨.iterative, false⟩ 0 Session.pairedTree Session.start).1 =
        .error (.unrecognizedNode (.text [])) ∧
      ((Session.host 0).recording.evaluate ⟨.iterative, false⟩ 0 Session.pairedTree
        Session.start.recording).2.state.2 = [Session.turningLeaf, Session.turningLeaf] := by
  have hregroups := Session.wrappedTree_regroups
  have hroom := Session.wrappedTree_within
  have hroom' := (Session.host 0).not_exhausts_iterative false 0 Session.pairedTree Session.start
  obtain ⟨houtcome, -, hcalls⟩ := evaluate_regrouped (Session.host 0) ⟨.recursive, true⟩
    ⟨.iterative, false⟩ 6 0 Session.wrappedTree Session.pairedTree Session.start hregroups hroom
    hroom'
  exact ⟨hregroups, hroom, hroom', rfl, houtcome.symm.trans rfl, hcalls.symm.trans rfl⟩

end ShortCircuit
