import Mathlib.Data.List.Forall2
import ShortCircuit.Proofs.Evaluation.Meaning
import ShortCircuit.Proofs.Evaluation.Substitution

/-!
# Monotonicity

A shape is a tree that leaves open what its atoms are, and `Condition.map` fills it in. Neither
connective negates, so the meaning of a shape is monotone in the truth values of its atoms, however
the connectives alternate. `evaluate_monotone` says that an evaluation that finds a shape of
constant atoms true still does so after some atoms are exchanged for others that are true wherever
the old ones are, though it may come to other nodes then.
-/

namespace ShortCircuit

variable {ι α β σ ε : Type}

/-- A connective never turns false because a value turns true. -/
theorem Connective.combine_mono (k : Connective) {values values' : List Bool}
    (hvalues : List.Forall₂ (fun b b' ↦ b = true → b' = true) values values') :
    k.combine values = true → k.combine values' = true := by
  induction hvalues with
  | nil => exact fun htrue ↦ htrue
  | cons hb _ ih =>
    cases k with
    | or =>
      simp only [combine, List.any_cons, Bool.or_eq_true] at ih ⊢
      exact Or.imp hb ih
    | and =>
      simp only [combine, List.all_cons, Bool.and_eq_true] at ih ⊢
      exact And.imp hb ih

namespace Condition

variable {value value' : α → Bool}

mutual

/-- The meaning of a tree is monotone in the truth values of its atoms. -/
theorem meaning_mono : (c : Condition α) →
    (∀ a ∈ c.atoms, value a = true → value' a = true) →
    c.meaning value = true → c.meaning value' = true
  | .atom a, hatoms => hatoms a (List.mem_singleton_self a)
  | .group _ k children, hatoms => k.combine_mono (meanings_mono children hatoms)
  termination_by structural c => c

theorem meanings_mono : (cs : List (Condition α)) →
    (∀ a ∈ atomsOfAll cs, value a = true → value' a = true) →
    List.Forall₂ (fun b b' ↦ b = true → b' = true) (meanings value cs) (meanings value' cs)
  | [], _ => .nil
  | c :: rest, hatoms =>
    .cons (meaning_mono c fun a ha ↦ hatoms a (List.mem_append_left _ ha))
      (meanings_mono rest fun a ha ↦ hatoms a (List.mem_append_right _ ha))
  termination_by structural cs => cs

end

/-- The tree with other atoms. -/
def map (f : ι → α) (c : Condition ι) : Condition α := c.bind fun i ↦ .atom (f i)

variable {f : ι → Condition α}

mutual

/-- What trees in place of the atoms mean is what the atoms meant. -/
theorem meaning_bind : (c : Condition ι) →
    (c.bind f).meaning value = c.meaning fun i ↦ (f i).meaning value
  | .atom _ => by rw [bind, meaning]
  | .group _ k children => by rw [bind, meaning, meaning, meanings_bindAll children]
  termination_by structural c => c

theorem meanings_bindAll : (cs : List (Condition ι)) →
    meanings value (bindAll f cs) = meanings (fun i ↦ (f i).meaning value) cs
  | [] => by rw [bindAll, meanings, meanings]
  | c :: rest => by rw [bindAll, meanings, meanings, meaning_bind c, meanings_bindAll rest]
  termination_by structural cs => cs

end

mutual

/-- The atoms are those of the trees in place of the atoms. -/
theorem atoms_bind : (c : Condition ι) → (c.bind f).atoms = c.atoms.flatMap fun i ↦ (f i).atoms
  | .atom _ => by rw [bind, atoms, List.flatMap_singleton]
  | .group _ _ children => by rw [bind, atoms, atoms, atomsOfAll_bindAll children]
  termination_by structural c => c

theorem atomsOfAll_bindAll : (cs : List (Condition ι)) →
    atomsOfAll (bindAll f cs) = (atomsOfAll cs).flatMap fun i ↦ (f i).atoms
  | [] => by rw [bindAll, atomsOfAll, atomsOfAll, List.flatMap_nil]
  | c :: rest => by
    rw [bindAll, atomsOfAll, atomsOfAll, List.flatMap_append, atoms_bind c, atomsOfAll_bindAll rest]
  termination_by structural cs => cs

end

@[simp] theorem meaning_map (g : ι → α) (c : Condition ι) :
    (c.map g).meaning value = c.meaning fun i ↦ value (g i) := by
  rw [map, meaning_bind]
  rfl

@[simp] theorem mem_atoms_map {g : ι → α} {c : Condition ι} {a : α} :
    a ∈ (c.map g).atoms ↔ ∃ i ∈ c.atoms, g i = a := by
  simp [map, atoms_bind, atoms, eq_comm]

end Condition

/-- If a shape is true with the first constant atoms, it is true with the second, provided that
these are true wherever the first are. Neither the settings nor the states in which the two are
constant need be the same. -/
theorem evaluate_monotone (h : Host α β σ ε) (settings settings' : Settings) (room room' : Nat)
    (shape : Condition ι) (first second : ι → α) (answer answer' : α → β) (truth : β → Bool)
    (kind kind' : σ → Prop) (w w' : World σ)
    (hfirst : ∀ i ∈ shape.atoms,
      h.Constant kind (first i) (answer (first i)) (truth (answer (first i))))
    (hsecond : ∀ i ∈ shape.atoms,
      h.Constant kind' (second i) (answer' (second i)) (truth (answer' (second i))))
    (hmono : ∀ i ∈ shape.atoms,
      truth (answer (first i)) = true → truth (answer' (second i)) = true)
    (hw : kind w.state) (hw' : kind' w'.state)
    (hroom : ¬ h.Exhausts settings room (shape.map first) w)
    (hroom' : ¬ h.Exhausts settings' room' (shape.map second) w')
    (htrue : (h.evaluate settings room (shape.map first) w).1 = .ok true) :
    (h.evaluate settings' room' (shape.map second) w').1 = .ok true := by
  have hatoms : ∀ a ∈ (shape.map first).atoms, h.Constant kind a (answer a) (truth (answer a)) := by
    intro a ha
    obtain ⟨i, hi, rfl⟩ := Condition.mem_atoms_map.mp ha
    exact hfirst i hi
  have hatoms' : ∀ a ∈ (shape.map second).atoms,
      h.Constant kind' a (answer' a) (truth (answer' a)) := by
    intro a ha
    obtain ⟨i, hi, rfl⟩ := Condition.mem_atoms_map.mp ha
    exact hsecond i hi
  have hmeaning : (shape.meaning fun i ↦ truth (answer (first i))) = true := by
    rw [Host.evaluate_of_constant hatoms hw hroom, Condition.meaning_map] at htrue
    exact Except.ok.inj htrue
  calc
    (h.evaluate settings' room' (shape.map second) w').1 =
        .ok ((shape.map second).meaning fun a ↦ truth (answer' a)) :=
      Host.evaluate_of_constant hatoms' hw' hroom'
    _ = .ok (shape.meaning fun i ↦ truth (answer' (second i))) := by rw [Condition.meaning_map]
    _ = .ok true := congrArg Except.ok (shape.meaning_mono hmono hmeaning)

namespace Session

/-- A shape in which the connectives alternate. A leaf is known by the two values that it is to
have. -/
def alternatingShape : Condition (Bool × Bool) :=
  .group ⟨firstFreshId, .group⟩ .or
    [.group ⟨firstFreshId + 1, .group⟩ .and [.atom (true, true), .atom (false, true)],
      .group ⟨firstFreshId + 2, .group⟩ .and
        [.group ⟨firstFreshId + 3, .group⟩ .or [.atom (false, false), .atom (true, true)],
          .atom (true, true)]]

end Session

/-- With the first values the conjunction in front fails at its second leaf and the other one
decides; with the second values the one in front decides. -/
theorem evaluate_monotone_alternatingShape :
    (∀ i ∈ Session.alternatingShape.atoms,
        Session.truthOf (Session.steadyAnswer (Session.constantCondition i.1)) = true →
          Session.truthOf (Session.steadyAnswer (Session.constantCondition i.2)) = true) ∧
      ((Session.host 0).evaluate ⟨.recursive, true⟩ 4
        (Session.alternatingShape.map fun i ↦ Session.constantCondition i.1) Session.start).1 =
          .ok true ∧
      ((Session.host 0).evaluate ⟨.iterative, false⟩ 0
        (Session.alternatingShape.map fun i ↦ Session.constantCondition i.2) Session.start).1 =
          .ok true := by
  have hmono : ∀ i ∈ Session.alternatingShape.atoms,
      Session.truthOf (Session.steadyAnswer (Session.constantCondition i.1)) = true →
        Session.truthOf (Session.steadyAnswer (Session.constantCondition i.2)) = true := by
    decide
  have hroom : ¬ (Session.host 0).Exhausts ⟨.recursive, true⟩ 4
      (Session.alternatingShape.map fun i ↦ Session.constantCondition i.1) Session.start :=
    Host.not_exhausts_of_depth_le _ (by decide)
  have hatoms : ∀ a ∈ (Session.alternatingShape.map fun i ↦ Session.constantCondition i.1).atoms,
      (Session.host 0).Constant (fun s ↦ s.settingsOnObjects = []) a (Session.steadyAnswer a)
        (Session.truthOf (Session.steadyAnswer a)) := by
    intro a ha
    obtain ⟨i, -, rfl⟩ := Condition.mem_atoms_map.mp ha
    exact Session.constantCondition_constant i.1
  have htrue : ((Session.host 0).evaluate ⟨.recursive, true⟩ 4
      (Session.alternatingShape.map fun i ↦ Session.constantCondition i.1) Session.start).1 =
        .ok true := (Host.evaluate_of_constant hatoms rfl hroom).trans rfl
  refine ⟨hmono, htrue, ?_⟩
  exact evaluate_monotone (Session.host 0) ⟨.recursive, true⟩ ⟨.iterative, false⟩ 4 0
    Session.alternatingShape (fun i ↦ Session.constantCondition i.1)
    (fun i ↦ Session.constantCondition i.2) Session.steadyAnswer Session.steadyAnswer
    Session.truthOf (fun s ↦ s.settingsOnObjects = []) (fun s ↦ s.settingsOnObjects = [])
    Session.start Session.start (fun i _ ↦ Session.constantCondition_constant i.1)
    (fun i _ ↦ Session.constantCondition_constant i.2) hmono rfl rfl hroom
    ((Session.host 0).not_exhausts_iterative false 0 _ _) htrue

end ShortCircuit
