import Mathlib.Logic.Relation
import ShortCircuit.Proofs.Evaluation.Calls
import ShortCircuit.Proofs.Evaluation.Meaning

/-!
# Rearrangement

`Condition.Rearranges` permutes the children of a group somewhere in a tree, or puts in a child once
more. It changes which nodes an evaluation comes to and in which order, so runs cannot be compared
step by step. But a connective only asks which truth values there are among those of the children,
and so the meaning of the tree stays the same; if all atoms are constant, `evaluate_rearranged` says
that the result does too.
-/

namespace ShortCircuit

variable {α β σ ε : Type}

/-- Neither the order of the children nor their multiplicity is of account. -/
theorem Connective.combine_congr (k : Connective) {values values' : List Bool}
    (hvalues : ∀ b, b ∈ values ↔ b ∈ values') : k.combine values = k.combine values' := by
  apply Bool.eq_iff_iff.mpr
  cases k with
  | or => simp only [combine, List.any_eq_true, hvalues]
  | and => simp only [combine, List.all_eq_true, hvalues]

namespace Condition

/-- The children of a group somewhere in a tree are put into another order, or one of them is put in
once more. The groups that change are new objects. -/
inductive Rearranges : Condition α → Condition α → Prop where
  | permute {origin origin' : Origin} {k : Connective} {children children' : List (Condition α)}
      (perm : children.Perm children') :
    Rearranges (.group origin k children) (.group origin' k children')
  /-- The copy may stand anywhere among the children. -/
  | duplicate (before : List (Condition α)) {origin origin' : Origin} {k : Connective}
      {child : Condition α} {further : List (Condition α)} (original : child ∈ before ++ further) :
    Rearranges (.group origin k (before ++ further)) (.group origin' k (before ++ child :: further))
  | within (before : List (Condition α)) {origin origin' : Origin} {k : Connective}
      {child child' : Condition α} {further : List (Condition α)}
      (rearranges : Rearranges child child') :
    Rearranges (.group origin k (before ++ child :: further))
      (.group origin' k (before ++ child' :: further))

variable {c c' : Condition α} {value : α → Bool}

/-- A copy adds nothing to what is among the children. -/
theorem mem_duplicate {before further : List (Condition α)} {child : Condition α}
    (original : child ∈ before ++ further) (c : Condition α) :
    c ∈ before ++ child :: further ↔ c ∈ before ++ further := by
  constructor
  · intro hc
    rcases List.mem_append.mp hc with hbefore | hfurther
    · exact List.mem_append_left _ hbefore
    · rcases List.mem_cons.mp hfurther with rfl | hfurther
      · exact original
      · exact List.mem_append_right _ hfurther
  · intro hc
    rcases List.mem_append.mp hc with hbefore | hfurther
    · exact List.mem_append_left _ hbefore
    · exact List.mem_append_right _ (List.mem_cons_of_mem _ hfurther)

/-- Groups of the same children, as far as it matters which there are, mean the same. -/
theorem meaning_group_congr {origin origin' : Origin} {k : Connective}
    {children children' : List (Condition α)} (hchildren : ∀ c, c ∈ children ↔ c ∈ children') :
    (group origin k children).meaning value = (group origin' k children').meaning value := by
  rw [meaning, meaning, meanings_eq_map, meanings_eq_map]
  apply Connective.combine_congr
  intro b
  simp only [List.mem_map, hchildren]

/-- A rearrangement changes nothing about the meaning. -/
theorem Rearranges.meaning_eq (hc : c.Rearranges c') : c.meaning value = c'.meaning value := by
  induction hc with
  | permute perm => exact meaning_group_congr fun _ ↦ perm.mem_iff
  | duplicate _ original => exact meaning_group_congr fun c ↦ (mem_duplicate original c).symm
  | within before _ ih =>
    simp only [meaning, meanings_eq_map, List.map_append, List.map_cons, ih]

/-- A rearrangement has no other atoms. -/
theorem Rearranges.mem_atoms (hc : c.Rearranges c') (a : α) : a ∈ c.atoms ↔ a ∈ c'.atoms := by
  induction hc with
  | permute perm => simp only [atoms, mem_atomsOfAll, perm.mem_iff]
  | duplicate _ original => simp only [atoms, mem_atomsOfAll, mem_duplicate original]
  | within before _ ih => simp [atoms, mem_atomsOfAll, or_and_right, exists_or, ih]

/-- Any number of rearrangements, made or undone, change neither the meaning nor which atoms there
are. -/
theorem meaning_of_rearranged (hc : Relation.EqvGen Rearranges c c') :
    c.meaning value = c'.meaning value ∧ ∀ a, a ∈ c.atoms ↔ a ∈ c'.atoms := by
  induction hc with
  | rel _ _ hc => exact ⟨hc.meaning_eq, hc.mem_atoms⟩
  | refl _ => exact ⟨rfl, fun _ ↦ .rfl⟩
  | symm _ _ _ ih => exact ⟨ih.1.symm, fun a ↦ (ih.2 a).symm⟩
  | trans _ _ _ _ _ ih ih' => exact ⟨ih.1.trans ih'.1, fun a ↦ (ih.2 a).trans (ih'.2 a)⟩

end Condition

/-- If all atoms are constant, trees that come out of each other by rearrangement have the same
result, whatever the settings of either evaluation. -/
theorem evaluate_rearranged (h : Host α β σ ε) (settings settings' : Settings) (room room' : Nat)
    (c c' : Condition α) (answer : α → β) (truth : β → Bool) (kind : σ → Prop) (w w' : World σ)
    (hc : Relation.EqvGen Condition.Rearranges c c')
    (hatoms : ∀ a ∈ c.atoms, h.Constant kind a (answer a) (truth (answer a)))
    (hw : kind w.state) (hw' : kind w'.state) (hroom : ¬ h.Exhausts settings room c w)
    (hroom' : ¬ h.Exhausts settings' room' c' w') :
    ∃ b, (h.evaluate settings room c w).1 = .ok b ∧
      (h.evaluate settings' room' c' w').1 = .ok b := by
  obtain ⟨hmeaning, hmem⟩ := Condition.meaning_of_rearranged hc
  have hatoms' : ∀ a ∈ c'.atoms, h.Constant kind a (answer a) (truth (answer a)) :=
    fun a ha ↦ hatoms a ((hmem a).mpr ha)
  have hresult := Host.evaluate_of_constant hatoms hw hroom
  have hresult' : (h.evaluate settings' room' c' w').1 =
      .ok (c.meaning fun a ↦ truth (answer a)) := by
    rw [hmeaning]
    exact Host.evaluate_of_constant hatoms' hw' hroom'
  exact ⟨_, hresult, hresult'⟩

namespace Session

open Condition (Rearranges)
open Relation (EqvGen)

/-- A disjunction that comes to what decides it after a conjunction that does not. -/
def cautiousTree : Condition Value :=
  .group ⟨firstFreshId + 3, .group⟩ .or
    [.group ⟨firstFreshId + 4, .group⟩ .and
      [.atom (steadyLeaf (.int 0)), .atom (constantCondition true)], .atom (steadyLeaf (.int 7))]

/-- The same with what decides it before and after the conjunction, whose children are exchanged. -/
def hastyTree : Condition Value :=
  .group ⟨firstFreshId + 3, .group⟩ .or
    [.atom (steadyLeaf (.int 7)), .group ⟨firstFreshId + 4, .group⟩ .and
      [.atom (constantCondition true), .atom (steadyLeaf (.int 0))], .atom (steadyLeaf (.int 7))]

theorem cautiousTree_rearranges : EqvGen Rearranges cautiousTree hastyTree := by
  let exchanged : Condition Value := .group ⟨firstFreshId + 3, .group⟩ .or
    [.group ⟨firstFreshId + 4, .group⟩ .and
      [.atom (constantCondition true), .atom (steadyLeaf (.int 0))], .atom (steadyLeaf (.int 7))]
  have hinner : Rearranges cautiousTree exchanged := .within [] (.permute (.swap ..))
  have hcopy : Rearranges exchanged hastyTree :=
    .duplicate [] (List.mem_cons_of_mem _ (List.mem_singleton_self _))
  exact .trans _ _ _ (.rel _ _ hinner) (.rel _ _ hcopy)

/-- The atoms of the cautious tree are constant as long as no attribute has been set. -/
theorem cautiousTree_constant : ∀ a ∈ cautiousTree.atoms,
    (host 0).Constant (fun s ↦ s.settingsOnObjects = []) a (steadyAnswer a)
      (truthOf (steadyAnswer a)) := by
  intro a ha
  have hsteady : a = steadyLeaf (.int 0) ∨ a = constantCondition true ∨
      a = steadyLeaf (.int 7) := by
    simpa [cautiousTree, Condition.atoms, Condition.atomsOfAll] using ha
  obtain rfl | rfl | rfl := hsteady
  · exact steadyLeaf_constant 0
  · exact constantCondition_constant true
  · exact steadyLeaf_constant 7

theorem hastyTree_within (log : Array Record) :
    ¬ (host 0).Exhausts ⟨.recursive, true⟩ 3 hastyTree ⟨{}, log⟩ := by
  intro hexhausted
  have hanswer : ((host 0).telling.walk ⟨.recursive, true⟩ 3 hastyTree ⟨{}, log⟩).1 =
      .ok true := rfl
  cases hanswer.symm.trans hexhausted

end Session

/-- The cautious tree calls two leaves, and the hasty one only the last of them. -/
theorem evaluate_rearranged_hastyTree :
    Relation.EqvGen Condition.Rearranges Session.cautiousTree Session.hastyTree ∧
      (∀ a ∈ Session.cautiousTree.atoms,
        (Session.host 0).Constant (fun s ↦ s.settingsOnObjects = []) a (Session.steadyAnswer a)
          (Session.truthOf (Session.steadyAnswer a))) ∧
      Session.start.state.settingsOnObjects = [] ∧
      ¬ (Session.host 0).Exhausts ⟨.iterative, false⟩ 0 Session.cautiousTree Session.start ∧
      ¬ (Session.host 0).Exhausts ⟨.recursive, true⟩ 3 Session.hastyTree Session.start ∧
      (∃ b, ((Session.host 0).evaluate ⟨.iterative, false⟩ 0 Session.cautiousTree
          Session.start).1 = .ok b ∧
        ((Session.host 0).evaluate ⟨.recursive, true⟩ 3 Session.hastyTree Session.start).1 =
          .ok b) ∧
      ((Session.host 0).recording.evaluate ⟨.recursive, true⟩ 3 Session.cautiousTree
        Session.start.recording).2.state.2 =
          [Session.steadyLeaf (.int 0), Session.steadyLeaf (.int 7)] ∧
      ((Session.host 0).recording.evaluate ⟨.recursive, true⟩ 3 Session.hastyTree
        Session.start.recording).2.state.2 = [Session.steadyLeaf (.int 7)] := by
  have hroom := (Session.host 0).not_exhausts_iterative false 0 Session.cautiousTree Session.start
  have hroom' := Session.hastyTree_within #[]
  have hresult := evaluate_rearranged (Session.host 0) ⟨.iterative, false⟩ ⟨.recursive, true⟩ 0 3
    Session.cautiousTree Session.hastyTree Session.steadyAnswer Session.truthOf
    (fun s ↦ s.settingsOnObjects = []) Session.start Session.start Session.cautiousTree_rearranges
    Session.cautiousTree_constant rfl rfl hroom hroom'
  exact ⟨Session.cautiousTree_rearranges, Session.cautiousTree_constant, rfl, hroom, hroom',
    hresult, rfl, rfl⟩

end ShortCircuit
