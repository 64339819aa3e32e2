/-!
# How computations end

`Ends P Q` bounds the ways in which a computation ends: it fails with a failure of which `P` holds,
or gives a result of which `Q` holds. The bound of a composed computation follows from those of its
parts. Properties that composed computations inherit from their parts hold of all that goes through
a list.
-/

namespace ShortCircuit

variable {ε α β : Type}

/-- A failure of the computation has the one property, its result the other. -/
def Ends (P : ε → Prop) (Q : α → Prop) : Except ε α → Prop
  | .ok a => Q a
  | .error e => P e

/-- Every failure of the computation has the property. -/
abbrev FailsWith (P : ε → Prop) (x : Except ε α) : Prop := Ends P (fun _ ↦ True) x

namespace Ends

variable {P : ε → Prop} {Q : α → Prop} {R : β → Prop}

theorem bind {x : Except ε α} {f : α → Except ε β} (hx : Ends P Q x)
    (hf : ∀ a, Q a → Ends P R (f a)) : Ends P R (x >>= f) := by
  cases x with
  | ok a => exact hf a hx
  | error e => exact hx

theorem map {x : Except ε α} {f : α → β} (hx : Ends P Q x) (hf : ∀ a, Q a → R (f a)) :
    Ends P R (f <$> x) := by
  cases x with
  | ok a => exact hf a hx
  | error e => exact hx

theorem mono {P' : ε → Prop} {Q' : α → Prop} {x : Except ε α} (hx : Ends P Q x)
    (hP : ∀ e, P e → P' e) (hQ : ∀ a, Q a → Q' a) : Ends P' Q' x := by
  cases x with
  | ok a => exact hQ a hx
  | error e => exact hP e hx

theorem ok {x : Except ε α} {a : α} (hx : Ends P Q x) (ha : x = .ok a) : Q a := by
  rw [ha] at hx
  exact hx

theorem error {x : Except ε α} {e : ε} (hx : Ends P Q x) (he : x = .error e) : P e := by
  rw [he] at hx
  exact hx

theorem mapM {f : α → Except ε β} {as : List α} (hf : ∀ a ∈ as, Ends P R (f a)) :
    Ends P (fun bs ↦ ∀ b ∈ bs, R b) (as.mapM f) := by
  induction as with
  | nil => exact nofun
  | cons a rest ih =>
    rw [List.mapM_cons]
    refine (hf a List.mem_cons_self).bind fun b hb ↦ ?_
    refine (ih fun a' ha' ↦ hf a' (List.mem_cons_of_mem a ha')).bind fun bs hbs ↦ ?_
    exact List.forall_mem_cons.mpr ⟨hb, hbs⟩

end Ends

/-! ## Going through a list -/

/-- A property of computations that composed ones inherit from their parts. -/
structure Composes {m : Type → Type} [Monad m] (C : (α : Type) → m α → Prop) : Prop where
  pure {α : Type} (a : α) : C α (pure a)
  bind {α β : Type} {x : m α} {f : α → m β} (hx : C α x) (hf : ∀ a, C β (f a)) : C β (x >>= f)

theorem composes_failsWith (P : ε → Prop) :
    Composes fun α (x : Except ε α) ↦ FailsWith P x where
  pure _ := trivial
  bind hx hf := Ends.bind hx fun a _ ↦ hf a

namespace Composes

variable {m : Type → Type} [Monad m] {C : (α : Type) → m α → Prop} (h : Composes C)
include h

theorem forM {f : α → m PUnit} (hf : ∀ a, C _ (f a)) (as : List α) : C _ (as.forM f) := by
  induction as with
  | nil => exact h.pure _
  | cons a rest ih => exact h.bind (hf a) fun _ ↦ ih

theorem mapM [LawfulMonad m] {f : α → m β} (hf : ∀ a, C _ (f a)) (as : List α) :
    C _ (as.mapM f) := by
  induction as with
  | nil => exact h.pure _
  | cons a rest ih =>
    rw [List.mapM_cons]
    exact h.bind (hf a) fun _ ↦ h.bind ih fun _ ↦ h.pure _

theorem foldlM {f : β → α → m β} (hf : ∀ b a, C _ (f b a)) (as : List α) (b : β) :
    C _ (as.foldlM f b) := by
  induction as generalizing b with
  | nil => exact h.pure b
  | cons a rest ih =>
    rw [List.foldlM_cons]
    exact h.bind (hf b a) ih

theorem anyM {f : α → m Bool} (hf : ∀ a, C _ (f a)) (as : List α) : C _ (as.anyM f) := by
  induction as with
  | nil => exact h.pure _
  | cons a rest ih =>
    refine h.bind (hf a) fun found ↦ ?_
    cases found with
    | true => exact h.pure _
    | false => exact ih

theorem findM? {f : α → m Bool} (hf : ∀ a, C _ (f a)) (as : List α) : C _ (as.findM? f) := by
  induction as with
  | nil => exact h.pure _
  | cons a rest ih =>
    refine h.bind (hf a) fun found ↦ ?_
    cases found with
    | true => exact h.pure _
    | false => exact ih

end Composes

end ShortCircuit
