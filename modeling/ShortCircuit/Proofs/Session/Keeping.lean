import ShortCircuit.Proofs.Session.Ledger

/-!
# Making lists its objects

A computation in a session keeps a ledger if the stores before and after it are kept by the ledger
and by an extension of it. The rules follow the ways in which computations are composed, the ledger
growing from one part to the next; by them whatever is made from a plan is listed, and so is
whatever it consists of.
-/

namespace ShortCircuit.Session

variable {α β : Type} {allowed : Value → String → Prop} {L : Ledger}

/-- From a store that the ledger keeps, the computation leads to one that an extension of the ledger
keeps, however it ends. A result has the property, with respect to the extension. -/
def Keeping (allowed : Value → String → Prop) (L : Ledger) (m : Session α)
    (Q : Ledger → α → Prop) : Prop :=
  ∀ w : World Store, L.Keeps allowed w.state →
    ∃ L' : Ledger, L.Extends L' ∧ L'.Keeps allowed (worldAfter m w).state ∧
      ∀ a w', m w = .ok a w' → Q L' a

/-! ## Rules -/

section

variable {Q Q' : Ledger → α → Prop} {R : Ledger → β → Prop} {m : Session α}

theorem keeping_pure {a : α} (ha : Q L a) : Keeping allowed L (pure a) Q := by
  refine fun w hw ↦ ⟨L, .refl L, hw, fun a' w' hrun ↦ ?_⟩
  cases hrun
  exact ha

theorem keeping_throw (e : Failure) : Keeping allowed L (throw e) Q :=
  fun _ hw ↦ ⟨L, .refl L, hw, nofun⟩

theorem Keeping.bind {f : α → Session β} (hm : Keeping allowed L m Q)
    (hf : ∀ L' a, L.Extends L' → Q L' a → Keeping allowed L' (f a) R) :
    Keeping allowed L (m >>= f) R := by
  intro w hw
  obtain ⟨L', hL', hkept, hresult⟩ := hm w hw
  simp only [worldAfter, Bind.bind, EStateM.bind] at hkept ⊢
  cases hrun : m w with
  | error e w' =>
    rw [hrun] at hkept
    exact ⟨L', hL', hkept, fun _ _ hresult' ↦ by cases hresult'⟩
  | ok a w' =>
    rw [hrun] at hkept
    obtain ⟨L'', hL'', hkept', hresult'⟩ := hf L' a hL' (hresult a w' hrun) w' hkept
    exact ⟨L'', hL'.trans hL'', hkept', hresult'⟩

theorem Keeping.mono (hm : Keeping allowed L m Q)
    (hQ : ∀ L' a, L.Extends L' → Q L' a → Q' L' a) : Keeping allowed L m Q' := by
  intro w hw
  obtain ⟨L', hL', hkept, hresult⟩ := hm w hw
  exact ⟨L', hL', hkept, fun a w' hrun ↦ hQ L' a hL' (hresult a w' hrun)⟩

/-- A computation that retains what is held keeps the ledger as it is. -/
theorem keeping_of_retaining (hm : Retaining m) : Keeping allowed L m fun L' _ ↦ L' = L :=
  fun w hw ↦ ⟨L, .refl L, hw.retains (hm w), fun _ _ _ ↦ rfl⟩

theorem keeping_ofExcept {x : Except Failure α} (hx : Ends (fun _ ↦ True) (Q L) x) :
    Keeping allowed L (ofExcept x) Q := by
  cases x with
  | ok a => exact keeping_pure hx
  | error e => exact keeping_throw e

/-- The store that is read is one that the ledger keeps. -/
theorem keeping_store : Keeping allowed L store fun L' s ↦ L' = L ∧ L.Keeps allowed s := by
  refine fun w hw ↦ ⟨L, .refl L, hw, fun s w' hrun ↦ ?_⟩
  cases hrun
  exact ⟨rfl, hw⟩

theorem keeping_modifyStore {f : Store → Store}
    (hf : ∀ s, L.Keeps allowed s → L.Keeps allowed (f s)) :
    Keeping allowed L (modifyStore f) fun L' _ ↦ L' = L :=
  fun w hw ↦ ⟨L, .refl L, hf w.state hw, fun _ _ _ ↦ rfl⟩

theorem keeping_find {names : List (String × α)} {name : String} (h : ∀ n ∈ names, Q L n.2) :
    Keeping allowed L (find names name) Q := by
  unfold find
  split
  · exact keeping_pure (h _ (List.mem_of_find?_eq_some ‹_›))
  · exact keeping_throw _

/-- A computation that takes an identity for an object of listed parts enters the object. -/
theorem keeping_object (hm : ∀ w : World Store, ∃ a w' v, m w = .ok a w' ∧
      w.state.Retains w'.state ∧ w.state.nextId < w'.state.nextId ∧
      v.identity? = some w.state.nextId ∧ (∀ x ∈ v.parts, L.Lists x) ∧
      ∀ L' : Ledger, L.Extends L' → L'.Lists v → Q L' a) :
    Keeping allowed L m Q := by
  intro w hw
  obtain ⟨a, w', v, hrun, hretains, hlt, hidentity, hparts, hresult⟩ := hm w
  refine ⟨L.enter _ v hidentity hw.fresh (fun _ _ ↦ hw.below) hparts, Ledger.extends_enter, ?_, ?_⟩
  · have hkept := hw.retains hretains
    simp only [worldAfter, hrun]
    refine ⟨fun {i u} hu ↦ ?_, hkept.fresh, fun u hu ↦ (hkept.held u hu).mono Ledger.extends_enter,
      hkept.attributed, fun b hb u hu ↦ ?_⟩
    · simp only [Ledger.enter] at hu
      split at hu
      · omega
      · exact hkept.below hu
    · simp only [Ledger.enter] at hu
      split at hu
      · have hbelow := hw.attributed b (hretains.settingsOnObjects ▸ hb)
        omega
      · exact hkept.attributes b hb u hu
  · intro a' w'' hrun'
    cases hrun.symm.trans hrun'
    exact hresult _ Ledger.extends_enter Ledger.lists_enter

/-- Going through a list, the property is handed on from one item to the next. -/
theorem keeping_foldlM {f : β → α → Session β} {as : List α} :
    ∀ {L : Ledger} {b : β}, R L b →
      (∀ L' b a, L.Extends L' → R L' b → Keeping allowed L' (f b a) R) →
      Keeping allowed L (as.foldlM f b) R := by
  induction as with
  | nil => exact fun hb _ ↦ keeping_pure hb
  | cons a rest ih =>
    intro L b hb hf
    rw [List.foldlM_cons]
    exact (hf L b a (.refl L) hb).bind fun L' b' hL' hb' ↦
      ih hb' fun L'' b'' a' hL'' ↦ hf L'' b'' a' (hL'.trans hL'')

end

/-! ## Parts -/

theorem lists_of_plain {v : Value} (hidentity : v.identity? = none) (hparts : v.parts = []) :
    L.Lists v :=
  Ledger.lists_of_parts hidentity fun x hx ↦ by simp [hparts] at hx

/-- A node of a group is the value that it was made from. -/
theorem lists_ofCondition_toCondition {v : Value} (hv : L.Lists v) :
    L.Lists (.ofCondition v.toCondition) := by
  cases v with
  | condition c =>
    cases c with
    | group origin k children => exact hv
    | atom v => exact hv.part (List.mem_singleton_self v)
  | _ => exact hv

/-- The items of a listed value are listed. -/
theorem items_ends {v : Value} (hv : L.Lists v) :
    Ends (fun _ ↦ True) (fun items ↦ ∀ x ∈ items, L.Lists x) v.items := by
  have hplain {α : Type} (f : α → Value) (hidentity : ∀ a, (f a).identity? = none)
      (hparts : ∀ a, (f a).parts = []) (as : List α) : ∀ x ∈ as.map f, L.Lists x :=
    List.forall_mem_map.mpr fun a _ ↦ lists_of_plain (hidentity a) (hparts a)
  unfold Value.items
  cases hitems : v.items? with
  | none => trivial
  | some items =>
    unfold Value.items? at hitems
    split at hitems <;> cases hitems
    · exact fun x hx ↦ hv.part hx
    · exact fun x hx ↦ hv.part hx
    · exact fun x hx ↦ hv.part hx
    · exact hplain _ (fun _ ↦ rfl) (fun _ ↦ rfl) _
    · exact hplain _ (fun _ ↦ rfl) (fun _ ↦ rfl) _
    · exact hplain _ (fun _ ↦ rfl) (fun _ ↦ rfl) _
    · exact hplain _ (fun _ ↦ rfl) (fun _ ↦ rfl) _
    · refine List.forall_mem_map.mpr fun entry hentry ↦ hv.part ?_
      exact List.mem_flatMap.mpr ⟨entry, hentry, List.mem_cons_self⟩
    · exact hplain _ (fun _ ↦ rfl) (fun _ ↦ rfl) _
    · exact hplain _ (fun _ ↦ rfl) (fun _ ↦ rfl) _

/-- A child of a listed group is listed. -/
theorem childAt_ends {v : Value} (hv : L.Lists v) (index : Int) :
    Ends (fun _ ↦ True) L.Lists (childAt v index) := by
  unfold childAt
  split
  · rename_i children
    dsimp only
    generalize (if index < 0 then index + children.length else index) = i
    split
    · trivial
    · split
      · rename_i hchild
        exact hv.part (List.mem_map_of_mem (List.mem_of_getElem? hchild))
      · trivial
  · trivial

/-- Adding an entry keeps the entries of a dictionary listed. -/
theorem insertEntry_ends {entries : List (Value × Value)} {k v : Value}
    (hentries : ∀ entry ∈ entries, L.Lists entry.1 ∧ L.Lists entry.2) (hk : L.Lists k)
    (hv : L.Lists v) :
    Ends (fun _ ↦ True) (fun made ↦ ∀ entry ∈ made, L.Lists entry.1 ∧ L.Lists entry.2)
      (insertEntry entries k v) := by
  have htrue {α : Type} (x : Except Failure α) : FailsWith (fun _ ↦ True) x := by
    cases x <;> trivial
  refine (htrue _).bind fun _ _ ↦ (htrue _).bind fun found _ ↦ ?_
  cases found with
  | true =>
    refine Ends.mapM fun entry hentry ↦ (htrue _).bind fun same _ ↦ ?_
    cases same with
    | true => exact ⟨(hentries entry hentry).1, hv⟩
    | false => exact hentries entry hentry
  | false =>
    intro entry hentry
    rcases List.mem_append.mp hentry with hentry | hentry
    · exact hentries entry hentry
    · cases List.mem_singleton.mp hentry
      exact ⟨hk, hv⟩

/-! ## Making -/

/-- A new object of listed parts is listed. -/
theorem keeping_fresh {f : Nat → Value} (hidentity : ∀ i, (f i).identity? = some i)
    (hparts : ∀ i, ∀ x ∈ (f i).parts, L.Lists x) :
    Keeping allowed L (do return f (← freshId)) Ledger.Lists :=
  keeping_object fun w ↦ ⟨_, _, f w.state.nextId, rfl, retaining_freshId w, Nat.lt_succ_self _,
    hidentity _, hparts _, fun _ _ hv ↦ hv⟩

theorem keeping_bare {f : Nat → Value} (hidentity : ∀ i, (f i).identity? = some i)
    (hparts : ∀ i, (f i).parts = []) : Keeping allowed L (do return f (← freshId)) Ledger.Lists :=
  keeping_fresh hidentity fun i x hx ↦ by simp [hparts i] at hx

/-- A new group of listed items is listed. -/
theorem keeping_newGroup (cls : ClassTag) (k : Connective) {items : List Value}
    (hitems : ∀ v ∈ items, L.Lists v) :
    Keeping allowed L (newGroup cls k items) Ledger.Lists := by
  refine keeping_fresh (fun _ ↦ rfl) fun _ ↦ ?_
  simp only [Value.parts, List.map_map]
  exact List.forall_mem_map.mpr fun v hv ↦ lists_ofCondition_toCondition (hitems v hv)

/-- New settings are listed. -/
theorem keeping_newSettings (cls : ClassTag) (s : Settings) :
    Keeping allowed L (newSettings cls s) Ledger.Lists :=
  keeping_bare (fun _ ↦ rfl) fun _ ↦ rfl

theorem keeping_newClass (name : String) :
    Keeping allowed L (newClass name) fun L' _ ↦ L' = L :=
  keeping_of_retaining (retaining_newClass name)

theorem keeping_classOr (cls : ClassTag) (className : Option String) :
    Keeping allowed L (classOr cls className) fun L' _ ↦ L' = L :=
  keeping_of_retaining (retaining_classOr cls className)

theorem keeping_referenceTree : Keeping allowed L referenceTree Ledger.Lists := by
  have hconstant (L' : Ledger) (b : Bool) : L'.Lists (constantCondition b) := L'.lists_constant b
  refine (keeping_newGroup _ _ ?_).bind fun L₁ v₁ h₁ hv₁ ↦ ?_
  · simp [hconstant]
  refine (keeping_newGroup _ _ ?_).bind fun L₂ v₂ h₂ hv₂ ↦ ?_
  · simp [hconstant, hv₁]
  refine (keeping_newGroup _ _ ?_).bind fun L₃ v₃ h₃ hv₃ ↦ ?_
  · simp [hconstant]
  refine (keeping_newGroup _ _ ?_).bind fun L₄ v₄ h₄ hv₄ ↦ ?_
  · simp [hconstant, hv₃]
  refine (keeping_newGroup _ _ ?_).bind fun L₅ v₅ h₅ hv₅ ↦ ?_
  · simp [hconstant]
  refine (keeping_newGroup _ _ ?_).bind fun L₆ v₆ h₆ hv₆ ↦ ?_
  · simp [hconstant, hv₅]
  refine (keeping_newGroup _ _ ?_).bind fun L₇ v₇ h₇ hv₇ ↦ ?_
  · simp [hconstant, hv₆]
  refine keeping_newGroup _ _ ?_
  simp [hv₂.mono (h₃.trans (h₄.trans (h₅.trans (h₆.trans h₇)))),
    hv₄.mono (h₅.trans (h₆.trans h₇)), hv₇]

/-- Everything in a list of values is listed. -/
abbrev ListsAll (L : Ledger) (vs : List Value) : Prop := ∀ v ∈ vs, L.Lists v

theorem listsAll_nil : ListsAll L [] := nofun

theorem listsAll_mono {L' : Ledger} {vs : List Value} (hvs : ListsAll L vs) (h : L.Extends L') :
    ListsAll L' vs := fun v hv ↦ (hvs v hv).mono h

theorem listsAll_cons {v : Value} {vs : List Value} (hv : L.Lists v) (hvs : ListsAll L vs) :
    ListsAll L (v :: vs) := List.forall_mem_cons.mpr ⟨hv, hvs⟩

/-- The keys and the values of entries are listed. -/
abbrev ListsEntries (L : Ledger) (entries : List (Value × Value)) : Prop :=
  ∀ entry ∈ entries, L.Lists entry.1 ∧ L.Lists entry.2

theorem listsEntries_nil : ListsEntries L [] := nofun

theorem listsEntries_mono {L' : Ledger} {entries : List (Value × Value)}
    (hentries : ListsEntries L entries) (h : L.Extends L') : ListsEntries L' entries :=
  fun entry hentry ↦ ⟨(hentries entry hentry).1.mono h, (hentries entry hentry).2.mono h⟩

/-- The values of fields are listed. -/
abbrev ListsFields (L : Ledger) (fields : List (String × Value)) : Prop :=
  ∀ field ∈ fields, L.Lists field.2

theorem keeping_drain (name : String) : Keeping allowed L (drain name) ListsAll := by
  refine keeping_store.bind fun L' s hL' hs ↦ ?_
  obtain ⟨rfl, hs⟩ := hs
  obtain ⟨-, -, -, -, hiterators, -⟩ := Store.forall_mem_values.mp hs.held
  refine (keeping_find (Q := ListsAll) hiterators).bind fun L₁ items h₁ hitems ↦ ?_
  refine (keeping_of_retaining (retaining_drained name)).bind fun L₂ _ _ h₂ ↦ ?_
  exact keeping_pure (h₂ ▸ hitems)

/-- A value without parts that is no object is listed wherever it is made. -/
theorem keeping_plain {v : Value} (hidentity : v.identity? = none) (hparts : v.parts = []) :
    Keeping allowed L (pure v) Ledger.Lists :=
  keeping_pure (lists_of_plain hidentity hparts)

/-- A new plain leaf is listed with what its verifier holds. -/
theorem keeping_leaf {v : Value} {verifier : Verifier Value}
    (hverifier : ListsAll L verifier.parts) :
    Keeping allowed L (do
      let b ← ofExcept (leafValue v)
      return .leaf ⟨⟨← freshId, .leaf⟩, b, verifier, none⟩) Ledger.Lists :=
  (keeping_of_retaining (retaining_ofExcept _)).bind fun _ b _ h ↦
    keeping_fresh (fun _ ↦ rfl) fun _ ↦ by simpa [Value.parts, h] using hverifier

/-- A new object of an unrelated class is listed; its class is made after it. -/
theorem keeping_duck (className : String) {value : Option Value} {verify : DuckVerify Value}
    (hvalue : ListsAll L value.toList) (hverify : ListsAll L verify.parts) :
    Keeping allowed L
      (do return .duck ⟨⟨← freshId, ← newClass className⟩, value, verify⟩) Ledger.Lists := by
  have hretaining :
      Retaining (do return Value.duck ⟨⟨← freshId, ← newClass className⟩, value, verify⟩) :=
    retaining_freshId.bind fun _ ↦ (retaining_newClass className).bind fun _ ↦ retaining_pure _
  refine keeping_object fun w ↦ ⟨_, _, _, rfl, hretaining w, ?_, rfl, ?_, fun _ _ hv ↦ hv⟩
  · exact Nat.lt_succ_of_lt (Nat.lt_succ_self _)
  · exact List.forall_mem_append.mpr ⟨hvalue, hverify⟩

mutual

theorem keeping_makeValue : (p : ValuePlan) → ∀ {L : Ledger},
    Keeping allowed L (makeValue p) Ledger.Lists
  | .nothing | .bool _ | .int _ | .text _ | .bytes _ => keeping_plain rfl rfl
  | .float _ | .witness _ => keeping_bare (fun _ ↦ rfl) fun _ ↦ rfl
  | .list items | .tuple items => (keeping_makeValues items).bind fun _ _ _ hvs ↦
      keeping_pure (Ledger.lists_of_parts rfl hvs)
  | .dict entries => by
    refine (keeping_makeEntries entries listsEntries_nil).bind fun L' made _ hmade ↦ keeping_pure ?_
    refine Ledger.lists_of_parts rfl fun x hx ↦ ?_
    obtain ⟨entry, hentry, hx⟩ := List.mem_flatMap.mp hx
    simp only [List.mem_cons, List.not_mem_nil, or_false] at hx
    rcases hx with rfl | rfl
    · exact (hmade entry hentry).1
    · exact (hmade entry hentry).2
  | .strategy constant => by
    simp only [makeValue]
    split
    · exact keeping_plain rfl rfl
    · exact keeping_throw _
  | .connective constant => by
    simp only [makeValue]
    split
    · exact keeping_plain rfl rfl
    · exact keeping_throw _
  | .node n => keeping_makeNode n
  | .settings fields className =>
    (keeping_makeFields fields).bind fun _ _ _ _ ↦ (keeping_classOr _ className).bind fun _ _ _ _ ↦
      (keeping_of_retaining (retaining_ofExcept _)).bind fun _ _ _ _ ↦ keeping_newSettings _ _
  | .namedSettings name => keeping_store.bind fun _ _ _ hs ↦
      keeping_find (hs.1 ▸ (Store.forall_mem_values.mp hs.2.held).2.1)
  termination_by structural p => p

theorem keeping_makeValues : (ps : List ValuePlan) → ∀ {L : Ledger},
    Keeping allowed L (makeValues ps) ListsAll
  | [] => keeping_pure nofun
  | p :: rest => (keeping_makeValue p).bind fun _ _ _ hv ↦ (keeping_makeValues rest).bind
      fun _ _ h hvs ↦ keeping_pure (listsAll_cons (hv.mono h) hvs)
  termination_by structural ps => ps

theorem keeping_makeEntries : (entries : List (ValuePlan × ValuePlan)) → ∀ {L : Ledger}
    {made : List (Value × Value)}, ListsEntries L made →
    Keeping allowed L (makeEntries made entries) ListsEntries
  | [] => fun hmade ↦ keeping_pure hmade
  | entry :: rest => fun hmade ↦ (keeping_makeEntry entry).bind fun _ _ h hkv ↦
      (keeping_ofExcept (insertEntry_ends (listsEntries_mono hmade h) hkv.1 hkv.2)).bind
        fun _ _ _ hmade' ↦ keeping_makeEntries rest hmade'
  termination_by structural entries => entries

theorem keeping_makeEntry : (entry : ValuePlan × ValuePlan) → ∀ {L : Ledger},
    Keeping allowed L (makeEntry entry) fun L' kv ↦ L'.Lists kv.1 ∧ L'.Lists kv.2
  | (k, v) => (keeping_makeValue k).bind fun _ _ _ hk ↦ (keeping_makeValue v).bind fun _ _ h hv ↦
      keeping_pure ⟨hk.mono h, hv⟩
  termination_by structural entry => entry

theorem keeping_makeFields : (fields : List (String × ValuePlan)) → ∀ {L : Ledger},
    Keeping allowed L (makeFields fields) ListsFields
  | [] => keeping_pure nofun
  | field :: rest => (keeping_makeField field).bind fun _ _ _ hfield ↦
      (keeping_makeFields rest).bind fun _ _ h hfields ↦
        keeping_pure (List.forall_mem_cons.mpr ⟨hfield.mono h, hfields⟩)
  termination_by structural fields => fields

theorem keeping_makeField : (field : String × ValuePlan) → ∀ {L : Ledger},
    Keeping allowed L (makeField field) fun L' f ↦ L'.Lists f.2
  | (_, p) => (keeping_makeValue p).bind fun _ _ _ hv ↦ keeping_pure hv
  termination_by structural field => field

theorem keeping_makeNode : (p : NodePlan) → ∀ {L : Ledger},
    Keeping allowed L (makeNode p) Ledger.Lists
  | .constant b => keeping_pure (Ledger.lists_constant _ b)
  | .leaf value none => (keeping_makeValue value).bind fun _ _ _ _ ↦
      (keeping_pure (Q := fun L' (v : Verifier Value) ↦ ListsAll L' v.parts) listsAll_nil).bind
        fun _ _ _ hv ↦ keeping_leaf hv
  | .leaf value (some verifier) => (keeping_makeValue value).bind fun _ _ _ _ ↦
      (keeping_makeVerifier verifier).bind fun _ _ _ hv ↦ keeping_leaf hv
  | .group isOr children => (keeping_prepare children).bind fun _ _ _ hprepared ↦
      (keeping_draw children hprepared).bind fun _ _ _ hitems ↦ keeping_newGroup _ _ hitems
  | .tagged tag none className =>
    (keeping_makeValue tag).bind fun _ _ _ _ ↦ (keeping_classOr _ className).bind fun _ _ _ _ ↦
      (keeping_of_retaining (retaining_ofExcept _)).bind fun _ _ _ _ ↦ keeping_newGroup _ _ nofun
  | .tagged tag (some children) className =>
    (keeping_makeValue tag).bind fun _ _ _ _ ↦ (keeping_classOr _ className).bind fun _ _ _ _ ↦
      (keeping_prepare children).bind fun _ _ _ hprepared ↦
        (keeping_of_retaining (retaining_ofExcept _)).bind fun _ _ h _ ↦
          (keeping_draw children (hprepared.mono h)).bind fun _ _ _ hitems ↦
            keeping_newGroup _ _ hitems
  | .ownLeaf className value verify => (keeping_makeValue value).bind fun _ _ _ _ ↦
      (keeping_makeVerifier verify).bind fun _ _ _ hv ↦
        (keeping_newClass className).bind fun _ _ _ h ↦
          (keeping_of_retaining (retaining_ofExcept _)).bind fun _ _ _ h' ↦
            keeping_fresh (fun _ ↦ rfl) fun _ ↦ by
              simpa [Value.parts, Verifier.parts, h, h'] using hv
  | .duck className none verify =>
    (keeping_pure (Q := fun L' (v : Option Value) ↦ ListsAll L' v.toList) listsAll_nil).bind
      fun _ _ _ hvalue ↦ (keeping_makeDuckVerify verify).bind fun _ _ h hverify ↦
        keeping_duck className (listsAll_mono hvalue h) hverify
  | .duck className (some value) verify =>
    (keeping_makeValue value).bind fun _ _ _ hvalue ↦
      (keeping_pure (Q := fun L' (v : Option Value) ↦ ListsAll L' v.toList)
        (listsAll_cons hvalue listsAll_nil)).bind fun _ _ _ hvalue ↦
        (keeping_makeDuckVerify verify).bind fun _ _ h hverify ↦
          keeping_duck className (listsAll_mono hvalue h) hverify
  | .raw p => keeping_makeValue p
  | .classObject name => by
    simp only [makeNode]
    split
    · exact keeping_plain rfl rfl
    · exact keeping_throw _
  | .reference path => keeping_referenceTree.bind fun _ _ _ hv ↦
      keeping_foldlM hv fun _ _ index _ hv' ↦ keeping_ofExcept (childAt_ends hv' index)
  | .named name => keeping_store.bind fun _ _ _ hs ↦
      (keeping_find (Q := fun L' (n : Held) ↦ L'.Lists n.value)
        (hs.1 ▸ (Store.forall_mem_values.mp hs.2.held).1)).bind fun _ _ _ hn ↦ keeping_pure hn
  | .chain length tags base before after => by
    refine (keeping_makeNode base).bind fun L₁ base _ hbase ↦
      (keeping_of_retaining (retaining_makeValues tags)).bind fun L₂ tags h _ ↦
        keeping_foldlM (hbase.mono h) fun L₃ inner i _ hinner ↦ ?_
    refine (keeping_makeNodes before).bind fun L₄ before h₄ hbefore ↦
      (keeping_makeNodes after).bind fun L₅ after h₅ hafter ↦ ?_
    split
    · refine (keeping_of_retaining (retaining_ofExcept _)).bind fun L₆ _ h₆ _ ↦
        keeping_newGroup _ _ ?_
      exact List.forall_mem_append.mpr ⟨listsAll_mono hbefore (h₅.trans h₆),
        listsAll_cons (hinner.mono (h₄.trans (h₅.trans h₆))) (listsAll_mono hafter h₆)⟩
    · exact keeping_throw _
  | .wide count tag item further =>
    (keeping_makeNode item).bind fun _ _ _ hitem ↦
      (keeping_makeNodes further).bind fun _ _ h hfurther ↦
        (keeping_makeValue tag).bind fun _ _ h' _ ↦
          (keeping_of_retaining (retaining_ofExcept _)).bind fun _ _ h'' _ ↦
            keeping_newGroup _ _ (List.forall_mem_append.mpr
              ⟨fun _ hv ↦ (List.eq_of_mem_replicate hv) ▸ hitem.mono (h.trans (h'.trans h'')),
                listsAll_mono hfurther (h'.trans h'')⟩)
  termination_by structural p => p

theorem keeping_makeNodes : (ps : List NodePlan) → ∀ {L : Ledger},
    Keeping allowed L (makeNodes ps) ListsAll
  | [] => keeping_pure nofun
  | p :: rest => (keeping_makeNode p).bind fun _ _ _ hv ↦ (keeping_makeNodes rest).bind
      fun _ _ h hvs ↦ keeping_pure (listsAll_cons (hv.mono h) hvs)
  termination_by structural ps => ps

theorem keeping_prepare : (children : ChildrenPlan) → ∀ {L : Ledger},
    Keeping allowed L (prepare children) Ledger.Lists
  | .items nodes => (keeping_makeNodes nodes).bind fun _ _ _ hvs ↦
      keeping_pure (Ledger.lists_of_parts rfl hvs)
  | .drawn _ => keeping_plain rfl rfl
  | .namedList _ => keeping_store.bind fun _ _ _ hs ↦
      (keeping_find (Q := ListsAll)
        (hs.1 ▸ (Store.forall_mem_values.mp hs.2.held).2.2.2.1)).bind fun _ _ _ hvs ↦
          keeping_pure (Ledger.lists_of_parts rfl hvs)
  | .namedIterator _ => (keeping_of_retaining retaining_store).bind fun _ _ _ _ ↦
      (keeping_of_retaining (retaining_find _ _)).bind fun _ _ _ _ ↦ keeping_plain rfl rfl
  | .value p => keeping_makeValue p
  termination_by structural children => children

theorem keeping_draw : (children : ChildrenPlan) → ∀ {L : Ledger} {prepared : Value},
    L.Lists prepared → Keeping allowed L (draw prepared children) ListsAll
  | .drawn nodes => fun _ ↦ keeping_makeNodes nodes
  | .namedIterator name => fun _ ↦ keeping_drain name
  | .items _ | .namedList _ | .value _ => fun hprepared ↦ keeping_ofExcept (items_ends hprepared)
  termination_by structural children => children

theorem keeping_makeVerifier : (p : VerifierPlan) → ∀ {L : Ledger},
    Keeping allowed L (makeVerifier p) fun L' v ↦ ListsAll L' v.parts
  | .mk _ action => (keeping_makeAction action).bind fun _ _ _ h ↦ keeping_pure (h _)
  termination_by structural p => p

theorem keeping_makeAction : (p : ActionPlan) → ∀ {L : Ledger},
    Keeping allowed L (makeAction p) fun L' action ↦
      ∀ name, ListsAll L' (Verifier.mk name action).parts
  | .stored | .negated | .raises _ _ | .evaluates _ _ => keeping_pure fun _ ↦ nofun
  | .returns p => (keeping_makeValue p).bind fun _ _ _ hv ↦
      keeping_pure fun _ ↦ listsAll_cons hv nofun
  | .sequence answers => (keeping_makeValues answers).bind fun _ _ _ hvs ↦
      (keeping_of_retaining retaining_freshId).bind fun _ _ h _ ↦
        keeping_pure fun _ ↦ listsAll_mono hvs h
  termination_by structural p => p

theorem keeping_makeDuckVerify : (p : DuckPlan) → ∀ {L : Ledger},
    Keeping allowed L (makeDuckVerify p) fun L' verify ↦ ListsAll L' verify.parts
  | .absent | .failing _ _ => keeping_pure nofun
  | .method verifier => (keeping_makeVerifier verifier).bind fun _ _ _ hv ↦ keeping_pure hv
  | .holds p => (keeping_makeValue p).bind fun _ _ _ hv ↦ keeping_pure (listsAll_cons hv nofun)
  termination_by structural p => p

end

end ShortCircuit.Session
