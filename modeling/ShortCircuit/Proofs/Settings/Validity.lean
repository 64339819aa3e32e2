import ShortCircuit.Proofs.CommandLine.Override
import ShortCircuit.Proofs.Reading.Value
import ShortCircuit.Proofs.Settings.Loading

/-!
# Valid settings

Settings are made of a value for each field. `Settings.Validates` says for which values that
succeeds, that the settings are written with the word of their strategy and made again from whatever
holds the same entries, and which failure is met otherwise: a strategy at fault is reported before a
trace at fault. By `Settings.ofFields_validates` this holds of all values, and settings from a
dictionary are those that its entries make, a field that it lacks having its standard value.
-/

namespace ShortCircuit

/-! ## Strategies -/

/-- The value stands for the strategy: it is the strategy, or the text of its word. -/
def Value.Selects (v : Value) (x : Strategy) : Prop :=
  v = .strategy x ∨ v = .text (Text.ofString x.word)

theorem Strategy.ofValue?_eq_some {v : Value} {x : Strategy} :
    Strategy.ofValue? v = some x ↔ v.Selects x := by
  constructor
  · intro hfound
    cases v with
    | strategy y => exact .inl (congrArg _ (Option.some.inj hfound))
    | text t =>
      have hword := List.find?_some hfound
      exact .inr (congrArg _ (of_decide_eq_true hword).symm)
    | _ => exact nomatch hfound
  · rintro (rfl | rfl)
    · rfl
    · cases x <;> rfl

namespace Value

/-- A value equals a text if it is that text, or something that is known by it. -/
theorem equals_text (v : Value) (t : Text) : v.equals (.text t) = .ok (v.toText? == some t) := by
  cases v with
  | float id x =>
    -- Whether the double equals an integer is not known, but no text does.
    have htext : (Value.float id x).atomEquals (.text t) = false := by
      simp [atomEquals, toInt?, toText?]
    exact congrArg Except.ok htext
  | _ => rfl

/-- The values that stand for a strategy are those that equal its word. -/
theorem selects_iff_equals {v : Value} {x : Strategy} :
    v.Selects x ↔ v.equals (.text (Text.ofString x.word)) = .ok true := by
  rw [equals_text, Except.ok.injEq, beq_iff_eq]
  constructor
  · rintro (rfl | rfl) <;> rfl
  · intro htext
    cases v with
    | text t => exact .inr (congrArg _ (Option.some.inj htext))
    | strategy y =>
      have hword : y = x := by
        revert htext
        cases x <;> cases y <;> decide
      exact .inl (congrArg _ hword)
    | connective c =>
      have hother : (Value.connective c).toText? ≠ some (Text.ofString x.word) := by
        cases x <;> cases c <;> decide
      exact absurd htext hother
    | _ => exact nomatch htext

end Value

namespace Settings

theorem strategyOf_of_selects {v : Value} {x : Strategy} (hv : v.Selects x) :
    strategyOf v = .ok x := by
  rw [strategyOf, Strategy.ofValue?_eq_some.mpr hv]

/-- The failure of a value that stands for no strategy. It tells how the value is shown, or why it
cannot be. -/
inductive Refuses (v : Value) : Failure → Prop
  | shown {text : String} (hshown : v.shown = .ok text) : Refuses v (.invalidStrategy text)
  | unshowable {e : Failure} (hshown : v.shown = .error e) : Refuses v e

theorem strategyOf_of_not_selects {v : Value} (hv : ∀ x, ¬ v.Selects x) :
    ∃ e, strategyOf v = .error e ∧ Refuses v e := by
  have hnone : Strategy.ofValue? v = none :=
    Option.eq_none_iff_forall_ne_some.mpr fun x hx ↦ hv x (Strategy.ofValue?_eq_some.mp hx)
  rw [strategyOf, hnone]
  cases hshown : v.shown with
  | ok text => exact ⟨.invalidStrategy text, rfl, .shown hshown⟩
  | error e => exact ⟨e, rfl, .unshowable hshown⟩

/-- A value is refused as invalid, unless it is nested too deeply to be shown. -/
theorem Refuses.category {v : Value} {e : Failure} (he : Refuses v e) :
    e.category = .value ∨ e = .stackExhausted ∧ v.shown = .error .stackExhausted := by
  cases he with
  | shown hshown => exact .inl rfl
  | unshowable hshown =>
    have hfault : Value.IsUnshowable e := (v.showWithin_failsWith notationRoom).error hshown
    cases e <;> first
      | exact hfault.elim
      | exact .inl rfl
      | exact .inr ⟨rfl, hshown⟩

/-! ## Both fields -/

/-- A value for each field, by name. -/
def given (strategy trace : Value) : List (String × Value) :=
  [(Field.strategy.name, strategy), (Field.trace.name, trace)]

variable {s t : Value} {x : Strategy} {b : Bool}

theorem ofFields_given (s t : Value) : ofFields (given s t) = ofValues s t := rfl

theorem ofFields_of_valid (hs : s.Selects x) : ofFields (given s (.bool b)) = .ok ⟨x, b⟩ := by
  rw [ofFields_given, ofValues, strategyOf_of_selects hs]
  rfl

/-- A strategy at fault fails whatever the trace is. -/
theorem ofFields_of_not_selects (hs : ∀ x, ¬ s.Selects x) :
    ∃ e, Refuses s e ∧ ∀ t, ofFields (given s t) = .error e := by
  obtain ⟨e, hfails, hrefuses⟩ := strategyOf_of_not_selects hs
  refine ⟨e, hrefuses, fun t ↦ ?_⟩
  rw [ofFields_given, ofValues, hfails]
  rfl

theorem ofFields_of_not_bool (hs : s.Selects x) (ht : ∀ b, t ≠ .bool b) :
    ofFields (given s t) = .error (.traceNotBoolean t.typeName) := by
  rw [ofFields_given, ofValues, strategyOf_of_selects hs]
  cases t with
  | bool b => exact absurd rfl (ht b)
  | _ => rfl

/-- What settings are made of a value for each field, and how making them ends. -/
structure Validates (s t : Value) : Prop where
  /-- A strategy is looked up among the strategies by comparing with their words. -/
  selects (x : Strategy) : s.Selects x ↔ s.equals (.text (Text.ofString x.word)) = .ok true
  succeeds : (∃ c, ofFields (given s t) = .ok c) ↔ (∃ x, s.Selects x) ∧ ∃ b, t = .bool b
  /-- The settings are written with the word of their strategy and with the given trace. -/
  written {c : Settings} (hmade : ofFields (given s t) = .ok c) :
    s.Selects c.strategy ∧
      c.toEntries = [(.text (Text.ofString "strategy"), .text (Text.ofString c.strategy.word)),
        (.text (Text.ofString "trace"), t)]
  /-- Other entries do not count, nor does the order of the entries. -/
  remade {c : Settings} (hmade : ofFields (given s t) = .ok c) {entries : List (Value × Value)}
      (hsame : ∀ f, valueUnder? entries f = valueUnder? c.toEntries f) :
    ofDict (.dict entries) = .ok c
  fails {e : Failure} (hfails : ofFields (given s t) = .error e) :
    e.category = .value ∨ e = .stackExhausted ∧ s.shown = .error .stackExhausted
  strategyAtFault (hs : ∀ x, ¬ s.Selects x) :
    ∃ e, Refuses s e ∧ ∀ t, ofFields (given s t) = .error e
  traceAtFault {x : Strategy} (hs : s.Selects x) (ht : ∀ b, t ≠ .bool b) :
    ofFields (given s t) = .error (.traceNotBoolean t.typeName)

/-- The cases of two values for the fields. -/
theorem given_cases (s t : Value) :
    (∃ x b, s.Selects x ∧ t = .bool b) ∨ (∃ x, s.Selects x ∧ ∀ b, t ≠ .bool b) ∨
      ∀ x, ¬ s.Selects x := by
  by_cases hs : ∃ x, s.Selects x
  · obtain ⟨x, hs⟩ := hs
    by_cases ht : ∃ b, t = .bool b
    · obtain ⟨b, ht⟩ := ht
      exact .inl ⟨x, b, hs, ht⟩
    · exact .inr (.inl ⟨x, hs, not_exists.mp ht⟩)
  · exact .inr (.inr (not_exists.mp hs))

/-- Settings that have been made are those that the values stand for. -/
theorem valid_of_made {c : Settings} (hmade : ofFields (given s t) = .ok c) :
    s.Selects c.strategy ∧ t = .bool c.trace := by
  rcases given_cases s t with ⟨x, b, hs, rfl⟩ | ⟨x, hs, ht⟩ | hs
  · cases (ofFields_of_valid hs).symm.trans hmade
    exact ⟨hs, rfl⟩
  · exact nomatch (ofFields_of_not_bool hs ht).symm.trans hmade
  · obtain ⟨e, -, hfails⟩ := ofFields_of_not_selects hs
    exact nomatch (hfails t).symm.trans hmade

theorem validates (s t : Value) : Validates s t where
  selects x := Value.selects_iff_equals
  succeeds := by
    constructor
    · rintro ⟨c, hmade⟩
      obtain ⟨hs, ht⟩ := valid_of_made hmade
      exact ⟨⟨_, hs⟩, _, ht⟩
    · rintro ⟨⟨x, hs⟩, b, rfl⟩
      exact ⟨⟨x, b⟩, ofFields_of_valid hs⟩
  written {c} hmade := by
    obtain ⟨hs, rfl⟩ := valid_of_made hmade
    exact ⟨hs, rfl⟩
  remade {c} _ {entries} hsame := by
    have hsettings : ofDict (.dict entries) = ofEntries c.toEntries := ofEntries_congr hsame
    rw [hsettings, (heldBy_toEntries c).made]
  fails {e} hfails := by
    rcases given_cases s t with ⟨x, b, hs, rfl⟩ | ⟨x, hs, ht⟩ | hs
    · exact nomatch (ofFields_of_valid hs).symm.trans hfails
    · cases (ofFields_of_not_bool hs ht).symm.trans hfails
      exact .inl rfl
    · obtain ⟨e', hrefuses, hfails'⟩ := ofFields_of_not_selects hs
      cases (hfails' t).symm.trans hfails
      exact hrefuses.category
  strategyAtFault := ofFields_of_not_selects
  traceAtFault := ofFields_of_not_bool

/-! ## Dictionaries -/

/-- The value that the entries of a dictionary give a field. -/
def entryOr (entries : List (Value × Value)) (f : Field) : Value :=
  (valueUnder? entries f).getD f.standard

theorem ofDict_eq_ofFields (entries : List (Value × Value)) :
    ofDict (.dict entries) = ofFields (given (entryOr entries .strategy) (entryOr entries .trace)) := by
  rw [ofFields_given, entryOr, entryOr, ← entryValue_eq_getD, ← entryValue_eq_getD]
  rfl

/-- An entry that holds nothing is not the same as no entry. -/
theorem ofDict_of_nothing {entries : List (Value × Value)} {f : Field}
    (hf : valueUnder? entries f = some .nothing) : ∃ e, ofDict (.dict entries) = .error e := by
  rw [ofDict_eq_ofFields]
  cases hresult : ofFields (given (entryOr entries .strategy) (entryOr entries .trace)) with
  | error e => exact ⟨e, rfl⟩
  | ok c =>
    obtain ⟨hs, ht⟩ := valid_of_made hresult
    cases f with
    | strategy =>
      rw [entryOr, hf] at hs
      rcases hs with hs | hs <;> exact nomatch hs
    | trace =>
      rw [entryOr, hf] at ht
      exact nomatch ht

/-- Settings are made of exactly the values that are valid for their fields, and those from a
dictionary are made of the values that its entries give the fields, the standard ones if it has no
entry. -/
theorem ofFields_validates :
    (∀ s t, Validates s t) ∧
      ∀ entries : List (Value × Value),
        ofDict (.dict entries) =
            ofFields (given ((valueUnder? entries .strategy).getD (.strategy .recursive))
              ((valueUnder? entries .trace).getD (.bool false))) ∧
          ((∃ f, valueUnder? entries f = some .nothing) →
            ∃ e, ofDict (.dict entries) = .error e) :=
  ⟨validates, fun entries ↦ ⟨ofDict_eq_ofFields entries, fun ⟨_, hf⟩ ↦ ofDict_of_nothing hf⟩⟩

end Settings

end ShortCircuit
