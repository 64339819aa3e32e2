import ShortCircuit.CommandLine.Program

/-!
# Flags that override settings

The program puts what its flags say into the entries that the settings of the file are written as,
and makes settings from the entries. `Arguments.settings_of_none` and `Arguments.settings_of_some`
say what comes of this: the flags replace the strategy and never turn the trace off, and nothing
fails but the reading of the file.
-/

namespace ShortCircuit

/-! ## Entries under texts -/

/-- All keys of the entries are texts. -/
def TextKeys (entries : List (Value × Value)) : Prop := ∀ e ∈ entries, ∃ t, e.1 = .text t

/-- Whether an entry stands under a text. -/
def isUnder (t : Text) (e : Value × Value) : Bool := e.1.toText? == some t

/-- The entries after the value under a text has been set. -/
def setEntry (entries : List (Value × Value)) (t : Text) (v : Value) : List (Value × Value) :=
  if entries.any (isUnder t) then entries.map fun e ↦ if isUnder t e then (e.1, v) else e
  else entries ++ [(.text t, v)]

variable {entries : List (Value × Value)} {t name : Text} {v : Value}

theorem isUnder_text {t' : Text} : isUnder t (.text t', v) = decide (t' = t) := by
  rw [Bool.eq_iff_iff]
  simp [isUnder, Value.toText?]

/-- No entry stands under two texts. -/
theorem isUnder_unique {e : Value × Value} (ht : isUnder t e = true)
    (hname : isUnder name e = true) : t = name := by
  have htext : some t = some name := (eq_of_beq ht).symm.trans (eq_of_beq hname)
  exact Option.some.inj htext

/-- Whether a key that is a text equals a text can always be told. -/
theorem equalWithin_text {e : Value × Value} (he : ∃ t', e.1 = .text t') :
    Value.equalWithin comparisonRoom e.1 (.text t) = .ok (isUnder t e) := by
  obtain ⟨t', ht'⟩ := he
  rw [isUnder, ht']
  rfl

theorem anyM_equalWithin (hkeys : TextKeys entries) :
    (entries.anyM fun e ↦ Value.equalWithin comparisonRoom e.1 (.text t)) =
      .ok (entries.any (isUnder t)) := by
  induction entries with
  | nil => rfl
  | cons e rest ih =>
    obtain ⟨he, hrest⟩ := List.forall_mem_cons.mp hkeys
    rw [List.anyM, equalWithin_text he, List.any_cons]
    cases isUnder t e
    · exact ih hrest
    · rfl

theorem mapM_equalWithin (hkeys : TextKeys entries) :
    (entries.mapM fun e ↦ do
      return if ← Value.equalWithin comparisonRoom e.1 (.text t) then (e.1, v) else e) =
      (.ok (entries.map fun e ↦ if isUnder t e then (e.1, v) else e) : Except Failure _) := by
  induction entries with
  | nil => rfl
  | cons e rest ih =>
    obtain ⟨he, hrest⟩ := List.forall_mem_cons.mp hkeys
    rw [List.mapM_cons, equalWithin_text he, ih hrest]
    rfl

/-- Setting the value under a text never fails. -/
theorem insertEntry_text (hkeys : TextKeys entries) :
    Session.insertEntry entries (.text t) v = .ok (setEntry entries t v) := by
  have hhashable : (Value.text t).hashable = .ok () := rfl
  rw [Session.insertEntry, hhashable, anyM_equalWithin hkeys, mapM_equalWithin hkeys, setEntry]
  cases entries.any (isUnder t) <;> rfl

theorem TextKeys.setEntry (hkeys : TextKeys entries) : TextKeys (setEntry entries t v) := by
  intro e he
  unfold ShortCircuit.setEntry at he
  split at he
  · obtain ⟨e', he', rfl⟩ := List.mem_map.mp he
    obtain ⟨t', ht'⟩ := hkeys e' he'
    refine ⟨t', ?_⟩
    split <;> exact ht'
  · rcases List.mem_append.mp he with he | he
    · exact hkeys e he
    · obtain rfl := List.mem_singleton.mp he
      exact ⟨t, rfl⟩

/-- What stands under a text after a value has been set. -/
theorem find?_setEntry :
    ((setEntry entries t v).find? (isUnder name)).map Prod.snd =
      if t = name then some v else (entries.find? (isUnder name)).map Prod.snd := by
  unfold setEntry
  split
  case isTrue hany =>
    -- The entry that is found keeps its key, and its value unless it is the one that is set.
    have hkey : (isUnder name ∘ fun e : Value × Value ↦ if isUnder t e then (e.1, v) else e) =
        isUnder name := by
      funext e
      simp only [Function.comp_apply]
      split <;> rfl
    rw [List.find?_map, hkey, Option.map_map]
    split
    case isTrue ht =>
      obtain rfl := ht
      obtain ⟨e, he⟩ :=
        Option.isSome_iff_exists.mp (List.find?_isSome.mpr (List.any_eq_true.mp hany))
      have hunder : isUnder t e = true := List.find?_some he
      simp [he, hunder]
    case isFalse ht =>
      cases he : entries.find? (isUnder name) with
      | none => rfl
      | some e =>
        have hother : ¬ isUnder t e = true := fun hunder ↦
          ht (isUnder_unique hunder (List.find?_some he))
        simp [hother]
  case isFalse hany =>
    rw [List.find?_append]
    split
    case isTrue ht =>
      obtain rfl := ht
      have hnone : entries.find? (isUnder t) = none :=
        List.find?_eq_none.mpr fun e he hunder ↦ hany (List.any_eq_true.mpr ⟨e, he, hunder⟩)
      simp [hnone, isUnder_text]
    case isFalse ht => simp [isUnder_text, ht]

/-- The value of a field is what stands under its name. -/
theorem entryValue_eq (hkeys : TextKeys entries) (f : Settings.Field) :
    Settings.entryValue entries f =
      ((entries.find? (isUnder (Text.ofString f.name))).map Prod.snd).getD f.standard := by
  induction entries with
  | nil => rfl
  | cons e rest ih =>
    obtain ⟨⟨t, ht⟩, hrest⟩ := List.forall_mem_cons.mp hkeys
    have hfurther := ih hrest
    obtain ⟨k, v⟩ := e
    obtain rfl : k = .text t := ht
    unfold Settings.entryValue at hfurther ⊢
    by_cases hname : t = Text.ofString f.name
    · simp [isUnder_text, hname]
    · simpa [isUnder_text, hname] using hfurther

/-- A field has the value that was set last under its name, and otherwise the one from before. -/
theorem entryValue_setEntry (hkeys : TextKeys entries) (f : Settings.Field) :
    Settings.entryValue (setEntry entries t v) f =
      if t = Text.ofString f.name then v else Settings.entryValue entries f := by
  rw [entryValue_eq hkeys.setEntry, entryValue_eq hkeys, find?_setEntry]
  split <;> rfl

/-! ## Settings that entries hold -/

namespace Settings

/-- All keys are texts, and the settings are made from the entries. -/
structure HeldBy (s : Settings) (entries : List (Value × Value)) : Prop where
  keys : TextKeys entries
  made : ofEntries entries = .ok s

theorem ofEntries_eq_ok {s : Settings} :
    ofEntries entries = .ok s ↔
      strategyOf (entryValue entries .strategy) = .ok s.strategy ∧
        traceOf (entryValue entries .trace) = .ok s.trace := by
  obtain ⟨strategy, trace⟩ := s
  unfold ofEntries ofValues
  cases strategyOf (entryValue entries .strategy) with
  | error e => exact ⟨nofun, fun hboth ↦ nomatch hboth.1⟩
  | ok x =>
    cases traceOf (entryValue entries .trace) with
    | error e => exact ⟨nofun, fun hboth ↦ nomatch hboth.2⟩
    | ok y => simp [bind, Except.bind, pure, Except.pure]

/-- Without entries the settings are the standard ones. -/
theorem heldBy_nil : HeldBy {} [] := ⟨fun _ he ↦ absurd he List.not_mem_nil, rfl⟩

/-- Settings are made again from the entries that they are written as. -/
theorem heldBy_toEntries (s : Settings) : s.HeldBy s.toEntries := by
  have hkeys : TextKeys s.toEntries := by simp [TextKeys, toEntries]
  have hnames : Text.ofString Field.strategy.name ≠ Text.ofString Field.trace.name := by decide
  have hstrategy : entryValue s.toEntries .strategy = .text (s.strategy.word : String) := by
    rw [entryValue_eq hkeys]
    simp [toEntries, isUnder_text]
  have htrace : entryValue s.toEntries .trace = .bool s.trace := by
    rw [entryValue_eq hkeys]
    simp [toEntries, isUnder_text, hnames]
  refine ⟨hkeys, ofEntries_eq_ok.mpr ⟨?_, ?_⟩⟩
  · rw [hstrategy]
    cases s.strategy <;> rfl
  · rw [htrace]
    rfl

variable {s : Settings}

/-- A strategy put in by its word becomes that of the settings. -/
theorem HeldBy.setStrategy (hs : s.HeldBy entries) (x : Strategy) :
    HeldBy { s with strategy := x } (setEntry entries (Field.strategy.name : String)
      (.text (x.word : String))) := by
  obtain ⟨hstrategy, htrace⟩ := ofEntries_eq_ok.mp hs.made
  refine ⟨hs.keys.setEntry, ofEntries_eq_ok.mpr ⟨?_, ?_⟩⟩
  · rw [entryValue_setEntry hs.keys, if_pos rfl]
    cases x <;> rfl
  · rw [entryValue_setEntry hs.keys, if_neg (by decide)]
    exact htrace

/-- A trace put in is turned on. -/
theorem HeldBy.setTrace (hs : s.HeldBy entries) :
    HeldBy { s with trace := true } (setEntry entries (Field.trace.name : String)
      (.bool true)) := by
  obtain ⟨hstrategy, htrace⟩ := ofEntries_eq_ok.mp hs.made
  refine ⟨hs.keys.setEntry, ofEntries_eq_ok.mpr ⟨?_, ?_⟩⟩
  · rw [entryValue_setEntry hs.keys, if_neg (by decide)]
    exact hstrategy
  · rw [entryValue_setEntry hs.keys, if_pos rfl]
    rfl

end Settings

/-! ## Flags -/

namespace CommandLine.Arguments

variable {a : Arguments} {content : Path → Except Failure (List UInt8)}

/-- The settings that the flags leave of other settings. -/
def override (a : Arguments) (s : Settings) : Settings :=
  ⟨a.strategy.toOption.getD s.strategy, s.trace || a.verbose⟩

/-- Putting in the flags makes the settings that they leave. -/
theorem foldlM_flagEntries {s : Settings} (hs : s.HeldBy entries) :
    ∃ entries', a.flagEntries.foldlM (fun entries e ↦ Session.insertEntry entries e.1 e.2) entries =
        .ok entries' ∧ (a.override s).HeldBy entries' := by
  unfold flagEntries override
  cases a.strategy.toOption with
  | none =>
    cases a.verbose with
    | false => exact ⟨entries, rfl, by simpa using hs⟩
    | true =>
      refine ⟨_, ?_, by simpa using hs.setTrace⟩
      simp [insertEntry_text hs.keys]
  | some x =>
    have hstrategy := hs.setStrategy x
    cases a.verbose with
    | false =>
      refine ⟨_, ?_, by simpa using hstrategy⟩
      simp [insertEntry_text hs.keys]
    | true =>
      refine ⟨_, ?_, by simpa using hstrategy.setTrace⟩
      have hbind (entries : List (Value × Value)) : (Except.ok entries >>= fun entries ↦
          Session.insertEntry entries (.text (Settings.Field.trace.name : String)) (.bool true)) =
          Session.insertEntry entries (.text (Settings.Field.trace.name : String)) (.bool true) :=
        rfl
      simp [insertEntry_text hs.keys, hbind, insertEntry_text hstrategy.keys]

/-- Without a file the flags override the standard settings. -/
theorem settings_of_none (ha : a.path? = none) : a.settings C content = .ok (a.override {}) := by
  obtain ⟨entries, hfold, hheld⟩ := foldlM_flagEntries (a := a) Settings.heldBy_nil
  unfold settings fileEntries
  rw [ha]
  dsimp only [bind, Except.bind]
  rw [hfold]
  exact hheld.made

/-- The flags override the settings of the file, if they can be read. -/
theorem settings_of_some {p : Path} (ha : a.path? = some p) :
    a.settings C content = (Settings.ofFile C content p).map a.override := by
  unfold settings fileEntries
  rw [ha]
  dsimp only
  cases Settings.ofFile C content p with
  | error e => rfl
  | ok s =>
    obtain ⟨entries, hfold, hheld⟩ := foldlM_flagEntries (a := a) s.heldBy_toEntries
    dsimp only [bind, Except.bind, pure, Except.pure]
    rw [hfold]
    exact hheld.made

end CommandLine.Arguments

end ShortCircuit
