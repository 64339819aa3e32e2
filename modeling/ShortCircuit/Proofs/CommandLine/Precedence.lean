import ShortCircuit.Proofs.CommandLine.Override

/-!
# Which settings a run has

The words of a command line that asks for an evaluation are flags and their values. `Word.givens`
lists them, and `Arguments.Follows` says that the later ones of these prevail in the arguments that
are read. With what the flags do to the settings of a file, `settings_precedence` says for every
command line which settings come of it: what the file holds is kept unless a flag names it, and a
file that cannot be used is not made good by any flag.
-/

namespace ShortCircuit.CommandLine

/-! ## What a command line gives -/

/-- The strategy that a text is the word of. -/
def strategyNamed? (t : Text) : Option Strategy :=
  Strategy.all.find? fun s ↦ t = Text.ofString s.word

/-- What a text names if it stands for a path. The separator stands for none. -/
def pathText? (t : Text) : Option Text := if t = separatorText then none else some t

namespace Word

/-- The text in front, if it is a plain word. -/
def plainHead? : List Word → Option Text
  | .plain t :: _ => some t
  | _ => none

/-- The flags among the words, in order, each with its value if it takes one: that which it carries,
or the plain word behind it. -/
def givens : List Word → List (Flag × Option Text)
  | [] => []
  | .flag f _ attached :: rest =>
    (f, if f.takesValue then attached.or (plainHead? rest) else none) :: givens rest
  | .plain _ :: rest | .unknown _ :: rest | .separator :: rest => givens rest

/-- The value that a flag was given last. -/
def lastValue (givens : List (Flag × Option Text)) (f : Flag) : Option Text :=
  (givens.filterMap fun g ↦ if g.1 = f then g.2 else none).getLast?

/-- The strategy that the words ask for. -/
def strategy? (ws : List Word) : Option Strategy :=
  (lastValue (givens ws) .strategy).bind strategyNamed?

/-- The path of the file of settings that the words name. An empty path names no file. -/
def path? (ws : List Word) : Option Path :=
  match (lastValue (givens ws) .config).bind pathText? with
  | none | some [] => none
  | some t => some (Path.ofText t)

/-- Whether the words ask for a trace. -/
def isVerbose (ws : List Word) : Bool := (givens ws).any fun g ↦ g.1 = .verbose

variable {gs gs' : List (Flag × Option Text)} {f : Flag} {isShort : Bool} {rest : List Word}

theorem givens_attached (hf : f.takesValue = true) (t : Text) :
    givens (.flag f isShort (some t) :: rest) = (f, some t) :: givens rest := by
  rw [givens, if_pos hf, Option.some_or]

theorem givens_behind (hf : f.takesValue = true) (t : Text) :
    givens (.flag f isShort none :: .plain t :: rest) = (f, some t) :: givens rest := by
  rw [givens, if_pos hf, givens, Option.none_or, plainHead?]

theorem givens_switch (hf : ¬ f.takesValue = true) (attached : Option Text) :
    givens (.flag f isShort attached :: rest) = (f, none) :: givens rest := by
  rw [givens, if_neg hf]

/-- Of two lists of flags the later one prevails. -/
theorem lastValue_append (f : Flag) :
    lastValue (gs ++ gs') f = (lastValue gs' f).or (lastValue gs f) := by
  rw [lastValue, List.filterMap_append, List.getLast?_append]
  rfl

end Word

/-! ## Arguments -/

theorem bind_eq_ok {α β ε : Type} {x : Except ε α} {f : α → Except ε β} {y : β}
    (hy : (x >>= f) = .ok y) : ∃ z, x = .ok z ∧ f z = .ok y := by
  cases x with
  | error e => cases hy
  | ok z => exact ⟨z, rfl, hy⟩

namespace Arguments

open Word (givens lastValue)

/-- Arguments come out of others by the flags that are given after them. -/
structure Follows (a : Arguments) (gs : List (Flag × Option Text)) (b : Arguments) : Prop where
  strategy : b.strategy.toOption = (lastValue gs .strategy).elim a.strategy.toOption strategyNamed?
  config : b.config.toOption = (lastValue gs .config).elim a.config.toOption pathText?
  verbose : b.verbose = (a.verbose || gs.any fun g ↦ g.1 = .verbose)
  /-- No word has been taken for a strategy that is not the word of one. -/
  named {t : Text} (given : (.strategy, some t) ∈ gs) :
    t = separatorText ∨ ∃ s, strategyNamed? t = some s

variable {a b c : Arguments} {gs gs' : List (Flag × Option Text)} {f : Flag} {t : Text}

theorem Follows.refl (a : Arguments) : a.Follows [] a :=
  ⟨rfl, rfl, (Bool.or_false _).symm, fun given ↦ absurd given List.not_mem_nil⟩

theorem elim_or {α β : Type} (x y : Option α) (z : β) (g : α → β) :
    (x.or y).elim z g = x.elim (y.elim z g) g := by
  cases x <;> rfl

theorem Follows.trans (hab : a.Follows gs b) (hbc : b.Follows gs' c) : a.Follows (gs ++ gs') c := by
  refine ⟨?_, ?_, ?_, fun given ↦ ?_⟩
  · rw [hbc.strategy, hab.strategy, Word.lastValue_append, elim_or]
  · rw [hbc.config, hab.config, Word.lastValue_append, elim_or]
  · rw [hbc.verbose, hab.verbose, List.any_append, Bool.or_assoc]
  · exact (List.mem_append.mp given).elim hab.named hbc.named

theorem strategyOfWord_ok {s : Strategy} (hs : strategyOfWord t = .ok s) :
    strategyNamed? t = some s := by
  unfold strategyOfWord at hs
  unfold strategyNamed?
  cases hfind : Strategy.all.find? fun s ↦ t = Text.ofString s.word with
  | none => simp [hfind] at hs
  | some x => simpa [hfind] using hs

/-- A value that is accepted is that of its flag from then on. -/
theorem follows_withValue (hf : f.takesValue = true) (hb : a.withValue f t = .ok b) :
    a.Follows [(f, some t)] b := by
  cases f with
  | help => cases hf
  | verbose => cases hf
  | config =>
    obtain rfl := Except.ok.inj hb
    refine ⟨rfl, ?_, (Bool.or_false _).symm, fun given ↦ by simp at given⟩
    by_cases ht : t = separatorText <;> simp [lastValue, pathText?, ht, Given.toOption]
  | strategy =>
    have hlast : lastValue [(.strategy, some t)] .strategy = some t := rfl
    by_cases ht : t = separatorText
    · rw [withValue, if_pos ht] at hb
      obtain rfl := Except.ok.inj hb
      have hnone : strategyNamed? separatorText = none := by decide
      refine ⟨?_, rfl, (Bool.or_false _).symm, fun given ↦ .inl (by simpa [ht] using given)⟩
      rw [hlast, ht, Option.elim_some, hnone]
      rfl
    · rw [withValue, if_neg ht] at hb
      obtain ⟨s, hs, hb⟩ := bind_eq_ok hb
      obtain rfl := Except.ok.inj hb
      have hnamed := strategyOfWord_ok hs
      refine ⟨?_, rfl, (Bool.or_false _).symm, fun given ↦ .inr ⟨s, ?_⟩⟩
      · rw [hlast, Option.elim_some, hnamed]
        rfl
      · obtain rfl : _ = t := by simpa using given
        exact hnamed

/-- A flag without a value asks for a trace, unless it asks for the help. -/
theorem follows_verbose (hf : f ≠ .help) (hvalue : f.takesValue = false) :
    a.Follows [(f, none)] { a with verbose := true } := by
  cases f with
  | help => exact absurd rfl hf
  | strategy => cases hvalue
  | config => cases hvalue
  | verbose => exact ⟨rfl, rfl, by simp, fun given ↦ by simp at given⟩

end Arguments

/-! ## Requests -/

/-- A letter stands for its flag, whatever letters are behind it. -/
theorem mem_cluster {f : Flag} {t : Text} {flags : List Flag} (hflags : cluster f t = .ok flags) :
    f ∈ flags := by
  cases t with
  | nil =>
    obtain rfl := Except.ok.inj hflags
    exact List.mem_singleton_self f
  | cons p rest =>
    rw [cluster] at hflags
    cases hg : Flag.ofLetter? p with
    | none => simp [hg] at hflags
    | some g =>
      rw [hg] at hflags
      obtain ⟨flags', -, hflags⟩ := bind_eq_ok hflags
      obtain rfl := Except.ok.inj hflags
      exact List.mem_cons_self

theorem mem_flagsOf {f : Flag} {isShort : Bool} {attached : Option Text} {flags : List Flag}
    (hflags : flagsOf f isShort attached = .ok flags) : f ∈ flags := by
  cases attached with
  | none =>
    obtain rfl := Except.ok.inj hflags
    exact List.mem_singleton_self f
  | some t =>
    rw [flagsOf] at hflags
    split at hflags
    · exact mem_cluster hflags
    · cases hflags

/-- The arguments of an evaluation follow from the flags on its command line. -/
theorem follows_of_ofWordsAfter {a b : Arguments} {strays : List Text} {ws : List Word}
    (hb : Request.ofWordsAfter a strays ws = .ok (.evaluation b)) :
    a.Follows (Word.givens ws) b := by
  induction a, strays, ws using Request.ofWordsAfter.induct with
  | case1 a strays hstrays =>
    rw [Request.ofWordsAfter, if_pos hstrays] at hb
    cases hb
    exact .refl _
  | case2 a strays hstrays =>
    rw [Request.ofWordsAfter, if_neg hstrays] at hb
    cases hb
  | case3 a strays t rest ih => exact ih hb
  | case4 a strays t rest ih => exact ih hb
  | case5 a strays rest ih => exact ih hb
  | case6 a strays f isShort hf t rest ih =>
    rw [Request.ofWordsAfter, if_pos hf] at hb
    obtain ⟨a', hvalue, hb⟩ := bind_eq_ok hb
    rw [Word.givens_attached hf]
    exact (Arguments.follows_withValue hf hvalue).trans (ih a' hb)
  | case7 a strays f isShort hf t rest ih =>
    rw [Request.ofWordsAfter, if_pos hf] at hb
    obtain ⟨a', hvalue, hb⟩ := bind_eq_ok hb
    rw [Word.givens_behind hf]
    exact (Arguments.follows_withValue hf hvalue).trans (ih a' hb)
  | case8 a strays f isShort rest hf hrest =>
    -- The flag is in want of a value, and what is behind it is none.
    unfold Request.ofWordsAfter at hb
    rw [if_pos hf] at hb
    split at hb
    · cases ‹none = some _›
    · exact (hrest _ _ rfl).elim
    · cases hb
  | case9 a strays f isShort attached rest hf ih =>
    unfold Request.ofWordsAfter at hb
    rw [if_neg hf] at hb
    obtain ⟨flags, hflags, hb⟩ := bind_eq_ok hb
    have hvalue : f.takesValue = false := Bool.eq_false_iff.mpr hf
    rw [Word.givens_switch hf]
    by_cases hhelp : flags.contains .help = true
    · rw [if_pos hhelp] at hb
      cases hb
    · rw [if_neg hhelp] at hb
      have hother : f ≠ .help := by
        rintro rfl
        exact hhelp (List.contains_iff_mem.mpr (mem_flagsOf hflags))
      exact (Arguments.follows_verbose hother hvalue).trans (ih hb)

/-- The arguments of an evaluation are what the flags on its command line were given last. -/
theorem arguments_of_words {a : Arguments} {ws : List Word}
    (ha : Request.ofWordsAfter {} [] ws = .ok (.evaluation a)) :
    a.strategy.toOption = Word.strategy? ws ∧ a.path? = Word.path? ws ∧
      a.verbose = Word.isVerbose ws := by
  have hfollows := follows_of_ofWordsAfter ha
  have hbind {β : Type} (x : Option Text) (g : Text → Option β) : x.elim none g = x.bind g := by
    cases x <;> rfl
  refine ⟨?_, ?_, hfollows.verbose.trans (Bool.false_or _)⟩
  · rw [hfollows.strategy, Word.strategy?, ← hbind]
    rfl
  · rw [Arguments.path?, hfollows.config, Word.path?, ← hbind]
    rfl

/-- The settings that an accepted command line gives. All values of the strategy on it are words of
strategies, but for the separator. Without a file the settings are those of the flags, and the
standard ones where there is no flag. If there is a file, its failure is that of the settings, and
otherwise the strategy given last replaces that of the file, and the trace is turned on but never
off. -/
theorem settings_precedence (C : Capacity) (content : Path → Except Failure (List UInt8))
    (words : List Text) (a : Arguments) (ha : Request.ofTexts words = .ok (.evaluation a)) :
    ∃ ws, Word.ofTexts words = .ok ws ∧
      (∀ t, (.strategy, some t) ∈ Word.givens ws →
        t = separatorText ∨ ∃ s, strategyNamed? t = some s) ∧
      (Word.path? ws = none →
        a.settings C content = .ok ⟨(Word.strategy? ws).getD .recursive, Word.isVerbose ws⟩) ∧
      ∀ p, Word.path? ws = some p →
        (∀ e, Settings.ofFile C content p = .error e → a.settings C content = .error e) ∧
        ∀ s, Settings.ofFile C content p = .ok s →
          a.settings C content =
            .ok ⟨(Word.strategy? ws).getD s.strategy, s.trace || Word.isVerbose ws⟩ := by
  obtain ⟨ws, hws, hrequest⟩ := bind_eq_ok ha
  obtain ⟨hstrategy, hpath, hverbose⟩ := arguments_of_words hrequest
  have hoverride (s : Settings) : a.override s =
      ⟨(Word.strategy? ws).getD s.strategy, s.trace || Word.isVerbose ws⟩ := by
    rw [Arguments.override, hstrategy, hverbose]
  refine ⟨ws, hws, fun t ↦ (follows_of_ofWordsAfter hrequest).named, fun hnone ↦ ?_,
    fun p hp ↦ ⟨fun e he ↦ ?_, fun s hs ↦ ?_⟩⟩
  · calc
      a.settings C content = .ok (a.override {}) := Arguments.settings_of_none (hpath.trans hnone)
      _ = .ok ⟨(Word.strategy? ws).getD .recursive, Word.isVerbose ws⟩ := by
        rw [hoverride, Bool.false_or]
  · calc
      a.settings C content = (Settings.ofFile C content p).map a.override :=
        Arguments.settings_of_some (hpath.trans hp)
      _ = .error e := by
        rw [he]
        rfl
  · calc
      a.settings C content = (Settings.ofFile C content p).map a.override :=
        Arguments.settings_of_some (hpath.trans hp)
      _ = .ok ⟨(Word.strategy? ws).getD s.strategy, s.trace || Word.isVerbose ws⟩ := by
        rw [hs, Except.map, hoverride]

theorem eq_ok_of_toOption {ε α : Type} {x : Except ε α} {y : α} (hx : x.toOption = some y) :
    x = .ok y := by
  cases x with
  | error e => cases hx
  | ok z => exact congrArg Except.ok (Option.some.inj hx)

/-- A command line with flags that are shortened or repeated. -/
def overridingWords : List Text :=
  ["--str", "recursive", "-v", "--conf=a.json", "--strategy=iterative", "-vv"].map Text.ofString

/-- What counts on this command line. -/
def overridingArguments : Arguments := ⟨.value .iterative, .value (Text.ofString "a.json"), true⟩

/-- The path on this command line. -/
def overriddenPath : Path := Path.ofText (Text.ofString "a.json")

/-- A text that stands under every path. -/
def sameContent (text : String) (_ : Path) : Except Failure (List UInt8) :=
  .ok (text.toList.map fun c ↦ c.toNat.toUInt8)

theorem givens_overridingWords {ws : List Word} (hws : Word.ofTexts overridingWords = .ok ws) :
    Word.givens ws =
      [(.strategy, some (Text.ofString "recursive")), (.verbose, none),
        (.config, some (Text.ofString "a.json")), (.strategy, some (Text.ofString "iterative")),
        (.verbose, none)] := by
  have hgivens : (Word.ofTexts overridingWords).toOption.map Word.givens =
      some [(.strategy, some (Text.ofString "recursive")), (.verbose, none),
        (.config, some (Text.ofString "a.json")), (.strategy, some (Text.ofString "iterative")),
        (.verbose, none)] := by
    decide +kernel
  rw [hws] at hgivens
  exact Option.some.inj hgivens

/-- The file gives way to the flags where they name something else, and to its own failure whatever
they name. -/
theorem settings_precedence_overridingWords :
    Request.ofTexts overridingWords = .ok (.evaluation overridingArguments) ∧
      Settings.ofFile .usual (sameContent "\x7b\"trace\": false\x7d") overriddenPath =
        .ok ⟨.recursive, false⟩ ∧
      overridingArguments.settings .usual (sameContent "\x7b\"trace\": false\x7d") =
        .ok ⟨.iterative, true⟩ ∧
      overridingArguments.settings .usual (fun _ ↦ .error .embeddedNull) = .error .embeddedNull := by
  have hrequest : Request.ofTexts overridingWords = .ok (.evaluation overridingArguments) :=
    eq_ok_of_toOption (by decide +kernel)
  have hfile : Settings.ofFile .usual (sameContent "\x7b\"trace\": false\x7d") overriddenPath =
      .ok ⟨.recursive, false⟩ := eq_ok_of_toOption (by decide +kernel)
  obtain ⟨ws, hws, -, -, hvalid⟩ := settings_precedence .usual
    (sameContent "\x7b\"trace\": false\x7d") overridingWords overridingArguments hrequest
  obtain ⟨ws', hws', -, -, hinvalid⟩ := settings_precedence .usual (fun _ ↦ .error .embeddedNull)
    overridingWords overridingArguments hrequest
  obtain rfl : ws = ws' := Except.ok.inj (hws.symm.trans hws')
  have hgivens := givens_overridingWords hws
  have hpath : Word.path? ws = some overriddenPath := by
    rw [Word.path?, hgivens]
    decide +kernel
  have hstrategy : Word.strategy? ws = some .iterative := by
    rw [Word.strategy?, hgivens]
    decide +kernel
  have hverbose : Word.isVerbose ws = true := by
    rw [Word.isVerbose, hgivens]
    decide +kernel
  refine ⟨hrequest, hfile, ?_, (hinvalid _ hpath).1 _ rfl⟩
  rw [(hvalid _ hpath).2 _ hfile, hstrategy, hverbose]
  rfl

end ShortCircuit.CommandLine
