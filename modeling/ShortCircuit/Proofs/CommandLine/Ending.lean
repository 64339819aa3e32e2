import ShortCircuit.Proofs.CommandLine.Override
import ShortCircuit.Proofs.Evaluation.Limit
import ShortCircuit.Proofs.Reading.Nesting
import ShortCircuit.Proofs.Reading.Settings

/-!
# How runs of the program end

The evaluation of the reference tree always succeeds, so whether a run ends in good order is a
matter of its settings. Most failures to read them are reported; `run_ends` names the others, and
says that a run ends in good order if and only if it comes to none of them.
-/

namespace ShortCircuit.CommandLine

/-! ## The reference tree -/

/-- The reference tree, as the first evaluation of a session makes it. -/
def referenceCondition : Condition Value :=
  match Session.referenceTree ⟨{ nextId := firstFreshId + 1 }, #[]⟩ with
  | .ok v _ => v.toCondition
  | .error _ _ => .atom .nothing

/-- The world in which the reference tree is evaluated. -/
def referenceWorld (s : Settings) : World Store :=
  ⟨{ nextId := firstFreshId + 9 }, #[.initialized s]⟩

/-- The host of the reference tree. -/
abbrev referenceHost : Host Value Value Store Failure := Session.host Session.nestingLimit

/-- The room in which the reference tree is evaluated. -/
abbrev referenceRoom : Nat := Session.walkRoom Session.nestingLimit

theorem evaluateReference_start (s : Settings) :
    evaluateReference s Session.start =
      Session.ofWorld (referenceHost.evaluate s referenceRoom referenceCondition)
        (referenceWorld s) := by
  obtain ⟨strategy, trace⟩ := s
  cases strategy <;> rfl

theorem recurse_reference (s : Settings) :
    (referenceHost.walk ⟨.recursive, s.trace⟩ referenceRoom referenceCondition
      (referenceWorld s)).1.toOption = some false := by
  obtain ⟨strategy, trace⟩ := s
  cases strategy <;> cases trace <;> decide +kernel

theorem depth_referenceCondition_le : referenceCondition.depth ≤ referenceRoom := by decide +kernel

theorem walk_reference (s : Settings) :
    (referenceHost.walk s referenceRoom referenceCondition (referenceWorld s)).1 = .ok false := by
  have hwalk : referenceHost.walk s referenceRoom referenceCondition (referenceWorld s) =
      referenceHost.walk ⟨.recursive, s.trace⟩ referenceRoom referenceCondition
        (referenceWorld s) := by
    obtain ⟨strategy, trace⟩ := s
    cases strategy with
    | recursive => rfl
    | iterative => exact
      (referenceHost.walk_recursive_eq_iterative trace _ depth_referenceCondition_le).1.symm
  have hrecursive := recurse_reference s
  rw [hwalk]
  generalize (referenceHost.walk ⟨.recursive, s.trace⟩ referenceRoom referenceCondition
    (referenceWorld s)).1 = result at hrecursive ⊢
  cases result with
  | ok b =>
    obtain rfl : b = false := Option.some.inj hrecursive
    rfl
  | error e => cases hrecursive

/-- The reference tree is false, whatever the settings are. -/
theorem evaluateReference_eq_false (s : Settings) :
    ∃ w, evaluateReference s Session.start = .ok false w := by
  have hwalk := walk_reference s
  rw [evaluateReference_start, Session.ofWorld, Host.evaluate]
  generalize referenceHost.walk s referenceRoom referenceCondition (referenceWorld s) = walked
    at hwalk
  obtain ⟨result, w⟩ := walked
  obtain rfl : result = .ok false := hwalk
  exact ⟨_, rfl⟩

/-! ## Failures that are not reported -/

/-- The failures to read a file of settings that the program does not expect: of scalars that are
not what their tag says, of numbers that are too great for their use, and of documents that are
nested too deeply. -/
def IsUnforeseen : Failure → Prop
  | .noBoolean _ | .emptyNumber | .noTimestamp | .timestampNotText | .weightTooGreat
  | .stackExhausted => True
  | .noCodePoint number => wordLimit ≤ number
  | _ => False

theorem isReported_iff {e : Failure} (he : Settings.IsFault e) :
    isReported e = true ↔ ¬ IsUnforeseen e := by
  cases he with
  | yaml he =>
    cases e with
    | noCodePoint number =>
      rw [IsUnforeseen, Nat.not_le]
      by_cases hnumber : number < wordLimit <;> simp [isReported, Failure.category, hnumber]
    | _ => first
      | exact he.elim
      | simp [isReported, Failure.category, IsUnforeseen]
  | _ => simp [isReported, Failure.category, IsUnforeseen]

/-! ## Endings -/

/-- A run ends in good order if it shows how it is used, gives its result, or reports a failure with
the status 2 and nothing on its output. -/
def Ending.IsOrderly (time : String) (ending : Ending) : Prop :=
  (∃ m, ending = .misused m) ∨ ending = .helped ∨ (∃ b shown, ending = .finished b shown) ∨
    (ending.status = 2 ∧ ending.output = "" ∧
      ∃ message, ending.diagnostics time = "error: " ++ message ++ "\n")

/-- The status tells whether a failure has escaped. -/
theorem Ending.isOrderly_iff {time : String} {ending : Ending} :
    ending.IsOrderly time ↔ ending.status ≠ 1 := by
  cases ending with
  | refused e => simpa [IsOrderly, status, output, diagnostics] using ⟨e.message, rfl⟩
  | misused | helped | failed | finished => simp [IsOrderly, status]

/-- Once there are settings, a run gives a result, which is the value of the reference tree. -/
theorem evaluation_of_ok {settings : Except Failure Settings} {s : Settings} (showsLog : Bool)
    (hs : settings = .ok s) : ∃ shown, evaluation settings showsLog = .finished false shown := by
  obtain ⟨w, hw⟩ := evaluateReference_eq_false s
  rw [hs, evaluation, hw]
  exact ⟨_, rfl⟩

/-- Without settings, a run reports the failure unless it is unforeseen. -/
theorem evaluation_of_error {settings : Except Failure Settings} {e : Failure} (showsLog : Bool)
    (he : Settings.IsFault e) (hs : settings = .error e) :
    (IsUnforeseen e ∧ evaluation settings showsLog = .failed e) ∨
      (¬ IsUnforeseen e ∧ evaluation settings showsLog = .refused e) := by
  have hreported := isReported_iff he
  rw [hs, evaluation]
  split
  case isTrue h => exact .inr ⟨hreported.mp h, rfl⟩
  case isFalse h => exact .inl ⟨not_not.mp (mt hreported.mpr h), rfl⟩

/-! ## Runs -/

variable {C : Capacity}

/-- Why the file of settings that a command line names gives no settings, if it does not. -/
def settingsFailure? (C : Capacity) (tree : Tree) (words : List Text) : Option Failure :=
  match opened? words with
  | none => none
  | some path => match Settings.ofFile C tree.read path with
    | .ok _ => none
    | .error e => some e

theorem settingsFailure?_eq_some {tree : Tree} {words : List Text} {e : Failure} :
    settingsFailure? C tree words = some e ↔
      ∃ path, opened? words = some path ∧ Settings.ofFile C tree.read path = .error e := by
  unfold settingsFailure?
  cases opened? words with
  | none => simp
  | some path => cases hfile : Settings.ofFile C tree.read path <;> simp [hfile]

theorem isFault_of_settingsFailure? {tree : Tree} {words : List Text} {e : Failure}
    (he : settingsFailure? C tree words = some e) : Settings.IsFault e := by
  obtain ⟨path, -, hfile⟩ := settingsFailure?_eq_some.mp he
  exact (Settings.ofFile_failsWith C tree path).error hfile

/-- The settings of an evaluation are those of its file, which its flags override. -/
theorem settings_eq (C : Capacity) (tree : Tree) {words : List Text} {a : Arguments}
    (ha : Request.ofTexts words = .ok (.evaluation a)) :
    match settingsFailure? C tree words with
    | none => ∃ s, a.settings C tree.read = .ok s
    | some e => a.settings C tree.read = .error e := by
  have hopened : opened? words = a.path? := by rw [opened?, ha]
  unfold settingsFailure?
  rw [hopened]
  cases hpath : a.path? with
  | none => exact ⟨_, Arguments.settings_of_none hpath⟩
  | some path =>
    dsimp only
    rw [Arguments.settings_of_some hpath]
    cases Settings.ofFile C tree.read path with
    | ok s => exact ⟨_, rfl⟩
    | error e => rfl

theorem run_of_evaluation {tree : Tree} {words : List Text} {a : Arguments} (p : Process)
    (ha : Request.ofTexts words = .ok (.evaluation a)) :
    (run C tree.read words p).1 = evaluation (a.settings C tree.read) (p.getD a.verbose) := by
  rw [run, ha]

/-- Only an evaluation can lack its settings. -/
theorem exists_arguments {tree : Tree} {words : List Text} {e : Failure}
    (he : settingsFailure? C tree words = some e) :
    ∃ a, Request.ofTexts words = .ok (.evaluation a) := by
  obtain ⟨path, hopened, -⟩ := settingsFailure?_eq_some.mp he
  unfold opened? at hopened
  split at hopened
  case h_1 a ha => exact ⟨a, ha⟩
  · cases hopened

/-- Without a failure to find settings, a run shows how it is used or gives its result. -/
theorem run_of_none {tree : Tree} {words : List Text} (p : Process)
    (hnone : settingsFailure? C tree words = none) :
    (∃ m, (run C tree.read words p).1 = .misused m) ∨ (run C tree.read words p).1 = .helped ∨
      ∃ shown, (run C tree.read words p).1 = .finished false shown := by
  cases hrequest : Request.ofTexts words with
  | error m => exact .inl ⟨m, by rw [run, hrequest]⟩
  | ok request =>
    cases request with
    | help => exact .inr (.inl (by rw [run, hrequest]))
    | evaluation a =>
      have hsettings := settings_eq C tree hrequest
      rw [hnone] at hsettings
      obtain ⟨s, hs⟩ := hsettings
      rw [run_of_evaluation p hrequest]
      exact .inr (.inr (evaluation_of_ok _ hs))

/-- With such a failure, a run reports it unless it is unforeseen. -/
theorem run_of_some {tree : Tree} {words : List Text} {e : Failure} (p : Process)
    (he : settingsFailure? C tree words = some e) :
    (IsUnforeseen e ∧ (run C tree.read words p).1 = .failed e) ∨
      (¬ IsUnforeseen e ∧ (run C tree.read words p).1 = .refused e) := by
  obtain ⟨a, ha⟩ := exists_arguments he
  have hsettings := settings_eq C tree ha
  rw [he] at hsettings
  rw [run_of_evaluation p ha]
  exact evaluation_of_error _ (isFault_of_settingsFailure? he) hsettings

/-- A JSON document of more opening brackets than there is room for is not reported, whatever the
command line says besides its path. -/
theorem run_tooDeep {tree : Tree} {words : List Text} {path : Path} {brackets : Nat} (p : Process)
    (hpath : opened? words = some path)
    (hformat : Settings.Format.ofSuffix? path.suffix = some .json)
    (hcontent : tree.read path = .ok (List.replicate brackets 0x5B))
    (hdeep : C.json < brackets) :
    (run C tree.read words p).1 = .failed .stackExhausted := by
  have hfailure : settingsFailure? C tree words = some .stackExhausted :=
    settingsFailure?_eq_some.mpr ⟨path, hpath, Settings.ofFile_tooDeep hdeep hformat hcontent⟩
  obtain ⟨-, hrun⟩ | ⟨hforeseen, -⟩ := run_of_some p hfailure
  · exact hrun
  · exact (hforeseen trivial).elim

/-- A run ends in good order if and only if it comes to no unforeseen failure to read its settings.
Such a failure escapes from the run, and any other one is reported. -/
theorem run_ends (C : Capacity) (tree : Tree) (words : List Text) (p : Process) (time : String) :
    ((run C tree.read words p).1.IsOrderly time ↔
        ∀ e, settingsFailure? C tree words = some e → ¬ IsUnforeseen e) ∧
      ∀ e, settingsFailure? C tree words = some e →
        (IsUnforeseen e ∧ (run C tree.read words p).1 = .failed e) ∨
          (¬ IsUnforeseen e ∧ (run C tree.read words p).1 = .refused e) := by
  refine ⟨?_, fun e he ↦ run_of_some p he⟩
  cases hfailure : settingsFailure? C tree words with
  | none =>
    refine iff_of_true ?_ (by simp)
    obtain hmisused | hhelped | ⟨shown, hfinished⟩ := run_of_none p hfailure
    · exact .inl hmisused
    · exact .inr (.inl hhelped)
    · exact .inr (.inr (.inl ⟨false, shown, hfinished⟩))
  | some e =>
    obtain ⟨hunforeseen, hrun⟩ | ⟨hforeseen, hrun⟩ := run_of_some p hfailure
    · rw [hrun, Ending.isOrderly_iff]
      exact iff_of_false (fun h ↦ h rfl) fun h ↦ h e rfl hunforeseen
    · rw [hrun, Ending.isOrderly_iff]
      refine iff_of_true (by simp [Ending.status]) fun e' he' ↦ ?_
      obtain rfl : e = e' := Option.some.inj he'
      exact hforeseen

/-- A file of settings of the given text, and nothing else. -/
def straySettings (text : String) : Tree :=
  [([Text.ofString "a.yaml"], .file (text.toList.map fun c ↦ c.toNat.toUInt8))]

/-- The command line that names the file. -/
def strayWords : List Text := [Text.ofString "--config", Text.ofString "a.yaml"]

/-- A text that is tagged as a boolean and is none lets the failure of its word escape. -/
theorem run_noBoolean :
    (settingsFailure? .usual (straySettings "!!bool x") strayWords).isSome = true ∧
      (run .usual (straySettings "!!bool x").read strayWords none).1.diagnostics "" = "'x'\n" ∧
      ¬ (run .usual (straySettings "!!bool x").read strayWords none).1.IsOrderly "" := by
  rw [Ending.isOrderly_iff]
  decide +kernel

example :
    ["!!int ''", "!!timestamp x", "!!timestamp \x7b=: x\x7d", "\"\\UFFFFFFFF\""].map (fun text ↦
      (run .usual (straySettings text).read strayWords none).1.diagnostics "") =
    ["string index out of range\n", "'NoneType' object has no attribute 'groupdict'\n",
      "expected string or bytes-like object, got 'list'\n",
      "Python int too large to convert to C int\n"] := by
  decide +kernel

end ShortCircuit.CommandLine
