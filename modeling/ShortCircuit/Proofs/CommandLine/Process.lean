import Mathlib.Data.List.Forall2
import ShortCircuit.Proofs.CommandLine.Ending
import ShortCircuit.Proofs.Evaluation.Transparency

/-!
# Runs in one process

The first run that gets past its command line decides for the whole process whether logs are shown.
`runAll_isolated` says that nothing else is handed on: every run has the status and the output that
it has alone, and what it shows of its log is settled by its own settings and that one decision.
-/

namespace ShortCircuit.CommandLine

variable {C : Capacity} {content : Path → Except Failure (List UInt8)} {words : List Text}

/-- Whether a run is verbose, if it gets past its command line. -/
def verbosity? (words : List Text) : Option Bool :=
  match Request.ofTexts words with
  | .ok (.evaluation a) => some a.verbose
  | .ok .help | .error _ => none

/-- What the runs of a process decide about their logs: the first one past its command line does. -/
def Process.ofRuns (runs : List (List Text)) : Process := runs.findSome? verbosity?

/-- The records of the log that a run shows. -/
def Ending.shown : Ending → List Record
  | .finished _ shown => shown
  | .helped | .misused _ | .refused _ | .failed _ => []

/-! ## What is handed on -/

/-- A run settles the process if it gets past its command line and nothing is settled yet. -/
theorem run_snd (C : Capacity) (content : Path → Except Failure (List UInt8)) (words : List Text)
    (p : Process) :
    (run C content words p).2 = p.or (verbosity? words) := by
  unfold run verbosity?
  cases Request.ofTexts words with
  | error m => exact Option.or_none.symm
  | ok request =>
    cases request with
    | help => exact Option.or_none.symm
    | evaluation a => cases p <;> rfl

/-- A run ends as it would if what it settles had been settled before. -/
theorem run_settled (C : Capacity) (content : Path → Except Failure (List UInt8))
    (words : List Text) (p q : Process) :
    (run C content words (p.or ((verbosity? words).or q))).1 = (run C content words p).1 := by
  unfold run verbosity?
  cases Request.ofTexts words with
  | error m => rfl
  | ok request =>
    cases request with
    | help => rfl
    | evaluation a => cases p <;> rfl

/-- All runs of a process end as if the process had been settled before the first one. -/
theorem runAll_eq_map (C : Capacity) (content : Path → Except Failure (List UInt8))
    (runs : List (List Text)) (p : Process) :
    runAll C content runs p =
      runs.map fun words ↦ (run C content words (p.or (Process.ofRuns runs))).1 := by
  induction runs generalizing p with
  | nil => rfl
  | cons words rest ih =>
    have hruns : Process.ofRuns (words :: rest) = (verbosity? words).or (Process.ofRuns rest) := by
      rw [Process.ofRuns, List.findSome?_cons, Process.ofRuns]
      cases verbosity? words <;> rfl
    have hrest : (run C content words p).2.or (Process.ofRuns rest) =
        p.or (Process.ofRuns (words :: rest)) := by
      rw [run_snd, hruns, Option.or_assoc]
    calc
      runAll C content (words :: rest) p =
          (run C content words p).1 :: runAll C content rest (run C content words p).2 := rfl
      _ = (run C content words p).1 ::
          rest.map fun words' ↦
            (run C content words' (p.or (Process.ofRuns (words :: rest)))).1 := by
        rw [ih, hrest]
      _ = (words :: rest).map fun words' ↦
          (run C content words' (p.or (Process.ofRuns (words :: rest)))).1 := by
        rw [List.map_cons, hruns, run_settled]

/-- The status and the output do not depend on whether logs are shown. -/
theorem evaluation_unshown (settings : Except Failure Settings) (showsLog showsLog' : Bool) :
    (evaluation settings showsLog).status = (evaluation settings showsLog').status ∧
      (evaluation settings showsLog).output = (evaluation settings showsLog').output := by
  cases settings with
  | error e => exact ⟨rfl, rfl⟩
  | ok s =>
    simp only [evaluation]
    cases evaluateReference s Session.start <;> exact ⟨rfl, rfl⟩

/-- The status and the output of a run do not depend on the process. -/
theorem run_alone (C : Capacity) (content : Path → Except Failure (List UInt8))
    (words : List Text) (p q : Process) :
    (run C content words p).1.status = (run C content words q).1.status ∧
      (run C content words p).1.output = (run C content words q).1.output := by
  unfold run
  cases Request.ofTexts words with
  | error m => exact ⟨rfl, rfl⟩
  | ok request =>
    cases request with
    | help => exact ⟨rfl, rfl⟩
    | evaluation a => exact evaluation_unshown ..

/-! ## The log of an evaluation -/

/-- The visits of the evaluation of the reference tree. -/
def referenceVisits : List (Visit Value Store) :=
  referenceHost.visits {} referenceRoom referenceCondition (referenceWorld {})

/-- The reference tree is traversed by these visits, and is false. -/
theorem exists_referenceTraversal : ∃ s', referenceHost.Traversal [] referenceCondition
    (referenceWorld {}).state referenceVisits (.ok false) s' := by
  obtain ⟨vs, r, s', ht⟩ :=
    referenceHost.exists_traversal [] (referenceWorld {}).state referenceCondition
  obtain ⟨hwalk, hvisits⟩ :=
    Host.walk_eq ht (Host.not_exhausts_of_depth_le {} depth_referenceCondition_le)
  have hr : r = .ok false := (congrArg Prod.fst hwalk).symm.trans (walk_reference {})
  rw [referenceVisits, hvisits, ← hr]
  exact ⟨s', ht⟩

/-- The leaves of the reference tree log nothing, so the log consists of the notes of the visits. -/
theorem journal_reference (trace : Bool) :
    referenceHost.journal trace referenceVisits =
      if trace then referenceVisits.flatMap referenceHost.noteOf else [] := by
  cases trace <;> decide +kernel

example :
    let leaf := Record.enteredLeaf "LeafCondition"
    referenceVisits.flatMap referenceHost.noteOf =
      [.enteredGroup .or 3, .enteredGroup .and 2, leaf, .enteredGroup .or 2, leaf, leaf,
        .enteredGroup .and 3, leaf, leaf, .enteredGroup .and 2, .enteredGroup .and 2,
        .enteredGroup .or 2, leaf, leaf] := by
  decide +kernel

/-- The records of an evaluation of the reference tree by a new evaluator. -/
def referenceLog (notes : List Record) (s : Settings) : List Record :=
  .initialized s :: (if s.trace then notes else []) ++ [.evaluated false s.strategy]

/-- A new evaluator finds the reference tree false, and leaves the log of its evaluation. -/
theorem evaluateReference_eq (s : Settings) :
    ∃ w, evaluateReference s Session.start = .ok false w ∧
      w.log.toList = referenceLog (referenceVisits.flatMap referenceHost.noteOf) s := by
  obtain ⟨s', ht⟩ := exists_referenceTraversal
  rw [evaluateReference_start, Session.ofWorld, Host.evaluate_eq (w := referenceWorld s) ht
    (Host.not_exhausts_of_depth_le s depth_referenceCondition_le), journal_reference]
  refine ⟨_, rfl, ?_⟩
  simp [referenceLog, referenceWorld, World.extend, Strategy.closing]

/-- A run that has its settings finds the reference tree false, and shows its whole log or nothing
of it. -/
theorem evaluation_shown (s : Settings) (showsLog : Bool) :
    evaluation (.ok s) showsLog = .finished false
      (if showsLog then referenceLog (referenceVisits.flatMap referenceHost.noteOf) s else []) := by
  obtain ⟨w, hw, hlog⟩ := evaluateReference_eq s
  rw [evaluation, hw, ← hlog]

/-! ## The lines of a log -/

/-- A record is written as the time, the level, the name of the logger and the message, with the end
of a line. -/
theorem toList_logLine (time : String) (r : Record) :
    (logLine time r).toList = time.toList ++ " DEBUG ".toList ++ loggerName.toList ++ ": ".toList ++
      r.message.toList ++ ['\n'] := by
  simp [logLine, toString]

/-- No line ends inside a record. -/
theorem count_newline_logLine {time : String} (htime : '\n' ∉ time.toList) (r : Record) :
    (logLine time r).toList.count '\n' = 1 := by
  have hmessage : r.message.toList.count '\n' = 0 := by
    cases r <;> simp [Record.message]
  have hname : loggerName.toList.count '\n' = 0 := by decide
  simp [toList_logLine, List.count_append, List.count_eq_zero.mpr htime, hmessage, hname]

theorem join_logLine_ne_empty {time : String} {records : List Record} :
    String.join (records.map (logLine time)) ≠ "" ↔ records ≠ [] := by
  cases records with
  | nil => simp
  | cons r rest =>
    have hwritten : (String.join ((r :: rest).map (logLine time))).toList ≠ [] := by
      simp [toList_logLine]
    exact iff_of_true (fun hempty ↦ hwritten (congrArg String.toList hempty)) nofun

/-- A log has a line for each of its records. -/
theorem count_newline_join_logLine {time : String} (htime : '\n' ∉ time.toList)
    (records : List Record) :
    (String.join (records.map (logLine time))).toList.count '\n' = records.length := by
  simp [List.count_flatMap, Function.comp_def, count_newline_logLine htime]

/-! ## The runs of a process -/

/-- A process that has a run past its command line is settled. -/
theorem exists_settled {runs : List (List Text)} {a : Arguments} (hwords : words ∈ runs)
    (ha : Request.ofTexts words = .ok (.evaluation a)) :
    ∃ showsLog, Process.ofRuns runs = some showsLog := by
  have hverbosity : (verbosity? words).isSome = true := by rw [verbosity?, ha]; rfl
  exact Option.isSome_iff_exists.mp (List.findSome?_isSome_iff.mpr ⟨words, hwords, hverbosity⟩)

/-- Failures to open files, failures of values, and malformed documents are reported. -/
theorem isReported_of_category {e : Failure}
    (he : (∃ fault, e.category = .file fault) ∨
      e.category ∈ [Category.value, .json, .decoding, .yaml]) : isReported e = true := by
  unfold isReported
  obtain ⟨fault, hfault⟩ | he := he
  · rw [hfault]
  · simp only [List.mem_cons, List.not_mem_nil, or_false] at he
    obtain he | he | he | he := he <;> rw [he]

/-- How a run of the words ends if nothing but the decision of the process reaches it. The notes are
those of the traced evaluation of the reference tree. -/
structure EndsAlone (C : Capacity) (tree : Tree) (process : Process) (notes : List Record)
    (words : List Text) (ending : Ending) : Prop where
  status_eq : ending.status = (run C tree.read words none).1.status
  output_eq : ending.output = (run C tree.read words none).1.output
  /-- With settings, the run prints the value of the tree. -/
  prints : ∀ a s, Request.ofTexts words = .ok (.evaluation a) → a.settings C tree.read = .ok s →
    ending.status = 0 ∧ ending.output = "False\n"
  /-- With settings, the run writes its log if that is shown, and nothing else. -/
  writes : ∀ a s, Request.ofTexts words = .ok (.evaluation a) → a.settings C tree.read = .ok s →
    (ending.shown ≠ [] ↔ process = some true) ∧
      ending.shown = (if process = some true then referenceLog notes s else []) ∧
      ∀ time, ending.diagnostics time = String.join (ending.shown.map (logLine time))
  /-- With settings, the run writes something if and only if its log is shown, a line for each
  record. -/
  lines : ∀ a s, Request.ofTexts words = .ok (.evaluation a) → a.settings C tree.read = .ok s →
    ∀ time, (ending.diagnostics time ≠ "" ↔ process = some true) ∧
      ('\n' ∉ time.toList →
        (ending.diagnostics time).toList.count '\n' = ending.shown.length)
  /-- Without settings, the run reports an expected failure and prints nothing. -/
  refuses : ∀ a e, Request.ofTexts words = .ok (.evaluation a) → a.settings C tree.read = .error e →
    (∃ fault, e.category = .file fault) ∨
      e.category ∈ [Category.value, .json, .decoding, .yaml] →
    ending.status = 2 ∧ ending.output = ""
  /-- Without settings, the run writes why, and nothing of a log. -/
  explains : ∀ a e, Request.ofTexts words = .ok (.evaluation a) →
    a.settings C tree.read = .error e →
    ending.shown = [] ∧ ∀ time, ending.diagnostics time =
      if isReported e then s!"error: {e.message}\n" else e.message ++ "\n"

/-- A run under the decision of a process that it belongs to. -/
theorem run_endsAlone (C : Capacity) (tree : Tree) {runs : List (List Text)}
    (hwords : words ∈ runs) :
    EndsAlone C tree (Process.ofRuns runs) (referenceVisits.flatMap referenceHost.noteOf) words
      (run C tree.read words (Process.ofRuns runs)).1 where
  status_eq := (run_alone ..).1
  output_eq := (run_alone ..).2
  prints a s ha hs := by
    rw [run_of_evaluation _ ha, hs, evaluation_shown]
    exact ⟨rfl, rfl⟩
  writes a s ha hs := by
    obtain ⟨showsLog, hsettled⟩ := exists_settled hwords ha
    rw [run_of_evaluation _ ha, hs, evaluation_shown, hsettled]
    cases showsLog <;> simp [Ending.shown, Ending.diagnostics, referenceLog]
  lines a s ha hs time := by
    obtain ⟨showsLog, hsettled⟩ := exists_settled hwords ha
    rw [run_of_evaluation _ ha, hs, evaluation_shown, hsettled]
    refine ⟨join_logLine_ne_empty.trans ?_, fun htime ↦ count_newline_join_logLine htime _⟩
    cases showsLog <;> simp [referenceLog]
  refuses a e ha he hcategory := by
    rw [run_of_evaluation _ ha, he, evaluation, if_pos (isReported_of_category hcategory)]
    exact ⟨rfl, rfl⟩
  explains a e ha he := by
    rw [run_of_evaluation _ ha, he, evaluation]
    cases isReported e <;> exact ⟨rfl, fun _ ↦ rfl⟩

/-- The runs of a process hand on nothing but whether logs are shown. Every run has the status and
the output that it has alone, and shows the log of its own settings if the first run past its
command line is verbose. The notes in such a log are those of the traversal of the reference
tree. -/
theorem runAll_isolated (C : Capacity) (tree : Tree) (runs : List (List Text)) :
    ∃ vs s', referenceHost.Traversal [] referenceCondition (referenceWorld {}).state vs
        (.ok false) s' ∧
      List.Forall₂ (EndsAlone C tree (Process.ofRuns runs) (vs.flatMap referenceHost.noteOf)) runs
        (runAll C tree.read runs none) := by
  obtain ⟨s', ht⟩ := exists_referenceTraversal
  refine ⟨referenceVisits, s', ht, ?_⟩
  rw [runAll_eq_map, List.forall₂_map_right_iff, List.forall₂_same]
  exact fun words hwords ↦ run_endsAlone C tree hwords

-- Misuse settles nothing. The verbose run that lacks its file does, for itself and all later ones.
example :
    let ends := runAll .usual (Tree.read [])
      ([["--strategy"], ["-v", "--config", "a.yaml"], [], ["-v"]].map (·.map Text.ofString)) none
    ends.map (fun ending ↦ (ending.status, ending.output, ending.shown.length)) =
      [(2, "", 0), (2, "", 0), (0, "False\n", 2), (0, "False\n", 16)] := by
  decide +kernel

end ShortCircuit.CommandLine
