import ShortCircuit.Proofs.Reading.Yaml.Token

/-!
# Failures of reading nodes

From tokens over events to the graph of a document. A document may be malformed or nested too
deeply, and what is wrong with its text is found on the way.
-/

namespace ShortCircuit.Yaml

/-! ## Events -/

namespace EventReader

variable {shortage : Failure} {r : EventReader}

theorem fullTag_failsWith (t : WrittenTag) : FailsWith IsFault (r.fullTag t) := by
  unfold fullTag
  split
  · trivial
  · split <;> trivial

theorem mapM_fullTag_failsWith (t : Option WrittenTag) :
    FailsWith IsFault (t.mapM r.fullTag) := by
  cases t with
  | none => trivial
  | some t => exact (fullTag_failsWith t).map fun _ _ ↦ trivial

theorem directives_failsWith (hasVersion : Bool) (handles : List (String × String))
    (tokens : List Token) : FailsWith IsFault (directives hasVersion handles tokens) := by
  fun_induction directives hasVersion handles tokens with
  | case1 | case3 => trivial
  | case2 _ _ _ _ _ ih | case4 _ _ _ _ _ _ ih | case5 _ _ _ ih => exact ih
  | case6 => trivial

variable (hs : IsFault shortage)
include hs

theorem nodeContent_failsWith (position : Position) (anchor tag : Option String)
    (tokens : List Token) :
    FailsWith IsFault (r.nodeContent shortage position anchor tag tokens) := by
  simp only [nodeContent]
  split
  · exact hs
  case h_10 => split <;> trivial
  all_goals trivial

theorem node_failsWith (position : Position) : FailsWith IsFault (r.node shortage position) := by
  unfold node
  split
  · trivial
  · split
    · exact hs
    · exact (mapM_fullTag_failsWith _).bind fun tag _ ↦ nodeContent_failsWith hs _ _ tag _

theorem afterIndicator_failsWith (position : Position) (ends : List Token) (goal : Goal)
    (tokens : List Token) :
    FailsWith IsFault (r.afterIndicator shortage position ends goal tokens) := by
  unfold afterIndicator
  split
  · exact hs
  · split <;> trivial

theorem document_failsWith : FailsWith IsFault (r.document shortage) := by
  unfold document
  split
  · trivial
  · trivial
  · refine (directives_failsWith _ _ _).bind fun found _ ↦ ?_
    dsimp only
    split
    · exact hs
    · trivial
    · trivial

theorem flowEntry_failsWith (tokens : List Token) :
    FailsWith IsFault (r.flowEntry shortage tokens) := by
  unfold flowEntry
  split
  · exact hs
  all_goals trivial

theorem flowPair_failsWith (tokens : List Token) :
    FailsWith IsFault (r.flowPair shortage tokens) := by
  unfold flowPair
  split
  · exact hs
  · trivial
  · exact afterIndicator_failsWith hs _ _ _ _
  · trivial

theorem pursue_failsWith (goal : Goal) : FailsWith IsFault (r.pursue shortage goal) := by
  unfold pursue
  split
  · exact hs
  · split <;> trivial
  · exact document_failsWith hs
  · split <;> trivial
  all_goals first
    | exact node_failsWith hs _
    | exact afterIndicator_failsWith hs _ _ _ _
    | exact flowEntry_failsWith hs _
    | exact flowPair_failsWith hs _
    | trivial

theorem sound_run (fuel : Nat) (before : List Event) : (run shortage fuel before r).Sound := by
  induction fuel generalizing before r with
  | zero => exact Supply.sound_some trivial
  | succ fuel ih =>
    unfold run
    split
    · exact Supply.sound_none
    case h_2 goal goals _ =>
      have hgoal := pursue_failsWith (r := { r with goals }) hs goal
      split
      case h_1 e he => exact Supply.sound_some (hgoal.error he)
      · exact ih _

end EventReader

/-- From sound tokens come sound events. -/
theorem Event.sound_ofTokens {s : Supply Token} (hs : s.Sound) : (Event.ofTokens s).Sound :=
  EventReader.sound_run hs.shortage _ []

/-! ## Nodes -/

namespace GraphReader

variable {r : GraphReader}

theorem add_failsWith (anchor : Option String) (n : Node) :
    FailsWith IsFault (r.add anchor n) := by
  unfold add
  split
  · trivial
  · split <;> trivial

theorem openNode_failsWith (nesting : Nat) (p : Properties) (isMapping : Bool) :
    FailsWith IsFault (r.openNode nesting p isMapping) := by
  simp only [openNode]
  refine (add_failsWith _ _).bind fun r _ ↦ ?_
  split
  · trivial
  · trivial

theorem take_failsWith (nesting : Nat) (r : GraphReader) (e : Event) :
    FailsWith IsFault (r.take nesting e) := by
  unfold take
  split
  · split <;> trivial
  · trivial
  · trivial
  · split <;> trivial
  · exact (add_failsWith _ _).bind fun r _ ↦ trivial
  · exact openNode_failsWith nesting _ false
  · exact openNode_failsWith nesting _ true
  · trivial
  · trivial

end GraphReader

theorem Graph.ofEvents_failsWith (nesting : Nat) {s : Supply Event} (hs : s.Sound) :
    FailsWith IsFault (Graph.ofEvents nesting s) := by
  have hitems := (composes_failsWith IsFault).foldlM (GraphReader.take_failsWith nesting) s.items {}
  refine hitems.bind fun r _ ↦ ?_
  split
  case h_1 e he => exact hs e he
  · trivial

end ShortCircuit.Yaml
