import ShortCircuit.Proofs.Reading.Value
import ShortCircuit.Proofs.Reading.Yaml.Graph

/-!
# Failures of reading data

From the graph of a document to its data: a scalar may not be what its tag says, and what is merged
or compared may be nested too deeply. With that every failure of reading YAML is known.
-/

namespace ShortCircuit.Yaml

/-! ## Scalars -/

namespace Number

theorem unsigned_failsWith (t : Text) : FailsWith IsFault (unsigned t) := by
  unfold unsigned
  split
  · trivial
  · split
    · trivial
    · split <;> trivial

theorem integerOf_failsWith (base : Nat) (t : Text) : FailsWith IsFault (integerOf base t) := by
  unfold integerOf
  split <;> trivial

theorem magnitude_failsWith (t : Text) : FailsWith IsFault (magnitude t) := by
  simp only [magnitude]
  split
  · trivial
  · split
    · trivial
    split
    · exact integerOf_failsWith _ _
    split
    · exact integerOf_failsWith _ _
    split
    · exact integerOf_failsWith _ _
    split
    · exact ((composes_failsWith IsFault).mapM (integerOf_failsWith 10) _).bind fun _ _ ↦ trivial
    · exact integerOf_failsWith _ _

theorem integer_failsWith (t : Text) : FailsWith IsFault (integer t) :=
  (unsigned_failsWith _).bind fun r _ ↦ (magnitude_failsWith r.2).bind fun _ _ ↦ trivial

theorem doubleOf_failsWith (t : Text) : FailsWith IsFault (doubleOf t) := by
  unfold doubleOf
  split <;> trivial

theorem sexagesimal_failsWith (sum : Float) (place : Nat) (digits : List Float) :
    FailsWith IsFault (sexagesimal sum place digits) := by
  induction digits generalizing sum place with
  | nil => trivial
  | cons digit rest ih =>
    simp only [sexagesimal]
    split
    · trivial
    · exact ih _ _

theorem double_failsWith (t : Text) : FailsWith IsFault (double t) := by
  refine (unsigned_failsWith _).bind fun r _ ↦ ?_
  dsimp only
  split
  · trivial
  split
  · trivial
  split
  · refine ((composes_failsWith IsFault).mapM doubleOf_failsWith _).bind fun digits _ ↦ ?_
    exact (sexagesimal_failsWith _ _ _).bind fun _ _ ↦ trivial
  · exact (doubleOf_failsWith _).bind fun _ _ ↦ trivial

end Number

theorem Timestamp.toValue_failsWith (t : Timestamp) : FailsWith IsFault t.toValue := by
  unfold toValue
  split
  · split <;> trivial
  · simp only
    split
    · trivial
    · split <;> trivial

namespace Building

theorem boolean_failsWith (text : Text) : FailsWith IsFault (boolean text) := by
  simp only [boolean]
  split
  · trivial
  · split <;> trivial

theorem octets_failsWith (text : Text) : FailsWith IsFault (octets text) := by
  unfold octets
  split
  · split <;> trivial
  · trivial

theorem timestamp_failsWith (text : Text) : FailsWith IsFault (timestamp text) := by
  unfold timestamp
  split
  · exact Timestamp.toValue_failsWith _
  · trivial

theorem scalarValue_failsWith (number : Nat) (n : Node) (text : Text) :
    FailsWith IsFault (scalarValue number n text) := by
  unfold scalarValue
  split
  · trivial
  · exact boolean_failsWith text
  · exact (Number.integer_failsWith text).bind fun _ _ ↦ trivial
  · exact (Number.double_failsWith text).bind fun _ _ ↦ trivial
  · exact octets_failsWith text
  · exact timestamp_failsWith text
  all_goals trivial

/-! ## Building -/

variable {α β : Type}

/-- Building fails only with failures of the list, whatever has been built before. -/
def Builds (m : Building α) : Prop := ∀ b, FailsWith IsFault (m.run b)

theorem builds_pure (a : α) : Builds (pure a) := fun _ ↦ trivial

theorem builds_throw {e : Failure} (he : IsFault e) : Builds (throw e : Building α) := fun _ ↦ he

theorem builds_lift {x : Except Failure α} (hx : FailsWith IsFault x) :
    Builds (liftM x : Building α) :=
  fun _ ↦ Ends.bind hx fun _ _ ↦ trivial

theorem builds_get : Builds (get : Building Builder) := fun _ ↦ trivial

theorem builds_modify (f : Builder → Builder) : Builds (modify f : Building Unit) := fun _ ↦ trivial

theorem Builds.bind {m : Building α} {f : α → Building β} (hm : Builds m)
    (hf : ∀ a, Builds (f a)) : Builds (m >>= f) :=
  fun b ↦ Ends.bind (hm b) fun r _ ↦ hf r.1 r.2

theorem composes_builds : Composes fun α (x : Building α) ↦ Builds x where
  pure := builds_pure
  bind := Builds.bind

theorem node_builds (number : Nat) : Builds (node number) := fun _ ↦ trivial

theorem datum?_builds (number : Nat) : Builds (datum? number) := fun _ ↦ trivial

theorem setDatum_builds (number : Nat) (d : Datum) : Builds (setDatum number d) := fun _ ↦ trivial

theorem setNode_builds (number : Nat) (n : Node) : Builds (setNode number n) := fun _ ↦ trivial

/-! ## Data -/

theorem scalarText_builds (room number : Nat) : Builds (scalarText room number) := by
  induction room generalizing number with
  | zero => exact builds_throw trivial
  | succ room ih =>
    refine (node_builds number).bind fun n ↦ ?_
    split
    · exact builds_pure _
    · exact builds_throw trivial
    · have hfound (e : Nat × Nat) : Builds (do return (← node e.1).tag == .value) :=
        (node_builds e.1).bind fun _ ↦ builds_pure _
      refine (composes_builds.findM? hfound _).bind fun found ↦ ?_
      split
      · exact ih _
      · exact builds_throw trivial

theorem make_builds (links number : Nat) : Builds (make links number) := by
  refine (datum?_builds number).bind fun d ↦ ?_
  split
  · exact builds_pure _
  refine (node_builds number).bind fun n ↦ ?_
  split
  · exact (setDatum_builds _ _).bind fun _ ↦ builds_modify _
  · dsimp only
    split
    · exact builds_throw trivial
    · refine (scalarText_builds _ number).bind fun text ↦ ?_
      exact (builds_lift (scalarValue_failsWith _ _ _)).bind fun v ↦ setDatum_builds _ _

theorem makeKey_builds (links number : Nat) : Builds (makeKey links number) := by
  refine (make_builds links number).bind fun _ ↦ (datum?_builds number).bind fun d ↦ ?_
  split
  · exact builds_pure _
  · exact builds_throw trivial

/-! ## Mappings -/

theorem setEntries_builds (number : Nat) (entries : List (Nat × Nat)) :
    Builds (setEntries number entries) :=
  (node_builds number).bind fun _ ↦ setNode_builds _ _

theorem entries_builds (number : Nat) : Builds (entries number) := by
  refine (node_builds number).bind fun n ↦ ?_
  split
  · exact builds_pure _
  · exact builds_throw trivial

theorem nextMerge_builds (index : Nat) (own : List (Nat × Nat)) : Builds (nextMerge index own) := by
  induction own generalizing index with
  | nil => exact builds_pure _
  | cons e rest ih =>
    refine (node_builds e.1).bind fun key ↦ ?_
    split
    · exact builds_pure _
    · dsimp only
      split
      · exact (setNode_builds _ _).bind fun _ ↦ ih _
      · exact ih _

section

variable {flatten : Nat → Building (List (Nat × Nat))}
  (hflatten : ∀ number, Builds (flatten number))
include hflatten

theorem mergeable_builds (number : Nat) : Builds (mergeable flatten number) := by
  refine (node_builds number).bind fun n ↦ ?_
  split
  · exact hflatten number
  · exact composes_builds.foldlM (fun _ item ↦ (hflatten item).bind fun _ ↦ builds_pure _) _ _
  · exact builds_throw trivial

theorem mergeFrom_builds (number fuel index : Nat) (merged : List (Nat × Nat)) :
    Builds (mergeFrom flatten number fuel index merged) := by
  induction fuel generalizing index merged with
  | zero => exact builds_throw trivial
  | succ fuel ih =>
    refine (entries_builds number).bind fun own ↦ (nextMerge_builds _ _).bind fun next ↦ ?_
    split
    · split
      · exact setEntries_builds _ _
      · exact builds_pure _
    · refine (setEntries_builds _ _).bind fun _ ↦ ?_
      exact (mergeable_builds hflatten _).bind fun brought ↦ ih _ _

end

theorem flatten_builds (room number : Nat) : Builds (flatten room number) := by
  induction room generalizing number with
  | zero => exact (entries_builds number).bind fun _ ↦ builds_throw trivial
  | succ room ih =>
    exact (entries_builds number).bind fun own ↦
      (mergeFrom_builds ih _ _ _ _).bind fun _ ↦ entries_builds number

theorem isSpecial_builds (number : Nat) : Builds (isSpecial number) :=
  (node_builds number).bind fun _ ↦ builds_pure _

theorem mergedEntries_builds (links number : Nat) : Builds (mergedEntries links number) := by
  refine (entries_builds number).bind fun own ↦ ?_
  refine (composes_builds.anyM (fun e : Nat × Nat ↦ isSpecial_builds e.1) own).bind fun special ↦ ?_
  split
  · exact flatten_builds _ number
  · exact builds_pure _

theorem isFault_of_isTooDeep {e : Failure} (he : Value.IsTooDeep e) : IsFault e := by
  rw [he]
  trivial

theorem equalWithin_failsWith (room : Nat) (k k' : Value) :
    FailsWith IsFault (k.equalWithin room k') :=
  (Value.equalWithin_failsWith room k k').mono (fun _ ↦ isFault_of_isTooDeep) fun _ h ↦ h

theorem putEntry_failsWith (room : Nat) (before : List (Value × Nat)) (k : Value) (v : Nat)
    (es : List (Value × Nat)) : FailsWith IsFault (putEntry room before k v es) := by
  induction es generalizing before with
  | nil => trivial
  | cons e rest ih =>
    refine (equalWithin_failsWith room e.1 k).bind fun b _ ↦ ?_
    split
    · trivial
    · exact ih _

theorem dictEntries_builds (links number : Nat) : Builds (dictEntries links number) := by
  refine (mergedEntries_builds links number).bind fun es ↦ ?_
  refine composes_builds.foldlM (fun soFar e ↦ ?_) es []
  refine (makeKey_builds links e.1).bind fun k ↦ (make_builds links e.2).bind fun _ ↦ ?_
  exact builds_lift (putEntry_failsWith _ _ _ _ _)

theorem pair_builds (links number : Nat) : Builds (pair links number) := by
  refine (entries_builds number).bind fun es ↦ ?_
  split
  · exact (make_builds links _).bind fun _ ↦ (make_builds links _).bind fun _ ↦ builds_pure _
  · exact builds_throw trivial

/-! ## Collections -/

theorem items_builds (number : Nat) : Builds (items number) := by
  refine (node_builds number).bind fun n ↦ ?_
  split
  · exact builds_pure _
  · exact builds_throw trivial

theorem fill_builds (links number : Nat) : Builds (fill links number) := by
  refine (node_builds number).bind fun n ↦ ?_
  split
  · exact (dictEntries_builds links number).bind fun _ ↦ setDatum_builds _ _
  · exact (dictEntries_builds links number).bind fun _ ↦ setDatum_builds _ _
  · refine (items_builds number).bind fun items ↦ ?_
    exact (composes_builds.mapM (pair_builds links) items).bind fun _ ↦ setDatum_builds _ _
  · refine (items_builds number).bind fun items ↦ ?_
    exact (composes_builds.forM (make_builds links) items).bind fun _ ↦ setDatum_builds _ _

theorem fillAll_builds (links fuel : Nat) : Builds (fillAll links fuel) := by
  induction fuel with
  | zero => exact builds_pure _
  | succ fuel ih =>
    refine builds_get.bind fun b ↦ ?_
    split
    · exact builds_pure _
    · refine (builds_modify _).bind fun _ ↦ ?_
      exact (composes_builds.forM (fill_builds links) _).bind fun _ ↦ ih

end Building

theorem Data.ofGraph_failsWith (links : Nat) (g : Graph) :
    FailsWith IsFault (Data.ofGraph links g) := by
  unfold Data.ofGraph
  split
  · trivial
  case h_2 root _ =>
    have hbuilds := (Building.make_builds links root).bind fun _ ↦
      Building.fillAll_builds links (g.nodes.size + 1)
    exact (hbuilds _).bind fun _ _ ↦ trivial

theorem read_failsWith (C : Capacity) (keys : List Text) (octets : List UInt8) :
    FailsWith IsFault (read C keys octets) := by
  have hevents : (Event.ofTokens (Token.ofChars (Source.ofOctets octets))).Sound :=
    Event.sound_ofTokens (Token.sound_ofChars (Source.sound_ofOctets octets))
  have hdata : FailsWith IsFault (data C octets) :=
    (Graph.ofEvents_failsWith C.yaml hevents).bind fun g _ ↦ Data.ofGraph_failsWith C.links g
  exact hdata.bind fun _ _ ↦ trivial

end ShortCircuit.Yaml
