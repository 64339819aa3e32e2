import ShortCircuit.Files.Tree
import ShortCircuit.Proofs.CommandLine.Override
import ShortCircuit.Proofs.Reading.Json
import ShortCircuit.Proofs.Reading.Stream
import ShortCircuit.Proofs.Settings.Loading

/-!
# Settings from JSON documents

A JSON document gives settings if it is an object whose entries for the fields are valid or absent,
or if it is `null`; `Settings.ofFile_json` says that there is no other way. By
`Settings.not_refused_null` the rule that only objects are taken fails for `null`, which is treated
like a text that holds nothing.
-/

namespace ShortCircuit.Settings

/-- The members of an object give the settings: under the name of a field stands its value, or
nothing if that is the standard one. -/
structure IsGivenBy (s : Settings) (members : List (Text × Value)) : Prop where
  strategy : (members.lookup (Text.ofString Field.strategy.name)).elim (s.strategy = .recursive)
    fun v ↦ v = .text (Text.ofString s.strategy.word)
  trace : (members.lookup (Text.ofString Field.trace.name)).elim (s.trace = false)
    fun v ↦ v = .bool s.trace

theorem valueUnder?_members (members : List (Text × Value)) (f : Field) :
    valueUnder? (members.map fun m ↦ (.text m.1, m.2)) f =
      members.lookup (Text.ofString f.name) := by
  induction members with
  | nil => rfl
  | cons m rest ih =>
    rw [List.map_cons, valueUnder?_cons_text, ih, List.lookup_cons]
    by_cases hname : m.1 = Text.ofString f.name
    · simp [hname]
    · simp [hname, beq_eq_false_iff_ne.mpr (Ne.symm hname)]

/-- Among documents only the word of a strategy stands for it. -/
theorem strategyOf_document {v : Value} (hv : Json.IsDocument v) (x : Strategy) :
    strategyOf v = .ok x ↔ v = .text (Text.ofString x.word) := by
  have hfault : ∀ w : Value, strategyOf w = .ok x → Strategy.ofValue? w = some x := by
    intro w hw
    unfold strategyOf at hw
    cases hfound : Strategy.ofValue? w with
    | some s => simpa [hfound] using hw
    | none =>
      rw [hfound] at hw
      cases hshown : w.shown <;> simp [hshown, bind, Except.bind, throw, throwThe,
        MonadExceptOf.throw] at hw
  constructor
  · intro hok
    have hfound := hfault v hok
    cases hv with
    | text t =>
      have hword := List.find?_some hfound
      rw [decide_eq_true_eq] at hword
      rw [hword]
    | _ => exact nomatch hfound
  · rintro rfl
    cases x <;> rfl

theorem traceOf_eq_ok {v : Value} {b : Bool} : traceOf v = .ok b ↔ v = .bool b := by
  cases v <;> simp [traceOf]

theorem ofEntries_members {members : List (Text × Value)}
    (hmembers : ∀ m ∈ members, Json.IsDocument m.2) (s : Settings) :
    ofEntries (members.map fun m ↦ (.text m.1, m.2)) = .ok s ↔ s.IsGivenBy members := by
  have hfound : ∀ {name v}, members.lookup name = some v → Json.IsDocument v := by
    intro name v hlookup
    obtain ⟨l₁, l₂, hsplit, -⟩ := List.lookup_eq_some_iff.mp hlookup
    exact hmembers (name, v) (by simp [hsplit])
  have hstrategy : strategyOf ((members.lookup (Text.ofString Field.strategy.name)).getD
      Field.strategy.standard) = .ok s.strategy ↔
      (members.lookup (Text.ofString Field.strategy.name)).elim (s.strategy = .recursive)
        fun v ↦ v = .text (Text.ofString s.strategy.word) := by
    cases hlookup : members.lookup (Text.ofString Field.strategy.name) with
    | none => exact ⟨fun h ↦ (Except.ok.inj h).symm, fun h ↦ congrArg Except.ok h.symm⟩
    | some v => exact strategyOf_document (hfound hlookup) s.strategy
  have htrace : traceOf ((members.lookup (Text.ofString Field.trace.name)).getD
      Field.trace.standard) = .ok s.trace ↔
      (members.lookup (Text.ofString Field.trace.name)).elim (s.trace = false)
        fun v ↦ v = .bool s.trace := by
    cases members.lookup (Text.ofString Field.trace.name) with
    | none => exact ⟨fun h ↦ (Except.ok.inj h).symm, fun h ↦ congrArg Except.ok h.symm⟩
    | some v => exact traceOf_eq_ok
  rw [ofEntries_eq_ok, entryValue_eq_getD, entryValue_eq_getD, valueUnder?_members,
    valueUnder?_members, hstrategy, htrace]
  exact ⟨fun h ↦ ⟨h.1, h.2⟩, fun h ↦ ⟨h.strategy, h.trace⟩⟩

variable {C : Capacity} {content : Path → Except Failure (List UInt8)} {path : Path}
  {octets : List UInt8} {document : Value}

/-- A text of ASCII is read by its characters. -/
theorem readJson_ascii {cs : List Char} (hascii : ∀ c ∈ cs, c.toNat < 0x80) :
    readJson C (Utf8.encode (.ofChars cs)) = Json.read (jsonLimits C) (Lines.normalize cs) := by
  obtain ⟨hoctets, hchars⟩ := Utf8.encode_ascii hascii
  rw [readJson, Utf8.decode_ascii hoctets, hchars]

theorem readJson_isDocument (hread : readJson C octets = .ok document) :
    Json.IsDocument document := by
  unfold readJson at hread
  split at hread
  · exact Json.read_isDocument hread
  · exact nomatch hread

/-- A file that can be read as JSON gives settings if it holds an object whose entries for the
fields are valid or absent, or `null`, which gives the standard ones. What is neither is refused. -/
theorem ofFile_json (hopen : content path = .ok octets)
    (hsuffix : path.suffix = Text.ofString ".json") (hread : readJson C octets = .ok document) :
    (∀ s, ofFile C content path = .ok s ↔
      (document = .nothing ∧ s = {}) ∨
        ∃ members, document = Json.objectValue members ∧ s.IsGivenBy members) ∧
      (document ≠ .nothing → (∀ members, document ≠ Json.objectValue members) →
        ofFile C content path = .error (.notMapping document.typeName) ∧
          (Failure.notMapping document.typeName).category = .value) := by
  have hdocument := readJson_isDocument hread
  have hnamed : Format.json.IsNamed path.suffix := hsuffix
  have hloaded : ofFile C content path = ofDocument document := by
    rw [ofFile_of_named hopen hnamed, Format.read, hread]
    rfl
  rw [hloaded]
  refine ⟨fun s ↦ ?_, fun hnothing hobject ↦
    ⟨ofDocument_of_other hnothing (hdocument.ne_dict hobject), rfl⟩⟩
  cases hdocument with
  | nothing =>
    have hstandard : ofDocument .nothing = .ok s ↔ s = {} :=
      ⟨fun h ↦ (Except.ok.inj h).symm, fun h ↦ h ▸ rfl⟩
    simp [hstandard, Json.objectValue]
  | @object members hnames hmembers =>
    have hentries : ofDocument (Json.objectValue members) = .ok s ↔ s.IsGivenBy members :=
      ofEntries_members hmembers s
    have hne : Json.objectValue members ≠ .nothing := by
      intro heq
      cases heq
    simp [hentries, hne, Json.objectValue_inj]
  | _ => simp [ofDocument, Json.objectValue]

/-- A file that holds a text, and nothing else. -/
def jsonFile (text : String) : Tree :=
  [([Text.ofString "a.JSON"], .file (Utf8.encode (Text.ofString text)))]

/-- The path of the file. -/
def jsonPath : Path := .ofText (Text.ofString "a.JSON")

/-- A member that the object lacks has its standard value, and a list is refused. -/
theorem ofFile_json_trace :
    ofFile .usual (jsonFile "\x7b\"trace\": true\x7d").read jsonPath = .ok ⟨.recursive, true⟩ ∧
      ofFile .usual (jsonFile "[]").read jsonPath = .error (.notMapping "list") := by
  have htrace : readJson .usual (Utf8.encode (Text.ofString "\x7b\"trace\": true\x7d")) =
      .ok (Json.objectValue [(Text.ofString "trace", .bool true)]) := by
    rw [Text.ofString, readJson_ascii (by simp)]
    with_unfolding_all rfl
  have hlist : readJson .usual (Utf8.encode (Text.ofString "[]")) = .ok (.list []) := by
    rw [Text.ofString, readJson_ascii (by simp)]
    rfl
  constructor
  · refine ((ofFile_json rfl (by decide) htrace).1 _).mpr (.inr ⟨_, rfl, ?_, ?_⟩)
    · rfl
    · rfl
  · exact ((ofFile_json rfl (by decide) hlist).2 nofun nofun).1

/-- Not all that is no object is refused. -/
theorem not_refused_null :
    ¬ ∀ (C : Capacity) (tree : Tree) (path : Path) (octets : List UInt8) (document : Value),
      tree.read path = .ok octets → path.suffix = Text.ofString ".json" →
      readJson C octets = .ok document → (∀ entries, document ≠ .dict entries) →
      ∃ e, ofFile C tree.read path = .error e ∧ e.category = .value := by
  intro hall
  have hnull : readJson .usual (Utf8.encode (Text.ofString "null")) = .ok .nothing := by
    rw [Text.ofString, readJson_ascii (by simp)]
    rfl
  have hsuffix : jsonPath.suffix = Text.ofString ".json" := by decide
  have hnamed : Format.json.IsNamed jsonPath.suffix := hsuffix
  have hstandard : ofFile .usual (jsonFile "null").read jsonPath = .ok {} := by
    rw [ofFile_of_named rfl hnamed, Format.read, hnull]
    rfl
  have hne (entries : List (Value × Value)) : Value.nothing ≠ .dict entries := by
    intro heq
    cases heq
  obtain ⟨e, he, -⟩ := hall .usual (jsonFile "null") jsonPath _ .nothing rfl hsuffix hnull hne
  cases hstandard.symm.trans he

end ShortCircuit.Settings
