import ShortCircuit.Proofs.Files.NormalForm
import ShortCircuit.Settings.File

/-!
# Loading settings

`Settings.Loads` says what comes of loading settings from a written path, whichever of the possible
faults come together: the path, its suffix, the octets, the text and the entries are looked at one
after the other. `Settings.ofFile_loads` says that this is what is done, that paths with one normal
form are not told apart, and that nothing counts of a mapping but its entries under the names of the
fields.
-/

namespace ShortCircuit.Settings

/-! ## Entries -/

/-- What stands under the name of a field, if there is an entry under it. -/
def valueUnder? (entries : List (Value × Value)) (f : Field) : Option Value :=
  entries.findSome? fun e ↦ match e.1 with
    | .text t => if t = Text.ofString f.name then some e.2 else none
    | _ => none

variable {entries entries' : List (Value × Value)} {f : Field}

theorem valueUnder?_cons_text (t : Text) (v : Value) :
    valueUnder? ((.text t, v) :: entries) f =
      if t = Text.ofString f.name then some v else valueUnder? entries f := by
  unfold valueUnder?
  by_cases ht : t = Text.ofString f.name <;> simp [ht]

theorem entryValue_eq_getD (entries : List (Value × Value)) (f : Field) :
    entryValue entries f = (valueUnder? entries f).getD f.standard := by
  induction entries with
  | nil => rfl
  | cons e rest ih =>
    obtain ⟨k, v⟩ := e
    cases k with
    | text t =>
      rw [valueUnder?_cons_text]
      unfold entryValue at ih ⊢
      by_cases ht : t = Text.ofString f.name <;> simp [ht, ih]
    | _ => exact ih

/-- Settings depend on nothing but the entries under the names of the fields. -/
theorem ofEntries_congr (h : ∀ f, valueUnder? entries f = valueUnder? entries' f) :
    ofEntries entries = ofEntries entries' := by
  simp only [ofEntries, entryValue_eq_getD, h]

/-! ## Entries that are needed -/

/-- Whether the entries under a key are needed, given the keys whose entries are. -/
def isNeeded (keys : List Text) : Value → Bool
  | .text t => keys.contains t
  | _ => false

/-- An entry under the name of a field remains if such entries are needed. -/
theorem valueUnder?_needed {α : Type} {keys : List Text} (hkeys : Text.ofString f.name ∈ keys)
    (entries : List (Value × α)) (g : α → Value) :
    valueUnder? ((entries.filter fun e ↦ isNeeded keys e.1).map fun e ↦ (e.1, g e.2)) f =
      valueUnder? (entries.map fun e ↦ (e.1, g e.2)) f := by
  induction entries with
  | nil => rfl
  | cons e rest ih =>
    obtain ⟨k, x⟩ := e
    cases k with
    | text t =>
      rw [List.map_cons, valueUnder?_cons_text, List.filter_cons]
      by_cases ht : t = Text.ofString f.name
      · rw [if_pos (by simpa [isNeeded, ht] using hkeys), List.map_cons, valueUnder?_cons_text,
          if_pos ht, if_pos ht]
      · rw [if_neg ht]
        split
        · rw [List.map_cons, valueUnder?_cons_text, if_neg ht, ih]
        · exact ih
    | _ => exact ih

/-- It does not matter which other entries of a document are needed. -/
theorem ofDocument_needed {keys : List Text} (hkeys : ∀ k ∈ fieldKeys, k ∈ keys) (d : Yaml.Data) :
    ofDocument (d.needed keys) = ofDocument (d.needed fieldKeys) := by
  unfold Yaml.Data.needed
  cases d.root with
  | none => rfl
  | some root =>
    dsimp only
    cases d.datum root with
    | dict found =>
      refine ofEntries_congr fun f ↦ ?_
      have hname : Text.ofString f.name ∈ fieldKeys := by cases f <;> simp [fieldKeys]
      exact (valueUnder?_needed (hkeys _ hname) found _).trans
        (valueUnder?_needed hname found _).symm
    | _ => rfl

variable {C : Capacity}

theorem read_bind_ofDocument {keys : List Text} (hkeys : ∀ k ∈ fieldKeys, k ∈ keys)
    (octets : List UInt8) :
    Yaml.read C keys octets >>= ofDocument = Yaml.read C fieldKeys octets >>= ofDocument := by
  unfold Yaml.read
  cases Yaml.data C octets with
  | error e => rfl
  | ok d => exact ofDocument_needed hkeys d

/-! ## Files -/

/-- The suffixes, in lower case, that name a format. -/
def Format.IsNamed : Format → Text → Prop
  | .json, suffix => suffix = Text.ofString ".json"
  | .yaml, suffix => suffix = Text.ofString ".yaml" ∨ suffix = Text.ofString ".yml"

theorem ofSuffix?_eq_some {suffix : Text} {format : Format} :
    Format.ofSuffix? suffix = some format ↔ format.IsNamed suffix := by
  have hother : Text.ofString ".yaml" ≠ Text.ofString ".json" ∧
      Text.ofString ".yml" ≠ Text.ofString ".json" := by decide
  unfold Format.ofSuffix? Format.IsNamed
  cases format <;> grind

/-- What a loader makes of octets. A JSON text is decoded as a whole before it is parsed, a YAML
text while it is parsed; of a mapping more entries may be loaded than those of the fields. -/
inductive Format.Gives (C : Capacity) (octets : List UInt8) : Format → Except Failure Value → Prop
  | undecodable {e : Utf8.Error} (hdecode : Utf8.decode octets = .error e) :
    Gives C octets .json (.error (.undecodable e))
  | decoded {cs : List Char} (hdecode : Utf8.decode octets = .ok cs) :
    Gives C octets .json (Json.read (jsonLimits C) (Lines.normalize cs))
  | yaml {keys : List Text} (hkeys : ∀ k ∈ fieldKeys, k ∈ keys) :
    Gives C octets .yaml (Yaml.read C keys octets)

theorem Format.gives_read (C : Capacity) (format : Format) (octets : List UInt8) :
    format.Gives C octets (format.read C octets) := by
  cases format with
  | json =>
    rw [Format.read, readJson]
    cases hdecode : Utf8.decode octets with
    | ok cs => exact .decoded hdecode
    | error e => exact .undecodable hdecode
  | yaml => exact .yaml fun _ hk ↦ hk

/-- Whatever a loader gives comes to the same settings. -/
theorem Format.Gives.bind_ofDocument {format : Format} {octets : List UInt8}
    {loaded : Except Failure Value} (hgives : format.Gives C octets loaded) :
    loaded >>= ofDocument = format.read C octets >>= ofDocument := by
  cases hgives with
  | undecodable hdecode | decoded hdecode => rw [Format.read, readJson, hdecode]
  | yaml hkeys => exact read_bind_ofDocument hkeys octets

variable {content : Path → Except Failure (List UInt8)} {t : Text}

/-- The path can be opened for reading, and its suffix names the format. -/
structure Selects (content : Path → Except Failure (List UInt8)) (t : Text) (octets : List UInt8)
    (format : Format) : Prop where
  opened : content (.ofText t) = .ok octets
  named : ∃ suffix, Path.HasSuffix (Path.ofText t).name suffix ∧ format.IsNamed suffix.toLower

/-- What comes of loading settings from a written path, `content` being what stands under a path. -/
inductive Loads (C : Capacity) (content : Path → Except Failure (List UInt8)) (t : Text) :
    Except Failure Settings → Prop
  | unopened {e : Failure} (hopen : content (.ofText t) = .error e) : Loads C content t (.error e)
  | unsupported {octets : List UInt8} {suffix : Text} (hopen : content (.ofText t) = .ok octets)
    (hsuffix : Path.HasSuffix (Path.ofText t).name suffix)
    (hformat : ∀ format : Format, ¬ format.IsNamed suffix.toLower) :
    Loads C content t (.error (.unsupportedFormat suffix.toLower))
  | unreadable {octets : List UInt8} {format : Format} {e : Failure}
    (hselects : Selects content t octets format) (hgives : format.Gives C octets (.error e)) :
    Loads C content t (.error e)
  | mapping {octets : List UInt8} {format : Format} {entries : List (Value × Value)}
    (hselects : Selects content t octets format)
    (hgives : format.Gives C octets (.ok (.dict entries))) :
    Loads C content t (ofDict (.dict entries))
  | nothing {octets : List UInt8} {format : Format} (hselects : Selects content t octets format)
    (hgives : format.Gives C octets (.ok .nothing)) : Loads C content t (ofDict (.dict []))
  | other {octets : List UInt8} {format : Format} {v : Value}
    (hselects : Selects content t octets format) (hgives : format.Gives C octets (.ok v))
    (hnothing : v ≠ .nothing) (hdict : ∀ entries, v ≠ .dict entries) :
    Loads C content t (.error (.notMapping v.typeName))

theorem suffix_ofText {suffix : Text} (hsuffix : Path.HasSuffix (Path.ofText t).name suffix) :
    (Path.ofText t).suffix = suffix.toLower := by
  rw [Path.suffix, Path.suffixOfName_eq_iff.mpr hsuffix]

theorem ofFile_of_opened {path : Path} {octets : List UInt8} (hopen : content path = .ok octets) :
    ofFile C content path = ofOctets C path.suffix octets := by
  rw [ofFile, hopen]
  rfl

theorem ofFile_of_named {path : Path} {octets : List UInt8} {format : Format}
    (hopen : content path = .ok octets) (hnamed : format.IsNamed path.suffix) :
    ofFile C content path = format.read C octets >>= ofDocument := by
  rw [ofFile_of_opened hopen, ofOctets, ofSuffix?_eq_some.mpr hnamed]

theorem Selects.ofFile_eq {octets : List UInt8} {format : Format}
    (h : Selects content t octets format) {loaded : Except Failure Value}
    (hgives : format.Gives C octets loaded) :
    ofFile C content (.ofText t) = loaded >>= ofDocument := by
  obtain ⟨suffix, hsuffix, hnamed⟩ := h.named
  rw [ofFile_of_named h.opened (suffix_ofText hsuffix ▸ hnamed), hgives.bind_ofDocument]

theorem ofDocument_of_other {v : Value} (hnothing : v ≠ .nothing)
    (hdict : ∀ entries, v ≠ .dict entries) : ofDocument v = .error (.notMapping v.typeName) := by
  cases v with
  | nothing => exact absurd rfl hnothing
  | dict entries => exact absurd rfl (hdict entries)
  | _ => rfl

theorem Loads.ofFile_eq {r : Except Failure Settings} (h : Loads C content t r) :
    ofFile C content (.ofText t) = r := by
  cases h with
  | unopened hopen =>
    rw [ofFile, hopen]
    rfl
  | unsupported hopen hsuffix hformat =>
    have hnone : Format.ofSuffix? (Path.ofText t).suffix = none := by
      rw [suffix_ofText hsuffix]
      exact Option.eq_none_iff_forall_ne_some.mpr fun format hsome ↦
        hformat format (ofSuffix?_eq_some.mp hsome)
    rw [ofFile_of_opened hopen, ofOctets, hnone, suffix_ofText hsuffix]
  | unreadable hselects hgives => exact hselects.ofFile_eq hgives
  | mapping hselects hgives => exact hselects.ofFile_eq hgives
  | nothing hselects hgives => exact hselects.ofFile_eq hgives
  | other hselects hgives hnothing hdict =>
    exact (hselects.ofFile_eq hgives).trans (ofDocument_of_other hnothing hdict)

/-- Something always comes of loading settings. -/
theorem exists_loads (C : Capacity) (content : Path → Except Failure (List UInt8)) (t : Text) :
    ∃ r, Loads C content t r := by
  cases hopen : content (.ofText t) with
  | error e => exact ⟨_, .unopened hopen⟩
  | ok octets =>
    have hsuffix := Path.suffixOfName_eq_iff.mp (Eq.refl (Path.suffixOfName (Path.ofText t).name))
    by_cases hformat : ∃ format : Format,
        format.IsNamed (Path.suffixOfName (Path.ofText t).name).toLower
    · obtain ⟨format, hnamed⟩ := hformat
      have hselects : Selects content t octets format := ⟨hopen, _, hsuffix, hnamed⟩
      have hgives := format.gives_read C octets
      cases hread : format.read C octets with
      | error e => exact ⟨_, .unreadable hselects (hread ▸ hgives)⟩
      | ok v =>
        rw [hread] at hgives
        cases v with
        | nothing => exact ⟨_, .nothing hselects hgives⟩
        | dict entries => exact ⟨_, .mapping hselects hgives⟩
        | _ => exact ⟨_, .other hselects hgives nofun nofun⟩
    · exact ⟨_, .unsupported hopen hsuffix fun format hnamed ↦ hformat ⟨format, hnamed⟩⟩

/-- What is made of a file is what comes of loading it. Paths that are shown alike load alike, and
entries under other keys than the names of the fields do not count. -/
theorem ofFile_loads (C : Capacity) (content : Path → Except Failure (List UInt8)) (t : Text) :
    (∀ r, ofFile C content (.ofText t) = r ↔ Loads C content t r) ∧
      (∀ t', (Path.ofText t').toText = (Path.ofText t).toText →
        ofFile C content (.ofText t') = ofFile C content (.ofText t)) ∧
      ∀ entries entries', (∀ f, valueUnder? entries f = valueUnder? entries' f) →
        ofDict (.dict entries) = ofDict (.dict entries') := by
  refine ⟨fun r ↦ ⟨?_, Loads.ofFile_eq⟩, fun t' hshown ↦ ?_, fun _ _ ↦ ofEntries_congr⟩
  · rintro rfl
    obtain ⟨r, hr⟩ := exists_loads C content t
    rwa [hr.ofFile_eq]
  · rw [Path.ofText_eq_iff.mpr hshown]

end ShortCircuit.Settings
