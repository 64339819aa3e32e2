import ShortCircuit.Proofs.Reading.Entries
import ShortCircuit.Proofs.Settings.Document
import ShortCircuit.Settings.Rendering

/-!
# Written settings are loaded again

Settings that are written as a JSON object are given back when the text is loaded, as JSON whatever
blanks it is laid out with, and as YAML if there is no tab among them. By
`Settings.not_reloads_int` there are numbers of blanks with which nothing is written.
-/

namespace ShortCircuit.Settings

/-! ## Laying out -/

/-- The object that stands for settings, with gaps before its members. -/
def objectChars (s : Settings) (gap gap' : List Char) (ends : Bool) : List Char :=
  twoEntries gap Field.strategy.name.toList s.strategy.word.toList gap' Field.trace.name.toList
    (Json.boolWord s.trace) ends

/-- A layout that takes none but characters of a kind. -/
inductive Layout.IsOf (p : Char → Prop) : Layout → Prop
  | compact : IsOf p .compact
  | indented {cs : List Char} (hcs : ∀ c ∈ cs, p c) : IsOf p (.indented (.ofChars cs))

variable {p : Char → Prop} {layout : Layout} {C : Capacity} (s : Settings)

theorem toJson_compact : s.toJson .compact = .ofChars (s.objectChars [] [' '] false) := by
  obtain ⟨strategy, trace⟩ := s
  cases strategy <;> cases trace <;> rfl

theorem toJson_indented (cs : List Char) :
    s.toJson (.indented (.ofChars cs)) =
      .ofChars (s.objectChars ('\n' :: cs) ('\n' :: cs) true) := by
  obtain ⟨strategy, trace⟩ := s
  cases strategy <;> cases trace <;>
    simp [toJson, jsonMembers, jsonBool, objectChars, Json.boolWord, twoEntries, Text.ofChars,
      Text.ofString]

/-- An object is laid out by the gaps before its members, which are of blanks. -/
theorem Layout.IsOf.toJson (hlayout : layout.IsOf p) (hspace : p ' ') (hline : p '\n') :
    ∃ gap gap' ends, s.toJson layout = .ofChars (s.objectChars gap gap' ends) ∧
      (∀ c ∈ gap, p c) ∧ ∀ c ∈ gap', p c := by
  cases hlayout with
  | compact => exact ⟨[], [' '], false, s.toJson_compact, by simp, by simpa using hspace⟩
  | @indented cs hcs =>
    have hgap : ∀ c ∈ '\n' :: cs, p c := List.forall_mem_cons.mpr ⟨hline, hcs⟩
    exact ⟨'\n' :: cs, '\n' :: cs, true, s.toJson_indented cs, hgap, hgap⟩

/-! ## Reading back -/

theorem letters_objectChars :
    ∀ c ∈ Field.strategy.name.toList ++ s.strategy.word.toList ++ Field.trace.name.toList ++
      Json.boolWord s.trace, c.isAlpha := by
  have hletters : (Field.strategy.name.toList ++ s.strategy.word.toList ++
      Field.trace.name.toList).all Char.isAlpha = true := by cases s.strategy <;> decide
  exact List.forall_mem_append.mpr
    ⟨List.all_eq_true.mp hletters, Json.isAlpha_boolWord s.trace⟩

theorem normalize_objectChars (gap gap' : List Char) (ends : Bool) :
    Lines.normalize (s.objectChars gap gap' ends) =
      s.objectChars (Lines.normalize gap) (Lines.normalize gap') ends :=
  normalize_twoEntries s.letters_objectChars ends

theorem normalize_blank {gap : List Char} (hgap : ∀ c ∈ gap, Json.isBlank c) :
    ∀ c ∈ Lines.normalize gap, Json.isBlank c := by
  intro c hc
  rcases Lines.mem_normalizeAfter hc with hnil | hc | rfl
  · cases hnil
  · exact hgap c hc
  · rfl

section

variable {gap gap' : List Char} (hgap : ∀ c ∈ gap, Json.isBlank c)
  (hgap' : ∀ c ∈ gap', Json.isBlank c) (ends : Bool)
include hgap hgap'

/-- A written object is a printable text of ASCII. -/
theorem objectChars_plain :
    ∀ c ∈ s.objectChars gap gap' ends, c.toNat < 0x80 ∧ Yaml.isPrintable c := by
  have hblank {c : Char} (hc : Json.isBlank c) : c.toNat < 0x80 ∧ Yaml.isPrintable c := by
    simp only [Json.isBlank, Bool.or_eq_true, beq_iff_eq] at hc
    rcases hc with ((rfl | rfl) | rfl) | rfl <;> decide
  refine forall_mem_twoEntries (fun c hc ↦ hblank (hgap c hc)) (fun c hc ↦ hblank (hgap' c hc))
    (fun c hc ↦ ?_) ends (by simp [Yaml.isPrintable])
  have hletter := s.letters_objectChars c hc
  exact ⟨Nat.lt_of_lt_of_le (toNat_of_isAlpha hletter).2 (by decide),
    isPrintable_of_isAlpha hletter⟩

theorem readJson_objectChars :
    readJson C (Utf8.encode (.ofChars (s.objectChars gap gap' ends))) =
      .ok (.dict s.toEntries) := by
  have hletters := s.letters_objectChars
  rw [List.forall_mem_append] at hletters
  rw [readJson_ascii fun c hc ↦ (s.objectChars_plain hgap hgap' ends c hc).1, normalize_objectChars]
  exact Json.read_twoEntries (Nat.ne_of_gt C.json_pos) (normalize_blank hgap)
    (normalize_blank hgap') hletters.1
    (by decide) s.trace ends

theorem readYaml_objectChars (htab : '\t' ∉ gap) (htab' : '\t' ∉ gap') :
    Yaml.read C fieldKeys (Utf8.encode (.ofChars (s.objectChars gap gap' ends))) =
      .ok (.dict s.toEntries) := by
  have hplain := s.objectChars_plain hgap hgap' ends
  obtain ⟨hascii, hchars⟩ := Utf8.encode_ascii fun c hc ↦ (hplain c hc).1
  -- Carriage returns are gone, so what is left of the gaps are spaces and newlines.
  have hkept {gap : List Char} (hgap : ∀ c ∈ gap, Json.isBlank c) (htab : '\t' ∉ gap) :
      ∀ c ∈ Lines.normalize gap, c = ' ' ∨ c = '\n' := by
    intro c hc
    have hreturn : c ≠ '\r' := by
      rintro rfl
      exact Lines.not_mem_normalizeAfter List.not_mem_nil gap hc
    have hblank := normalize_blank hgap c hc
    have htab' : c ≠ '\t' := by
      rintro rfl
      rcases Lines.mem_normalizeAfter hc with hnil | hc | heq
      · cases hnil
      · exact htab hc
      · exact absurd heq (by decide)
    simpa [Json.isBlank, hreturn, htab'] using hblank
  have hsource := Yaml.Source.ofOctets_ascii hascii fun c hc ↦ (hplain c (hchars ▸ hc)).2
  have hletters := s.letters_objectChars
  rw [List.forall_mem_append] at hletters
  rw [hchars, normalize_objectChars] at hsource
  exact Yaml.read_twoEntries ends hsource (hkept hgap htab) (hkept hgap' htab') hletters.1
    (by decide) (by decide) (by decide) (by decide) (by decide)

end

/-! ## Loading -/

/-- What an indentation may be: nothing, a number, or a text of blanks. -/
inductive IsIndent : Value → Prop
  | nothing : IsIndent .nothing
  | bool (b : Bool) : IsIndent (.bool b)
  | int (n : Int) : IsIndent (.int n)
  | text {cs : List Char} (hcs : ∀ c ∈ cs, c = ' ' ∨ c = '\t' ∨ c = '\n' ∨ c = '\r') :
    IsIndent (.text (.ofChars cs))

/-- Whether a tab stands in an indentation. -/
def HasTab (indent : Value) : Prop := ∃ t, indent = .text t ∧ .ofChar '\t' ∈ t

/-- A number that no text can have as its length, or only if there were more room. -/
inductive IsRefused (C : Capacity) : Value → Failure → Prop
  | countTooGreat {n : Int} (hcount : n < -countLimit ∨ countLimit ≤ n) :
    IsRefused C (.int n) .countTooGreat
  | outOfMemory {n : Int} (hroom : C.blanks ≤ n) (hcount : n < countLimit) :
    IsRefused C (.int n) .outOfMemory

/-- Settings are given back when the text in which they are written with an indentation is loaded,
from a path of any name that names a format for it. -/
def Reloads (C : Capacity) (s : Settings) (indent : Value) : Prop :=
  ∃ layout, Layout.ofValue C indent = .ok layout ∧
    ∀ (content : Path → Except Failure (List UInt8)) (path : Path),
      content path = .ok (Utf8.encode (s.toJson layout)) →
      (Format.json.IsNamed path.suffix → ofFile C content path = .ok s) ∧
        (¬ HasTab indent → Format.yaml.IsNamed path.suffix → ofFile C content path = .ok s)

theorem Layout.isOf_blanks (hspace : p ' ') (n : Nat) :
    Layout.IsOf p (.indented (Layout.ofValue.blanks n)) := by
  have hblanks : Layout.ofValue.blanks n = .ofChars (List.replicate n ' ') := by
    rw [Layout.ofValue.blanks, Text.ofChars, List.map_replicate]
  rw [hblanks]
  exact .indented fun c hc ↦ (List.eq_of_mem_replicate hc) ▸ hspace

/-- Indentations give layouts, with tabs only where there are tabs in them, or are refused. -/
theorem IsIndent.exists_layout {indent : Value} (hindent : IsIndent indent) :
    (∃ layout, Layout.ofValue C indent = .ok layout ∧
      layout.IsOf fun c ↦ Json.isBlank c ∧ (c = '\t' → HasTab indent)) ∨
      ∃ e, IsRefused C indent e ∧ Layout.ofValue C indent = .error e := by
  have hspace : Json.isBlank ' ' ∧ (' ' = '\t' → HasTab indent) := ⟨rfl, nofun⟩
  cases hindent with
  | nothing => exact .inl ⟨.compact, rfl, .compact⟩
  | bool b => exact .inl ⟨_, rfl, Layout.isOf_blanks hspace b.toNat⟩
  | int n =>
    rw [Layout.ofValue]
    by_cases hcount : n < -countLimit ∨ countLimit ≤ n
    · exact .inr ⟨_, .countTooGreat hcount, if_pos (by simpa using hcount)⟩
    · rw [if_neg (by simpa using hcount)]
      by_cases hroom : C.blanks ≤ n
      · exact .inr ⟨_, .outOfMemory hroom (by omega), if_pos hroom⟩
      · exact .inl ⟨_, if_neg hroom, Layout.isOf_blanks hspace n.toNat⟩
  | @text cs hcs =>
    refine .inl ⟨_, rfl, .indented fun c hc ↦ ⟨?_, fun htab ↦ ?_⟩⟩
    · rcases hcs c hc with rfl | rfl | rfl | rfl <;> rfl
    · exact ⟨_, rfl, List.mem_map.mpr ⟨c, hc, htab ▸ rfl⟩⟩

/-- Written settings are loaded again, whatever blanks they are laid out with; only a number of
blanks may be refused, and only if it is too great. -/
theorem reloads {indent : Value} (hindent : IsIndent indent) :
    s.Reloads C indent ∨ ∃ e, IsRefused C indent e ∧ Layout.ofValue C indent = .error e := by
  refine hindent.exists_layout.imp_left fun ⟨layout, hlayout, hkind⟩ ↦
    ⟨layout, hlayout, fun content path hcontent ↦ ?_⟩
  obtain ⟨gap, gap', ends, hjson, hgap, hgap'⟩ := hkind.toJson s ⟨rfl, nofun⟩ ⟨rfl, nofun⟩
  have hblank : ∀ c ∈ gap, Json.isBlank c := fun c hc ↦ (hgap c hc).1
  have hblank' : ∀ c ∈ gap', Json.isBlank c := fun c hc ↦ (hgap' c hc).1
  rw [hjson] at hcontent
  have hload {format : Format} (hsuffix : format.IsNamed path.suffix)
      (hread : format.read C (Utf8.encode (.ofChars (s.objectChars gap gap' ends))) =
        .ok (.dict s.toEntries)) : ofFile C content path = .ok s := by
    rw [ofFile_of_named hcontent hsuffix, hread]
    exact s.heldBy_toEntries.made
  refine ⟨fun hsuffix ↦ hload hsuffix (s.readJson_objectChars hblank hblank' ends),
    fun htab hsuffix ↦ hload hsuffix (s.readYaml_objectChars hblank hblank' ends ?_ ?_)⟩
  · exact fun hmem ↦ htab ((hgap _ hmem).2 rfl)
  · exact fun hmem ↦ htab ((hgap' _ hmem).2 rfl)

/-- Settings that are written with four blanks are loaded as YAML. -/
theorem reloads_four : ∃ layout, Layout.ofValue .usual (.int 4) = .ok layout ∧
    ofFile .usual (fun _ ↦ .ok (Utf8.encode (toJson ⟨.iterative, true⟩ layout)))
      (.ofText (Text.ofString "a.YML")) = .ok ⟨.iterative, true⟩ := by
  rcases reloads (C := .usual) ⟨.iterative, true⟩ (.int 4) with
    ⟨layout, hlayout, hload⟩ | ⟨e, hrefused, -⟩
  · refine ⟨layout, hlayout, (hload _ _ rfl).2 ?_ (.inr (by decide))⟩
    rintro ⟨t, htext, -⟩
    cases htext
  · cases hrefused with
    | countTooGreat hcount => exact absurd hcount (by decide)
    | outOfMemory hroom _ => exact absurd hroom (by decide)

/-- There are numbers of blanks with which nothing is written. -/
theorem not_reloads_int :
    ¬ ∀ (C : Capacity) (s : Settings) (indent : Value), IsIndent indent → s.Reloads C indent := by
  intro hall
  obtain ⟨layout, hlayout, -⟩ := hall .usual {} (.int (-countLimit - 1)) (.int _)
  exact nomatch hlayout

end ShortCircuit.Settings
