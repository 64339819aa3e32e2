import ShortCircuit.Proofs.Reading.Json
import ShortCircuit.Proofs.Reading.Stream
import ShortCircuit.Proofs.Reading.Yaml.Flow
import ShortCircuit.Proofs.Reading.Yaml.Making
import ShortCircuit.Yaml.Reader

/-!
# Texts of two entries

A mapping of two entries that are written between braces is read alike as JSON and as YAML. The gaps
before the entries may be of any length, and have any number of lines; a tab may stand in them in
JSON alone.
-/

namespace ShortCircuit

/-- Two entries between braces: the value of the first one is quoted, that of the other a plain
word. -/
def twoEntries (gap name word gap' name' word' : List Char) (ends : Bool) : List Char :=
  '\x7b' :: (gap ++ '"' :: (name ++ '"' :: ':' :: ' ' :: '"' :: (word ++ '"' :: ',' ::
    (gap' ++ '"' :: (name' ++ '"' :: ':' :: ' ' :: (word' ++
      ((if ends then ['\n'] else []) ++ ['\x7d'])))))))

theorem toNat_of_isAlpha {c : Char} (hc : c.isAlpha) : 0x20 ≤ c.toNat ∧ c.toNat < 0x7F := by
  have hranges : (decide (c.val ≥ 'A'.val ∧ c.val ≤ 'Z'.val) ||
      (decide (c.val ≥ 'a'.val) && decide (c.val ≤ 'z'.val))) = true := hc
  simp only [Bool.or_eq_true, Bool.and_eq_true, decide_eq_true_eq, ge_iff_le,
    UInt32.le_iff_toNat_le] at hranges
  change 0x20 ≤ c.val.toNat ∧ c.val.toNat < 0x7F
  have hupper : 'A'.val.toNat = 65 ∧ 'Z'.val.toNat = 90 := ⟨rfl, rfl⟩
  have hlower : 'a'.val.toNat = 97 ∧ 'z'.val.toNat = 122 := ⟨rfl, rfl⟩
  omega

theorem isPrintable_of_isAlpha {c : Char} (hc : c.isAlpha) : Yaml.isPrintable c := by
  obtain ⟨hlow, hhigh⟩ := toNat_of_isAlpha hc
  have hrange : ' ' ≤ c ∧ c ≤ '~' := by
    rw [Char.le_def, Char.le_def, UInt32.le_iff_toNat_le, UInt32.le_iff_toNat_le]
    exact ⟨hlow, Nat.le_of_lt_succ hhigh⟩
  simp [Yaml.isPrintable, hrange]

section

variable {gap name word gap' name' word' : List Char}

/-- What holds of the letters and of the blanks in front of the entries holds of all characters. -/
theorem forall_mem_twoEntries {p : Char → Prop} (hgap : ∀ c ∈ gap, p c) (hgap' : ∀ c ∈ gap', p c)
    (hletters : ∀ c ∈ name ++ word ++ name' ++ word', p c) (ends : Bool)
    (hmarks : ∀ c ∈ "\x7b\x7d\":, \n".toList, p c) :
    ∀ c ∈ twoEntries gap name word gap' name' word' ends, p c := by
  simp only [List.forall_mem_append] at hletters
  obtain ⟨⟨⟨hname, hword⟩, hname'⟩, hword'⟩ := hletters
  obtain ⟨hopen, hclose, hquote, hcolon, hcomma, hspace, hline⟩ :
      p '\x7b' ∧ p '\x7d' ∧ p '"' ∧ p ':' ∧ p ',' ∧ p ' ' ∧ p '\n' := by simpa using hmarks
  have hend : ∀ c ∈ (if ends then ['\n'] else []), p c := by
    cases ends <;> simp [hline]
  simp only [twoEntries, List.forall_mem_cons, List.forall_mem_append]
  exact ⟨hopen, hgap, hquote, hname, hquote, hcolon, hspace, hquote, hword, hquote, hcomma, hgap',
    hquote, hname', hquote, hcolon, hspace, hword', hend, hclose, List.forall_mem_nil p⟩

/-- Line ends are replaced in front of the entries only. -/
theorem normalize_twoEntries (hletters : ∀ c ∈ name ++ word ++ name' ++ word', c.isAlpha)
    (ends : Bool) :
    Lines.normalize (twoEntries gap name word gap' name' word' ends) =
      twoEntries (Lines.normalize gap) name word (Lines.normalize gap') name' word' ends := by
  have hnone {cs : List Char} (hcs : ∀ c ∈ cs, c.isAlpha) : '\r' ∉ cs :=
    fun hmem ↦ absurd (hcs _ hmem) (by decide)
  simp only [List.forall_mem_append] at hletters
  obtain ⟨⟨⟨hname, hword⟩, hname'⟩, hword'⟩ := hletters
  have hend : Lines.normalize ((if ends then ['\n'] else []) ++ ['\x7d']) =
      (if ends then ['\n'] else []) ++ ['\x7d'] := by cases ends <;> rfl
  rw [twoEntries, twoEntries, Lines.normalize_cons (by decide),
    Lines.normalize_append_cons (by decide) (by decide), Lines.normalize_append_left (hnone hname),
    Lines.normalize_cons (by decide), Lines.normalize_cons (by decide),
    Lines.normalize_cons (by decide), Lines.normalize_cons (by decide),
    Lines.normalize_append_left (hnone hword), Lines.normalize_cons (by decide),
    Lines.normalize_cons (by decide), Lines.normalize_append_cons (by decide) (by decide),
    Lines.normalize_append_left (hnone hname'), Lines.normalize_cons (by decide),
    Lines.normalize_cons (by decide), Lines.normalize_cons (by decide),
    Lines.normalize_append_left (hnone hword'), hend]

end

/-! ## JSON -/

namespace Json

theorem isBlank_of_isAlpha {c : Char} (hc : c.isAlpha) : isBlank c = false := by
  rw [isBlank, beq_of_isAlpha hc ' ' rfl, beq_of_isAlpha hc '\t' rfl, beq_of_isAlpha hc '\n' rfl,
    beq_of_isAlpha hc '\r' rfl]
  rfl

theorem stringFrom_letters {word : List Char} (hword : ∀ c ∈ word, c.isAlpha) (start : Nat)
    (before : Text) (offset : Nat) (rest : List Char) :
    stringFrom start before offset (word ++ '"' :: rest) =
      .ok (before.reverse ++ .ofChars word, ⟨offset + (word.length + 1), rest⟩) := by
  induction word generalizing before offset with
  | nil =>
    rw [List.nil_append, stringFrom]
    simp [Text.ofChars]
  | cons c word ih =>
    obtain ⟨hc, hword⟩ := List.forall_mem_cons.mp hword
    have hquote : c ≠ '"' := ne_of_isAlpha hc rfl
    have hbackslash : c ≠ '\\' := ne_of_isAlpha hc rfl
    rw [List.cons_append, stringFrom, if_neg (Nat.not_lt_of_le (toNat_of_isAlpha hc).1), ih hword]
    · simp [Text.ofChars, Nat.add_comm, Nat.add_left_comm]
    · exact hquote
    all_goals exact fun _ _ ↦ by simp_all

theorem skipBlanks_eq {gap : List Char} (hgap : ∀ c ∈ gap, isBlank c) {c : Char}
    (hc : isBlank c = false) (offset : Nat) (rest : List Char) :
    Cursor.skipBlanks ⟨offset, gap ++ c :: rest⟩ = ⟨offset + gap.length, c :: rest⟩ := by
  rw [Cursor.skipBlanks, List.takeWhile_append_of_pos hgap, List.dropWhile_append_of_pos hgap,
    List.takeWhile_cons_of_neg (by simp [hc]), List.dropWhile_cons_of_neg (by simp [hc]),
    List.append_nil]

theorem skipBlanks_none {c : Char} (hc : isBlank c = false) (offset : Nat) (rest : List Char) :
    Cursor.skipBlanks ⟨offset, c :: rest⟩ = ⟨offset, c :: rest⟩ :=
  skipBlanks_eq (List.forall_mem_nil _) hc offset rest

theorem value_string (limits : Limits) (fuel nesting offset : Nat) {word : List Char}
    (hword : ∀ c ∈ word, c.isAlpha) (rest : List Char) :
    value limits fuel nesting ⟨offset, '"' :: (word ++ '"' :: rest)⟩ =
      .ok (.text (.ofChars word), ⟨offset + 1 + (word.length + 1), rest⟩) := by
  have hstring : string (Cursor.next ⟨offset, '"' :: (word ++ '"' :: rest)⟩) =
      .ok (.ofChars word, ⟨offset + 1 + (word.length + 1), rest⟩) :=
    stringFrom_letters hword _ [] _ rest
  have hvalue : value limits fuel nesting ⟨offset, '"' :: (word ++ '"' :: rest)⟩ =
      (string (Cursor.next ⟨offset, '"' :: (word ++ '"' :: rest)⟩)).map
        fun r ↦ (.text r.1, r.2) := by
    cases nesting <;> rfl
  rw [hvalue, hstring]
  rfl

/-- The word of a boolean. -/
def boolWord (b : Bool) : List Char := if b then "true".toList else "false".toList

theorem value_bool (limits : Limits) (fuel nesting offset : Nat) (b : Bool) (rest : List Char) :
    value limits fuel nesting ⟨offset, boolWord b ++ rest⟩ =
      .ok (.bool b, ⟨offset + (boolWord b).length, rest⟩) := by
  cases b <;> cases nesting <;> rfl

theorem isAlpha_boolWord (b : Bool) : ∀ c ∈ boolWord b, c.isAlpha :=
  List.all_eq_true.mp (by cases b <;> decide)

/-- The key of a member, up to its value behind a space. -/
theorem memberKey_eq {name : List Char} (hname : ∀ c ∈ name, c.isAlpha) (offset : Nat) {c : Char}
    (hc : isBlank c = false) (rest : List Char) :
    memberKey ⟨offset, '"' :: (name ++ '"' :: ':' :: ' ' :: c :: rest)⟩ =
      .ok (.ofChars name, ⟨offset + 1 + (name.length + 1) + 1 + 1, c :: rest⟩) := by
  have hstring : string (Cursor.next ⟨offset, '"' :: (name ++ '"' :: ':' :: ' ' :: c :: rest)⟩) =
      .ok (.ofChars name, ⟨offset + 1 + (name.length + 1), ':' :: ' ' :: c :: rest⟩) :=
    stringFrom_letters hname _ [] _ _
  have hcolon : Cursor.skipBlanks ⟨offset + 1 + (name.length + 1), ':' :: ' ' :: c :: rest⟩ =
      ⟨offset + 1 + (name.length + 1), ':' :: ' ' :: c :: rest⟩ :=
    skipBlanks_none rfl _ _
  have hgap : ∀ c ∈ [' '], isBlank c := by simp [isBlank]
  have hspace (o : Nat) : Cursor.skipBlanks ⟨o, ' ' :: c :: rest⟩ = ⟨o + 1, c :: rest⟩ :=
    skipBlanks_eq hgap hc _ _
  rw [memberKey]
  dsimp only
  rw [hstring]
  simp only [bind, Except.bind, hcolon, Cursor.next, List.drop_one, List.tail_cons, hspace]

section

variable {item : Cursor → Reading Value} {name gap : List Char} {v : Value}
  (hname : ∀ c ∈ name, c.isAlpha) (hgap : ∀ c ∈ gap, isBlank c) {c : Char} (hc : isBlank c = false)
  {written rest : List Char}
include hname hgap hc

/-- A member with another one behind it. -/
theorem members_comma {c' : Char} (hc' : isBlank c' = false)
    (hitem : ∀ offset, ∃ offset', item ⟨offset, c :: written⟩ =
      .ok (v, ⟨offset', ',' :: (gap ++ c' :: rest)⟩))
    (before : List (Text × Value)) (fuel offset : Nat) :
    ∃ offset', members item before (fuel + 1)
        ⟨offset, '"' :: (name ++ '"' :: ':' :: ' ' :: c :: written)⟩ =
      members item (insertMember before (.ofChars name) v) fuel ⟨offset', c' :: rest⟩ := by
  obtain ⟨offset', hitem⟩ := hitem (offset + 1 + (name.length + 1) + 1 + 1)
  have hcomma : Cursor.skipBlanks ⟨offset', ',' :: (gap ++ c' :: rest)⟩ =
      ⟨offset', ',' :: (gap ++ c' :: rest)⟩ := skipBlanks_none rfl _ _
  have hgap' : Cursor.skipBlanks ⟨offset' + 1, gap ++ c' :: rest⟩ =
      ⟨offset' + 1 + gap.length, c' :: rest⟩ := skipBlanks_eq hgap hc' _ _
  refine ⟨offset' + 1 + gap.length, ?_⟩
  rw [members, memberKey_eq hname _ hc]
  simp only [bind, Except.bind, hitem, hcomma, Cursor.next, List.drop_one, List.tail_cons, hgap']

/-- The last member of an object. -/
theorem members_end
    (hitem : ∀ offset, ∃ offset', item ⟨offset, c :: written⟩ =
      .ok (v, ⟨offset', gap ++ '\x7d' :: rest⟩))
    (before : List (Text × Value)) (fuel offset : Nat) :
    ∃ offset', members item before (fuel + 1)
        ⟨offset, '"' :: (name ++ '"' :: ':' :: ' ' :: c :: written)⟩ =
      .ok (objectValue (insertMember before (.ofChars name) v), ⟨offset', rest⟩) := by
  obtain ⟨offset', hitem⟩ := hitem (offset + 1 + (name.length + 1) + 1 + 1)
  have hgap' : Cursor.skipBlanks ⟨offset', gap ++ '\x7d' :: rest⟩ =
      ⟨offset' + gap.length, '\x7d' :: rest⟩ := skipBlanks_eq hgap rfl _ _
  refine ⟨offset' + gap.length + 1, ?_⟩
  rw [members, memberKey_eq hname _ hc]
  simp only [bind, Except.bind, hitem, hgap', Cursor.next, List.drop_one, List.tail_cons]

end

theorem value_object (limits : Limits) (fuel nesting offset : Nat) (rest : List Char) :
    value limits fuel (nesting + 1) ⟨offset, '\x7b' :: rest⟩ =
      object fuel (value limits fuel nesting) ⟨offset + 1, rest⟩ :=
  rfl

theorem read_object {limits : Limits} (hnesting : limits.nesting ≠ 0) {gap rest : List Char}
    (hgap : ∀ c ∈ gap, isBlank c) {v : Value}
    (hmembers : ∀ nesting fuel offset, rest.length < fuel → ∃ offset',
      members (value limits fuel nesting) [] fuel ⟨offset, '"' :: rest⟩ =
        .ok (v, ⟨offset', []⟩)) :
    read limits ('\x7b' :: (gap ++ '"' :: rest)) = .ok v := by
  obtain ⟨nesting, hnesting⟩ := Nat.exists_eq_succ_of_ne_zero hnesting
  obtain ⟨offset', hmembers⟩ := hmembers nesting
    (('\x7b' :: (gap ++ '"' :: rest)).length + 1) (0 + 1 + gap.length) (by simp; omega)
  have hvalue : value limits (('\x7b' :: (gap ++ '"' :: rest)).length + 1) limits.nesting
      (Cursor.skipBlanks ⟨0, '\x7b' :: (gap ++ '"' :: rest)⟩) = .ok (v, ⟨offset', []⟩) := by
    rw [skipBlanks_none rfl, hnesting, Nat.succ_eq_add_one, value_object, object,
      skipBlanks_eq hgap rfl]
    exact hmembers
  have hdocument : document limits ('\x7b' :: (gap ++ '"' :: rest)) = .ok v := by
    rw [document]
    · rw [hvalue]
      rfl
    · exact nofun
  rw [read, hdocument]

variable {gap name word gap' name' : List Char}

/-- The gaps before the entries may be of blanks of any kind. -/
theorem read_twoEntries {limits : Limits} (hnesting : limits.nesting ≠ 0)
    (hgap : ∀ c ∈ gap, isBlank c) (hgap' : ∀ c ∈ gap', isBlank c)
    (hletters : ∀ c ∈ name ++ word ++ name', c.isAlpha)
    (hnames : Text.ofChars name ≠ Text.ofChars name') (b ends : Bool) :
    read limits (twoEntries gap name word gap' name' (boolWord b) ends) =
      .ok (objectValue [(.ofChars name, .text (.ofChars word)), (.ofChars name', .bool b)]) := by
  simp only [List.forall_mem_append] at hletters
  obtain ⟨⟨hname, hword⟩, hname'⟩ := hletters
  have hends : ∀ c ∈ (if ends then ['\n'] else []), isBlank c := by
    cases ends <;> simp [isBlank]
  refine read_object hnesting hgap fun nesting fuel offset hfuel ↦ ?_
  obtain ⟨fuel, rfl⟩ : ∃ n, fuel = n + 2 := ⟨fuel - 2, by simp at hfuel; omega⟩
  have hquote : isBlank '"' = false := rfl
  obtain ⟨offset₁, hfirst⟩ := members_comma hname hgap' hquote hquote
    (fun offset ↦ ⟨_, value_string limits (fuel + 2) nesting offset hword _⟩) [] (fuel + 1) offset
  rw [hfirst]
  obtain ⟨ch, written, hch, hitem⟩ : ∃ ch written, isBlank ch = false ∧
      boolWord b ++ ((if ends then ['\n'] else []) ++ ['\x7d']) = ch :: written := by
    cases b <;> exact ⟨_, _, rfl, rfl⟩
  rw [hitem]
  obtain ⟨offset₂, hlast⟩ := members_end hname' hends hch
    (fun offset ↦ ⟨_, hitem ▸ value_bool limits (fuel + 2) nesting offset b _⟩)
    (insertMember [] (.ofChars name) (.text (.ofChars word))) fuel offset₁
  exact ⟨offset₂, by rw [hlast]; simp [insertMember, hnames]⟩

end Json

/-! ## YAML -/

namespace Yaml

variable {gap name word gap' name' word' : List Char} (ends : Bool)

/-- The gaps before the entries may be of any length, and have any number of lines. -/
theorem Token.ofChars_twoEntries
    (hgap : ∀ c ∈ gap, c = ' ' ∨ c = '\n') (hgap' : ∀ c ∈ gap', c = ' ' ∨ c = '\n')
    (hletters : ∀ c ∈ name ++ word ++ name' ++ word', c.isAlpha) (hne : word' ≠ [])
    (hshort : name.length + 2 ≤ keyLimit) (hshort' : name'.length + 2 ≤ keyLimit) :
    Token.ofChars ⟨twoEntries gap name word gap' name' word' ends, none⟩ =
      ⟨[.flowMappingStart, .key, .scalar (.ofChars name) false, .value,
        .scalar (.ofChars word) false, .comma, .key, .scalar (.ofChars name') false, .value,
        .scalar (.ofChars word') true, .flowMappingEnd, .streamEnd], none⟩ := by
  simp only [List.forall_mem_append] at hletters
  obtain ⟨⟨⟨hname, hword⟩, hname'⟩, hword'⟩ := hletters
  have hlength : (twoEntries gap name word gap' name' word' ends).length =
      gap.length + name.length + word.length + gap'.length + name'.length + word'.length +
        ends.toNat + 13 := by
    cases ends <;> simp [twoEntries] <;> omega
  obtain ⟨n, hn⟩ : ∃ n, (twoEntries gap name word gap' name' word' ends).length + 2 =
      n + 3 + (1 + 2 + 1 + 1 + 2) + 1 :=
    ⟨(twoEntries gap name word gap' name' word' ends).length - 9, by omega⟩
  obtain ⟨fuel, hfuel⟩ :
      ∃ fuel, (twoEntries gap name word gap' name' word' ends).length + 1 = fuel := ⟨_, rfl⟩
  have hentries : Lexer.Leads fuel (1 + 2 + 1 + 1 + 2)
      (Lexer.Stands [.flowMappingStart] (twoEntries gap name word gap' name' word' ends).tail true)
      (Lexer.Stands [.flowMappingStart, .key, .scalar (.ofChars name) false, .value,
        .scalar (.ofChars word) false, .comma, .key, .scalar (.ofChars name') false, .value,
        .scalar (.ofChars word') true] ['\x7d'] ends) :=
    (Lexer.leads_key hname hgap (by omega) (by omega) hshort).trans <|
      (Lexer.leads_text hword (by omega) (by omega)).trans <|
        (Lexer.leads_comma (by omega)).trans <|
          (Lexer.leads_key hname' hgap' (by omega) (by omega) hshort').trans <|
            Lexer.leads_word hword' hne (by omega) ends
  change Lexer.run ((twoEntries gap name word gap' name' word' ends).length + 1)
    ((twoEntries gap name word gap' name' word' ends).length + 2) [] _ = _
  rw [hn, hfuel]
  obtain ⟨before, l, hl, hstart⟩ :=
    Lexer.run_start fuel (n + 3 + (1 + 2 + 1 + 1 + 2))
      (twoEntries gap name word gap' name' word' ends).tail
  obtain ⟨before', l', hl', hrun⟩ := hentries before l hl (n + 3)
  have hpos : 0 < fuel := by omega
  exact hstart.trans (hrun.trans (Lexer.leads_end hpos hl' n))

theorem Graph.ofEvents_twoEntries {nesting : Nat} (hnesting : nesting ≠ 0)
    (name word name' word' : Text) :
    Graph.ofEvents nesting (Event.ofTokens ⟨[.flowMappingStart, .key, .scalar name false, .value,
      .scalar word false, .comma, .key, .scalar name' false, .value, .scalar word' true,
      .flowMappingEnd, .streamEnd], none⟩) = .ok ⟨entryNodes name word name' word', some 0⟩ := by
  have hevents : Event.ofTokens ⟨[.flowMappingStart, .key, .scalar name false, .value,
      .scalar word false, .comma, .key, .scalar name' false, .value, .scalar word' true,
      .flowMappingEnd, .streamEnd], none⟩ =
      ⟨[.documentStart, .mappingStart {}, .scalar {} name false, .scalar {} word false,
        .scalar {} name' false, .scalar {} word' true, .mappingEnd, .documentEnd, .streamEnd],
        none⟩ := rfl
  obtain ⟨nesting, rfl⟩ := Nat.exists_eq_succ_of_ne_zero hnesting
  rw [hevents]
  rfl

theorem Tag.ofPlain_boolWord (b : Bool) : Tag.ofPlain (.ofChars (Json.boolWord b)) = .bool := by
  cases b <;> decide

theorem Building.boolean_boolWord (b : Bool) :
    Building.boolean (.ofChars (Json.boolWord b)) = .ok (.bool b) := by
  cases b <;> rfl

/-- What is read as an object of JSON is read as a mapping, of which both entries are needed. -/
theorem read_twoEntries {C : Capacity} {keys : List Text} {octets : List UInt8} {b : Bool}
    (hsource : Source.ofOctets octets =
      ⟨twoEntries gap name word gap' name' (Json.boolWord b) ends, none⟩)
    (hgap : ∀ c ∈ gap, c = ' ' ∨ c = '\n') (hgap' : ∀ c ∈ gap', c = ' ' ∨ c = '\n')
    (hletters : ∀ c ∈ name ++ word ++ name', c.isAlpha)
    (hshort : name.length + 2 ≤ keyLimit) (hshort' : name'.length + 2 ≤ keyLimit)
    (hnames : Text.ofChars name ≠ Text.ofChars name')
    (hkey : Text.ofChars name ∈ keys) (hkey' : Text.ofChars name' ∈ keys) :
    read C keys octets = .ok (Json.objectValue
      [(.ofChars name, .text (.ofChars word)), (.ofChars name', .bool b)]) := by
  have hall : ∀ c ∈ name ++ word ++ name' ++ Json.boolWord b, c.isAlpha :=
    List.forall_mem_append.mpr ⟨hletters, Json.isAlpha_boolWord b⟩
  have hne : Json.boolWord b ≠ [] := by cases b <;> decide
  have htokens := Token.ofChars_twoEntries ends hgap hgap' hall hne hshort hshort'
  have hdata : Data.ofGraph C.links ⟨entryNodes (.ofChars name) (.ofChars word) (.ofChars name')
      (.ofChars (Json.boolWord b)), some 0⟩ = _ :=
    Data.ofGraph_entryNodes C.links hnames (Tag.ofPlain_boolWord b) (Building.boolean_boolWord b)
  have hread :
      data C octets = .ok (entryData (.ofChars name) (.ofChars word) (.ofChars name') b) := by
    simp only [data, hsource, htokens,
      Graph.ofEvents_twoEntries (Nat.ne_of_gt C.yaml_pos), bind, Except.bind, hdata]
  rw [read, hread]
  exact congrArg Except.ok (needed_entryData hkey hkey')

end Yaml

end ShortCircuit
