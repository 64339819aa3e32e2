import ShortCircuit.Text.CodePoint
import ShortCircuit.Yaml.Source

/-!
# Reading texts of ASCII

Each octet of a text of ASCII is a character of its own. Whether such a text is decoded as a whole
or block by block, and in whatever portions it is then read, comes to the same: its characters, with
newlines as the only line ends.
-/

namespace ShortCircuit

/-! ## Decoding -/

namespace Utf8

/-- The characters of octets, one for each. -/
def chars (octets : List UInt8) : List Char := octets.map fun b ↦ Char.ofNat b.toNat

theorem decodeFrom_ascii (position : Nat) (decoded : List Char) {octets : List UInt8}
    (hascii : ∀ b ∈ octets, b.toNat < 0x80) :
    decodeFrom position decoded none octets =
      .ok ((chars octets).reverse ++ decoded, none) := by
  induction octets generalizing position decoded with
  | nil => rfl
  | cons b rest ih =>
    obtain ⟨hb, hrest⟩ := List.forall_mem_cons.mp hascii
    rw [decodeFrom, if_pos hb, ih _ _ hrest]
    simp [chars]

/-- Each octet of a text of ASCII is a character of its own. -/
theorem decode_ascii {octets : List UInt8} (hascii : ∀ b ∈ octets, b.toNat < 0x80) :
    decode octets = .ok (chars octets) := by
  rw [decode, decodeFrom_ascii 0 [] hascii]
  exact congrArg Except.ok (by simp)

/-! ### Encoding -/

/-- The octets that a text is written as. -/
def encode (t : Text) : List UInt8 := t.flatMap fun p ↦ encodeChar p.toChar

theorem toList_singleton (b : UInt8) : [b].toByteArray.toList = [b] := by
  have hend : ByteArray.toList.loop [b].toByteArray 1 [b] = [b] := by
    unfold ByteArray.toList.loop
    rfl
  unfold ByteArray.toList ByteArray.toList.loop
  exact hend

theorem encodeChar_ascii {c : Char} (hc : c.toNat < 0x80) : encodeChar c = [c.toNat.toUInt8] := by
  have hsize : c.utf8Size = 1 := by
    rw [Char.utf8Size_eq_one_iff, UInt32.le_iff_toNat_le]
    exact Nat.le_of_lt_succ hc
  have hencoded : [c].utf8Encode = [c.val.toUInt8].toByteArray := by
    rw [List.utf8Encode_singleton, String.utf8EncodeChar_eq_singleton hsize]
  have hoctet : c.val.toUInt8 = c.toNat.toUInt8 := rfl
  change [c].utf8Encode.toList = _
  rw [hencoded, toList_singleton, hoctet]

theorem toChar_ofChar (c : Char) : (CodePoint.ofChar c).toChar = c := by
  have hvalid : (CodePoint.ofChar c).value.isValidChar := c.valid
  rw [CodePoint.toChar, if_pos hvalid]
  exact Char.ofNat_toNat c

/-- A text of ASCII is read as it has been written. -/
theorem encode_ascii {cs : List Char} (hascii : ∀ c ∈ cs, c.toNat < 0x80) :
    (∀ b ∈ encode (.ofChars cs), b.toNat < 0x80) ∧ chars (encode (.ofChars cs)) = cs := by
  induction cs with
  | nil => simp [encode, Text.ofChars, chars]
  | cons c cs ih =>
    obtain ⟨hc, hcs⟩ := List.forall_mem_cons.mp hascii
    obtain ⟨hoctets, hchars⟩ := ih hcs
    have hencode : encode (.ofChars (c :: cs)) = c.toNat.toUInt8 :: encode (.ofChars cs) := by
      change encodeChar (CodePoint.ofChar c).toChar ++ _ = _
      rw [toChar_ofChar, encodeChar_ascii hc]
      rfl
    have hoctet : c.toNat.toUInt8.toNat = c.toNat := by
      rw [Nat.toUInt8, UInt8.toNat_ofNat']
      omega
    rw [hencode]
    refine ⟨List.forall_mem_cons.mpr ⟨by rwa [hoctet], hoctets⟩, ?_⟩
    change Char.ofNat c.toNat.toUInt8.toNat :: chars (encode (.ofChars cs)) = _
    rw [hoctet, hchars, Char.ofNat_toNat]

end Utf8

/-! ## Line ends -/

namespace Lines

theorem normalizeAfter_eq (before cs : List Char) :
    normalizeAfter before cs = before.reverse ++ normalize cs := by
  suffices h : ∀ before', normalizeAfter (before' ++ before) cs =
      before.reverse ++ normalizeAfter before' cs from h []
  intro before'
  fun_induction normalizeAfter before' cs with
  | case1 before' => simp [normalizeAfter]
  | case2 before' rest ih => exact ih
  | case3 before' rest hrest ih =>
    rw [normalizeAfter]
    · exact ih
    · exact hrest
  | case4 before' c rest hpair hreturn ih =>
    rw [normalizeAfter]
    · exact ih
    · exact hpair
    · exact hreturn

theorem normalize_cons {c : Char} (hc : c ≠ '\r') (rest : List Char) :
    normalize (c :: rest) = c :: normalize rest := by
  rw [normalize, normalizeAfter]
  · exact normalizeAfter_eq [c] rest
  · exact fun _ h _ ↦ hc h
  · exact hc

/-- The line ends of two parts are those of the whole, unless one is split between them. -/
theorem normalize_append {xs ys : List Char}
    (h : xs.getLast? ≠ some '\r' ∨ ys.head? ≠ some '\n') :
    normalize (xs ++ ys) = normalize xs ++ normalize ys := by
  suffices hafter : ∀ before, normalizeAfter before (xs ++ ys) =
      normalizeAfter before xs ++ normalize ys from hafter []
  intro before
  fun_induction normalizeAfter before xs with
  | case1 before => exact normalizeAfter_eq before ys
  | case2 before rest ih =>
    exact ih (h.imp_left fun hlast hlast' ↦ hlast (by simp [List.getLast?_cons, hlast']))
  | case3 before rest hrest ih =>
    rw [List.cons_append, normalizeAfter]
    · exact ih (h.imp_left fun hlast hlast' ↦ hlast (by simp [List.getLast?_cons, hlast']))
    · intro rest' heq
      cases rest with
      | nil => exact h.elim (fun hlast ↦ hlast rfl) fun hhead ↦ hhead (congrArg List.head? heq)
      | cons c rest => exact hrest _ (by rw [(List.cons.inj heq).1])
  | case4 before c rest hpair hreturn ih =>
    rw [List.cons_append, normalizeAfter]
    · exact ih (h.imp_left fun hlast hlast' ↦ hlast (by simp [List.getLast?_cons, hlast']))
    · exact fun _ hc _ ↦ hreturn hc
    · exact hreturn

/-- A text without carriage returns stays as it is. -/
theorem normalize_of_not_mem {cs : List Char} (hcs : '\r' ∉ cs) : normalize cs = cs := by
  induction cs with
  | nil => rfl
  | cons c rest ih =>
    obtain ⟨hc, hrest⟩ := not_or.mp (mt List.mem_cons.mpr hcs)
    rw [normalize_cons (Ne.symm hc), ih hrest]

theorem normalize_append_left {xs : List Char} (hxs : '\r' ∉ xs) (ys : List Char) :
    normalize (xs ++ ys) = xs ++ normalize ys := by
  have hlast : xs.getLast? ≠ some '\r' := fun hlast ↦ hxs (List.mem_of_getLast? hlast)
  rw [normalize_append (.inl hlast), normalize_of_not_mem hxs]

theorem normalize_append_cons {c : Char} (hreturn : c ≠ '\r') (hline : c ≠ '\n')
    (xs ys : List Char) : normalize (xs ++ c :: ys) = normalize xs ++ c :: normalize ys := by
  rw [normalize_append (.inr (by simpa using hline)), normalize_cons hreturn]

theorem mem_normalizeAfter {before cs : List Char} {c : Char} (hc : c ∈ normalizeAfter before cs) :
    c ∈ before ∨ c ∈ cs ∨ c = '\n' := by
  fun_induction normalizeAfter before cs with grind

theorem not_mem_normalizeAfter {before : List Char} (hbefore : '\r' ∉ before) (cs : List Char) :
    '\r' ∉ normalizeAfter before cs := by
  fun_induction normalizeAfter before cs with grind

theorem length_normalizeAfter_le (before cs : List Char) :
    (normalizeAfter before cs).length ≤ before.length + cs.length := by
  fun_induction normalizeAfter before cs with grind

/-- The carriage return that is held back. -/
def held (isHeld : Bool) : List Char := if isHeld then ['\r'] else []

/-- A part and what is held back for the next one are the whole, with its line ends replaced. -/
theorem normalizePart_append (isHeld : Bool) {isLast : Bool} {cs rest : List Char}
    (hlast : isLast = true → rest = []) :
    (normalizePart isHeld isLast cs).1 ++
        normalize (held (normalizePart isHeld isLast cs).2 ++ rest) =
      normalize (held isHeld ++ cs ++ rest) := by
  have hheld : (if isHeld then '\r' :: cs else cs) = held isHeld ++ cs := by cases isHeld <;> rfl
  unfold normalizePart
  rw [hheld]
  split
  case isTrue hempty =>
    obtain rfl : cs = [] := by simpa using (Bool.and_eq_true_iff.mp hempty).1
    simp
  case isFalse =>
    dsimp only
    split
    case isTrue hreturn =>
      obtain ⟨start, hstart⟩ : ∃ start, held isHeld ++ cs = start ++ ['\r'] :=
        List.getLast?_eq_some_iff.mp (by simpa using (Bool.and_eq_true_iff.mp hreturn).2)
      rw [hstart, List.dropLast_concat, List.append_assoc,
        ← normalize_append (.inr (by simp [held]))]
      rfl
    case isFalse hreturn =>
      refine (normalize_append ?_).symm
      cases isLast with
      | true => exact .inr (by simp [held, hlast rfl])
      | false => exact .inl (by simpa using hreturn)

end Lines

/-! ## Streams -/

namespace TextStream

/-- The characters that are still to be read. -/
def ahead (s : TextStream) : List Char :=
  s.decoded ++ Lines.normalize (Lines.held s.isReturnHeld ++ Utf8.chars s.octets)

/-- What has not been decoded is ASCII, from the start of a character on. -/
structure IsAscii (s : TextStream) : Prop where
  octets : ∀ b ∈ s.octets, b.toNat < 0x80
  underway : s.underway = none

variable {s : TextStream}

/-- The stream has moved on, with as much ahead as before. -/
structure Continues (s s' : TextStream) : Prop where
  ascii : s'.IsAscii
  ahead : s'.ahead = s.ahead
  shorter : s.octets ≠ [] → s'.octets.length < s.octets.length
  complete : s.octets = [] → s'.octets = [] ∧ s'.decoded = s.ahead

/-- A block of ASCII is decoded whole; of its line ends one may be held back. -/
theorem decodeBlock_eq (hs : s.IsAscii) (missing : Nat) :
    s.decodeBlock missing = .ok (
      let block := s.octets.take (s.blockFor missing)
      let part := Lines.normalizePart s.isReturnHeld block.isEmpty (Utf8.chars block)
      ⟨s.octets.drop (s.blockFor missing), none, part.2, s.decoded ++ part.1,
        (block.length, part.1.length)⟩) := by
  have hdecoded : Utf8.decodeFrom 0 [] none (s.octets.take (s.blockFor missing)) =
      .ok ((Utf8.chars (s.octets.take (s.blockFor missing))).reverse, none) := by
    rw [Utf8.decodeFrom_ascii 0 [] fun b hb ↦ hs.octets b (List.mem_of_mem_take hb),
      List.append_nil]
  simp only [decodeBlock, hs.underway, Option.elim_none, hdecoded]
  change (if _ then _ else _) = _
  split
  · simp [Utf8.finish, bind, Except.bind, pure, Except.pure]
  · simp [pure, Except.pure]

theorem decodeBlock_ascii (hs : s.IsAscii) (missing : Nat) :
    ∃ s', s.decodeBlock missing = .ok s' ∧ s.Continues s' := by
  have hblock : 0 < s.blockFor missing := Nat.lt_of_lt_of_le (by decide) (Nat.le_max_left _ _)
  refine ⟨_, decodeBlock_eq hs missing, ?_⟩
  generalize s.blockFor missing = size at hblock
  have hchars : Utf8.chars s.octets =
      Utf8.chars (s.octets.take size) ++ Utf8.chars (s.octets.drop size) := by
    rw [Utf8.chars, Utf8.chars, Utf8.chars, ← List.map_append, List.take_append_drop]
  have hlast : (s.octets.take size).isEmpty = true → Utf8.chars (s.octets.drop size) = [] := by
    intro hempty
    have hnil : s.octets = [] :=
      (List.take_eq_nil_iff.mp (List.isEmpty_iff.mp hempty)).resolve_left (Nat.ne_of_gt hblock)
    simp [hnil, Utf8.chars]
  have hpart :=
    @Lines.normalizePart_append s.isReturnHeld _ (Utf8.chars (s.octets.take size)) _ hlast
  refine ⟨⟨fun b hb ↦ hs.octets b (List.mem_of_mem_drop hb), rfl⟩, ?_, ?_, ?_⟩
  · simp only [ahead, List.append_assoc]
    rw [hpart, hchars, List.append_assoc]
  · intro hne
    have hpos := List.length_pos_iff.mpr hne
    rw [List.length_drop]
    omega
  · intro hnil
    simp [ahead, hnil, Utf8.chars, Lines.normalizePart, Lines.held]

/-- There are enough characters, or all that are ahead, once no octets are left. -/
theorem fill_ascii (n : Nat) (hs : s.IsAscii) {fuel : Nat}
    (hfuel : s.octets.length < fuel ∨ s.octets = [] ∧ s.decoded = s.ahead) :
    ∃ s', fill n fuel s = .ok s' ∧ s'.IsAscii ∧ s'.ahead = s.ahead ∧
      (n ≤ s'.decoded.length ∨ s'.decoded = s'.ahead) := by
  induction fuel generalizing s with
  | zero => exact ⟨s, rfl, hs, rfl, .inr (hfuel.resolve_left (Nat.not_lt_zero _)).2⟩
  | succ fuel ih =>
    rw [fill]
    split
    case isTrue henough => exact ⟨s, rfl, hs, rfl, .inl henough⟩
    case isFalse =>
      obtain ⟨s', hblock, hs'⟩ := decodeBlock_ascii hs (n - s.decoded.length)
      rw [hblock]
      change ∃ s'', (if s.octets.isEmpty && s'.decoded.length == s.decoded.length then .ok s'
        else fill n fuel s') = _ ∧ _
      split
      case isTrue hdone =>
        have hnil := List.isEmpty_iff.mp (Bool.and_eq_true_iff.mp hdone).1
        exact ⟨s', rfl, hs'.ascii, hs'.ahead, .inr ((hs'.complete hnil).2.trans hs'.ahead.symm)⟩
      case isFalse =>
        have hfuel' : s'.octets.length < fuel ∨ s'.octets = [] ∧ s'.decoded = s'.ahead := by
          by_cases hnil : s.octets = []
          · obtain ⟨hnil', hdecoded⟩ := hs'.complete hnil
            exact .inr ⟨hnil', hdecoded.trans hs'.ahead.symm⟩
          · have hlt := hfuel.resolve_right fun h ↦ hnil h.1
            exact .inl (Nat.lt_of_lt_of_le (hs'.shorter hnil) (Nat.le_of_lt_succ hlt))
        obtain ⟨s'', hfill, hs'', hahead, henough⟩ := ih hs'.ascii hfuel'
        exact ⟨s'', hfill, hs'', hahead.trans hs'.ahead, henough⟩

theorem read_ascii (n : Nat) (hs : s.IsAscii) :
    ∃ s', s.read n = .ok (s.ahead.take n, s') ∧ s'.IsAscii ∧ s'.ahead = s.ahead.drop n := by
  have hfuel : s.octets.length < s.octets.length + 2 ∨ s.octets = [] ∧ s.decoded = s.ahead :=
    .inl (by omega)
  obtain ⟨s', hfill, hs', hahead, henough⟩ := fill_ascii n hs hfuel
  have hsplit : s'.ahead.take n = s'.decoded.take n ∧ s'.ahead.drop n =
      s'.decoded.drop n ++
        Lines.normalize (Lines.held s'.isReturnHeld ++ Utf8.chars s'.octets) := by
    rcases henough with hle | hall
    · rw [ahead, List.take_append_of_le_length hle, List.drop_append_of_le_length hle]
      exact ⟨rfl, rfl⟩
    · have hnil := List.append_right_eq_self.mp hall.symm
      rw [← hall, hnil, List.append_nil]
      exact ⟨rfl, rfl⟩
  refine ⟨{ s' with decoded := s'.decoded.drop n }, ?_, ⟨hs'.octets, hs'.underway⟩, ?_⟩
  · rw [read, hfill, ← hahead, hsplit.1]
    rfl
  · rw [← hahead, hsplit.2]
    rfl

end TextStream

namespace Yaml.Source

theorem readFrom_ascii {s : TextStream} (hs : s.IsAscii) (hprintable : ∀ c ∈ s.ahead, isPrintable c)
    (before : List Char) {fuel : Nat} (hfuel : s.ahead.length < fuel) :
    readFrom before fuel s = ⟨before.reverse ++ s.ahead, none⟩ := by
  induction fuel generalizing s before with
  | zero => exact absurd hfuel (Nat.not_lt_zero _)
  | succ fuel ih =>
    obtain ⟨s', hread, hs', hahead⟩ := TextStream.read_ascii portionSize hs
    rw [readFrom, hread]
    cases hportion : s.ahead.take portionSize with
    | nil =>
      have hnil : s.ahead = [] := (List.take_eq_nil_iff.mp hportion).resolve_left (by decide)
      rw [hnil, List.append_nil]
    | cons c rest =>
      have hall : (c :: rest).all isPrintable = true :=
        List.all_eq_true.mpr fun c hc ↦ hprintable c (List.mem_of_mem_take (hportion ▸ hc))
      have hfuel' : s'.ahead.length < fuel := by
        have hpos : 0 < s.ahead.length :=
          List.length_pos_iff.mpr fun hnil ↦ by simp [hnil] at hportion
        have hportionSize : 0 < portionSize := by decide
        rw [hahead, List.length_drop]
        omega
      dsimp only
      rw [withPortion, if_pos hall, ← hportion,
        ih hs' (fun c hc ↦ hprintable c (List.mem_of_mem_drop (hahead ▸ hc))) _ hfuel', hahead]
      simp

theorem opening_ascii {s : TextStream} (hs : s.IsAscii) :
    ∃ s', opening s = .ok (s.ahead.take (portionSize + portionSize), s') ∧ s'.IsAscii ∧
      s'.ahead = s.ahead.drop (portionSize + portionSize) := by
  obtain ⟨s₁, hread₁, hs₁, hahead₁⟩ := TextStream.read_ascii portionSize hs
  obtain ⟨s₂, hread₂, hs₂, hahead₂⟩ := TextStream.read_ascii portionSize hs₁
  refine ⟨s₂, ?_, hs₂, by rw [hahead₂, hahead₁, List.drop_drop]⟩
  simp only [opening, hread₁, hread₂, hahead₁, bind, Except.bind, List.take_add]
  rfl

/-- The characters of a printable text of ASCII. -/
theorem ofOctets_ascii {octets : List UInt8} (hascii : ∀ b ∈ octets, b.toNat < 0x80)
    (hprintable : ∀ c ∈ Utf8.chars octets, isPrintable c) :
    ofOctets octets = ⟨Lines.normalize (Utf8.chars octets), none⟩ := by
  have hs : (⟨octets, none, false, [], (0, 0)⟩ : TextStream).IsAscii := ⟨hascii, rfl⟩
  obtain ⟨s, hopening, hs', hahead⟩ := opening_ascii hs
  change opening _ = .ok ((Lines.normalize (Utf8.chars octets)).take _, s) at hopening
  change s.ahead = (Lines.normalize (Utf8.chars octets)).drop _ at hahead
  have hnormal : ∀ c ∈ Lines.normalize (Utf8.chars octets), isPrintable c := by
    intro c hc
    rcases Lines.mem_normalizeAfter hc with hnil | hc | rfl
    · cases hnil
    · exact hprintable c hc
    · rfl
  have hshort : s.ahead.length < octets.length + 1 := by
    have hle := Lines.length_normalizeAfter_le [] (Utf8.chars octets)
    change (Lines.normalize _).length ≤ _ at hle
    rw [hahead, List.length_drop]
    simp only [Utf8.chars, List.length_nil, List.length_map] at hle ⊢
    omega
  have hall : ((Lines.normalize (Utf8.chars octets)).take (portionSize + portionSize)).all
      isPrintable = true := List.all_eq_true.mpr fun c hc ↦ hnormal c (List.mem_of_mem_take hc)
  rw [ofOctets, hopening]
  dsimp only
  rw [withPortion, if_pos hall,
    readFrom_ascii hs' (fun c hc ↦ hnormal c (List.mem_of_mem_drop (hahead ▸ hc))) _ hshort, hahead]
  simp

end Yaml.Source

end ShortCircuit
