import ShortCircuit.Proofs.Reading.Yaml.Scan

/-!
# Reading words

Where a cursor comes to when it moves over characters that are known, and how a word of letters is
read, in quotes or as a plain scalar before the end of a flow mapping.
-/

namespace ShortCircuit

/-- A letter is no character that is none. -/
theorem ne_of_isAlpha {ch other : Char} (hch : ch.isAlpha) (hother : other.isAlpha = false) :
    ch ≠ other := by
  rintro rfl
  exact absurd hch (by simp [hother])

theorem beq_of_isAlpha {ch : Char} (hch : ch.isAlpha) (other : Char)
    (hother : other.isAlpha = false) : (ch == other) = false :=
  beq_eq_false_iff_ne.mpr (ne_of_isAlpha hch hother)

namespace Yaml

/-! ## Moving -/

namespace Cursor

variable {c : Cursor}

theorem next_rest (c : Cursor) : c.next.rest = c.rest.tail := by
  unfold next
  split
  · simp [*]
  · split
    · simp [*]
    · split <;> simp [*]

theorem skip_rest (c : Cursor) (n : Nat) : (c.skip n).rest = c.rest.drop n := by
  induction n generalizing c with
  | zero => rfl
  | succ n ih => rw [skip, ih, next_rest, List.drop_tail]

theorem next_index_le (c : Cursor) : c.next.index ≤ c.index + 1 := by
  unfold next
  split
  · exact Nat.le_succ _
  · split
    · exact Nat.le_refl _
    · split <;> exact Nat.le_refl _

theorem skip_index_le (c : Cursor) (n : Nat) : (c.skip n).index ≤ c.index + n := by
  induction n generalizing c with
  | zero => exact Nat.le_refl _
  | succ n ih =>
    have hnext := c.next_index_le
    have hskip := ih (c := c.next)
    rw [skip]
    omega

theorem next_line {ch : Char} {rest : List Char} (hrest : c.rest = ch :: rest)
    (hbreak : isBreak ch = false) : c.next.line = c.line := by
  rw [next, hrest]
  dsimp only
  rw [if_neg (by simp [hbreak])]
  split <;> rfl

theorem skip_line {cs rest : List Char} (hrest : c.rest = cs ++ rest)
    (hbreak : ∀ ch ∈ cs, isBreak ch = false) : (c.skip cs.length).line = c.line := by
  induction cs generalizing c with
  | nil => rfl
  | cons ch cs ih =>
    obtain ⟨hch, hcs⟩ := List.forall_mem_cons.mp hbreak
    rw [List.length_cons, skip, ih (by rw [next_rest, hrest]; rfl) hcs, next_line hrest hch]

theorem skipSpaces_eq {spaces rest : List Char} {ch : Char} (hrest : c.rest = spaces ++ ch :: rest)
    (hspaces : ∀ s ∈ spaces, s = ' ') (hch : ch ≠ ' ') : c.skipSpaces = c.skip spaces.length := by
  rw [skipSpaces, skipWhile, hrest, List.takeWhile_append_of_pos (by simpa using hspaces),
    List.takeWhile_cons_of_neg (by simpa using hch), List.append_nil]

theorem skipComment_eq {ch : Char} {rest : List Char} (hrest : c.rest = ch :: rest)
    (hch : ch ≠ '#') : c.skipComment = c := by
  simp [skipComment, sees, peek, hrest, hch]

theorem seesThrice_eq_false {ch other : Char} {rest : List Char} (hrest : c.rest = ch :: rest)
    (hne : ch ≠ other) : c.seesThrice other = false := by
  unfold seesThrice
  split
  · rename_i heq
    rw [(List.cons.inj (hrest.symm.trans heq)).1] at hne
    simp [hne]
  · rfl

end Cursor

/-! ## Scalars -/

theorem isBreak_of_isAlpha {ch : Char} (hch : ch.isAlpha) : isBreak ch = false := by
  rw [isBreak, beq_of_isAlpha hch '\n' rfl, beq_of_isAlpha hch '\x85' rfl,
    beq_of_isAlpha hch '\u2028' rfl, beq_of_isAlpha hch '\u2029' rfl]
  rfl

theorem isBlank_of_isAlpha {ch : Char} (hch : ch.isAlpha) : isBlank ch = false := by
  rw [isBlank, beq_of_isAlpha hch ' ' rfl, beq_of_isAlpha hch '\t' rfl]
  rfl

theorem Quoted.readFrom_letters {name rest : List Char} (hname : ∀ ch ∈ name, ch.isAlpha)
    (before : Text) {fuel : Nat} (hfuel : name.length < fuel) {c : Cursor}
    (hrest : c.rest = name ++ '"' :: rest) :
    readFrom true before fuel c =
      .ok (before.reverse ++ .ofChars name, c.skip (name.length + 1)) := by
  induction name generalizing before fuel c with
  | nil =>
    obtain ⟨fuel, rfl⟩ := Nat.exists_eq_succ_of_ne_zero (Nat.ne_of_gt hfuel)
    rw [readFrom, hrest]
    simp [Text.ofChars, Cursor.skip]
  | cons ch name ih =>
    obtain ⟨fuel, rfl⟩ := Nat.exists_eq_succ_of_ne_zero (Nat.ne_zero_of_lt hfuel)
    obtain ⟨hch, hname⟩ := List.forall_mem_cons.mp hname
    have hnext : c.next.rest = name ++ '"' :: rest := by
      rw [Cursor.next_rest, hrest]
      rfl
    unfold readFrom
    rw [hrest]
    split
    case h_5 ch' rest' hquote happ hback heq =>
      cases heq
      rw [isBlank_of_isAlpha hch, isBreak_of_isAlpha hch]
      simp [ih hname _ (Nat.lt_of_succ_lt_succ hfuel) hnext, Text.ofChars, Cursor.skip]
    case h_1 heq => cases heq
    all_goals
      rename_i heq
      cases heq
      exact absurd hch (by decide)

namespace Plain

theorem stops_of_isAlpha {ch : Char} (hch : ch.isAlpha) (following : Option Char) :
    stops true ch following = false := by
  have hends : flowEnds.all (!·.isAlpha) = true := by decide
  have hnot : ch ∉ flowEnds := fun hmem ↦ by simpa [hch] using List.all_eq_true.mp hends ch hmem
  have hcolon : ch ≠ ':' := ne_of_isAlpha hch rfl
  simp [stops, isBlank_of_isAlpha hch, isBreak_of_isAlpha hch, hcolon, hnot]

theorem runLength_letters {word : List Char} (hword : ∀ ch ∈ word, ch.isAlpha) (n : Nat)
    {ch : Char} {rest : List Char} (hch : stops true ch rest.head? = true) :
    runLength true n (word ++ ch :: rest) = n + word.length := by
  induction word generalizing n with
  | nil => simp [runLength, hch]
  | cons ch' word ih =>
    obtain ⟨hch', hword⟩ := List.forall_mem_cons.mp hword
    rw [List.cons_append, runLength, stops_of_isAlpha hch', if_neg Bool.false_ne_true, ih hword,
      List.length_cons]
    omega

/-- The gap before the end of a flow mapping, which may stand on a line of its own. -/
theorem gap_flowEnd (fuel : Nat) {c : Cursor} {rest : List Char} {ends : Bool}
    (hrest : c.rest = (if ends then ['\n'] else []) ++ '\x7d' :: rest) :
    ∃ after, gap fuel c = ⟨if ends then [' '] else [], ends, after⟩ ∧
      after.rest = '\x7d' :: rest ∧ after.beyond = c.beyond := by
  obtain ⟨index, line, column, _, beyond⟩ := c
  cases hrest
  cases ends with
  | false => exact ⟨_, rfl, rfl, rfl⟩
  | true =>
    refine ⟨⟨index + 1, line + 1, 0, '\x7d' :: rest, beyond⟩, ?_, rfl, rfl⟩
    have hseparator :
        Cursor.seesSeparator ⟨index + 1, line + 1, 0, '\x7d' :: rest, beyond⟩ = false := by
      rw [Cursor.seesSeparator, Cursor.seesThrice_eq_false rfl (by decide),
        Cursor.seesThrice_eq_false rfl (by decide)]
      rfl
    change (if Cursor.seesSeparator ⟨index + 1, line + 1, 0, '\x7d' :: rest, beyond⟩ then _
      else _) = _
    rw [if_neg (by simp [hseparator])]
    cases fuel <;> rfl

/-- A word before the end of a flow mapping is all of its scalar. -/
theorem read_letters {word : List Char} (hword : ∀ ch ∈ word, ch.isAlpha) (hne : word ≠ [])
    (indent : Nat) {fuel : Nat} (hfuel : fuel ≠ 0) {c : Cursor} {rest : List Char} {ends : Bool}
    (hrest : c.rest = word ++ ((if ends then ['\n'] else []) ++ '\x7d' :: rest)) :
    ∃ after, read fuel true indent c = ⟨word.reverse, ends, after⟩ ∧
      after.rest = '\x7d' :: rest ∧ after.beyond = c.beyond := by
  obtain ⟨fuel, rfl⟩ := Nat.exists_eq_succ_of_ne_zero hfuel
  have hlength : runLength true 0 c.rest = word.length := by
    rw [hrest]
    cases ends <;> exact (runLength_letters hword 0 rfl).trans (Nat.zero_add _)
  have hcomment : c.sees '#' = false := by
    obtain ⟨ch, word, rfl⟩ := List.exists_cons_of_ne_nil hne
    have hch : ch ≠ '#' := ne_of_isAlpha (hword ch List.mem_cons_self) rfl
    simp [Cursor.sees, Cursor.peek, hrest, hch]
  have hlength' : word.length ≠ 0 := by simpa using hne
  have hskip : (c.skip word.length).rest = (if ends then ['\n'] else []) ++ '\x7d' :: rest := by
    rw [Cursor.skip_rest, hrest, List.drop_left]
  obtain ⟨after, hgap, hafter, hbeyond⟩ := gap_flowEnd fuel hskip
  refine ⟨after, ?_, hafter, hbeyond.trans (Cursor.skip_beyond c _)⟩
  have hcomment' : after.sees '#' = false := by simp [Cursor.sees, Cursor.peek, hafter]
  have htake : c.rest.take word.length = word := by rw [hrest, List.take_left]
  rw [read, readFrom, hlength, hgap, htake, hcomment]
  cases ends with
  | false => simp [hlength']
  | true =>
    -- Behind the line end no further word is found.
    have hover (read : Read) (hread : read.after = after) :
        readFrom true indent read [' '] fuel = read := by
      cases fuel with
      | zero => rfl
      | succ fuel =>
        have hstop : runLength true 0 read.after.rest = 0 := by
          rw [hread, hafter]
          rfl
        rw [readFrom, hstop]
        simp
    simp [hlength', hcomment', hover]

end Plain

end Yaml

end ShortCircuit
