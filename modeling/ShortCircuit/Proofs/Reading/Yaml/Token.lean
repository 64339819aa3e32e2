import ShortCircuit.Proofs.Reading.Yaml.Scalar

/-!
# Failures of reading tokens

From octets to tokens: every supply on the way ends well or with a failure that a YAML text can be
refused with.
-/

namespace ShortCircuit.Yaml

/-! ## Supplies -/

namespace Supply

variable {α : Type} {items : List α} {e : Failure}

theorem sound_none : Sound ⟨items, none⟩ := by
  intro e he
  cases he

theorem sound_some (he : IsFault e) : Sound ⟨items, some e⟩ := by
  intro e' he'
  obtain rfl : e = e' := Option.some.inj he'
  exact he

theorem Sound.shortage {s : Supply α} (hs : s.Sound) : IsFault s.shortage := by
  obtain ⟨items, failure⟩ := s
  cases failure with
  | none => trivial
  | some e => exact hs e rfl

end Supply

namespace Source

theorem sound_withPortion (before cs : List Char) {rest : List Char → Supply Char}
    (hrest : ∀ before, (rest before).Sound) : (withPortion before cs rest).Sound := by
  unfold withPortion
  split
  · exact hrest _
  · exact Supply.sound_some trivial

theorem sound_readFrom (before : List Char) (fuel : Nat) (s : TextStream) :
    (readFrom before fuel s).Sound := by
  induction fuel generalizing before s with
  | zero => exact Supply.sound_none
  | succ fuel ih =>
    unfold readFrom
    split
    · exact Supply.sound_some trivial
    · exact Supply.sound_none
    · exact sound_withPortion _ _ fun before ↦ ih before _

theorem sound_ofOctets (octets : List UInt8) : (ofOctets octets).Sound := by
  unfold ofOctets
  split
  · exact Supply.sound_some trivial
  · exact sound_withPortion _ _ fun before ↦ sound_readFrom before _ _

end Source

/-! ## Steps of the lexer -/

namespace Lexer

variable {l : Lexer} {c : Cursor}

/-- A lexer goes on with a sound cursor, or fails with a failure of the list. -/
def Moves (x : Except Failure Lexer) : Prop := Ends IsFault (fun l ↦ l.cursor.Sound) x

theorem Moves.bind {x : Except Failure Lexer} {f : Lexer → Except Failure Lexer} (hx : Moves x)
    (hf : ∀ l : Lexer, l.cursor.Sound → Moves (f l)) : Moves (x >>= f) :=
  Ends.bind hx hf

theorem Moves.sound {x : Except Failure Lexer} (hx : Moves x) (hl : x = .ok l) :
    l.cursor.Sound := by
  rw [hl] at hx
  exact hx

/-- A token is read from where a lexer stands. -/
theorem moves_of_reads {α : Type} {x : Except Failure (α × Cursor)}
    {f : α × Cursor → Except Failure Lexer} (hx : Reads x)
    (hf : ∀ a c, c.Sound → Moves (f (a, c))) : Moves (x >>= f) :=
  Ends.bind hx fun r hr ↦ hf r.1 r.2 hr

@[simp] theorem closeBlocks_cursor (keep : Nat → Bool) :
    (l.closeBlocks keep).cursor = l.cursor := by
  unfold closeBlocks
  split <;> rfl

@[simp] theorem openBlock_cursor (t : Token) : (l.openBlock t).cursor = l.cursor := by
  unfold openBlock
  split <;> rfl

@[simp] theorem confirm_cursor (k : KeyCandidate) : (l.confirm k).cursor = l.cursor := by
  simp only [confirm]
  split <;> rfl

theorem dropCandidate_moves (hl : l.cursor.Sound) : Moves l.dropCandidate := by
  unfold dropCandidate
  split
  · split
    · exact hl
    · split
      · trivial
      · exact hl
  · exact hl

theorem dropStale_moves (hl : l.cursor.Sound) : Moves l.dropStale := by
  unfold dropStale
  split
  · trivial
  · exact hl

theorem saveCandidate_moves (hl : l.cursor.Sound) : Moves l.saveCandidate := by
  unfold saveCandidate
  split
  · apply (dropCandidate_moves hl).bind
    intro l hl
    exact hl
  · exact hl

theorem checkCutOff_moves (hl : l.cursor.Sound) : Moves l.checkCutOff := by
  unfold checkCutOff
  split
  case h_1 e he => exact hl.cutOff he
  · exact hl

theorem sound_skipToToken (fuel : Nat) (hl : l.cursor.Sound) :
    (skipToToken fuel l).cursor.Sound := by
  induction fuel generalizing l with
  | zero => exact hl
  | succ fuel ih =>
    have hbehind : l.cursor.skipSpaces.skipComment.Sound := hl.skipSpaces.skipComment
    simp only [skipToToken]
    split
    · exact ih hbehind.next
    · exact hbehind

theorem sound_skipMark (hl : l.cursor.Sound) : l.skipMark.cursor.Sound := by
  unfold skipMark
  split
  · exact hl.next
  · exact hl

/-! ## Tokens -/

/-- What ends a line of the text also ends all block collections. -/
theorem dropCandidate_closeBlocks_moves (keep : Nat → Bool) (hl : l.cursor.Sound) :
    Moves (l.closeBlocks keep).dropCandidate := by
  apply dropCandidate_moves
  rwa [closeBlocks_cursor]

theorem finish_moves (hl : l.cursor.Sound) : Moves l.finish := by
  apply (dropCandidate_closeBlocks_moves _ hl).bind
  intro l hl
  exact hl

theorem readDirective_moves (hl : l.cursor.Sound) : Moves l.readDirective := by
  apply (dropCandidate_closeBlocks_moves _ hl).bind
  intro l hl
  exact moves_of_reads (directive_reads hl) fun d c hc ↦ hc

theorem readSeparator_moves (t : Token) (hl : l.cursor.Sound) : Moves (l.readSeparator t) := by
  apply (dropCandidate_closeBlocks_moves _ hl).bind
  intro l hl
  exact hl.skip 3

theorem openFlow_moves (t : Token) (hl : l.cursor.Sound) : Moves (l.openFlow t) := by
  apply (saveCandidate_moves hl).bind
  intro l hl
  exact hl.skip 1

theorem closeFlow_moves (t : Token) (hl : l.cursor.Sound) : Moves (l.closeFlow t) := by
  apply (dropCandidate_moves hl).bind
  intro l hl
  exact hl.skip 1

theorem readComma_moves (hl : l.cursor.Sound) : Moves l.readComma := by
  apply (dropCandidate_moves (l := l.allowKey true) hl).bind
  intro l hl
  exact hl.skip 1

/-- An indicator may open a block collection, if no key can start where it stands. -/
theorem dropCandidate_openBlock_moves (t : Token) (allowed : Bool) (hl : l.cursor.Sound) :
    Moves ((l.openBlock t).allowKey allowed).dropCandidate := by
  apply dropCandidate_moves
  change (l.openBlock t).cursor.Sound
  rwa [openBlock_cursor]

theorem readEntry_moves (hl : l.cursor.Sound) : Moves l.readEntry := by
  simp only [readEntry]
  split
  · trivial
  · apply (dropCandidate_openBlock_moves _ _ hl).bind
    intro l hl
    exact hl.skip 1

theorem readKey_moves (hl : l.cursor.Sound) : Moves l.readKey := by
  simp only [readKey]
  split
  · trivial
  · apply (dropCandidate_openBlock_moves _ _ hl).bind
    intro l hl
    exact hl.skip 1

theorem complex_moves (hl : l.cursor.Sound) : Moves (readValue.complex l) := by
  simp only [readValue.complex]
  split
  · trivial
  · have hopened : (l.openBlock .blockMappingStart).cursor.Sound := by rwa [openBlock_cursor]
    exact hopened.skip 1

theorem readValue_moves (hl : l.cursor.Sound) : Moves l.readValue := by
  unfold readValue
  split
  case h_1 k rest _ =>
    split
    · have hconfirmed : (({ l with candidates := rest } : Lexer).confirm k).cursor.Sound := by
        rwa [confirm_cursor]
      exact hconfirmed.skip 1
    · exact complex_moves hl
  · exact complex_moves hl

theorem readAnchor_moves (token : String → Token) (hl : l.cursor.Sound) :
    Moves (l.readAnchor token) := by
  apply (saveCandidate_moves hl).bind
  intro l hl
  exact moves_of_reads (anchorName_reads hl.next) fun name c hc ↦ hc

theorem readTag_moves (hl : l.cursor.Sound) : Moves l.readTag := by
  apply (saveCandidate_moves hl).bind
  intro l hl
  exact moves_of_reads (writtenTag_reads hl) fun t c hc ↦ hc

theorem readBlockScalar_moves (fuel : Nat) (isFolded : Bool) (hl : l.cursor.Sound) :
    Moves (readBlockScalar fuel l isFolded) := by
  apply (dropCandidate_moves (l := l.allowKey true) hl).bind
  intro l hl
  exact moves_of_reads (Block.read_reads fuel isFolded _ hl) fun text c hc ↦ hc

theorem readQuoted_moves (fuel : Nat) (isDouble : Bool) (hl : l.cursor.Sound) :
    Moves (readQuoted fuel l isDouble) := by
  apply (saveCandidate_moves hl).bind
  intro l hl
  exact moves_of_reads (Quoted.read_reads fuel isDouble hl) fun text c hc ↦ hc

theorem readPlain_moves (fuel : Nat) (hl : l.cursor.Sound) : Moves (readPlain fuel l) := by
  apply (saveCandidate_moves hl).bind
  intro l hl
  exact Plain.sound_read fuel _ _ hl

theorem fetch_moves (fuel : Nat) (hl : l.cursor.Sound) : Moves (l.fetch fuel) := by
  apply (checkCutOff_moves (sound_skipToToken fuel (sound_skipMark hl))).bind
  intro l hl
  apply (dropStale_moves hl).bind
  intro l hl
  have hclosed : (l.closeBlocks fun i ↦ i ≤ l.cursor.column).cursor.Sound := by
    rwa [closeBlocks_cursor]
  dsimp only
  split
  · exact finish_moves hclosed
  split
  · exact readDirective_moves hclosed
  split
  · exact readSeparator_moves _ hclosed
  split
  · exact readSeparator_moves _ hclosed
  split
  · exact openFlow_moves _ hclosed
  · exact openFlow_moves _ hclosed
  · exact closeFlow_moves _ hclosed
  · exact closeFlow_moves _ hclosed
  · exact readComma_moves hclosed
  · exact readAnchor_moves _ hclosed
  · exact readAnchor_moves _ hclosed
  · exact readTag_moves hclosed
  · exact readQuoted_moves fuel _ hclosed
  · exact readQuoted_moves fuel _ hclosed
  split
  · exact readEntry_moves hclosed
  split
  · exact readKey_moves hclosed
  split
  · exact readValue_moves hclosed
  split
  · exact readBlockScalar_moves fuel _ hclosed
  split
  · exact readBlockScalar_moves fuel _ hclosed
  split
  · exact readPlain_moves fuel hclosed
  · exact hl.next.fault

theorem sound_run (scalarFuel fuel : Nat) (before : List Token) (hl : l.cursor.Sound) :
    (run scalarFuel fuel before l).Sound := by
  induction fuel generalizing before l with
  | zero => exact Supply.sound_some trivial
  | succ fuel ih =>
    unfold run
    split
    · exact Supply.sound_none
    · have hfresh := dropStale_moves hl
      split
      case h_1 e he => exact Supply.sound_some (Ends.error hfresh he)
      case h_2 l he =>
        have hl : l.cursor.Sound := hfresh.sound he
        have hon : (l.handOn before).2.cursor.Sound := hl
        have hmoved : Moves ((l.handOn before).2.fetch scalarFuel >>= checkCutOff) :=
          (fetch_moves scalarFuel hon).bind fun l hl ↦ checkCutOff_moves hl
        dsimp only
        split
        case h_1 e he => exact Supply.sound_some (Ends.error hmoved he)
        case h_2 l he => exact ih _ (hmoved.sound he)

end Lexer

/-- From sound characters come sound tokens. -/
theorem Token.sound_ofChars {s : Supply Char} (hs : s.Sound) : (Token.ofChars s).Sound :=
  Lexer.sound_run _ _ [] hs

end ShortCircuit.Yaml
