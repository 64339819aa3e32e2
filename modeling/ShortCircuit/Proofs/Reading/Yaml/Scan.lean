import ShortCircuit.Proofs.Reading.Ends
import ShortCircuit.Yaml.Reader

/-!
# Failures of reading parts of a YAML text

`Yaml.IsFault` lists the failures that a YAML text can be refused with. A cursor is sound if the
failure behind its text, if there is one, is such a failure. From a sound cursor every part of a
text is read with a sound cursor behind it, or refused with a failure of the list.
-/

namespace ShortCircuit.Yaml

/-- The failures that a YAML text is refused with. -/
def IsFault : Failure → Prop
  | .malformedYaml | .undecodable _ | .literalTooLong _ | .noInteger _ _ | .noDouble _
  | .noBoolean _ | .noTimestamp | .emptyNumber | .timestampNotText | .impossibleDate _
  | .offsetTooGreat _ | .noCodePoint _ | .weightTooGreat | .stackExhausted => True
  | _ => False

/-- What comes after the items of a supply is a failure of the list, if any. -/
def Supply.Sound {α : Type} (s : Supply α) : Prop := ∀ e, s.failure = some e → IsFault e

/-! ## Cursors -/

namespace Cursor

variable {c : Cursor}

/-- What stands behind the last character is a failure of the list, if any. -/
def Sound (c : Cursor) : Prop := ∀ e, c.beyond = some e → IsFault e

theorem next_beyond (c : Cursor) : c.next.beyond = c.beyond := by
  unfold next
  split
  · rfl
  · split
    · rfl
    · split <;> rfl

theorem skip_beyond (c : Cursor) (n : Nat) : (c.skip n).beyond = c.beyond := by
  induction n generalizing c with
  | zero => rfl
  | succ n ih => rw [skip, ih, next_beyond]

theorem Sound.next (hc : c.Sound) : c.next.Sound := fun e he ↦ hc e (next_beyond c ▸ he)

theorem Sound.skip (hc : c.Sound) (n : Nat) : (c.skip n).Sound :=
  fun e he ↦ hc e (skip_beyond c n ▸ he)

theorem Sound.skipWhile (hc : c.Sound) (p : Char → Bool) : (c.skipWhile p).Sound := hc.skip _

theorem Sound.skipSpaces (hc : c.Sound) : c.skipSpaces.Sound := hc.skip _

theorem Sound.skipLine (hc : c.Sound) : c.skipLine.Sound := hc.skip _

theorem Sound.skipComment (hc : c.Sound) : c.skipComment.Sound := by
  unfold Cursor.skipComment
  split
  · exact hc.skipLine
  · exact hc

theorem Sound.lineBreak (hc : c.Sound) : c.lineBreak.2.Sound := by
  unfold Cursor.lineBreak
  split
  · split
    · exact hc.next
    · split
      · exact hc.next
      · exact hc
  · exact hc

theorem Sound.cutOff {e : Failure} (hc : c.Sound) (he : c.cutOff? = some e) : IsFault e := by
  unfold cutOff? at he
  split at he
  · exact hc e he
  · cases he

theorem Sound.getD_cutOff {e : Failure} (hc : c.Sound) (he : IsFault e) :
    IsFault (c.cutOff?.getD e) := by
  cases h : c.cutOff? with
  | none => exact he
  | some e' => exact hc.cutOff h

/-- What is found wrong at a sound cursor is a failure of the list. -/
theorem Sound.fault (hc : c.Sound) : IsFault c.fault := hc.getD_cutOff trivial

end Cursor

/-- A part of the text is read with a sound cursor behind it, or refused with a failure of the
list. -/
def Reads {α : Type} (x : Except Failure (α × Cursor)) : Prop :=
  Ends IsFault (fun r ↦ r.2.Sound) x

section Reads

variable {α β : Type} {r : α × Cursor} {c : Cursor}

theorem Reads.bind {x : Except Failure (α × Cursor)} {f : α × Cursor → Except Failure (β × Cursor)}
    (hx : Reads x) (hf : ∀ a c, c.Sound → Reads (f (a, c))) : Reads (x >>= f) :=
  Ends.bind hx fun r hr ↦ hf r.1 r.2 hr

/-- A part of the text that must fit what follows it. -/
theorem reads_or_fault (p : Prop) [Decidable p] (hr : r.2.Sound) (hc : c.Sound) :
    Reads (if p then .ok r else .error c.fault) := by
  split
  · exact hr
  · exact hc.fault

theorem finishLine_ends (hc : c.Sound) : Ends IsFault Cursor.Sound c.finishLine := by
  have hbehind : c.skipSpaces.skipComment.Sound := hc.skipSpaces.skipComment
  simp only [Cursor.finishLine]
  split
  · exact hbehind.lineBreak
  · exact hbehind.fault

/-- A part of the text that ends with its line. -/
theorem reads_of_finishLine {f : Cursor → β} (hc : c.Sound) :
    Reads (do let c ← c.finishLine; return (f c, c)) :=
  (finishLine_ends hc).bind fun _ hc ↦ hc

end Reads

variable {c : Cursor}

/-! ## Anchors, tags and directives -/

theorem word_reads (hc : c.Sound) : Reads (word c) := by
  simp only [word]
  split
  · exact hc.fault
  · exact hc.skip _

theorem anchorName_reads (hc : c.Sound) : Reads (anchorName c) := by
  apply (word_reads hc).bind
  intro name c hc
  exact reads_or_fault _ hc hc

theorem escapedChars_reads (hc : c.Sound) : Reads (escapedChars c) := by
  have hbehind : (c.skip (3 * (escapedOctets c.rest).length)).Sound := hc.skip _
  simp only [escapedChars]
  split
  · exact (hbehind.next.skipWhile _).fault
  · split
    · exact hbehind
    · exact hbehind.fault

theorem tagTextAfter_reads (fuel : Nat) (before : List Char) (hc : c.Sound) :
    Reads (tagTextAfter before fuel c) := by
  induction fuel generalizing before c with
  | zero => exact hc
  | succ fuel ih =>
    rw [tagTextAfter]
    split
    · apply (escapedChars_reads hc).bind
      intro cs c hc
      exact ih _ hc
    · split
      · exact ih _ hc.next
      · exact hc
    · exact hc

theorem tagText_reads (hc : c.Sound) : Reads (tagText c) := by
  unfold tagText
  split
  · apply (tagTextAfter_reads _ _ hc).bind
    intro text c hc
    exact hc
  · exact hc.fault

theorem tagHandle_reads (hc : c.Sound) : Reads (tagHandle c) := by
  unfold tagHandle
  split
  · split
    · exact hc.next
    · exact reads_or_fault _ (hc.skip _).next (hc.skip _)
  · exact hc.fault

theorem hasHandle_failsWith (hc : c.Sound) : FailsWith IsFault (hasHandle c) := by
  simp only [hasHandle]
  split
  case h_1 e he => exact (hc.next.skipWhile _).cutOff he
  · trivial

theorem tagParts_reads (hc : c.Sound) : Reads (tagParts c) := by
  unfold tagParts
  split
  · apply (tagText_reads (hc.skip 2)).bind
    intro suffix c hc
    exact reads_or_fault _ hc.next hc
  · split
    · exact hc.next
    · refine (hasHandle_failsWith hc).bind fun found _ ↦ ?_
      split
      · apply (tagHandle_reads hc).bind
        intro handle c hc
        apply (tagText_reads hc).bind
        intro suffix c hc
        exact hc
      · apply (tagText_reads hc.next).bind
        intro suffix c hc
        exact hc

theorem writtenTag_reads (hc : c.Sound) : Reads (writtenTag c) := by
  apply (tagParts_reads hc).bind
  intro t c hc
  exact reads_or_fault _ hc hc

theorem versionNumber_reads (hc : c.Sound) : Reads (versionNumber c) := by
  have hafter : (c.skip (c.rest.takeWhile Char.isDigit).length).Sound := hc.skip _
  simp only [versionNumber]
  split
  · exact hc.fault
  · split
    · exact hafter.getD_cutOff trivial
    · exact hafter

theorem versionDirective_reads (hc : c.Sound) : Reads (versionDirective c) := by
  apply (versionNumber_reads hc.skipSpaces).bind
  intro major c hc
  dsimp only
  split
  · exact hc.fault
  · apply (versionNumber_reads hc.next).bind
    intro minor c hc
    exact reads_or_fault _ hc hc

theorem handleDirective_reads (hc : c.Sound) : Reads (handleDirective c) := by
  apply (tagHandle_reads hc.skipSpaces).bind
  intro name c hc
  dsimp only
  split
  · exact hc.fault
  · apply (tagText_reads hc.skipSpaces).bind
    intro stem c hc
    exact reads_or_fault _ hc hc

theorem directive_reads (hc : c.Sound) : Reads (directive c) := by
  apply (word_reads hc.next).bind
  intro name c hc
  dsimp only
  split
  · exact hc.fault
  · split
    · exact (versionDirective_reads hc).bind fun d c hc ↦ reads_of_finishLine hc
    · exact (handleDirective_reads hc).bind fun d c hc ↦ reads_of_finishLine hc
    · exact reads_of_finishLine hc.skipLine

end ShortCircuit.Yaml
