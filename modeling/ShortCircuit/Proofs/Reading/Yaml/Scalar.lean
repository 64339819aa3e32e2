import ShortCircuit.Proofs.Reading.Yaml.Scan

/-!
# Failures of reading scalars

Plain and block scalars move over any characters, so that only the header of a block scalar can be
refused. Between quotes a text may end too early, and an escape may stand for no code point.
-/

namespace ShortCircuit.Yaml

variable {c : Cursor}

/-! ## Plain scalars -/

namespace Plain

theorem sound_emptyLines (before : List Char) (fuel : Nat) (hc : c.Sound) :
    (emptyLines before fuel c).2.Sound := by
  induction fuel generalizing before c with
  | zero => exact hc
  | succ fuel ih =>
    unfold emptyLines
    split
    · split
      · exact ih _ hc.next
      · split
        · dsimp only
          split
          · exact hc.lineBreak
          · exact ih _ hc.lineBreak
        · exact hc
    · exact hc

theorem sound_gap (fuel : Nat) (hc : c.Sound) : (gap fuel c).after.Sound := by
  have hbehind : (c.skip (c.rest.takeWhile (· == ' ')).length).Sound := hc.skip _
  simp only [gap]
  split
  · split
    · exact hbehind.lineBreak
    · have hlines := sound_emptyLines [] fuel hbehind.lineBreak
      split
      case h_1 he | h_2 he =>
        rw [he] at hlines
        exact hlines
  · exact hbehind

theorem sound_readFrom (inFlow : Bool) (indent : Nat) {r : Read} (text : List Char) (fuel : Nat)
    (hr : r.after.Sound) : (readFrom inFlow indent r text fuel).after.Sound := by
  induction fuel generalizing r text with
  | zero => exact hr
  | succ fuel ih =>
    simp only [readFrom]
    split
    · exact hr
    · have hgap := sound_gap fuel (hr.skip (runLength inFlow 0 r.after.rest))
      split
      · exact hgap
      · exact ih _ hgap

theorem sound_read (fuel : Nat) (inFlow : Bool) (indent : Nat) (hc : c.Sound) :
    (read fuel inFlow indent c).after.Sound :=
  sound_readFrom inFlow indent [] fuel hc

end Plain

/-! ## Quoted scalars -/

namespace Quoted

theorem emptyLines_reads (before : List Char) (fuel : Nat) (hc : c.Sound) :
    Reads (emptyLines before fuel c) := by
  induction fuel generalizing before c with
  | zero => exact hc
  | succ fuel ih =>
    simp only [emptyLines]
    split
    · exact (hc.skip 3).fault
    · split
      · exact ih _ (hc.skipWhile isBlank).lineBreak
      · exact hc.skipWhile isBlank

theorem gap_reads (fuel : Nat) (hc : c.Sound) : Reads (gap fuel c) := by
  have hbehind : (c.skip (c.rest.takeWhile isBlank).length).Sound := hc.skip _
  simp only [gap]
  split
  · exact hbehind.fault
  · split
    · apply (emptyLines_reads [] fuel hbehind.lineBreak).bind
      intro lines c hc
      exact hc
    · exact hbehind

theorem escape_reads (fuel : Nat) (hc : c.Sound) : Reads (escape fuel c) := by
  unfold escape
  split
  · exact hc.fault
  · split
    · exact hc.next
    -- The number of digits is that of the kind of escape, or the text breaks off.
    · dsimp only
      split
      · split
        · exact (hc.next.skip _).fault
        · split
          · exact hc.next.skip _
          · trivial
      · trivial
    · split
      · apply (emptyLines_reads [] fuel hc.lineBreak).bind
        intro lines c hc
        exact hc
      · trivial

theorem readFrom_reads (isDouble : Bool) (before : Text) (fuel : Nat) (hc : c.Sound) :
    Reads (readFrom isDouble before fuel c) := by
  induction fuel generalizing before c with
  | zero => trivial
  | succ fuel ih =>
    unfold readFrom
    split
    · exact hc.fault
    · split
      · exact hc.next
      · exact ih _ hc.next
    · split
      · exact ih _ hc.next
      · split
        · exact ih _ (hc.skip 2)
        · exact hc.next
    · split
      · apply (escape_reads fuel hc.next).bind
        intro text c hc
        exact ih _ hc
      · exact ih _ hc.next
    · split
      · apply (gap_reads fuel hc).bind
        intro text c hc
        exact ih _ hc
      · exact ih _ hc.next

theorem read_reads (fuel : Nat) (isDouble : Bool) (hc : c.Sound) : Reads (read fuel isDouble c) :=
  readFrom_reads isDouble [] fuel hc.next

end Quoted

/-! ## Block scalars -/

namespace Block

theorem increment?_failsWith (ch : Option Char) : FailsWith IsFault (increment? ch) := by
  unfold increment?
  split <;> trivial

theorem indicators_reads (hc : c.Sound) : Reads (indicators c) := by
  unfold indicators
  split
  · refine (increment?_failsWith _).bind fun n _ ↦ ?_
    split
    · exact hc.next.next
    · exact hc.next
  · refine (increment?_failsWith _).bind fun n _ ↦ ?_
    split
    · dsimp only
      split
      · exact hc.next.next
      · exact hc.next
    · exact hc

theorem header_reads (hc : c.Sound) : Reads (header c) := by
  apply (indicators_reads hc).bind
  intro h c hc
  dsimp only
  split
  · exact reads_of_finishLine hc
  · exact hc.fault

theorem sound_leadingLines (before : List Char) (deepest fuel : Nat) (hc : c.Sound) :
    (leadingLines before deepest fuel c).2.2.Sound := by
  induction fuel generalizing before deepest c with
  | zero => exact hc
  | succ fuel ih =>
    unfold leadingLines
    split
    · split
      · exact ih _ _ hc.next
      · split
        · exact ih _ _ hc.lineBreak
        · exact hc
    · exact hc

theorem sound_emptyLines (indent : Nat) (before : List Char) (fuel : Nat) (hc : c.Sound) :
    (emptyLines indent before fuel c).2.Sound := by
  induction fuel generalizing before c with
  | zero => exact hc
  | succ fuel ih =>
    have hindented : (skipIndent indent c).Sound := hc.skip _
    simp only [emptyLines]
    split
    · exact ih _ hindented.lineBreak
    · exact hindented

theorem sound_lines (isFolded : Bool) (indent : Nat) {r : Lines} (fuel : Nat)
    (hr : r.after.Sound) : (lines isFolded indent r fuel).after.Sound := by
  induction fuel generalizing r with
  | zero => exact hr
  | succ fuel ih =>
    simp only [lines]
    split
    · exact hr
    · have hempty (n : Nat) := sound_emptyLines indent [] fuel (hr.skip n).lineBreak
      split
      · exact ih (hempty _)
      · exact hempty _

theorem read_reads (fuel : Nat) (isFolded : Bool) (least : Nat) (hc : c.Sound) :
    Reads (read fuel isFolded least c) := by
  apply (header_reads hc.next).bind
  intro h c hc
  apply sound_lines
  dsimp only
  split
  · exact sound_emptyLines _ [] fuel hc
  · exact sound_leadingLines [] 0 fuel hc

end Block

end ShortCircuit.Yaml
