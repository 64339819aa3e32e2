import ShortCircuit.Proofs.Reading.Stream
import ShortCircuit.Settings.File

/-!
# Documents that are nested too deeply

A document of nothing but opening brackets is found to be nested too deeply before it is found to
be incomplete, once there are more brackets than levels of nesting for which there is room.
-/

namespace ShortCircuit

/-! ## Brackets -/

namespace Json

/-- An array stops where its first element does. -/
theorem array_of_error (fuel offset : Nat) {item : Cursor → Reading Value} {rest : List Char}
    {halt : Halt} (hitem : item ⟨offset, '[' :: rest⟩ = .error halt) :
    array (fuel + 1) item ⟨offset, '[' :: rest⟩ = .error halt := by
  have helements : elements item [] (fuel + 1) ⟨offset, '[' :: rest⟩ = .error halt := by
    rw [elements, hitem]
    rfl
  exact helements

/-- The room runs out at the first bracket for which there is none. -/
theorem value_tooDeep (limits : Limits) (fuel nesting offset : Nat) (rest : List Char) :
    value limits (fuel + 1) nesting ⟨offset, List.replicate (nesting + 1) '[' ++ rest⟩ =
      .error .tooDeep := by
  induction nesting generalizing offset with
  | zero => rfl
  | succ nesting ih => exact array_of_error fuel (offset + 1) (ih (offset + 1))

theorem document_tooDeep (limits : Limits) (further : Nat) :
    document limits (List.replicate (limits.nesting + 1) '[' ++ List.replicate further '[') =
      .error .tooDeep := by
  have hvalue (fuel : Nat) :=
    value_tooDeep limits fuel limits.nesting 0 (List.replicate further '[')
  rw [List.replicate_succ, List.cons_append] at hvalue ⊢
  change Except.bind (value limits (_ + 1) limits.nesting ⟨0, '[' :: _⟩) _ = _
  rw [hvalue]
  rfl

theorem read_tooDeep (limits : Limits) {brackets : Nat} (hdeep : limits.nesting < brackets) :
    read limits (List.replicate brackets '[') = .error .stackExhausted := by
  have hbrackets : List.replicate brackets '[' = List.replicate (limits.nesting + 1) '[' ++
      List.replicate (brackets - (limits.nesting + 1)) '[' := by
    rw [List.replicate_append_replicate, Nat.add_sub_of_le hdeep]
  rw [read, hbrackets, document_tooDeep]

end Json

namespace Settings

variable {C : Capacity}

theorem readJson_tooDeep {brackets : Nat} (hdeep : C.json < brackets) :
    readJson C (List.replicate brackets 0x5B) = .error .stackExhausted := by
  have hdecode :
      Utf8.decode (List.replicate brackets 0x5B) = .ok (List.replicate brackets '[') := by
    rw [Utf8.decode_ascii (by simp), Utf8.chars, List.map_replicate]
    rfl
  rw [readJson, hdecode]
  dsimp only
  rw [Lines.normalize_of_not_mem (by simp), Json.read_tooDeep (jsonLimits C) hdeep]

theorem ofFile_tooDeep {content : Path → Except Failure (List UInt8)} {path : Path}
    {brackets : Nat} (hdeep : C.json < brackets)
    (hformat : Format.ofSuffix? path.suffix = some .json)
    (hcontent : content path = .ok (List.replicate brackets 0x5B)) :
    ofFile C content path = .error .stackExhausted := by
  rw [ofFile, hcontent]
  change ofOctets C path.suffix _ = _
  rw [ofOctets, hformat]
  change Except.bind (readJson C _) _ = _
  rw [readJson_tooDeep hdeep]
  rfl

end Settings

end ShortCircuit
