import ShortCircuit.Files.Path

/-!
# The normal form of a path

Reading the text of a path that has been read gives the same path again, so two written paths are
one path if they are shown alike: that is `Path.ofText_eq_iff`. `Path.HasSuffix` says what the
suffix of a name is, and `Path.suffixOfName_eq_iff` that it is found.
-/

namespace ShortCircuit.Path

/-! ## Parts -/

/-- The parts of a written path are what stands between its slashes. -/
theorem partsAfter_nil (t : Text) : partsAfter [] t = t.splitOn slash := by
  have hafter (part t : Text) : partsAfter part t = t.splitOnPPrepend (· == slash) part := by
    induction t generalizing part with
    | nil => rfl
    | cons p rest ih =>
      rw [partsAfter, List.splitOnPPrepend_cons_eq_if, ih, ih]
      simp
  exact hafter [] t

theorem slash_not_mem_of_mem_partsAfter {part t : Text} (hpart : slash ∉ part) :
    ∀ x ∈ partsAfter part t, slash ∉ x := by
  induction t generalizing part with
  | nil => simpa [partsAfter] using hpart
  | cons p rest ih =>
    rw [partsAfter]
    split
    case isTrue hp => exact List.forall_mem_cons.mpr ⟨by simpa using hpart, ih List.not_mem_nil⟩
    case isFalse hp => exact ih (by simp [Ne.symm hp, hpart])

/-- At most two slashes make the path absolute, and its parts are such as slashes can stand
between. -/
structure IsNormal (p : Path) : Prop where
  root : ∃ slashes ≤ 2, p.root = List.replicate slashes slash
  proper : ∀ part ∈ p.parts, isProper part = true
  undivided : ∀ part ∈ p.parts, slash ∉ part

theorem isNormal_ofText (t : Text) : (ofText t).IsNormal where
  root := by
    refine ⟨_, ?_, rfl⟩
    split <;> omega
  proper _ hpart := (List.mem_filter.mp hpart).2
  undivided part hpart :=
    slash_not_mem_of_mem_partsAfter List.not_mem_nil part (List.mem_filter.mp hpart).1

/-! ## Reading what is shown -/

theorem isProper_ne_nil {part : Text} (hpart : isProper part = true) : part ≠ [] := by
  rintro rfl
  cases hpart

/-- Slashes at the start make no parts. -/
theorem filter_splitOn_slashes (slashes : Nat) (t : Text) :
    ((List.replicate slashes slash ++ t).splitOn slash).filter isProper =
      (t.splitOn slash).filter isProper := by
  induction slashes with
  | zero => rfl
  | succ slashes ih =>
    rw [List.replicate_succ, List.cons_append, List.splitOn_cons_eq_if_modifyHead, if_pos (by simp),
      List.filter_cons_of_neg (by decide), ih]

section

variable {parts : List Text} (hproper : ∀ part ∈ parts, isProper part = true)
  (hundivided : ∀ part ∈ parts, slash ∉ part)
include hproper hundivided

/-- Parts with slashes between them are read as these parts. -/
theorem filter_splitOn_intercalate :
    (([slash].intercalate parts).splitOn slash).filter isProper = parts := by
  by_cases hparts : parts = []
  · subst hparts
    rfl
  · rw [List.splitOn_intercalate slash hundivided hparts, List.filter_eq_self.mpr hproper]

/-- Parts with slashes between them do not start with a slash. -/
theorem takeWhile_intercalate :
    ([slash].intercalate parts).takeWhile (fun p ↦ p = slash) = [] := by
  cases parts with
  | nil => rfl
  | cons part rest =>
    obtain ⟨c, part, rfl⟩ := List.exists_cons_of_ne_nil
      (isProper_ne_nil (hproper part List.mem_cons_self))
    have hc : c ≠ slash := by
      rintro rfl
      exact hundivided _ List.mem_cons_self List.mem_cons_self
    have hhead : ∃ further, [slash].intercalate ((c :: part) :: rest) = c :: further := by
      cases rest <;> simp [List.intercalate]
    obtain ⟨further, hfurther⟩ := hhead
    rw [hfurther, List.takeWhile_cons_of_neg (by simpa using hc)]

end

/-- A normal path is read from the text that shows it. -/
theorem ofText_toText {p : Path} (hp : p.IsNormal) : ofText p.toText = p := by
  obtain ⟨root, parts⟩ := p
  obtain ⟨⟨slashes, hslashes, rfl⟩, hproper, hundivided⟩ := hp
  by_cases hempty : slashes = 0 ∧ parts = []
  · obtain ⟨rfl, rfl⟩ := hempty
    rfl
  · have htext : toText ⟨List.replicate slashes slash, parts⟩ =
        List.replicate slashes slash ++ [slash].intercalate parts := by
      rw [toText, if_neg (by simpa using hempty)]
      rfl
    have hcount : ((List.replicate slashes slash ++ [slash].intercalate parts).takeWhile
        fun p ↦ p = slash).length = slashes := by
      rw [List.takeWhile_append_of_pos (by simp), takeWhile_intercalate hproper hundivided]
      simp
    rw [htext, ofText, hcount, partsAfter_nil, filter_splitOn_slashes,
      filter_splitOn_intercalate hproper hundivided]
    have hroot : (if slashes = 2 then 2 else min slashes 1) = slashes := by
      split <;> omega
    rw [hroot]

/-- Two written paths are one path if and only if they are shown alike. -/
theorem ofText_eq_iff {t t' : Text} :
    ofText t = ofText t' ↔ (ofText t).toText = (ofText t').toText := by
  refine ⟨congrArg toText, fun h ↦ ?_⟩
  rw [← ofText_toText (isNormal_ofText t), h, ofText_toText (isNormal_ofText t')]

/-! ## Suffixes -/

/-- The suffix of a name: what follows from its last point on, if that is neither its first nor its
last character, and otherwise nothing. -/
inductive HasSuffix : (name suffix : Text) → Prop
  | pointed {stem tail : Text} (hstem : stem ≠ []) (htail : tail ≠ []) (hlast : point ∉ tail) :
    HasSuffix (stem ++ point :: tail) (point :: tail)
  | none {name : Text} (hname : ∀ stem tail, name = stem ++ point :: tail → point ∉ tail →
      stem = [] ∨ tail = []) : HasSuffix name []

/-- What stands before the next point is the text itself if it has no point. -/
theorem takeWhile_of_not_mem {t : Text} (ht : point ∉ t) (further : Text) :
    (t ++ further).takeWhile (fun p ↦ p ≠ point) =
      t ++ further.takeWhile fun p ↦ p ≠ point := by
  refine List.takeWhile_append_of_pos fun p hp ↦ ?_
  have hne : p ≠ point := by
    rintro rfl
    exact ht hp
  simpa using hne

/-- A name is taken apart at its last point. -/
theorem suffixOfName_append (stem : Text) {tail : Text} (hlast : point ∉ tail) :
    suffixOfName (stem ++ point :: tail) =
      if stem ≠ [] ∧ tail ≠ [] then point :: tail else [] := by
  have htail : ((stem ++ point :: tail).reverse.takeWhile fun p ↦ p ≠ point).reverse = tail := by
    have hreverse : (stem ++ point :: tail).reverse = tail.reverse ++ (point :: stem.reverse) := by
      simp
    rw [hreverse, takeWhile_of_not_mem (by simpa using hlast),
      List.takeWhile_cons_of_neg (by simp)]
    simp
  have hstem : (stem ++ point :: tail).length - (tail.length + 1) = stem.length := by
    simp only [List.length_append, List.length_cons]
    omega
  rw [suffixOfName, htail, hstem]
  simp [List.length_pos_iff]

/-- A name without a point has no suffix. -/
theorem suffixOfName_of_not_mem {name : Text} (hname : point ∉ name) : suffixOfName name = [] := by
  have htail := takeWhile_of_not_mem (t := name.reverse) (by simpa using hname) []
  rw [List.append_nil] at htail
  rw [suffixOfName, htail]
  simp

/-- A name with a point has a last one. -/
theorem eq_append_of_mem {name : Text} (hname : point ∈ name) :
    ∃ stem tail, name = stem ++ point :: tail ∧ point ∉ tail := by
  obtain ⟨tail, stem, hreverse, hlast⟩ :=
    List.eq_append_cons_of_mem (List.mem_reverse.mpr hname)
  refine ⟨stem.reverse, tail.reverse, ?_, by simpa using hlast⟩
  rw [← List.reverse_reverse name, hreverse]
  simp

/-- The suffix of a name is found, and there is only one. -/
theorem suffixOfName_eq_iff {name suffix : Text} :
    suffixOfName name = suffix ↔ HasSuffix name suffix := by
  constructor
  · rintro rfl
    by_cases hname : point ∈ name
    · obtain ⟨stem, tail, rfl, hlast⟩ := eq_append_of_mem hname
      rw [suffixOfName_append stem hlast]
      split
      case isTrue hparts => exact .pointed hparts.1 hparts.2 hlast
      case isFalse hparts =>
        refine .none fun stem' tail' hname' hlast' ↦ ?_
        have hsame := suffixOfName_append stem' hlast'
        rw [← hname', suffixOfName_append stem hlast, if_neg hparts] at hsame
        refine Classical.byContradiction fun hparts' ↦ ?_
        rw [if_pos (not_or.mp hparts')] at hsame
        cases hsame
    · rw [suffixOfName_of_not_mem hname]
      refine .none fun stem tail hparts _ ↦ (hname ?_).elim
      simp [hparts]
  · rintro (⟨hstem, htail, hlast⟩ | hname)
    · rw [suffixOfName_append _ hlast, if_pos ⟨hstem, htail⟩]
    · by_cases hpoint : point ∈ name
      · obtain ⟨stem, tail, rfl, hlast⟩ := eq_append_of_mem hpoint
        rw [suffixOfName_append stem hlast, if_neg]
        rintro ⟨hstem, htail⟩
        exact (hname stem tail rfl hlast).elim hstem htail
      · exact suffixOfName_of_not_mem hpoint

end ShortCircuit.Path
