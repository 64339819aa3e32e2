import ShortCircuit.Json.Reader
import ShortCircuit.Proofs.Reading.Ends

/-!
# What JSON texts hold

`Json.IsDocument` lists the values that a JSON text can hold. The members of an object have
different names, whatever the text repeats. `Json.read_isDocument` says that nothing else is read.
-/

namespace ShortCircuit.Json

/-- The values that a JSON text can hold. -/
inductive IsDocument : Value → Prop
  | nothing : IsDocument .nothing
  | bool (b : Bool) : IsDocument (.bool b)
  | int (n : Int) : IsDocument (.int n)
  | float (id : Nat) (x : Float) : IsDocument (.float id x)
  | text (t : Text) : IsDocument (.text t)
  | list {items : List Value} (hitems : ∀ v ∈ items, IsDocument v) : IsDocument (.list items)
  | object {members : List (Text × Value)} (hnames : (members.map Prod.fst).Nodup)
    (hmembers : ∀ m ∈ members, IsDocument m.2) : IsDocument (objectValue members)

theorem objectValue_inj {members members' : List (Text × Value)} :
    objectValue members = objectValue members' ↔ members = members' := by
  have hinjective : ∀ m m' : Text × Value, (Value.text m.1, m.2) = (.text m'.1, m'.2) → m = m' := by
    simp [Prod.ext_iff]
  exact (Value.dict.injEq _ _).to_iff.trans (List.map_inj_right hinjective)

/-- Among documents only objects are dictionaries. -/
theorem IsDocument.ne_dict {v : Value} (hv : IsDocument v)
    (hobject : ∀ members, v ≠ objectValue members) (entries : List (Value × Value)) :
    v ≠ .dict entries := by
  cases hv with
  | object hnames hmembers => exact absurd rfl (hobject _)
  | _ => nofun

/-- If reading succeeds, it gives a document. -/
abbrev GivesDocument (r : Reading Value) : Prop := Ends (fun _ ↦ True) (fun r ↦ IsDocument r.1) r

/-! ## Members -/

/-- Members with different names that hold documents. -/
structure AreMembers (members : List (Text × Value)) : Prop where
  names : (members.map Prod.fst).Nodup
  documents : ∀ m ∈ members, IsDocument m.2

variable {members : List (Text × Value)} {v : Value}

theorem areMembers_nil : AreMembers [] := ⟨List.nodup_nil, by simp⟩

theorem AreMembers.document (hmembers : AreMembers members) : IsDocument (objectValue members) :=
  .object hmembers.names hmembers.documents

theorem AreMembers.insertMember (hmembers : AreMembers members) (key : Text)
    (hv : IsDocument v) : AreMembers (insertMember members key v) := by
  unfold Json.insertMember
  split
  case isTrue hany =>
    -- A member that is replaced keeps its name.
    have hfst : (members.map fun m ↦ if m.1 == key then (key, v) else m).map Prod.fst =
        members.map Prod.fst := by
      rw [List.map_map]
      refine List.map_congr_left fun m _ ↦ ?_
      by_cases hm : m.1 = key <;> simp [hm]
    refine ⟨hfst ▸ hmembers.names, fun m hm ↦ ?_⟩
    obtain ⟨m', hm', rfl⟩ := List.mem_map.mp hm
    split
    · exact hv
    · exact hmembers.documents m' hm'
  case isFalse hany =>
    refine ⟨?_, List.forall_mem_append.mpr ⟨hmembers.documents, by simpa using hv⟩⟩
    have hnew : key ∉ members.map Prod.fst := by
      intro hkey
      obtain ⟨m, hm, rfl⟩ := List.mem_map.mp hkey
      exact hany (List.any_eq_true.mpr ⟨m, hm, beq_self_eq_true m.1⟩)
    rw [List.map_append, List.nodup_append]
    refine ⟨hmembers.names, by simp, fun name hname other hother ↦ ?_⟩
    obtain rfl : other = key := by simpa using hother
    exact fun hsame ↦ hnew (hsame ▸ hname)

/-! ## Reading -/

section

variable {item : Cursor → Reading Value} (hitem : ∀ c, GivesDocument (item c))
include hitem

theorem elements_document {before : List Value} (hbefore : ∀ v ∈ before, IsDocument v)
    (fuel : Nat) (c : Cursor) : GivesDocument (elements item before fuel c) := by
  induction fuel generalizing before c with
  | zero => trivial
  | succ fuel ih =>
    refine (hitem c).bind fun r hr ↦ ?_
    have hitems : ∀ v ∈ r.1 :: before, IsDocument v := List.forall_mem_cons.mpr ⟨hr, hbefore⟩
    dsimp only
    split
    · exact .list fun v hv ↦ hitems v (List.mem_reverse.mp hv)
    · exact ih hitems _
    · trivial

theorem members_document {before : List (Text × Value)} (hbefore : AreMembers before)
    (fuel : Nat) (c : Cursor) : GivesDocument (Json.members item before fuel c) := by
  induction fuel generalizing before c with
  | zero => trivial
  | succ fuel ih =>
    have hkey : Ends (fun _ ↦ True) (fun _ ↦ True) (memberKey c) := by
      cases memberKey c <;> trivial
    refine hkey.bind fun key _ ↦ (hitem key.2).bind fun r hr ↦ ?_
    have hmembers := hbefore.insertMember key.1 hr
    dsimp only
    split
    · exact hmembers.document
    · exact ih hmembers _
    · trivial

theorem array_document (fuel : Nat) (c : Cursor) : GivesDocument (array fuel item c) := by
  unfold array
  dsimp only
  split
  · exact .list (by simp)
  · exact elements_document hitem (by simp) fuel _

theorem object_document (fuel : Nat) (c : Cursor) : GivesDocument (object fuel item c) := by
  unfold object
  dsimp only
  split
  · exact areMembers_nil.document
  · exact members_document hitem areMembers_nil fuel _

end

theorem number_document (limits : Limits) (c : Cursor) : GivesDocument (number limits c) := by
  unfold number
  split
  dsimp only
  split
  · trivial
  split
  · split
    · trivial
    · exact .int _
  · exact .float _ _

theorem string_document (c : Cursor) :
    GivesDocument ((string c).map fun r ↦ (.text r.1, r.2)) := by
  cases string c with
  | ok r => exact .text r.1
  | error halt => trivial

theorem words_document : ∀ w ∈ words, IsDocument w.2 := by
  simp only [words, List.forall_mem_cons]
  exact ⟨.nothing, .bool _, .bool _, .float _ _, .float _ _, .float _ _, by simp⟩

/-- A value is a document if the values are that may be nested in it. -/
theorem value_document_of_nested {limits : Limits} {fuel nesting : Nat}
    (hnested : ∀ further, nesting = further + 1 → ∀ c, GivesDocument (value limits fuel further c))
    (c : Cursor) : GivesDocument (value limits fuel nesting c) := by
  unfold value
  split
  case h_1 w hw => exact words_document w (List.mem_of_find?_eq_some hw)
  case h_2 =>
    split
    · exact string_document _
    · trivial
    · trivial
    · exact array_document (hnested _ rfl) fuel _
    · exact object_document (hnested _ rfl) fuel _
    · exact number_document limits c

theorem value_document (limits : Limits) (fuel nesting : Nat) (c : Cursor) :
    GivesDocument (value limits fuel nesting c) := by
  induction nesting generalizing c with
  | zero =>
    exact value_document_of_nested (fun further hnone ↦ absurd hnone further.succ_ne_zero.symm) c
  | succ nesting ih =>
    refine value_document_of_nested (fun further hfurther ↦ ?_) c
    obtain rfl : nesting = further := Nat.succ.inj hfurther
    exact ih

theorem document_isDocument (limits : Limits) (cs : List Char) :
    Ends (fun _ ↦ True) IsDocument (document limits cs) := by
  unfold document
  split
  · trivial
  · refine (value_document limits _ _ _).bind fun r hr ↦ ?_
    dsimp only
    split
    · exact hr
    · trivial

/-- What is read is a document. -/
theorem read_isDocument {limits : Limits} {cs : List Char} (hread : read limits cs = .ok v) :
    IsDocument v := by
  have hdocument := document_isDocument limits cs
  unfold read at hread
  split at hread
  case h_1 u hu =>
    obtain rfl : u = v := Except.ok.inj hread
    rwa [hu] at hdocument
  all_goals cases hread

end ShortCircuit.Json
