import ShortCircuit.Json.Reader
import ShortCircuit.Yaml.Data

/-!
# Making data

What the steps of making data come to once the nodes and the data made so far are known, and the
data of a mapping of two entries.
-/

namespace ShortCircuit.Yaml

/-! ## Steps -/

namespace Building

theorem get_eq (b : Builder) : (get : Building Builder) b = .ok (b, b) := rfl

theorem liftM_ok {α : Type} (a : α) (b : Builder) :
    (liftM (Except.ok a : Except Failure α) : Building α) b = .ok (a, b) :=
  rfl

variable {number : Nat} {b : Builder} {n : Node} (links : Nat)

theorem node_eq (hnode : b.nodes[number]? = some n) : node number b = .ok (n, b) := by
  change Except.ok (b.nodes[number]?.getD default, b) = _
  rw [hnode, Option.getD_some]

theorem datum?_eq (hfresh : b.data[number]? = some none) : datum? number b = .ok (none, b) := by
  change Except.ok (b.data[number]?.join, b) = _
  rw [hfresh]
  rfl

/-- A collection without a datum is an empty one until it is filled. -/
theorem make_collection (hnode : b.nodes[number]? = some n) (hfresh : b.data[number]? = some none)
    {d : Datum} (hempty : emptyCollection? n.tag = some d) :
    make links number b =
      .ok ((), ⟨b.nodes, b.data.setIfInBounds number (some d), number :: b.unfilled⟩) := by
  simp only [make, bind, StateT.bind, Except.bind, datum?_eq hfresh, Option.isSome_none,
    Bool.false_eq_true, if_false, node_eq hnode, hempty]
  rfl

/-- A scalar without a datum gets the one that its text stands for. -/
theorem make_scalar (hnode : b.nodes[number]? = some n) (hfresh : b.data[number]? = some none)
    {text : Text} (hcontent : n.content = .scalar text) (htag : n.tag ∈ scalarTags) {v : Value}
    (hvalue : scalarValue number n text = .ok v) :
    make links number b =
      .ok ((), ⟨b.nodes, b.data.setIfInBounds number (some (.value v)), b.unfilled⟩) := by
  have hempty : emptyCollection? n.tag = none := by
    cases htag' : n.tag <;> first | rfl | exact absurd htag (by rw [htag']; decide)
  have htext (fuel : Nat) : scalarText (fuel + 1) number b = .ok (text, b) := by
    simp only [scalarText, bind, StateT.bind, Except.bind, node_eq hnode, hcontent]
    rfl
  have hscalar : (!scalarTags.contains n.tag) = false := by simpa using htag
  simp only [make, bind, StateT.bind, Except.bind, datum?_eq hfresh, Option.isSome_none,
    Bool.false_eq_true, if_false, node_eq hnode, hempty, hscalar, htext, hvalue, liftM_ok]
  rfl

theorem fillAll_nil (hfilled : b.unfilled = []) (fuel : Nat) :
    fillAll links fuel b = .ok ((), b) := by
  cases fuel with
  | zero => rfl
  | succ fuel =>
    simp only [fillAll, bind, StateT.bind, Except.bind, get_eq, hfilled]
    rfl

/-- One collection is filled, and no other waits afterwards. -/
theorem fillAll_singleton {b' : Builder} (hunfilled : b.unfilled = [number])
    (hfill : fill links number ⟨b.nodes, b.data, []⟩ = .ok ((), b')) (hfilled : b'.unfilled = [])
    (fuel : Nat) : fillAll links (fuel + 1) b = .ok ((), b') := by
  have hround : ([number].forM (fill links)) ⟨b.nodes, b.data, []⟩ = .ok ((), b') := by
    simp only [List.forM, bind, StateT.bind, Except.bind, hfill]
    rfl
  have hmodify : (modify fun b ↦ { b with unfilled := [] } : Building Unit) b =
      .ok ((), ⟨b.nodes, b.data, []⟩) := rfl
  simp only [fillAll, bind, StateT.bind, Except.bind, get_eq, hunfilled, List.reverse_singleton,
    hmodify, hround, fillAll_nil links hfilled]

/-- An entry is put behind one with another key. -/
theorem putEntry_text {name name' : Text} (hne : name ≠ name') (v v' : Nat) :
    putEntry comparisonRoom [] (.text name') v' [(.text name, v)] =
      .ok [(.text name, v), (.text name', v')] := by
  have hequal : Value.equalWithin comparisonRoom (.text name) (.text name') = .ok false :=
    congrArg Except.ok (beq_eq_false_iff_ne.mpr hne)
  simp only [putEntry, hequal, bind, Except.bind]
  rfl

end Building

/-! ## Two entries -/

/-- The nodes of a mapping of two entries, of whose texts only the last one is plain. -/
def entryNodes (name word name' word' : Text) : Array Node :=
  #[⟨.mapping, .mapping [(1, 2), (3, 4)]⟩, ⟨.text, .scalar name⟩, ⟨.text, .scalar word⟩,
    ⟨.text, .scalar name'⟩, ⟨.ofPlain word', .scalar word'⟩]

/-- The data of a mapping of two entries, of whose values the last one is a boolean. -/
def entryData (name word name' : Text) (b : Bool) : Data :=
  ⟨#[some (.dict [(.text name, 2), (.text name', 4)]), some (.value (.text name)),
    some (.value (.text word)), some (.value (.text name')), some (.value (.bool b))], some 0⟩

/-- The mapping of two entries is being filled, for which some of their keys and values have been
made. -/
def filling (nodes : Array Node) (made : List Value) : Builder :=
  ⟨nodes, (some (Datum.dict []) :: made.map (fun v ↦ some (Datum.value v)) ++
    List.replicate (4 - made.length) none).toArray, []⟩

variable (links : Nat) {name word name' word' : Text} {b : Bool}

theorem dictEntries_entryNodes (hne : name ≠ name') (hplain : Tag.ofPlain word' = .bool)
    (hbool : Building.boolean word' = .ok (.bool b)) :
    Building.dictEntries links 0 (filling (entryNodes name word name' word') []) =
      .ok ([(.text name, 2), (.text name', 4)], filling (entryNodes name word name' word')
        [.text name, .text word, .text name', .bool b]) := by
  have hput : Building.putEntry comparisonRoom [] (.text name) 2 [] = .ok [(.text name, 2)] := rfl
  generalize hnodes : entryNodes name word name' word' = nodes
  have hmerged : Building.mergedEntries links 0 (filling nodes []) =
      .ok ([(1, 2), (3, 4)], filling nodes []) := by
    subst hnodes
    rfl
  have hname : Building.makeKey links 1 (filling nodes []) =
      .ok (.text name, filling nodes [.text name]) := by
    subst hnodes
    rfl
  have hword : Building.make links 2 (filling nodes [.text name]) =
      .ok ((), filling nodes [.text name, .text word]) := by
    subst hnodes
    rfl
  have hname' : Building.makeKey links 3 (filling nodes [.text name, .text word]) =
      .ok (.text name', filling nodes [.text name, .text word, .text name']) := by
    subst hnodes
    rfl
  have hword' : Building.make links 4 (filling nodes [.text name, .text word, .text name']) =
      .ok ((), filling nodes [.text name, .text word, .text name', .bool b]) := by
    have hnode : nodes[4]? = some ⟨.bool, .scalar word'⟩ := by
      rw [← hnodes, ← hplain]
      rfl
    have hvalue : Building.scalarValue 4 ⟨.bool, .scalar word'⟩ word' = .ok (.bool b) := hbool
    exact Building.make_scalar links hnode rfl rfl (show Tag.bool ∈ _ by decide) hvalue
  simp only [Building.dictEntries, bind, StateT.bind, hmerged, Except.bind, List.foldlM, hname,
    hword, hname', hword', hput, Building.putEntry_text hne, Building.liftM_ok]
  rfl

theorem Data.ofGraph_entryNodes (hne : name ≠ name') (hplain : Tag.ofPlain word' = .bool)
    (hbool : Building.boolean word' = .ok (.bool b)) :
    Data.ofGraph links ⟨entryNodes name word name' word', some 0⟩ =
      .ok (entryData name word name' b) := by
  have hentries := @dictEntries_entryNodes links name word name' word' b hne hplain hbool
  have hsize : (entryNodes name word name' word').size = 5 := rfl
  have hroot : (entryNodes name word name' word')[0]? =
      some ⟨.mapping, .mapping [(1, 2), (3, 4)]⟩ := rfl
  generalize entryNodes name word name' word' = nodes at hentries hsize hroot
  have hopen : Building.make links 0 ⟨nodes, Array.replicate 5 none, []⟩ =
      .ok ((), ⟨nodes, (filling nodes []).data, [0]⟩) := by
    have hempty : Building.emptyCollection? Tag.mapping = some (.dict []) := rfl
    rw [Building.make_collection links hroot rfl hempty]
    rfl
  have hfill : Building.fill links 0 (filling nodes []) =
      .ok ((), ⟨nodes, (entryData name word name' b).data, []⟩) := by
    have hnode : Building.node 0 (filling nodes []) = _ := Building.node_eq hroot
    simp only [Building.fill, bind, StateT.bind, hnode, Except.bind, hentries]
    rfl
  have hfillAll : Building.fillAll links 6 ⟨nodes, (filling nodes []).data, [0]⟩ =
      .ok ((), ⟨nodes, (entryData name word name' b).data, []⟩) :=
    Building.fillAll_singleton links rfl hfill rfl 5
  simp only [Data.ofGraph, StateT.run, bind, StateT.bind, Except.bind, hsize, hopen, hfillAll]
  rfl

/-- Entries that are needed are the members of an object. -/
theorem needed_entryData {keys : List Text} (hname : name ∈ keys) (hname' : name' ∈ keys) :
    (entryData name word name' b).needed keys =
      Json.objectValue [(name, .text word), (name', .bool b)] := by
  change Value.dict (([(Value.text name, 2), (Value.text name', 4)].filter fun e ↦ _).map _) = _
  simp only [List.filter_cons, List.contains_iff_mem.mpr hname, List.contains_iff_mem.mpr hname']
  rfl

end ShortCircuit.Yaml
