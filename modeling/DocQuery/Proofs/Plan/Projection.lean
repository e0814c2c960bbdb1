import DocQuery.Proofs.Plan.Groups

/-!
# What the final projection keeps

Each item of a select list asks for an entry of the final projection: its output name, and where its
value is found. The entries are written one after the other, and the id is left out at the end
unless it is one of the selected columns of a statement without groups
(`compileSelect_finalProjection`). Items that share an output name, or that go by `_id`, can
therefore lose their entry. `compileSelect_projectsItems_iff` says that this is the only way in
which an item is lost.
-/

namespace DocQuery

open Syntax Plan

/-- The document that names the fields of the result. -/
def Query.finalProjection (q : Query) : Document :=
  if q.grouping then q.groupProjection else q.projection

theorem Query.getLast?_stages {q : Query} (h : q.finalProjection ≠ []) :
    q.stages.getLast? = some (.project q.finalProjection) := by
  have hlast : Query.stageUnlessEmpty .project q.finalProjection = [.project q.finalProjection] :=
    if_neg (mt List.isEmpty_iff.1 h)
  rw [Query.stages, ← Query.finalProjection, hlast, List.getLast?_concat]

namespace Plan

/-! ## Entries of items -/

/-- The entry of a column where rows are not grouped: under its alias its path, else itself. -/
def columnOutput (field : String × Option String) : String × Value :=
  match field.2 with
  | some name => (name, .string ("$" ++ field.1))
  | none => (field.1, .int 1)

/-- The entry that an item of the select list asks for: its output name, and where its value is
found. -/
def itemOutput? (m : Model) (item : SelectItem) : Option (String × Value) :=
  if m.hasGrouping then groupOutput? (groupedFields m) item
  else (Model.columnItem? item).map columnOutput

/-- The entries of all items. -/
def outputs (m : Model) : Document := m.items.filterMap (itemOutput? m)

/-- Whether the id is left in the result: it is a selected column, and rows are not grouped. -/
def keepsId (m : Model) : Bool :=
  !m.hasGrouping && m.selectColumns.any fun field => field.1 = "_id"

/-- The projection has the entry of every item. -/
def ProjectsItems (m : Model) (projection : Document) : Prop :=
  ∀ item ∈ m.items, ∃ entry, itemOutput? m item = some entry ∧
    Keyed.get? projection entry.1 = some entry.2

/-- No entry of an item replaces another one, and none is replaced when the id is left out. -/
structure OutputsApart (m : Model) : Prop where
  /-- Items with the same output name have the same value. -/
  names : ∀ a ∈ outputs m, ∀ b ∈ outputs m, a.1 = b.1 → a.2 = b.2
  /-- No item goes by `_id` if the id is left out. -/
  id : ∀ entry ∈ outputs m, entry.1 = "_id" → keepsId m = true

variable {m : Model} {item : SelectItem}

/-- No item asks for a field to be left out. -/
theorem itemOutput?_ne_zero {entry : String × Value} (h : itemOutput? m item = some entry) :
    entry.2 ≠ .int 0 := by
  unfold itemOutput? at h
  split at h
  · unfold groupOutput? at h
    split at h
    · obtain ⟨place, -, rfl⟩ := Option.map_eq_some_iff.1 h
      simp
    · cases h
      simp
    · cases h
  · obtain ⟨field, -, rfl⟩ := Option.map_eq_some_iff.1 h
    unfold columnOutput
    split <;> simp

theorem exists_itemOutput?_column (c : Column) (aliasName : Option String)
    (hi : .expr (.column c) aliasName ∈ m.items) :
    ∃ entry, itemOutput? m (.expr (.column c) aliasName) = some entry := by
  unfold itemOutput?
  split
  · have hmem : c.path ∈ groupedFields m :=
      mem_groupedFields.2 (.inl (List.mem_map.2 ⟨(c.path, aliasName),
        List.mem_filterMap.2 ⟨_, hi, rfl⟩, rfl⟩))
    exact ⟨_, by rw [groupOutput?, idReferenceIn_of_mem hmem, Option.map_some]⟩
  · exact ⟨_, rfl⟩

/-- Every item of a select list without the wildcard asks for an entry. -/
theorem exists_itemOutput? {query : Select} (h : Model.ofSelect query = .ok m)
    (hw : query.isWildcard = false) (hi : item ∈ m.items) :
    ∃ entry, itemOutput? m item = some entry := by
  rcases Model.column_or_call h hw hi with ⟨c, aliasName, rfl⟩ | ⟨hg, name, args, aliasName, rfl⟩
  · exact exists_itemOutput?_column c aliasName hi
  · exact ⟨_, by rw [itemOutput?, if_pos hg, groupOutput?]⟩

/-! ## The final projection -/

/-- The entries of the items, and the id left out. -/
def projectionOf (m : Model) : Document :=
  if keepsId m then Keyed.putAll [] (outputs m)
  else Keyed.put (Keyed.putAll [] (outputs m)) "_id" (.int 0)

theorem outputs_of_plain (h : m.hasGrouping = false) :
    outputs m = m.selectColumns.map columnOutput := by
  rw [outputs, Model.selectColumns, List.map_filterMap]
  refine List.filterMap_congr fun item _ => ?_
  rw [itemOutput?, h, if_neg Bool.false_ne_true]

theorem plainProjection_eq (hc : m.command = .select) (hw : m.isWildcard = false)
    (hg : m.hasGrouping = false) : plainProjection m = projectionOf m := by
  rw [plainProjection, projectionOf, keepsId, outputs_of_plain hg, hc, hw, hg]
  rfl

theorem GroupingOf.projection_eq {g : Grouping} (h : GroupingOf m g) (hg : m.hasGrouping = true) :
    g.projection = projectionOf m := by
  have houtputs : outputs m = m.items.filterMap (groupOutput? g.fields) := by
    refine List.filterMap_congr fun item _ => ?_
    rw [itemOutput?, if_pos hg, h.fields]
  rw [h.projection, projectionOf, keepsId, houtputs, hg]
  rfl

theorem projectionOf_ne_nil (m : Model) : projectionOf m ≠ [] := by
  unfold projectionOf
  split
  · next hid =>
    obtain ⟨hg, hany⟩ := Bool.and_eq_true_iff.1 hid
    obtain ⟨field, hf, -⟩ := List.any_eq_true.1 hany
    refine Keyed.putAll_ne_nil (.inr ?_)
    rw [outputs_of_plain (by simpa using hg)]
    exact mt List.map_eq_nil_iff.1 (List.ne_nil_of_mem hf)
  · exact Keyed.put_ne_nil _ _ _

/-- Every output name is a name of the final projection. -/
theorem mem_keys_projectionOf {entry : String × Value} (h : entry ∈ outputs m) :
    entry.1 ∈ Keyed.keys (projectionOf m) := by
  have hmem : entry.1 ∈ Keyed.keys (Keyed.putAll [] (outputs m)) :=
    Keyed.mem_keys_putAll.2 (.inr (List.mem_map_of_mem h))
  unfold projectionOf
  split
  · exact hmem
  · exact Keyed.mem_keys_put.2 (.inr hmem)

/-- The final projection has nothing but the entries of items and the id that is left out. -/
theorem mem_of_mem_projectionOf {entry : String × Value} (h : entry ∈ projectionOf m) :
    entry ∈ outputs m ∨ entry = ("_id", .int 0) := by
  have hputs : ∀ entry ∈ Keyed.putAll [] (outputs m), entry ∈ outputs m := fun _ he =>
    (Keyed.mem_of_mem_putAll he).resolve_left List.not_mem_nil
  unfold projectionOf at h
  split at h
  · exact .inl (hputs entry h)
  · exact (Keyed.mem_of_mem_put h).imp_left (hputs entry)

/-- **The entries of all items can be read** exactly if none of them is replaced. -/
theorem get?_projectionOf_iff :
    (∀ entry ∈ outputs m, Keyed.get? (projectionOf m) entry.1 = some entry.2) ↔
      OutputsApart m := by
  have hkept := Keyed.forall_get?_putAll_iff [] (outputs m)
  unfold projectionOf
  split
  · next hid =>
    rw [hkept]
    exact ⟨fun hnames => ⟨hnames, fun _ _ _ => hid⟩, OutputsApart.names⟩
  · next hid =>
    have hput : ∀ entry ∈ outputs m,
        (Keyed.get? (Keyed.put (Keyed.putAll [] (outputs m)) "_id" (.int 0)) entry.1 =
            some entry.2 ↔
          entry.1 ≠ "_id" ∧ Keyed.get? (Keyed.putAll [] (outputs m)) entry.1 = some entry.2) := by
      intro entry he
      obtain ⟨item, -, hitem⟩ := List.mem_filterMap.1 he
      exact Keyed.get?_put_eq_some_iff (itemOutput?_ne_zero hitem)
    rw [forall₂_congr hput]
    constructor
    · intro h
      exact ⟨hkept.1 fun entry he => (h entry he).2, fun entry he hn => absurd hn (h entry he).1⟩
    · intro h entry he
      exact ⟨fun hn => hid (h.id entry he hn), hkept.2 h.names entry he⟩

/-- Nothing is lost if all output names differ. -/
theorem OutputsApart.of_nodup (h : (Keyed.keys (outputs m)).Nodup)
    (hid : "_id" ∈ Keyed.keys (outputs m) → keepsId m = true) : OutputsApart m where
  names a ha b hb hab := by
    have hget := Keyed.get?_of_mem h ha
    rw [hab, Keyed.get?_of_mem h hb] at hget
    exact (Option.some.inj hget).symm
  id entry he hn := hid (hn ▸ List.mem_map_of_mem he)

theorem projectsItems_iff {query : Select} (h : Model.ofSelect query = .ok m)
    (hw : query.isWildcard = false) : ProjectsItems m (projectionOf m) ↔ OutputsApart m := by
  rw [← get?_projectionOf_iff]
  constructor
  · intro hall entry he
    obtain ⟨item, hi, hitem⟩ := List.mem_filterMap.1 he
    obtain ⟨entry', hitem', hget⟩ := hall item hi
    obtain rfl : entry = entry' := Option.some.inj (hitem.symm.trans hitem')
    exact hget
  · intro hall item hi
    obtain ⟨entry, hitem⟩ := exists_itemOutput? h hw hi
    exact ⟨entry, hitem, hall entry (List.mem_filterMap.2 ⟨item, hi, hitem⟩)⟩

end Plan

/-- **The final projection has the entries of the items** in the order of the select list, and the
id is left out at the end unless it is selected. -/
theorem compileSelect_finalProjection {s : Settings} {query : Select} {q : Query}
    (h : compileSelect s query = .ok q) (hw : query.isWildcard = false) :
    ∃ m, Model.ofSelect query = .ok m ∧ q.finalProjection = projectionOf m := by
  unfold Query.finalProjection
  split
  · next hg =>
    obtain ⟨m, g, order, hm, hgroups, hgrouping, -, -, hprojection, -⟩ := compileSelect_groups h hg
    exact ⟨m, hm, hprojection.trans ((groupingOf_ofModel hgrouping).projection_eq hgroups)⟩
  · next hg =>
    obtain ⟨m, origin, hm, -, h⟩ := compileSelect_ok h
    obtain ⟨joined, filter, stages, -, -, -, h⟩ := compileModel_ok h
    refine ⟨m, hm, ?_⟩
    split at h
    · next hgroups =>
      obtain ⟨g, order, having, -, -, -, rfl⟩ := addGroups_ok h
      exact absurd hgroups hg
    · next hgroups =>
      obtain ⟨order, -, -, rfl⟩ := addPlain_ok h
      have hc : m.command = .select := by
        obtain ⟨-, -, rfl⟩ := Model.ofSelect_ok hm
        rfl
      exact plainProjection_eq hc ((Model.isWildcard_eq hm).trans hw) (Bool.eq_false_iff.2 hgroups)

/-- **No item of a select list is lost from the result, unless its output name is taken.** The final
projection comes last and has every output name. It gives each name the value that its item asks for
exactly if no two items share an output name for different values, and no item goes by `_id`, except
in a statement without groups that selects the id. -/
theorem compileSelect_projectsItems_iff {s : Settings} {query : Select} {q : Query}
    (h : compileSelect s query = .ok q) (hw : query.isWildcard = false) :
    ∃ m, Model.ofSelect query = .ok m ∧
      q.stages.getLast? = some (.project q.finalProjection) ∧
      (∀ item ∈ m.items, ∃ entry, itemOutput? m item = some entry ∧
        entry.1 ∈ Keyed.keys q.finalProjection) ∧
      (ProjectsItems m q.finalProjection ↔ OutputsApart m) := by
  obtain ⟨m, hm, hprojection⟩ := compileSelect_finalProjection h hw
  refine ⟨m, hm, ?_, fun item hi => ?_, ?_⟩
  · exact Query.getLast?_stages (hprojection ▸ projectionOf_ne_nil m)
  · obtain ⟨entry, hitem⟩ := exists_itemOutput? hm hw hi
    refine ⟨entry, hitem, ?_⟩
    rw [hprojection]
    exact mem_keys_projectionOf (List.mem_filterMap.2 ⟨item, hi, hitem⟩)
  · rw [hprojection]
    exact projectsItems_iff hm hw

/-- Grouped columns with an alias and with a dot in the path, and an aggregate. -/
theorem compileSelect_projectsItems_iff_grouped : ∃ c query m, compile {}
      "SELECT a AS x, b.c, COUNT(*) FROM t GROUP BY a, b.c" = .ok c ∧
    c.statement = .select query ∧ query.isWildcard = false ∧ Model.ofSelect query = .ok m ∧
    Keyed.keys (outputs m) = ["x", "b.c", "count"] ∧ ProjectsItems m c.query.finalProjection := by
  obtain ⟨c, query, m, g, hc, hs, hq, hm, -, hfacts⟩ := exists_groups {}
    "SELECT a AS x, b.c, COUNT(*) FROM t GROUP BY a, b.c"
    (fun _ m _ => (m.isWildcard, Keyed.keys (outputs m))) (false, ["x", "b.c", "count"])
    (by decide +kernel)
  obtain ⟨hwild, hkeys⟩ := Prod.mk.inj hfacts
  have hw : query.isWildcard = false := (Model.isWildcard_eq hm).symm.trans hwild
  have hapart : OutputsApart m := by
    refine .of_nodup (hkeys ▸ by decide) fun hid => ?_
    rw [hkeys] at hid
    exact absurd hid (by decide)
  obtain ⟨m', hm', -, -, hiff⟩ := compileSelect_projectsItems_iff hq hw
  obtain rfl : m = m' := Except.ok.inj (hm.symm.trans hm')
  exact ⟨c, query, m, hc, hs, hw, hm, hkeys, hiff.2 hapart⟩

/-- An id that is selected and grouped by is left out of the result. -/
theorem compileSelect_loses_id : ∃ c query m, compile {}
      "SELECT _id, COUNT(*) FROM t GROUP BY _id" = .ok c ∧
    c.statement = .select query ∧ query.isWildcard = false ∧ Model.ofSelect query = .ok m ∧
    Keyed.keys (outputs m) = ["_id", "count"] ∧ ¬ ProjectsItems m c.query.finalProjection := by
  obtain ⟨c, query, m, g, hc, hs, hq, hm, -, hfacts⟩ := exists_groups {}
    "SELECT _id, COUNT(*) FROM t GROUP BY _id"
    (fun _ m _ => (m.isWildcard, Keyed.keys (outputs m), keepsId m))
    (false, ["_id", "count"], false) (by decide +kernel)
  obtain ⟨hwild, hfacts⟩ := Prod.mk.inj hfacts
  obtain ⟨hkeys, hid⟩ := Prod.mk.inj hfacts
  have hw : query.isWildcard = false := (Model.isWildcard_eq hm).symm.trans hwild
  have hclash : ¬ OutputsApart m := by
    intro h
    have hmem : "_id" ∈ Keyed.keys (outputs m) := hkeys ▸ List.mem_cons_self
    obtain ⟨entry, he, hn⟩ := List.mem_map.1 hmem
    rw [h.id entry he hn] at hid
    cases hid
  obtain ⟨m', hm', hprojection⟩ := compileSelect_finalProjection hq hw
  obtain rfl : m = m' := Except.ok.inj (hm.symm.trans hm')
  refine ⟨c, query, m, hc, hs, hw, hm, hkeys, ?_⟩
  rw [hprojection, projectsItems_iff hm hw]
  exact hclash

end DocQuery
