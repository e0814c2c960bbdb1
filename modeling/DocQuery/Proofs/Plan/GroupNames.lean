import DocQuery.Proofs.Plan.Scope

/-!
# Names in conditions on groups and in orderings

A name of a column in a condition on groups is looked up among the aliases of aggregates, the names
of all aggregates and the grouped fields. An ordering does not ask for the names of all aggregates.
`NamedAlike` says which names both read alike, and `columns_namedAlike_iff` that an ordering by any
other name reads something else than the condition.
-/

namespace DocQuery

open Syntax

theorem Syntax.Expr.column?_eq_some {e : Expr} {c : Column} :
    e.column? = some c ↔ e = .column c := by
  cases e <;> simp [Expr.column?]

namespace Plan

/-- The path in a group that a condition on groups reads a column from. -/
def havingPath (m : Model) (g : Grouping) (path : String) : String :=
  if namesAggregate m g path then path else (groupedColumn? m g path).getD path

/-- Whether an ordering reads a name like a condition on groups does: it is the alias of an
aggregate, or no aggregate has this name, or the grouped field of this name is found under it. -/
def NamedAlike (m : Model) (g : Grouping) (path : String) : Prop :=
  m.aliases.isAggregate path = true ∨ path ∉ Keyed.keys g.accumulators ∨
    g.idReference? (m.aliases.fieldOf path) = some path

instance (m : Model) (g : Grouping) (path : String) : Decidable (NamedAlike m g path) :=
  inferInstanceAs (Decidable (_ ∨ _ ∨ _))

variable {m : Model} {g : Grouping} {path : String}

theorem namesAggregate_iff : namesAggregate m g path = true ↔
    m.aliases.isAggregate path = true ∨ path ∈ Keyed.keys g.accumulators := by
  rw [namesAggregate, Bool.or_eq_true, Keyed.hasKey_iff_mem_keys]

theorem havingPath_of_names
    (h : m.aliases.isAggregate path = true ∨ path ∈ Keyed.keys g.accumulators) :
    havingPath m g path = path :=
  if_pos (namesAggregate_iff.2 h)

theorem havingPath_of_grouped {place : String}
    (h : ¬ (m.aliases.isAggregate path = true ∨ path ∈ Keyed.keys g.accumulators))
    (hp : g.idReference? (m.aliases.fieldOf path) = some place) : havingPath m g path = place := by
  rw [havingPath, if_neg (mt namesAggregate_iff.1 h), groupedColumn?, hp, Option.getD_some]

/-- A condition on groups reads a column from its path in the groups. -/
theorem transform_column (c : Column) :
    ∃ c' : Column, (Expr.column c).transform (groupField? m g) = .column c' ∧
      c'.path = havingPath m g c.path := by
  have hfield : groupField? m g (.column c) =
      if namesAggregate m g c.path then none
      else (groupedColumn? m g c.path).map fun place => .column (Column.ofPath place) := rfl
  unfold havingPath
  cases ha : namesAggregate m g c.path with
  | true =>
    rw [ha, if_pos rfl] at hfield
    exact ⟨c, by rw [Expr.transform, hfield], rfl⟩
  | false =>
    rw [ha, if_neg Bool.false_ne_true] at hfield
    cases hp : groupedColumn? m g c.path with
    | none =>
      rw [hp, Option.map_none] at hfield
      exact ⟨c, by rw [Expr.transform, hfield], rfl⟩
    | some place =>
      rw [hp, Option.map_some] at hfield
      exact ⟨Column.ofPath place, Expr.transform_of_some hfield, Column.path_ofPath place⟩

/-! ## One key -/

theorem addGroupedColumn_of_isAggregate (h : m.aliases.isAggregate path = true) (o : RowOrder)
    (way : Value) :
    addGroupedColumn m g o path way = { o with sort := Keyed.put o.sort path way } :=
  if_pos h

theorem addGroupedColumn_of_place {place : String} (h : m.aliases.isAggregate path ≠ true)
    (hp : g.idReference? (m.aliases.fieldOf path) = some place) (o : RowOrder) (way : Value) :
    addGroupedColumn m g o path way = { o with sort := Keyed.put o.sort place way } := by
  rw [addGroupedColumn, if_neg h]
  simp only [hp]

theorem addGroupedColumn_of_none (h : m.aliases.isAggregate path ≠ true)
    (hp : g.idReference? (m.aliases.fieldOf path) = none) (o : RowOrder) (way : Value) :
    (addGroupedColumn m g o path way).beforeGroups =
      Keyed.put o.beforeGroups (m.aliases.fieldOf path) way := by
  rw [addGroupedColumn, if_neg h]
  simp only [hp]

/-- An ordering by a name that is read alike adds the path of the condition and nothing else. -/
theorem NamedAlike.addGroupedColumn_eq (hn : NamedAlike m g path)
    (h : m.aliases.isAggregate path = true ∨ path ∈ Keyed.keys g.accumulators ∨
      m.aliases.fieldOf path ∈ g.fields) (o : RowOrder) (way : Value) :
    addGroupedColumn m g o path way =
      { o with sort := Keyed.put o.sort (havingPath m g path) way } := by
  by_cases halias : m.aliases.isAggregate path = true
  · rw [addGroupedColumn_of_isAggregate halias, havingPath_of_names (.inl halias)]
  by_cases hkey : path ∈ Keyed.keys g.accumulators
  · have hplace := (hn.resolve_left halias).resolve_left (not_not.2 hkey)
    rw [addGroupedColumn_of_place halias hplace, havingPath_of_names (.inr hkey)]
  · have hfield := (h.resolve_left halias).resolve_left hkey
    have hplace : g.idReference? (m.aliases.fieldOf path) = some _ := idReferenceIn_of_mem hfield
    rw [addGroupedColumn_of_place halias hplace,
      havingPath_of_grouped (not_or.2 ⟨halias, hkey⟩) hplace]

/-- An ordering by any other name adds something else, even if it is the only key. -/
theorem namedAlike_of_addGroupedColumn {way : Value} (h : addGroupedColumn m g {} path way =
    { sort := Keyed.put [] (havingPath m g path) way }) : NamedAlike m g path := by
  by_cases halias : m.aliases.isAggregate path = true
  · exact .inl halias
  by_cases hkey : path ∈ Keyed.keys g.accumulators
  · -- The condition reads the aggregate, and the ordering looks for a grouped field.
    rw [havingPath_of_names (.inr hkey)] at h
    cases hplace : g.idReference? (m.aliases.fieldOf path) with
    | none =>
      have hbefore := addGroupedColumn_of_none halias hplace {} way
      rw [h] at hbefore
      cases hbefore
    | some place =>
      rw [addGroupedColumn_of_place halias hplace] at h
      cases h
      exact .inr (.inr hplace)
  · exact .inr (.inl hkey)

theorem addGroupedKey_column {key : OrderKey} {c : Column} (h : key.expr = .column c)
    (o : RowOrder) :
    addGroupedKey m g o key = .ok (addGroupedColumn m g o c.path (direction key)) := by
  rw [addGroupedKey, h]

/-- A name that is not read alike is that of an aggregate without alias, or the alias of an
aggregate and of a column. -/
theorem GroupingOf.of_not_namedAlike (hof : GroupingOf m g)
    (ha : m.aliases = Model.AliasTable.ofItems m.items) (h : ¬ NamedAlike m g path) :
    (∃ f : Call, .expr f.toExpr none ∈ m.items ∧ accumulatorName f none = path) ∨
    ∃ c, .expr (.column c) (some path) ∈ m.items := by
  obtain ⟨halias, hkey, -⟩ : m.aliases.isAggregate path ≠ true ∧
      path ∈ Keyed.keys g.accumulators ∧ _ := by
    simpa [NamedAlike] using h
  obtain ⟨⟨output, value⟩, hentry, houtput⟩ := List.mem_map.1 hkey
  obtain ⟨name, args, aliasName, hi, hname, -⟩ := hof.of_mem_accumulators hentry
  cases aliasName with
  | none => exact .inl ⟨⟨name, args⟩, hi, hname.trans houtput⟩
  | some spelled =>
    right
    obtain rfl : spelled = path := hname.trans houtput
    have hmem : (spelled, _) ∈ m.items.filterMap Model.AliasTable.entry? :=
      List.mem_filterMap.2 ⟨_, hi, rfl⟩
    obtain ⟨target, -, hget⟩ : ∃ target, (spelled, target) ∈ _ ∧
        Keyed.get? (Model.AliasTable.ofItems m.items) spelled = some target :=
      Keyed.exists_get?_putAll (List.mem_map.2 ⟨_, hmem, rfl⟩)
    -- The last item of the name is no aggregate, so it is a column.
    obtain ⟨c, hi', -⟩ | ⟨f, -, rfl⟩ := Model.exists_item_of_mem_ofItems (Keyed.mem_of_get? hget)
    · exact ⟨c, hi'⟩
    · exact absurd (by rw [ha, Model.AliasTable.isAggregate, hget]) halias

/-! ## All keys -/

/-- The entry of an ordering for a key that is a column, as a condition on groups reads it. -/
def havingKey? (m : Model) (g : Grouping) (key : OrderKey) : Option (String × Value) :=
  key.expr.column?.map fun c => (havingPath m g c.path, direction key)

/-- Whether a key is a column that is accepted in a condition on groups and read alike there. -/
def KeyAlike (m : Model) (g : Grouping) (key : OrderKey) : Prop :=
  ∃ c, key.expr = .column c ∧ (∃ e, resolveHaving m g (.column c) = .ok e) ∧ NamedAlike m g c.path

/-- A key that is read alike adds its entry. -/
theorem KeyAlike.step {key : OrderKey} (h : KeyAlike m g key) (o : RowOrder) :
    addGroupedKey m g o key =
      .ok { o with sort := Keyed.putAll o.sort (havingKey? m g key).toList } := by
  obtain ⟨c, hc, ⟨e, he⟩, hn⟩ := h
  have haccepted := (resolveHaving_eq_ok_iff.1 he).1.columns c .refl
  rw [addGroupedKey_column hc, hn.addGroupedColumn_eq haccepted, havingKey?, hc]
  rfl

/-- Keys that are read alike add their entries one after the other, and nothing else. -/
theorem foldlM_addGroupedKey {keys : List OrderKey} (h : ∀ key ∈ keys, KeyAlike m g key)
    (o : RowOrder) : keys.foldlM (addGroupedKey m g) o =
      .ok { o with sort := Keyed.putAll o.sort (keys.filterMap (havingKey? m g)) } := by
  induction keys generalizing o with
  | nil => rfl
  | cons key keys ih =>
    obtain ⟨hkey, hkeys⟩ := List.forall_mem_cons.1 h
    rw [List.foldlM_cons, hkey.step]
    refine (ih hkeys _).trans ?_
    rw [← Keyed.putAll_append, List.filterMap_cons]
    cases havingKey? m g key <;> rfl

/-- A key that is read alike can be found by evaluation. -/
theorem keyAlike_of_any {key : OrderKey} (h : (key.expr.column?.any fun c =>
    (resolveHaving m g (.column c)).toOption.isSome && decide (NamedAlike m g c.path)) = true) :
    KeyAlike m g key := by
  obtain ⟨c, hc, h⟩ := (Option.any_eq_true _ _).1 h
  obtain ⟨haccepted, hn⟩ := Bool.and_eq_true_iff.1 h
  refine ⟨c, Expr.column?_eq_some.1 hc, ?_, of_decide_eq_true hn⟩
  cases he : resolveHaving m g (.column c) with
  | error _ =>
    rw [he] at haccepted
    cases haccepted
  | ok e => exact ⟨e, rfl⟩

/-- A column of the condition on groups of a statement, as found by evaluation. -/
theorem exists_column_of_having {c : Column}
    (h : ((m.having.toList.flatMap groupParts).filterMap Expr.column?).contains c = true) :
    ∃ e, m.having = some e ∧ e.Comes isAggregate (.column c) := by
  obtain ⟨part, hpart, hc⟩ := List.mem_filterMap.1 (List.contains_iff_mem.1 h)
  rw [Expr.column?_eq_some.1 hc] at hpart
  exact exists_comes_of_having hpart

end Plan

open Plan

/-- **Conditions on groups and orderings read a column alike, unless it names an aggregate by
anything but its alias.** A column that is accepted in a condition becomes a column of the groups.
An ordering by it adds the path of that column and nothing else exactly if the name is read alike.
Other names are those made for aggregates without alias and aliases that a column has too. An
ordering by columns that are all read alike consists of the paths that conditions read them from: no
field is carried through the groups. -/
theorem columns_namedAlike_iff {statement : Statement} {m : Model} {g : Grouping}
    (hm : Model.ofStatement statement = .ok m) (hg : Grouping.ofModel m = .ok g) :
    (∀ e e' c, resolveHaving m g e = .ok e' → e.Comes isAggregate (.column c) →
      ∃ c', (Expr.column c).transform (groupField? m g) = .column c' ∧
        ((∀ o key, key.expr = .column c → addGroupedKey m g o key =
            .ok { o with sort := Keyed.put o.sort c'.path (direction key) }) ↔
          NamedAlike m g c.path)) ∧
    (∀ path, ¬ NamedAlike m g path →
      (∃ f : Call, .expr f.toExpr none ∈ m.items ∧ accumulatorName f none = path) ∨
      ∃ c, .expr (.column c) (some path) ∈ m.items) ∧
    ((∀ key ∈ m.orderBy, KeyAlike m g key) → RowOrder.grouped m g =
      .ok { sort := Keyed.putAll [] (m.orderBy.filterMap (havingKey? m g)) }) := by
  refine ⟨fun e e' c he hc => ?_, fun path => ?_, fun h => foldlM_addGroupedKey h {}⟩
  · obtain ⟨c', htransform, hpath⟩ := transform_column (m := m) (g := g) c
    have haccepted := (resolveHaving_eq_ok_iff.1 he).1.columns c hc
    refine ⟨c', htransform, fun hall => ?_, fun hn o key hkey => ?_⟩
    · have hfirst := hall {} ⟨.column c, true⟩ rfl
      rw [addGroupedKey_column rfl, hpath] at hfirst
      exact namedAlike_of_addGroupedColumn (Except.ok.inj hfirst)
    · rw [addGroupedKey_column hkey, hn.addGroupedColumn_eq haccepted, hpath]
  · exact (groupingOf_ofModel hg).of_not_namedAlike (Model.ofStatement_aliases hm)

/-- Conditions and an ordering by the alias of an aggregate, the alias of a grouped field and a
grouped field that is not selected. -/
theorem columns_namedAlike_iff_aliases : ∃ c query m g e e',
    compile {} ("SELECT a AS x, SUM(b) AS total FROM t GROUP BY a, c.d" ++
      " HAVING total > 1 AND x > 0 AND c.d < 2 ORDER BY total DESC, x, c.d") = .ok c ∧
    c.statement = .select query ∧ Model.ofStatement (.select query) = .ok m ∧
    Grouping.ofModel m = .ok g ∧ m.having = some e ∧ resolveHaving m g e = .ok e' ∧
    e.Comes isAggregate (.column ⟨none, "x"⟩) ∧ NamedAlike m g "x" ∧
    (∃ c', (Expr.column ⟨none, "x"⟩).transform (groupField? m g) = .column c' ∧
      ∀ o key, key.expr = .column ⟨none, "x"⟩ → addGroupedKey m g o key =
        .ok { o with sort := Keyed.put o.sort c'.path (direction key) }) ∧
    (∀ key ∈ m.orderBy, KeyAlike m g key) ∧
    (m.orderBy.filterMap (havingKey? m g)).map (·.1) = ["total", "_id.a", "_id.c_d"] ∧
    RowOrder.grouped m g =
      .ok { sort := Keyed.putAll [] (m.orderBy.filterMap (havingKey? m g)) } := by
  obtain ⟨c, query, m, g, hc, hs, hq, hm, hg, hfacts⟩ := exists_groups {}
    ("SELECT a AS x, SUM(b) AS total FROM t GROUP BY a, c.d" ++
      " HAVING total > 1 AND x > 0 AND c.d < 2 ORDER BY total DESC, x, c.d")
    (fun q m g => ((q.grouping,
        ((m.having.toList.flatMap groupParts).filterMap Expr.column?).contains ⟨none, "x"⟩),
      decide (NamedAlike m g "x"),
      m.orderBy.all fun key => key.expr.column?.any fun c =>
        (resolveHaving m g (.column c)).toOption.isSome && decide (NamedAlike m g c.path),
      (m.orderBy.filterMap (havingKey? m g)).map (·.1)))
    ((true, true), true, true, ["total", "_id.a", "_id.c_d"]) (by decide +kernel)
  obtain ⟨hfirst, hfacts⟩ := Prod.mk.inj hfacts
  obtain ⟨hgroups, hcolumns⟩ := Prod.mk.inj hfirst
  obtain ⟨hn, hfacts⟩ := Prod.mk.inj hfacts
  obtain ⟨hall, hpaths⟩ := Prod.mk.inj hfacts
  obtain ⟨e, he, hcomes⟩ := exists_column_of_having hcolumns
  obtain ⟨e', hresolved⟩ := exists_resolveHaving hq hgroups hm hg he
  have hst : Model.ofStatement (.select query) = .ok m := hm
  have hn := of_decide_eq_true hn
  have halike : ∀ key ∈ m.orderBy, KeyAlike m g key :=
    fun key hk => keyAlike_of_any (List.all_eq_true.1 hall key hk)
  obtain ⟨hcolumns, -, horder⟩ := columns_namedAlike_iff hst hg
  obtain ⟨c', htransform, hiff⟩ := hcolumns e e' _ hresolved hcomes
  exact ⟨c, query, m, g, e, e', hc, hs, hst, hg, he, hresolved, hcomes, hn,
    ⟨c', htransform, hiff.2 hn⟩, halike, hpaths, horder halike⟩

/-- An ordering by the name of a count that a condition reads is one by a field of the documents. -/
theorem columns_not_namedAlike : ∃ c query m g order e e' c',
    compile {} "SELECT a, COUNT(*) FROM t GROUP BY a HAVING count > 1 ORDER BY count" = .ok c ∧
    c.statement = .select query ∧ Model.ofStatement (.select query) = .ok m ∧
    Grouping.ofModel m = .ok g ∧ m.having = some e ∧ resolveHaving m g e = .ok e' ∧
    e.Comes isAggregate (.column ⟨none, "count"⟩) ∧
    (Expr.column ⟨none, "count"⟩).transform (groupField? m g) = .column c' ∧ c'.path = "count" ∧
    RowOrder.grouped m g = .ok order ∧ Keyed.keys order.beforeGroups = ["count"] ∧
    Keyed.keys order.firsts = ["count"] := by
  obtain ⟨c, query, m, g, hc, hs, hq, hm, hg, hfacts⟩ := exists_groups {}
    "SELECT a, COUNT(*) FROM t GROUP BY a HAVING count > 1 ORDER BY count"
    (fun q m g => ((q.grouping,
        ((m.having.toList.flatMap groupParts).filterMap Expr.column?).contains ⟨none, "count"⟩),
      havingPath m g "count", (RowOrder.grouped m g).toOption.map fun o =>
        (Keyed.keys o.beforeGroups, Keyed.keys o.firsts)))
    ((true, true), "count", some (["count"], ["count"])) (by decide +kernel)
  obtain ⟨hfirst, hfacts⟩ := Prod.mk.inj hfacts
  obtain ⟨hgroups, hcolumns⟩ := Prod.mk.inj hfirst
  obtain ⟨hpath, horder⟩ := Prod.mk.inj hfacts
  obtain ⟨order, ho, horder⟩ := toOption_map_eq_some.1 horder
  obtain ⟨hbefore, hfirsts⟩ := Prod.mk.inj horder
  obtain ⟨e, he, hcomes⟩ := exists_column_of_having hcolumns
  obtain ⟨e', hresolved⟩ := exists_resolveHaving hq hgroups hm hg he
  obtain ⟨c', htransform, hc'⟩ := transform_column (m := m) (g := g) ⟨none, "count"⟩
  exact ⟨c, query, m, g, order, e, e', c', hc, hs, hm, hg, he, hresolved, hcomes, htransform,
    hc'.trans hpath, ho, hbefore, hfirsts⟩

end DocQuery
