import DocQuery.Proofs.Plan.Groups
import DocQuery.Proofs.Syntax.Parts
import DocQuery.Proofs.Syntax.Paths

/-!
# What can be referred to once groups are made

Of grouped documents nothing is left but the key of the group, its aggregates and the fields that
are carried through for the ordering. `groups_scope` says that an ordering and a condition on groups
refer to nothing else. A condition is refused exactly if it speaks of something that is not there:
it is `Resolvable` if every aggregate is selected and every other column is an aggregate or is
grouped.
-/

namespace DocQuery

open Syntax

/-! ## Aliases of aggregates -/

namespace Model

theorem ofStatement_aliases {statement : Statement} {m : Model}
    (h : ofStatement statement = .ok m) : m.aliases = AliasTable.ofItems m.items := by
  cases statement with
  | select q =>
    obtain ⟨-, -, rfl⟩ := ofSelect_ok h
    rfl
  | delete table aliasName condition =>
    cases h
    rfl

/-- What an alias stands for is a selected column or call with this alias. -/
theorem exists_item_of_mem_ofItems {items : List SelectItem} {name : String} {target : AliasTarget}
    (h : (name, target) ∈ AliasTable.ofItems items) :
    (∃ c : Column, .expr (.column c) (some name) ∈ items ∧ target = .field c.path) ∨
    ∃ f : Call, .expr f.toExpr (some name) ∈ items ∧ target = .aggregate f.render := by
  have hentry : (name, target) ∈ items.filterMap AliasTable.entry? :=
    (Keyed.mem_of_mem_putAll h).resolve_left List.not_mem_nil
  obtain ⟨item, hi, hitem⟩ := List.mem_filterMap.1 hentry
  unfold AliasTable.entry? at hitem
  split at hitem
  · next c _ =>
    cases hitem
    exact .inl ⟨c, hi, rfl⟩
  · next f args _ =>
    cases hitem
    exact .inr ⟨⟨f, args⟩, hi, rfl⟩
  · cases hitem

/-- The alias of an aggregate is that of a selected call. -/
theorem exists_call_of_isAggregate {items : List SelectItem} {name : String}
    (h : (AliasTable.ofItems items).isAggregate name = true) :
    ∃ f args, .expr (.call f args) (some name) ∈ items := by
  unfold AliasTable.isAggregate at h
  split at h
  · next signature hget =>
    obtain ⟨c, -, hc⟩ | ⟨f, hi, -⟩ := exists_item_of_mem_ofItems (Keyed.mem_of_get? hget)
    · cases hc
    · exact ⟨f.name, f.args, hi⟩
  · cases h

end Model

namespace Plan

variable {m : Model} {g : Grouping}

theorem GroupingOf.mem_keys_of_isAggregate (h : GroupingOf m g)
    (ha : m.aliases = Model.AliasTable.ofItems m.items) {name : String}
    (hn : m.aliases.isAggregate name = true) : name ∈ Keyed.keys g.accumulators := by
  rw [ha] at hn
  obtain ⟨f, args, hi⟩ := Model.exists_call_of_isAggregate hn
  obtain ⟨value, -, hmem⟩ := h.mem_accumulators hi
  exact List.mem_map.2 ⟨_, hmem, rfl⟩

/-! ## Orderings -/

/-- The ordering refers to fields of the groups and to fields that it carries through them, which
are not grouped. -/
structure RowOrder.Scoped (g : Grouping) (o : RowOrder) : Prop where
  /-- The result is put in order by fields that are found in the groups. -/
  sort : ∀ key ∈ Keyed.keys o.sort, g.Has key ∨ key ∈ Keyed.keys o.firsts
  /-- Documents are put in order before the grouping by fields that are carried through it. -/
  beforeGroups : ∀ path ∈ Keyed.keys o.beforeGroups,
    path ∉ g.fields ∧ safeKey path ∈ Keyed.keys o.firsts

/-- One more key keeps an ordering within the groups. -/
theorem RowOrder.Scoped.step {o o' : RowOrder} {key : OrderKey} (h : o.Scoped g)
    (haliases : ∀ name, m.aliases.isAggregate name = true → g.Has name)
    (hkey : addGroupedKey m g o key = .ok o') : o'.Scoped g := by
  obtain ⟨name, -, hname, rfl⟩ | ⟨field, -, hfield, rfl⟩ := addGroupedKey_ok hkey
  · refine ⟨fun key' hk => ?_, h.beforeGroups⟩
    rcases Keyed.mem_keys_put.1 hk with rfl | hk
    · exact .inl (hname.elim (haliases _) id)
    · exact h.sort key' hk
  · refine ⟨fun key' hk => ?_, fun path hp => ?_⟩
    · rcases Keyed.mem_keys_put.1 hk with rfl | hk
      · exact .inr (Keyed.mem_keys_put.2 (.inl rfl))
      · exact (h.sort key' hk).imp_right fun hf => Keyed.mem_keys_put.2 (.inr hf)
    · rcases Keyed.mem_keys_put.1 hp with rfl | hp
      · exact ⟨hfield, Keyed.mem_keys_put.2 (.inl rfl)⟩
      · obtain ⟨hout, hfirst⟩ := h.beforeGroups path hp
        exact ⟨hout, Keyed.mem_keys_put.2 (.inr hfirst)⟩

theorem RowOrder.scoped_grouped {order : RowOrder}
    (haliases : ∀ name, m.aliases.isAggregate name = true → g.Has name)
    (h : RowOrder.grouped m g = .ok order) : order.Scoped g :=
  foldlM_induction (P := fun _ o => RowOrder.Scoped g o) h
    ⟨by simp [Keyed.keys], by simp [Keyed.keys]⟩
    fun _ _ _ _ hdone hkey => hdone.step haliases hkey

/-! ## Conditions -/

/-- Whether an expression is an aggregate. -/
def isAggregate (e : Expr) : Bool := (aggregate? e).isSome

/-- Whether everything that a condition speaks of is found in the groups. What stands within an
aggregate does not count. -/
structure Resolvable (m : Model) (g : Grouping) (e : Expr) : Prop where
  /-- Every aggregate is selected. -/
  aggregates : ∀ part f, e.Comes isAggregate part → aggregate? part = some f →
    outputName m f ∈ Keyed.keys g.accumulators
  /-- Every other column is an aggregate, by its alias or its name, or is grouped. -/
  columns : ∀ c, e.Comes isAggregate (.column c) →
    m.aliases.isAggregate c.path = true ∨ c.path ∈ Keyed.keys g.accumulators ∨
      m.aliases.fieldOf c.path ∈ g.fields

theorem mem_groupParts {e part : Expr} :
    part ∈ groupParts e ↔ e.Comes isAggregate part ∧
      (isAggregate part = true ∨ part.column?.isSome = true) := by
  unfold groupParts
  rw [Expr.mem_outermost_iff, Bool.or_eq_true]
  -- A column has no parts, so it makes no difference whether the walk stops there.
  have hsame : e.Comes (fun part => (aggregate? part).isSome || part.column?.isSome) part ↔
      e.Comes isAggregate part := by
    constructor
    · exact .mono fun _ _ _ hs => (Bool.or_eq_false_iff.1 hs).1
    · refine .mono fun e part hp hs => Bool.or_eq_false_iff.2 ⟨hs, ?_⟩
      cases hc : e.column? with
      | none => rfl
      | some c =>
        rw [Expr.parts_of_column? hc] at hp
        cases hp
  rw [hsame]
  rfl

theorem missingAggregates_eq_nil_iff {e : Expr} :
    missingAggregates m g e = [] ↔
      ∀ part f, e.Comes isAggregate part → aggregate? part = some f →
        outputName m f ∈ Keyed.keys g.accumulators := by
  unfold missingAggregates
  simp only [List.filter_eq_nil_iff, List.mem_filterMap, mem_groupParts, Bool.not_eq_true',
    Bool.not_eq_false, Keyed.hasKey_iff_mem_keys]
  constructor
  · intro h part f hc hf
    exact h f ⟨part, ⟨hc, .inl (by rw [isAggregate, hf, Option.isSome_some])⟩, hf⟩
  · rintro h f ⟨part, ⟨hc, -⟩, hf⟩
    exact h part f hc hf

theorem unknownColumns_eq_nil_iff {e : Expr} :
    unknownColumns m g e = [] ↔
      ∀ c, e.Comes isAggregate (.column c) →
        m.aliases.isAggregate c.path = true ∨ c.path ∈ Keyed.keys g.accumulators ∨
          m.aliases.fieldOf c.path ∈ g.fields := by
  have hknown : ∀ path : String,
      (!namesAggregate m g path && (groupedColumn? m g path).isNone) = false ↔
        m.aliases.isAggregate path = true ∨ path ∈ Keyed.keys g.accumulators ∨
          m.aliases.fieldOf path ∈ g.fields := by
    intro path
    rw [namesAggregate, groupedColumn?, Grouping.idReference?, Bool.and_eq_false_iff,
      Bool.not_eq_false', Bool.or_eq_true, Keyed.hasKey_iff_mem_keys, ← Bool.not_eq_true,
      Option.isNone_iff_eq_none, idReferenceIn_eq_none, not_not, or_assoc]
  unfold unknownColumns
  simp only [List.filter_eq_nil_iff, List.mem_map, List.mem_filterMap, mem_groupParts,
    Bool.not_eq_true, hknown]
  constructor
  · intro h c hc
    exact h c.path ⟨c, ⟨.column c, ⟨hc, .inr rfl⟩, rfl⟩, rfl⟩
  · rintro h _ ⟨c, ⟨part, ⟨hc, -⟩, hpart⟩, rfl⟩
    cases part with
    | column c' =>
      cases hpart
      exact h c hc
    | _ => cases hpart

/-- **A condition on groups is accepted exactly if everything in it is found in the groups.** -/
theorem resolveHaving_eq_ok_iff {e e' : Expr} :
    resolveHaving m g e = .ok e' ↔ Resolvable m g e ∧ e.transform (groupField? m g) = e' := by
  have hiff : Resolvable m g e ↔ missingAggregates m g e = [] ∧ unknownColumns m g e = [] := by
    rw [missingAggregates_eq_nil_iff, unknownColumns_eq_nil_iff]
    exact ⟨fun h => ⟨h.aggregates, h.columns⟩, fun h => ⟨h.1, h.2⟩⟩
  rw [hiff]
  unfold resolveHaving
  split
  · next hm => simp [hm]
  · next hm hu => simp [hm, hu]
  · next hm hu => simp [hm, hu]

/-- What a part of a resolvable condition is replaced by is a field of the groups. -/
theorem Resolvable.has_of_groupField? {e part e' : Expr} (h : Resolvable m g e)
    (hp : e.Comes isAggregate part) (he : groupField? m g part = some e') :
    ∀ c ∈ e'.columns, g.Has c.path := by
  unfold groupField? at he
  split at he
  · next f hf =>
    cases he
    intro c hc
    rw [Expr.columns, List.mem_singleton] at hc
    rw [hc, Column.path_ofPath]
    exact .inl (h.aggregates part f hp hf)
  · split at he
    · next c' hc' =>
      split at he
      · cases he
      · obtain ⟨place, hplace, rfl⟩ := Option.map_eq_some_iff.1 he
        intro c hc
        rw [Expr.columns, List.mem_singleton] at hc
        rw [hc, Column.path_ofPath]
        exact .inr ⟨_, mem_of_idReferenceIn hplace, hplace⟩
    · cases he

/-- A column of a resolvable condition that is not replaced is an aggregate. -/
theorem Resolvable.names_of_column {e : Expr} {c : Column} (h : Resolvable m g e)
    (hp : e.Comes isAggregate (.column c)) (he : groupField? m g (.column c) = none) :
    m.aliases.isAggregate c.path = true ∨ c.path ∈ Keyed.keys g.accumulators := by
  rcases h.columns c hp with hn | hn | hn
  · exact .inl hn
  · exact .inr hn
  · have hplace : groupedColumn? m g c.path =
        some (if g.fields.length = 1 then "_id"
          else "_id." ++ safeKey (m.aliases.fieldOf c.path)) :=
      idReferenceIn_of_mem hn
    cases ha : namesAggregate m g c.path with
    | true =>
      rw [namesAggregate, Bool.or_eq_true, Keyed.hasKey_iff_mem_keys] at ha
      exact ha
    | false => simp [groupField?, aggregate?, Expr.call?, Expr.column?, ha, hplace] at he

/-- The columns of a resolved condition are fields of the groups. -/
theorem has_of_resolveHaving (haliases : ∀ name, m.aliases.isAggregate name = true → g.Has name)
    {e e' : Expr} (h : resolveHaving m g e = .ok e') : ∀ c ∈ e'.columns, g.Has c.path := by
  obtain ⟨hr, rfl⟩ := resolveHaving_eq_ok_iff.1 h
  intro c hc
  obtain ⟨part, hp, hpart⟩ := Expr.mem_columns_transform hc
  -- What is not replaced is no aggregate, so the walk stays outside of aggregates.
  have hp : e.Comes isAggregate part := by
    refine hp.mono fun e part _ hs => ?_
    cases ha : aggregate? e with
    | none => rw [isAggregate, ha, Option.isSome_none]
    | some f => simp [groupField?, ha] at hs
  rcases hpart with ⟨e', he, hc⟩ | ⟨he, hcolumn⟩
  · exact hr.has_of_groupField? hp he c hc
  · cases part with
    | column c' =>
      cases hcolumn
      exact (hr.names_of_column hp he).elim (haliases _) .inl
    | _ => cases hcolumn

end Plan

/-! ## All references -/

open Plan

/-- A part of the condition on groups of a statement, as found by evaluation. -/
theorem exists_comes_of_having {m : Model} {part : Expr}
    (h : part ∈ m.having.toList.flatMap groupParts) :
    ∃ e, m.having = some e ∧ e.Comes isAggregate part := by
  obtain ⟨e, he, hpart⟩ := List.mem_flatMap.1 h
  exact ⟨e, Option.mem_toList.1 he, (mem_groupParts.1 hpart).1⟩

/-- The condition on groups of a statement that compiles is accepted. -/
theorem exists_resolveHaving {s : Settings} {query : Select} {q : Query} {m : Model} {g : Grouping}
    {e : Expr} (h : compileSelect s query = .ok q) (hq : q.grouping = true)
    (hm : Model.ofSelect query = .ok m) (hg : Grouping.ofModel m = .ok g)
    (he : m.having = some e) : ∃ e', resolveHaving m g e = .ok e' := by
  obtain ⟨m', g', -, hm', -, hg', -, -, -, -, hhaving⟩ := compileSelect_groups h hq
  cases hm.symm.trans hm'
  cases hg.symm.trans hg'
  obtain ⟨e', hresolved, -⟩ := bind_eq_ok.1 (hhaving e he)
  exact ⟨e', hresolved⟩

/-- **After the grouping only fields of the groups are referred to.** The keys of an ordering are
aggregates, places of grouped fields, or fields that the ordering carries through the groups itself;
a condition on groups is accepted exactly if all its aggregates are selected and all its other
columns are aggregates or grouped, and it then refers to aggregates and places of grouped fields
alone. -/
theorem groups_scope {statement : Statement} {m : Model} {g : Grouping}
    (hm : Model.ofStatement statement = .ok m) (hg : Grouping.ofModel m = .ok g) :
    (∀ order, RowOrder.grouped m g = .ok order → order.Scoped g) ∧
    (∀ e, (∃ e', resolveHaving m g e = .ok e') ↔ Resolvable m g e) ∧
    ∀ e e', resolveHaving m g e = .ok e' → ∀ c ∈ e'.columns, g.Has c.path := by
  have hof := groupingOf_ofModel hg
  have haliases : ∀ name, m.aliases.isAggregate name = true → g.Has name :=
    fun name hn => .inl (hof.mem_keys_of_isAggregate (Model.ofStatement_aliases hm) hn)
  refine ⟨fun order ho => RowOrder.scoped_grouped haliases ho, fun e => ?_,
    fun e e' he => has_of_resolveHaving haliases he⟩
  constructor
  · rintro ⟨e', he⟩
    exact (resolveHaving_eq_ok_iff.1 he).1
  · intro hr
    exact ⟨_, resolveHaving_eq_ok_iff.2 ⟨hr, rfl⟩⟩

/-- An ordering by an aggregate, a grouped field under its alias and a field that is carried
through, and a condition on an aggregate in two spellings and a grouped field. -/
theorem groups_scope_mixed : ∃ query m g order e e',
    Model.ofStatement (.select query) = .ok m ∧ Grouping.ofModel m = .ok g ∧
    RowOrder.grouped m g = .ok order ∧ m.having = some e ∧ resolveHaving m g e = .ok e' ∧
    Keyed.keys order.sort = ["total", "_id.a", "z_w"] ∧ order.Scoped g ∧
    Resolvable m g e ∧ ∀ c ∈ e'.columns, g.Has c.path := by
  obtain ⟨c, query, hc, hs, hfacts⟩ := exists_compile_select {}
    ("SELECT a AS x, b.c, SUM(d) AS total FROM t GROUP BY a, b.c" ++
      " HAVING total > 10 AND SUM(d) < 100 AND b.c <> 1 ORDER BY total DESC, x, z.w")
    (fun query c => (query.having.isSome, c.query.grouping, Keyed.keys c.query.sort))
    (true, true, ["total", "_id.a", "z_w"]) (by decide +kernel)
  obtain ⟨hhaving, hfacts⟩ := Prod.mk.inj hfacts
  obtain ⟨hgroups, hsort⟩ := Prod.mk.inj hfacts
  obtain ⟨hq, -⟩ := compile_select_ok hc hs
  obtain ⟨m, g, order, hm, -, hg, ho, -, -, hqs, hqh⟩ := compileSelect_groups hq hgroups
  obtain ⟨having, he⟩ := Option.isSome_iff_exists.1 hhaving
  have hmh : m.having = some (Model.stripExpr (Model.baseAliasOf query.source) having) := by
    obtain ⟨-, -, rfl⟩ := Model.ofSelect_ok hm
    simp [Model.ofClauses, he]
  obtain ⟨e', hresolved, -⟩ := bind_eq_ok.1 (hqh _ hmh)
  have hst : Model.ofStatement (.select query) = .ok m := hm
  obtain ⟨horder, hiff, hcolumns⟩ := groups_scope hst hg
  exact ⟨query, m, g, order, _, e', hst, hg, ho, hmh, hresolved, hqs ▸ hsort, horder order ho,
    (hiff _).1 ⟨e', hresolved⟩, hcolumns _ e' hresolved⟩

end DocQuery
