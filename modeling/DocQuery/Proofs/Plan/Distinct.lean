import DocQuery.Proofs.Plan.Choice
import DocQuery.Proofs.Plan.GroupKey
import DocQuery.Proofs.Plan.Projection
import DocQuery.Proofs.Syntax.Shape

/-!
# Statements without repeated rows

Repeated rows are dropped by grouping: without `GROUP BY` a distinct statement is grouped by the
columns that it selects. If all grouped fields are selected, rows of different groups differ in a
column (`GroupingOf.keyValues_eq_of_sameColumns`). With `GROUP BY` the word `DISTINCT` has no
effect, and a key that is not selected can make rows return twice. `compile_distinct_iff` says both.
-/

namespace DocQuery

open Syntax

namespace Plan

/-! ## Rows and groups -/

/-- The value of a reference to a field, in a document with the given values. -/
def referenceValue {α : Type} (read : String → α) : Value → Option α
  | .string reference => some (read reference)
  | _ => none

/-- The values that tell the group of a document from other groups. -/
def Grouping.keyValues {α : Type} (g : Grouping) (read : String → α) : List (Option α) :=
  match g.id with
  | .document fields => fields.map fun field => referenceValue read field.2
  | id => [referenceValue read id]

/-- What is found at a place of the key, in the group of a document. -/
def Grouping.valuesAt {α : Type} (g : Grouping) (read : String → α) (place : String) :
    List (Option α) :=
  (g.keyAt place).map (referenceValue read)

/-- Whether the groups of two documents have the same columns in the result. -/
def Grouping.SameColumns {α : Type} (g : Grouping) (projection : Document)
    (read read' : String → α) : Prop :=
  ∀ name place, Keyed.get? projection name = some (.string ("$" ++ place)) →
    g.valuesAt read place = g.valuesAt read' place

variable {m : Model} {g : Grouping} {α : Type} {read read' : String → α}

/-- A group is told from others by what is found at the places of the grouped fields. -/
theorem GroupingOf.keyValues_eq (h : GroupingOf m g)
    (hplaces : ∀ path ∈ g.fields, ∀ place, g.idReference? path = some place →
      g.valuesAt read place = g.valuesAt read' place) : g.keyValues read = g.keyValues read' := by
  have hid := h.id
  rcases hfields : g.fields with _ | ⟨path, _ | ⟨path', paths⟩⟩
  · rw [hfields] at hid
    simp only [Grouping.keyValues, hid, groupId, List.map_nil]
  · -- A single field is the key itself.
    have hplace : g.idReference? path = some "_id" := by
      rw [Grouping.idReference?, hfields, idReferenceIn_of_mem (List.mem_singleton.2 rfl)]
      rfl
    have hvalues := hplaces path (hfields ▸ List.mem_singleton.2 rfl) "_id" hplace
    rw [hfields] at hid
    rw [Grouping.valuesAt, Grouping.valuesAt, Grouping.keyAt_id, hid] at hvalues
    simp only [Grouping.keyValues, hid, groupId]
    exact hvalues
  · have hlength : 2 ≤ g.fields.length := by
      rw [hfields]
      exact Nat.le_add_left 2 paths.length
    have hid : g.id = .document (keyFields g.fields) := h.id.trans (groupId_eq_keyFields hlength)
    simp only [Grouping.keyValues, hid]
    refine List.map_congr_left fun field hfield => ?_
    -- Every field of the key stands at the place of a grouped field.
    obtain ⟨path, hp, rfl⟩ := List.mem_map.1
      ((Keyed.mem_of_mem_putAll hfield).resolve_left List.not_mem_nil)
    have hplace : g.idReference? path = some ("_id." ++ safeKey path) := by
      rw [Grouping.idReference?, idReferenceIn_of_mem hp, if_neg (by omega)]
    have hkey : g.keyAt ("_id." ++ safeKey path) = [.string (fieldReference path)] := by
      have hnil : (Keyed.keys ([] : Document)).Nodup := List.nodup_nil
      have hnodup : (Keyed.keys (keyFields g.fields)).Nodup := Keyed.nodup_keys_putAll hnil _
      rw [Grouping.keyAt_field hid (notMem_safeKey path), Keyed.get?_of_mem hnodup hfield,
        Option.toList_some]
    have hvalues := hplaces path hp _ hplace
    rw [Grouping.valuesAt, Grouping.valuesAt, hkey] at hvalues
    exact List.singleton_inj.1 hvalues

theorem fieldReference_place {path place : String} (h : g.idReference? path = some place) :
    fieldReference place = "$" ++ place := by
  have hplace := h
  rw [Grouping.idReference?, idReferenceIn_of_mem (mem_of_idReferenceIn h)] at hplace
  refine if_neg fun hhead => ?_
  cases hplace
  split at hhead
  · cases hhead
  · rw [String.toList_append] at hhead
    cases hhead

/-- A selected column has a name in the result if no item loses its entry. -/
theorem GroupingOf.exists_name (h : GroupingOf m g) (hg : m.hasGrouping = true)
    {projection : Document} (hp : ProjectsItems m projection) {path : String}
    (hpath : path ∈ m.selectColumns.map (·.1)) :
    ∃ name place, g.idReference? path = some place ∧
      Keyed.get? projection name = some (.string ("$" ++ place)) := by
  obtain ⟨⟨_, aliasName⟩, hfield, rfl⟩ := List.mem_map.1 hpath
  obtain ⟨item, hi, hitem⟩ := List.mem_filterMap.1 hfield
  unfold Model.columnItem? at hitem
  split at hitem
  · next c _ =>
    cases hitem
    obtain ⟨entry, hentry, hget⟩ := hp _ hi
    rw [itemOutput?, if_pos hg, ← h.fields, groupOutput?] at hentry
    obtain ⟨place, hplace, rfl⟩ := Option.map_eq_some_iff.1 hentry
    exact ⟨_, place, hplace, fieldReference_place hplace ▸ hget⟩
  · cases hitem

/-- The columns of the result are what is found at the places of the selected ones. -/
theorem GroupingOf.sameColumns_of_places (h : GroupingOf m g)
    (hplaces : ∀ path ∈ m.selectColumns.map (·.1), ∀ place, g.idReference? path = some place →
      g.valuesAt read place = g.valuesAt read' place) : g.SameColumns g.projection read read' := by
  intro name place hget
  have hmem := Keyed.mem_of_get? hget
  rw [h.projection] at hmem
  have hmem := (Keyed.mem_of_mem_put hmem).resolve_right (by simp)
  obtain ⟨item, hi, hitem⟩ := List.mem_filterMap.1
    ((Keyed.mem_of_mem_putAll hmem).resolve_left List.not_mem_nil)
  unfold groupOutput? at hitem
  split at hitem
  · next c aliasName =>
    obtain ⟨place', hplace', hentry⟩ := Option.map_eq_some_iff.1 hitem
    have hplace' : g.idReference? c.path = some place' := hplace'
    rw [fieldReference_place hplace'] at hentry
    simp only [Prod.mk.injEq, Value.string.injEq, String.append_right_inj] at hentry
    obtain ⟨-, rfl⟩ := hentry
    exact hplaces c.path (List.mem_map.2 ⟨(c.path, aliasName),
      List.mem_filterMap.2 ⟨_, hi, rfl⟩, rfl⟩) place' hplace'
  · cases hitem
  · cases hitem

/-- **Rows of different groups differ in a column**, if all grouped fields are selected and no
column loses its name in the result. -/
theorem GroupingOf.keyValues_eq_of_sameColumns (h : GroupingOf m g) (hg : m.hasGrouping = true)
    (hfields : ∀ path ∈ g.fields, path ∈ m.selectColumns.map (·.1)) {projection : Document}
    (hp : ProjectsItems m projection) (hsame : g.SameColumns projection read read') :
    g.keyValues read = g.keyValues read' := by
  refine h.keyValues_eq fun path hpath place hplace => ?_
  obtain ⟨name, place', hplace', hname⟩ := h.exists_name hg hp (hfields path hpath)
  obtain rfl : place = place' := Option.some.inj (hplace.symm.trans hplace')
  exact hsame name place hname

/-! ## The keys of a distinct statement -/

/-- All grouped fields are selected exactly if all keys are. -/
theorem GroupingOf.fields_selected_iff (h : GroupingOf m g) :
    (∀ path ∈ g.fields, path ∈ m.selectColumns.map (·.1)) ↔
      ∀ key ∈ m.groupKeys, key ∈ m.selectColumns.map (·.1) := by
  simp only [h.fields, mem_groupedFields]
  constructor
  · exact fun hall key hk => hall key (.inr hk)
  · rintro hall path (hp | hp)
    · exact hp
    · exact hall path hp

end Plan

open Plan

namespace Model

/-- Without `GROUP BY` the keys of a distinct statement are the columns that it selects. -/
theorem groupKeys_of_distinct {query : Select} {m : Model} (h : ofSelect query = .ok m)
    (hd : query.distinct = true) (hg : query.groupBy = []) :
    m.groupKeys = m.selectColumns.map (·.1) := by
  obtain ⟨-, -, rfl⟩ := ofSelect_ok h
  simp [ofClauses, selectColumns, hd, hg]

/-- Where a select list with `GROUP BY` is taken over with `DISTINCT`, it is so without. -/
theorem checkItems_without_distinct {distinct : Bool} {items : List SelectItem}
    (h : checkItems distinct true items = .ok ()) : checkItems false true items = .ok () := by
  obtain ⟨hwild, hitems⟩ := checkItems_ok h
  have hw : items.any isWildcardItem = false := by
    rw [← Bool.not_eq_true]
    intro hany
    cases (hwild hany).2.2
  unfold checkItems
  rw [hw, if_neg Bool.false_ne_true]
  exact forM_eq_ok.2 hitems

/-- With `GROUP BY` the model does not depend on `DISTINCT`. -/
theorem ofSelect_without_distinct {query : Select} {m : Model} (h : ofSelect query = .ok m)
    (hg : query.groupBy ≠ []) :
    ofSelect { query with distinct := false } = .ok { m with distinct := false } := by
  have hkeys : query.groupBy.isEmpty = false := by simpa using hg
  obtain ⟨hcheck, -, rfl⟩ := ofSelect_ok h
  rw [hkeys] at hcheck
  have hcheck := checkItems_without_distinct hcheck
  simp only [ofSelect, ofClauses, hkeys, Bool.not_false, Bool.and_false, hcheck]
  rfl

end Model

theorem compileModel_without_distinct {s : Settings} {m : Model} {origin : Origin}
    (h : m.explicitGroups = true) :
    compileModel s { m with distinct := false } origin = compileModel s m origin := by
  have hfield : ∀ m : Model, m.explicitGroups = true →
      distinctField m origin.priorStages = none := by
    intro m h
    simp [distinctField, h]
  simp only [compileModel, hfield m h, hfield { m with distinct := false } h]
  rfl

/-- With `GROUP BY` the word `DISTINCT` has no effect. -/
theorem compileSelect_without_distinct {s : Settings} {query : Select} {q : Query}
    (h : compileSelect s query = .ok q) (hg : query.groupBy ≠ []) :
    compileSelect s { query with distinct := false } = .ok q := by
  obtain ⟨m, origin, hm, ho, h⟩ := compileSelect_ok h
  have hexplicit : m.explicitGroups = true := by
    obtain ⟨-, -, rfl⟩ := Model.ofSelect_ok hm
    simpa [Model.ofClauses] using hg
  rw [compileSelect, Model.ofSelect_without_distinct hm hg]
  refine bind_eq_ok.2 ⟨_, rfl, bind_eq_ok.2 ⟨origin, ho, ?_⟩⟩
  rw [compileModel_without_distinct hexplicit, h]

/-! ## The operation -/

/-- A statement is sent as a request for distinct values only if it selects nothing but a column. -/
theorem compileSelect_distinct {s : Settings} {query : Select} {q : Query} {m : Model}
    (h : compileSelect s query = .ok q) (hm : Model.ofSelect query = .ok m)
    {collection field : String} {filter : Document}
    (hop : Operation.ofQuery s q = .distinct collection field filter) :
    ∃ column, m.items = [.expr (.column column) none] ∧ column.path = field := by
  have hfield : q.distinctField = some field := by
    unfold Operation.ofQuery at hop
    split at hop
    · cases hop
    · next hfield =>
      cases hop
      exact hfield
    · split at hop
      · cases hop
      · split at hop <;> cases hop
  obtain ⟨m', origin, hm', -, h⟩ := compileSelect_ok h
  obtain rfl : m = m' := Except.ok.inj (hm.symm.trans hm')
  obtain ⟨_, _, _, -, -, -, _, _, _, _, _, rfl⟩ := compileModel_frame h
  have hfield : distinctField m origin.priorStages = some field := hfield
  obtain ⟨-, -, -, -, -, -, -, hlength, haliases, hcolumns⟩ :=
    (isSome_distinctField m).1 (Option.isSome_iff_exists.2 ⟨field, hfield⟩)
  obtain ⟨-, -, rfl⟩ := Model.ofSelect_ok hm
  obtain ⟨c, hc⟩ := (Model.lone_column_iff query).1 ⟨hlength, haliases, hcolumns⟩
  have hitems : (Model.ofClauses query).items =
      [.expr (.column (Model.stripColumn (Model.baseAliasOf query.source) c)) none] := by
    simp [Model.ofClauses, hc, Model.stripItem, Model.stripExpr_column]
  refine ⟨_, hitems, ?_⟩
  unfold distinctField at hfield
  split at hfield
  · rw [Model.selectColumns, hitems] at hfield
    exact Option.some.inj hfield
  · cases hfield

/-- A distinct statement that is read from a text groups. -/
theorem compile_distinct_groups {s : Settings} {text : String} {c : Compiled} {query : Select}
    (h : compile s text = .ok c) (hs : c.statement = .select query) (hd : query.distinct = true) :
    c.query.grouping = true := by
  have hitems : query.items.isEmpty = false := by
    have hread := isStatement_of_parseStatement (compile_ok h).1
    rw [hs] at hread
    cases hread with
    | select hselect =>
      cases hselect with
      | of items_ne => simpa using items_ne
  obtain ⟨m, origin, hm, -, hq⟩ := compileSelect_ok (compile_select_ok h hs).1
  obtain ⟨_, _, _, -, -, -, _, _, _, _, _, hq⟩ := compileModel_frame hq
  have hgrouping : c.query.grouping = m.hasGrouping := hq ▸ rfl
  rw [hgrouping, Model.hasGrouping_eq hm, Select.groups, hd, hitems]
  simp

/-- **Repeated rows are dropped, unless `GROUP BY` has a key that is not selected.** A distinct
statement groups. It is sent as a request for distinct values only if it selects nothing but a
column. Without `GROUP BY` all grouped fields are selected; with `GROUP BY` the word `DISTINCT` has
no effect, and they are selected exactly if all keys are. Where they are selected, and no item loses
its name in the result, rows of different groups differ in a column. -/
theorem compile_distinct_iff {s : Settings} {text : String} {c : Compiled} {query : Select}
    (h : compile s text = .ok c) (hs : c.statement = .select query) (hd : query.distinct = true) :
    ∃ m g, Model.ofSelect query = .ok m ∧ Grouping.ofModel m = .ok g ∧ c.query.grouping = true ∧
      (∀ collection field filter, c.operation = .distinct collection field filter →
        ∃ column, m.items = [.expr (.column column) none] ∧ column.path = field) ∧
      (query.groupBy = [] → ∀ path ∈ g.fields, path ∈ m.selectColumns.map (·.1)) ∧
      (query.groupBy ≠ [] → compileSelect s { query with distinct := false } = .ok c.query ∧
        ((∀ path ∈ g.fields, path ∈ m.selectColumns.map (·.1)) ↔
          ∀ key ∈ m.groupKeys, key ∈ m.selectColumns.map (·.1))) ∧
      ((∀ path ∈ g.fields, path ∈ m.selectColumns.map (·.1)) → OutputsApart m →
        ∀ (α : Type) (read read' : String → α),
          g.SameColumns c.query.finalProjection read read' →
            g.keyValues read = g.keyValues read') := by
  have hgrouping := compile_distinct_groups h hs hd
  obtain ⟨hq, hop⟩ := compile_select_ok h hs
  obtain ⟨m, g, order, hm, hgroups, hg, -, -, hprojection, -⟩ := compileSelect_groups hq hgrouping
  have hof := groupingOf_ofModel hg
  refine ⟨m, g, hm, hg, hgrouping, ?_, ?_, ?_, ?_⟩
  · intro collection field filter hoperation
    exact compileSelect_distinct hq hm (hop.symm.trans hoperation)
  · intro hkeys
    rw [hof.fields_selected_iff, Model.groupKeys_of_distinct hm hd hkeys]
    exact fun key hk => hk
  · exact fun hkeys => ⟨compileSelect_without_distinct hq hkeys, hof.fields_selected_iff⟩
  · intro hfields hapart α read read' hsame
    have hw : query.isWildcard = false :=
      Model.isWildcard_eq_false_of_groups hm ((Model.hasGrouping_eq hm).symm.trans hgroups)
    have hfinal : c.query.finalProjection = projectionOf m := by
      rw [Query.finalProjection, if_pos hgrouping, hprojection, hof.projection_eq hgroups]
    have hitems : ProjectsItems m c.query.finalProjection := by
      rw [hfinal]
      exact (projectsItems_iff hm hw).2 hapart
    exact hof.keyValues_eq_of_sameColumns hgroups hfields hitems hsame

/-- Two columns of a nested source, one with an alias, beside an aggregate. -/
theorem compile_distinct_iff_nested : ∃ c query m g,
    compile {} "SELECT DISTINCT x.a AS n, x.b.c, MAX(x.d) FROM (SELECT * FROM t) x ORDER BY n" =
      .ok c ∧
    c.statement = .select query ∧ query.distinct = true ∧ query.groupBy = [] ∧
    Model.ofSelect query = .ok m ∧ Grouping.ofModel m = .ok g ∧ g.fields = ["a", "b.c"] ∧
    (∀ path ∈ g.fields, path ∈ m.selectColumns.map (·.1)) ∧ OutputsApart m ∧
    ∀ (α : Type) (read read' : String → α),
      g.SameColumns c.query.finalProjection read read' → g.keyValues read = g.keyValues read' := by
  obtain ⟨c, query, m, g, hc, hs, -, hm, hg, hfacts⟩ := exists_groups {}
    "SELECT DISTINCT x.a AS n, x.b.c, MAX(x.d) FROM (SELECT * FROM t) x ORDER BY n"
    (fun _ m g => (m.distinct, m.explicitGroups, g.fields, Keyed.keys (outputs m)))
    (true, false, ["a", "b.c"], ["n", "b.c", "max_d"]) (by decide +kernel)
  obtain ⟨hdistinct, hfacts⟩ := Prod.mk.inj hfacts
  obtain ⟨hexplicit, hfacts⟩ := Prod.mk.inj hfacts
  obtain ⟨hfields, hkeys⟩ := Prod.mk.inj hfacts
  have hclauses := (Model.ofSelect_ok hm).2.2
  have hd : query.distinct = true := by rwa [hclauses] at hdistinct
  have hb : query.groupBy = [] := by simpa [hclauses, Model.ofClauses] using hexplicit
  have hapart : OutputsApart m := by
    refine .of_nodup (hkeys ▸ by decide) fun hid => ?_
    rw [hkeys] at hid
    exact absurd hid (by decide)
  obtain ⟨m', g', hm', hg', -, -, hselected, -, hrows⟩ := compile_distinct_iff hc hs hd
  obtain rfl : m = m' := Except.ok.inj (hm.symm.trans hm')
  obtain rfl : g = g' := Except.ok.inj (hg.symm.trans hg')
  exact ⟨c, query, m, g, hc, hs, hd, hb, hm, hg, hfields, hselected hb, hapart,
    hrows (hselected hb) hapart⟩

/-- A row returns for every value of a key that is not selected. -/
theorem compile_distinct_repeats : ∃ c query m g,
    compile {} "SELECT DISTINCT a FROM t GROUP BY a, b" = .ok c ∧
    c.statement = .select query ∧ query.distinct = true ∧ Model.ofSelect query = .ok m ∧
    Grouping.ofModel m = .ok g ∧ c.query.grouping = true ∧ g.fields = ["a", "b"] ∧
    m.selectColumns.map (·.1) = ["a"] ∧
    ∃ read read' : String → Bool, g.SameColumns c.query.finalProjection read read' ∧
      g.keyValues read ≠ g.keyValues read' := by
  obtain ⟨c, query, m, g, hc, hs, hq, hm, hg, hfacts⟩ := exists_groups {}
    "SELECT DISTINCT a FROM t GROUP BY a, b"
    (fun q m g => (m.distinct, q.grouping, g.fields, m.selectColumns.map (·.1)))
    (true, true, ["a", "b"], ["a"]) (by decide +kernel)
  obtain ⟨hdistinct, hfacts⟩ := Prod.mk.inj hfacts
  obtain ⟨hgroups, hfacts⟩ := Prod.mk.inj hfacts
  obtain ⟨hfields, hcolumns⟩ := Prod.mk.inj hfacts
  have hd : query.distinct = true := by rwa [(Model.ofSelect_ok hm).2.2] at hdistinct
  have hof := groupingOf_ofModel hg
  have hid : g.id = .document [("a", .string "$a"), ("b", .string "$b")] := by
    rw [hof.id, hfields]
    rfl
  obtain ⟨m', g', order, hm', -, hg', -, -, hprojection, -⟩ := compileSelect_groups hq hgroups
  obtain rfl : m = m' := Except.ok.inj (hm.symm.trans hm')
  obtain rfl : g = g' := Except.ok.inj (hg.symm.trans hg')
  refine ⟨c, query, m, g, hc, hs, hd, hm, hg, hgroups, hfields, hcolumns, fun _ => false,
    fun reference => reference == "$b", ?_, ?_⟩
  · rw [Query.finalProjection, if_pos hgroups, hprojection]
    refine hof.sameColumns_of_places fun path hpath place hplace => ?_
    rw [hcolumns] at hpath
    obtain rfl : path = "a" := List.mem_singleton.1 hpath
    rw [Grouping.idReference?, hfields] at hplace
    cases hplace
    rw [Grouping.valuesAt, Grouping.valuesAt, Grouping.keyAt, hid]
    rfl
  · simp only [Grouping.keyValues, hid]
    decide

end DocQuery
