import DocQuery.Proofs.Plan.Choice
import DocQuery.Proofs.Plan.Projection

/-!
# What the simple operations leave out

A plain read, a count and a read of distinct values have no room for groups, joins or the stages of
a nested source, and a plain read passes over aliases and calls in the select list.
`compileSelect_operation_iff` says for each of them exactly when it is chosen, so that nothing that
a statement asks for is passed over.
-/

namespace DocQuery

open Syntax Plan

/-! ## Select lists -/

namespace Model

variable {base : Option String} {query : Select} {m : Model}

/-- Only columns are stripped to columns. -/
theorem exists_column_of_stripItem {item : SelectItem} {c : Column} {aliasName : Option String}
    (h : stripItem base item = .expr (.column c) aliasName) :
    ∃ c', item = .expr (.column c') aliasName ∧ c = stripColumn base c' := by
  rcases item with _ | ⟨e, name⟩
  · cases h
  · cases e with
    | column c' =>
      rw [stripItem, stripExpr_column] at h
      cases h
      exact ⟨c', rfl, rfl⟩
    | _ => simp [stripItem, stripExpr, Expr.mapColumns, Expr.transform, Expr.column?] at h

/-- A column has no alias where there are no aliases. -/
theorem aliasName_eq_none {items : List SelectItem} (h : AliasTable.ofItems items = [])
    {c : Column} {aliasName : Option String} (hi : .expr (.column c) aliasName ∈ items) :
    aliasName = none := by
  cases aliasName with
  | none => rfl
  | some name =>
    have hentry : (name, AliasTarget.field c.path) ∈ items.filterMap AliasTable.entry? :=
      List.mem_filterMap.2 ⟨_, hi, rfl⟩
    exact absurd h (Keyed.putAll_ne_nil (.inr (List.ne_nil_of_mem hentry)))

theorem isCountAll_iff (name : String) (args : List Expr) :
    Call.isCountAll ⟨name, args⟩ = true ↔
      Text.lower name = "count" ∧ (args = [] ∨ args = [.wildcard]) := by
  rw [Call.isCountAll, Bool.and_eq_true, decide_eq_true_eq, Call.lowerName]
  refine and_congr_right fun _ => ?_
  dsimp only
  split <;> simp_all

/-! ## Groups -/

/-- Where all rows are one group there are no keys. -/
theorem groupKeys_of_totalGroup (h : (ofClauses query).totalGroup = true) :
    (ofClauses query).groupKeys = [] := by
  obtain ⟨hg, hcalls⟩ : query.groupBy = [] ∧ ∀ item ∈ query.items, isCallItem item = true := by
    simp only [ofClauses, Bool.and_eq_true, List.isEmpty_iff, List.all_eq_true] at h
    exact ⟨h.1.1, h.2⟩
  have hcolumns : (query.items.map (stripItem (baseAliasOf query.source))).filterMap
      columnItem? = [] := by
    refine List.filterMap_eq_nil_iff.2 fun item hi => ?_
    obtain ⟨item', hi', rfl⟩ := List.mem_map.1 hi
    have hcall : isCallItem (stripItem (baseAliasOf query.source) item') = true :=
      (isCallItem_stripItem item').trans (hcalls item' hi')
    unfold columnItem?
    split
    · next he =>
      rw [he] at hcall
      cases hcall
    · rfl
  simp [ofClauses, hg, hcolumns]

end Model

/-! ## Statements that a simple operation answers -/

namespace Plan

/-- A statement that a plain read answers. -/
structure ReadsPlainly (query : Select) (m : Model) (prior : List Document) : Prop where
  grouping : m.hasGrouping = false
  joins : query.joins = []
  prior : prior = []
  having : query.having = none
  aliases : m.aliases = []

/-- A statement that a count answers: all that is selected is `COUNT`, of nothing or of the
wildcard. -/
structure CountsRows (query : Select) (m : Model) (prior : List Document) : Prop where
  count : ∃ name args, query.items = [.expr (.call name args) none] ∧
    Text.lower name = "count" ∧ (args = [] ∨ args = [.wildcard])
  groupKeys : m.groupKeys = []
  joins : query.joins = []
  prior : prior = []
  having : query.having = none

/-- A statement that the distinct values of a field answer. -/
structure ListsValues (query : Select) (prior : List Document) (field : String) : Prop where
  column : ∃ c, query.items = [.expr (.column c) none] ∧
    field = (Model.stripColumn (Model.baseAliasOf query.source) c).path
  distinct : query.distinct = true
  groupBy : query.groupBy = []
  joins : query.joins = []
  prior : prior = []
  orderBy : query.orderBy = []
  limit : query.limit = none
  offset : query.offset = none

variable {query : Select} {m : Model} {prior : List Document} {field : String}

/-- A field that is found is the first selected column. -/
theorem distinctField_of_isSome (h : (distinctField m prior).isSome = true) :
    distinctField m prior = m.selectColumns.head?.map (·.1) := by
  unfold distinctField at h ⊢
  split
  · rfl
  · next hn =>
    rw [if_neg hn] at h
    cases h

theorem distinctField_eq_some_iff :
    distinctField (.ofClauses query) prior = some field ↔ ListsValues query prior field := by
  have hhead : ∀ c, query.items = [.expr (.column c) none] →
      (Model.ofClauses query).selectColumns.head?.map (·.1) =
        some (Model.stripColumn (Model.baseAliasOf query.source) c).path := by
    intro c hi
    simp [Model.ofClauses, Model.selectColumns, hi, Model.stripItem, Model.stripExpr_column,
      Model.columnItem?]
  have hgroups : (Model.ofClauses query).explicitGroups = false ↔ query.groupBy = [] := by
    rw [Model.ofClauses, Bool.not_eq_false', List.isEmpty_iff]
  constructor
  · intro h
    have hsome : (distinctField (.ofClauses query) prior).isSome = true := by
      rw [h, Option.isSome_some]
    obtain ⟨hd, hg, hj, hp, ho, hl, hoff, hlone⟩ := (isSome_distinctField _).1 hsome
    obtain ⟨c, hi⟩ := (Model.lone_column_iff query).1 hlone
    rw [distinctField_of_isSome hsome, hhead c hi] at h
    exact ⟨⟨c, hi, (Option.some.inj h).symm⟩, hd, hgroups.1 hg, List.map_eq_nil_iff.1 hj, hp,
      List.map_eq_nil_iff.1 ho, hl, hoff⟩
  · intro h
    obtain ⟨c, hi, rfl⟩ := h.column
    have hsome : (distinctField (.ofClauses query) prior).isSome = true :=
      (isSome_distinctField _).2 ⟨h.distinct, hgroups.2 h.groupBy, List.map_eq_nil_iff.2 h.joins,
        h.prior, List.map_eq_nil_iff.2 h.orderBy, h.limit, h.offset,
        (Model.lone_column_iff query).2 ⟨c, hi⟩⟩
    rw [distinctField_of_isSome hsome, hhead c hi]

/-- Distinct values are keys of groups. -/
theorem ListsValues.hasGrouping (h : ListsValues query prior field)
    (hm : Model.ofSelect query = .ok m) : m.hasGrouping = true := by
  obtain ⟨c, hi, -⟩ := h.column
  rw [Model.hasGrouping_eq hm, Select.groups, h.distinct, hi]
  simp

/-- The tests that a plain read passes. -/
theorem readsPlainly_iff (hm : Model.ofSelect query = .ok m) :
    distinctField m prior = none ∧ m.needsPipeline prior = false ∧ m.countAll = false ↔
      ReadsPlainly query m prior := by
  obtain ⟨-, -, rfl⟩ := Model.ofSelect_ok hm
  rw [needsPipeline_eq_false_iff]
  constructor
  · rintro ⟨-, ⟨ha, hk, hj, hp, hh, ht⟩, hc⟩
    have htotal : (Model.ofClauses query).totalGroup = false :=
      Bool.eq_false_iff.2 fun htotal => Bool.false_ne_true (hc.symm.trans (ht htotal))
    have hg : (Model.ofClauses query).hasGrouping = false := by
      rw [Model.hasGrouping, hk, htotal]
      rfl
    exact ⟨hg, List.map_eq_nil_iff.1 hj, hp, Option.map_eq_none_iff.1 hh, ha⟩
  · intro h
    -- A statement that one of the other operations could answer groups.
    have hplain : (Model.ofClauses query).hasGrouping ≠ true := Bool.eq_false_iff.1 h.grouping
    have hd : distinctField (.ofClauses query) prior = none :=
      Option.eq_none_iff_forall_ne_some.2 fun field hf =>
        hplain ((distinctField_eq_some_iff.1 hf).hasGrouping hm)
    have hc : (Model.ofClauses query).countAll = false := by
      refine Bool.eq_false_iff.2 fun hcount => hplain ?_
      obtain ⟨name, args, hi, -⟩ := (Model.lone_count_iff query).1 ⟨hcount, h.aliases⟩
      exact Model.hasGrouping_of_call hm (hi ▸ List.mem_singleton_self _) rfl
    obtain ⟨hk, ht⟩ := Bool.or_eq_false_iff.1 h.grouping
    rw [Bool.not_eq_false', List.isEmpty_iff] at hk
    exact ⟨hd, ⟨h.aliases, hk, List.map_eq_nil_iff.2 h.joins, h.prior,
      Option.map_eq_none_iff.2 h.having, fun htotal => absurd htotal (Bool.eq_false_iff.1 ht)⟩, hc⟩

/-- The tests that a count passes. -/
theorem countsRows_iff :
    distinctField (.ofClauses query) prior = none ∧
        (Model.ofClauses query).needsPipeline prior = false ∧
        (Model.ofClauses query).countAll = true ↔
      CountsRows query (.ofClauses query) prior := by
  rw [needsPipeline_eq_false_iff]
  constructor
  · rintro ⟨-, ⟨ha, hk, hj, hp, hh, -⟩, hc⟩
    obtain ⟨name, args, hi, hcount⟩ := (Model.lone_count_iff query).1 ⟨hc, ha⟩
    exact ⟨⟨name, args, hi, (Model.isCountAll_iff name args).1 hcount⟩, hk,
      List.map_eq_nil_iff.1 hj, hp, Option.map_eq_none_iff.1 hh⟩
  · intro h
    obtain ⟨name, args, hi, hcount⟩ := h.count
    obtain ⟨hc, ha⟩ := (Model.lone_count_iff query).2
      ⟨name, args, hi, (Model.isCountAll_iff name args).2 hcount⟩
    have hd : distinctField (.ofClauses query) prior = none := by
      refine Option.eq_none_iff_forall_ne_some.2 fun field hf => ?_
      obtain ⟨c, hcolumn, -⟩ := (distinctField_eq_some_iff.1 hf).column
      cases hcolumn.symm.trans hi
    exact ⟨hd, ⟨ha, h.groupKeys, List.map_eq_nil_iff.2 h.joins, h.prior,
      Option.map_eq_none_iff.2 h.having, fun _ => hc⟩, hc⟩

/-! ## What a plain read returns -/

/-- A plain read returns whole documents or columns under their own names. -/
theorem ReadsPlainly.items (h : ReadsPlainly query m prior) (hm : Model.ofSelect query = .ok m) :
    query.items = [.wildcard] ∨ ∀ item ∈ query.items, ∃ c, item = .expr (.column c) none := by
  cases hw : query.isWildcard with
  | true => exact .inl (Select.items_of_isWildcard hw)
  | false =>
    refine .inr fun item hi => ?_
    obtain ⟨-, -, rfl⟩ := Model.ofSelect_ok hm
    have hmem := List.mem_map_of_mem (f := Model.stripItem (Model.baseAliasOf query.source)) hi
    obtain ⟨c, aliasName, he⟩ | ⟨hg, -⟩ := Model.column_or_call hm hw hmem
    · rw [he] at hmem
      obtain rfl := Model.aliasName_eq_none h.aliases hmem
      obtain ⟨c', rfl, -⟩ := Model.exists_column_of_stripItem he
      exact ⟨c', rfl⟩
    · exact absurd hg (Bool.eq_false_iff.1 h.grouping)

/-- Fields are only chosen, and at most the id is left out. -/
theorem ReadsPlainly.projection (h : ReadsPlainly query m prior)
    (hm : Model.ofSelect query = .ok m) {entry : String × Value} (he : entry ∈ plainProjection m) :
    entry.2 = .int 1 ∨ entry = ("_id", .int 0) := by
  cases hw : m.isWildcard with
  | true => simp [plainProjection, hw] at he
  | false =>
    rw [plainProjection_eq (ofSelect_command hm) hw h.grouping] at he
    refine (mem_of_mem_projectionOf he).imp_left fun he => ?_
    rw [outputs_of_plain h.grouping] at he
    obtain ⟨field, hf, rfl⟩ := List.mem_map.1 he
    obtain ⟨item, hi, hitem⟩ := List.mem_filterMap.1 hf
    unfold Model.columnItem? at hitem
    split at hitem
    · next c aliasName =>
      cases hitem
      obtain ⟨-, -, rfl⟩ := Model.ofSelect_ok hm
      obtain rfl := Model.aliasName_eq_none h.aliases hi
      rfl
    · cases hitem

end Plan

/-! ## The operations -/

variable {s : Settings} {query : Select} {q : Query}

/-- The operation is chosen by flags of the model. -/
theorem compileSelect_flags (h : compileSelect s query = .ok q) :
    ∃ m, Model.ofSelect query = .ok m ∧ q.distinctField = distinctField m q.priorStages ∧
      q.needsPipeline = m.needsPipeline q.priorStages ∧ q.countAll = m.countAll ∧
      (m.hasGrouping = false → q.projection = plainProjection m) := by
  obtain ⟨m, origin, hm, -, h⟩ := compileSelect_ok h
  obtain ⟨joined, filter, stages, -, -, -, h⟩ := compileModel_ok h
  refine ⟨m, hm, ?_⟩
  split at h
  · next hg =>
    obtain ⟨g, order, having, -, -, -, rfl⟩ := addGroups_ok h
    exact ⟨rfl, rfl, rfl, fun hplain => absurd hg (Bool.eq_false_iff.1 hplain)⟩
  · obtain ⟨order, -, -, rfl⟩ := addPlain_ok h
    exact ⟨rfl, rfl, rfl, fun _ => rfl⟩

theorem ofQuery_find_iff (hc : q.command = .select) {request : FindRequest} :
    Operation.ofQuery s q = .find request ↔
      (q.distinctField = none ∧ q.needsPipeline = false ∧ q.countAll = false) ∧
        request = ⟨q.collection, q.filter, q.projection, q.sort, q.offset, q.limit⟩ := by
  unfold Operation.ofQuery
  rw [hc]
  cases q.distinctField <;> cases q.needsPipeline <;> cases q.countAll <;> simp [eq_comm]

theorem ofQuery_count_iff (hc : q.command = .select) {collection : String} {filter : Document} :
    Operation.ofQuery s q = .count collection filter ↔
      (q.distinctField = none ∧ q.needsPipeline = false ∧ q.countAll = true) ∧
        collection = q.collection ∧ filter = q.filter := by
  unfold Operation.ofQuery
  rw [hc]
  cases q.distinctField <;> cases q.needsPipeline <;> cases q.countAll <;> simp [eq_comm]

theorem ofQuery_distinct_iff (hc : q.command = .select) {collection field : String}
    {filter : Document} :
    Operation.ofQuery s q = .distinct collection field filter ↔
      q.distinctField = some field ∧ collection = q.collection ∧ filter = q.filter := by
  unfold Operation.ofQuery
  rw [hc]
  cases q.distinctField with
  | some field' =>
    simp only [Operation.distinct.injEq, Option.some.injEq]
    exact ⟨fun ⟨h, h', h''⟩ => ⟨h', h.symm, h''.symm⟩, fun ⟨h, h', h''⟩ => ⟨h'.symm, h, h''.symm⟩⟩
  | none => cases q.needsPipeline <;> cases q.countAll <;> simp

/-- **The simple operations leave nothing out.** A model has no keys where all rows are one group,
and it groups if an aggregate is selected. A plain read, a count and a read of distinct values are
chosen exactly where the statement asks for nothing that they cannot carry. A plain read returns
whole documents or columns under their own names: its projection only chooses fields, and at most
leaves out the id. -/
theorem compileSelect_operation_iff (h : compileSelect s query = .ok q) :
    ∃ m, Model.ofSelect query = .ok m ∧
      ¬(m.totalGroup = true ∧ m.groupKeys ≠ []) ∧
      (∀ name args aliasName, .expr (.call name args) aliasName ∈ query.items →
        m.hasGrouping = true) ∧
      ((∃ request, Operation.ofQuery s q = .find request) ↔
        ReadsPlainly query m q.priorStages) ∧
      (∀ request, Operation.ofQuery s q = .find request →
        (query.items = [.wildcard] ∨ ∀ item ∈ query.items, ∃ c, item = .expr (.column c) none) ∧
        ∀ entry ∈ request.projection, entry.2 = .int 1 ∨ entry = ("_id", .int 0)) ∧
      ((∃ collection filter, Operation.ofQuery s q = .count collection filter) ↔
        CountsRows query m q.priorStages) ∧
      ∀ field, (∃ collection filter, Operation.ofQuery s q = .distinct collection field filter) ↔
        ListsValues query q.priorStages field := by
  have hc := compileSelect_command h
  obtain ⟨m, hm, hdistinct, hneeds, hcount, hprojection⟩ := compileSelect_flags h
  have hfind : (∃ request, Operation.ofQuery s q = .find request) ↔
      ReadsPlainly query m q.priorStages := by
    simp only [ofQuery_find_iff hc, exists_and_left, exists_eq, and_true, hdistinct, hneeds, hcount,
      readsPlainly_iff hm]
  refine ⟨m, hm, ?_, fun name args aliasName hi => Model.hasGrouping_of_call hm hi rfl, hfind,
    fun request hrequest => ?_, ?_, fun field => ?_⟩
  · rintro ⟨htotal, hkeys⟩
    obtain ⟨-, -, rfl⟩ := Model.ofSelect_ok hm
    exact hkeys (Model.groupKeys_of_totalGroup htotal)
  · have hreads := hfind.1 ⟨request, hrequest⟩
    obtain ⟨-, rfl⟩ := (ofQuery_find_iff hc).1 hrequest
    refine ⟨hreads.items hm, fun entry he => hreads.projection hm ?_⟩
    rw [← hprojection hreads.grouping]
    exact he
  · obtain ⟨-, -, rfl⟩ := Model.ofSelect_ok hm
    simp only [ofQuery_count_iff hc, exists_and_left, exists_eq, and_true, hdistinct, hneeds,
      hcount, countsRows_iff]
  · obtain ⟨-, -, rfl⟩ := Model.ofSelect_ok hm
    simp only [ofQuery_distinct_iff hc, exists_and_left, exists_eq, and_true, hdistinct,
      distinctField_eq_some_iff]

theorem name_eq_find_iff {op : Operation} : op.name = "find" ↔ ∃ request, op = .find request := by
  cases op <;> simp [Operation.name]

/-- Columns of a nested source that has no stages. -/
theorem compileSelect_operation_iff_nested : ∃ c query m, compile {}
      "SELECT x.a, b.c FROM (SELECT * FROM t) x WHERE a > 1 LIMIT 3" = .ok c ∧
    c.statement = .select query ∧ c.operation.name = "find" ∧ Model.ofSelect query = .ok m ∧
    ReadsPlainly query m c.query.priorStages := by
  obtain ⟨c, query, hc, hs, hname⟩ := exists_compile_select {}
    "SELECT x.a, b.c FROM (SELECT * FROM t) x WHERE a > 1 LIMIT 3"
    (fun _ c => c.operation.name) "find" (by decide +kernel)
  obtain ⟨hq, hop⟩ := compile_select_ok hc hs
  obtain ⟨m, hm, -, -, hfind, -⟩ := compileSelect_operation_iff hq
  exact ⟨c, query, m, hc, hs, hname, hm, hfind.1 (name_eq_find_iff.1 (hop ▸ hname))⟩

end DocQuery
