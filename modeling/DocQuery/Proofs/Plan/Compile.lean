import DocQuery.Plan.Compile
import DocQuery.Proofs.Outcome

/-!
# What a compiled query keeps of its statement

Inversion of the steps of a compilation. `compileModel_ok` says what a query is made of before its
groups, ordering and projection are filled in, which `addGroups_ok` and `addPlain_ok` do without
touching the rest (`compileModel_frame`). From these come the command, the collection and the filter
of a compiled statement (`compileSelect_command`, `compileDelete_ok`), and which statements are sent
as a removal (`ofQuery_delete_iff`).
-/

namespace DocQuery

open Syntax Plan

/-! ## The steps of a compilation -/

/-- The query of a model before the parts that depend on its groups, given its filter and its join
stages. -/
def baseQuery (m : Model) (origin : Origin) (filter : Document) (stages : List Stage) : Query where
  collection := origin.collection
  command := m.command
  filter := filter
  joinStages := stages
  priorStages := origin.priorStages
  limit := m.limit.map Int.ofNat
  offset := m.offset.map Int.ofNat
  grouping := m.hasGrouping
  countAll := m.countAll
  distinctField := distinctField m origin.priorStages
  needsPipeline := m.needsPipeline origin.priorStages

theorem addGroups_ok {s : Settings} {m : Model} {q q' : Query} (h : addGroups s m q = .ok q') :
    ∃ g order having, Grouping.ofModel m = .ok g ∧ RowOrder.grouped m g = .ok order ∧
      (match m.having with
        | some e => compileHaving s m g e
        | none => .ok []) = .ok having ∧
      q' = { q with
        projection := g.body order.firsts
        groupProjection := g.projection
        sort := order.sort
        groupSort := order.beforeGroups
        having } := by
  unfold addGroups at h
  obtain ⟨g, hg, h⟩ := bind_eq_ok.1 h
  obtain ⟨order, ho, h⟩ := bind_eq_ok.1 h
  dsimp only at h
  split at h
  · next e he =>
    obtain ⟨having, hh, h⟩ := bind_eq_ok.1 h
    exact ⟨g, order, having, hg, ho, by simpa only [he] using hh, (Except.ok.inj h).symm⟩
  · next he =>
    obtain ⟨having, hh, h⟩ := bind_eq_ok.1 h
    exact ⟨g, order, having, hg, ho, by simpa only [he] using hh, (Except.ok.inj h).symm⟩

theorem addPlain_ok {m : Model} {q q' : Query} (h : addPlain m q = .ok q') :
    ∃ order, m.having = none ∧ RowOrder.plain m = .ok order ∧
      q' = { q with sort := order.sort, projection := plainProjection m } := by
  unfold addPlain at h
  split at h
  · cases h
  · next hn =>
    obtain ⟨order, ho, h⟩ := bind_eq_ok.1 h
    exact ⟨order, hn, ho, (Except.ok.inj h).symm⟩

/-- A model compiles by way of its base query. -/
theorem compileModel_ok {s : Settings} {m : Model} {origin : Origin} {q : Query}
    (h : compileModel s m origin = .ok q) :
    ∃ joined filter stages, m.joins.mapM joinAlias = .ok joined ∧
      filterOf s (splitFor m joined).pushed = .ok filter ∧
      joinStages s m.joins (splitFor m joined).residual = .ok stages ∧
      (if m.hasGrouping then addGroups s m (baseQuery m origin filter stages)
        else addPlain m (baseQuery m origin filter stages)) = .ok q := by
  unfold compileModel at h
  obtain ⟨joined, hj, h⟩ := bind_eq_ok.1 h
  obtain ⟨filter, hf, h⟩ := bind_eq_ok.1 h
  obtain ⟨stages, hs, h⟩ := bind_eq_ok.1 h
  exact ⟨joined, filter, stages, hj, hf, hs, h⟩

/-- Groups, ordering and projection leave the rest of the base query alone. -/
theorem compileModel_frame {s : Settings} {m : Model} {origin : Origin} {q : Query}
    (h : compileModel s m origin = .ok q) :
    ∃ joined filter stages, m.joins.mapM joinAlias = .ok joined ∧
      filterOf s (splitFor m joined).pushed = .ok filter ∧
      joinStages s m.joins (splitFor m joined).residual = .ok stages ∧
      ∃ projection groupProjection sort groupSort having,
        q = { baseQuery m origin filter stages with
          projection, groupProjection, sort, groupSort, having } := by
  obtain ⟨joined, filter, stages, hj, hf, hs, h⟩ := compileModel_ok h
  refine ⟨joined, filter, stages, hj, hf, hs, ?_⟩
  split at h
  · obtain ⟨g, order, having, -, -, -, rfl⟩ := addGroups_ok h
    exact ⟨_, _, _, _, _, rfl⟩
  · obtain ⟨order, -, -, rfl⟩ := addPlain_ok h
    exact ⟨_, _, _, _, _, rfl⟩

theorem compileModel_base {s : Settings} {m : Model} {origin : Origin} {q : Query}
    (h : compileModel s m origin = .ok q) :
    q.command = m.command ∧ q.collection = origin.collection ∧
      ∃ joined, m.joins.mapM joinAlias = .ok joined ∧
        filterOf s (splitFor m joined).pushed = .ok q.filter := by
  obtain ⟨joined, filter, stages, hj, hf, -, _, _, _, _, _, rfl⟩ := compileModel_frame h
  exact ⟨rfl, rfl, joined, hj, hf⟩

/-! ## Statements -/

theorem ofSelect_command {q : Select} {m : Model} (h : Model.ofSelect q = .ok m) :
    m.command = .select := by
  unfold Model.ofSelect at h
  obtain ⟨-, -, h⟩ := bind_eq_ok.1 h
  dsimp only at h
  split at h
  · cases h
  · cases h
    rfl

/-- A `SELECT` statement compiles by way of its model and the origin of its documents. -/
theorem compileSelect_ok {s : Settings} {query : Select} {q : Query}
    (h : compileSelect s query = .ok q) :
    ∃ m origin, Model.ofSelect query = .ok m ∧ compileSource s query.source = .ok origin ∧
      compileModel s m origin = .ok q := by
  obtain ⟨distinct, items, source, joins, condition, groupBy, having, orderBy, limit, offset⟩ :=
    query
  rw [compileSelect] at h
  obtain ⟨m, hm, h⟩ := bind_eq_ok.1 h
  obtain ⟨origin, ho, h⟩ := bind_eq_ok.1 h
  exact ⟨m, origin, hm, ho, h⟩

/-- However its source is nested, a `SELECT` statement compiles to a query that reads. -/
theorem compileSelect_command {s : Settings} {query : Select} {q : Query}
    (h : compileSelect s query = .ok q) : q.command = .select := by
  obtain ⟨m, origin, hm, -, h⟩ := compileSelect_ok h
  rw [(compileModel_base h).1, ofSelect_command hm]

/-- The filter of a `DELETE` statement is that of its whole condition without the base alias. -/
theorem compileDelete_ok {s : Settings} {table : String} {aliasName : Option String}
    {condition : Option Expr} {q : Query}
    (h : compileStatement s (.delete table aliasName condition) = .ok q) :
    q.command = .delete ∧ q.collection = table ∧
      filterOf s (condition.map (Model.stripExpr (some (aliasName.getD table)))) = .ok q.filter := by
  rw [compileStatement] at h
  obtain ⟨hc, hn, joined, hj, hf⟩ := compileModel_base h
  refine ⟨hc, hn, ?_⟩
  have hnil : joined = [] := by
    simpa [Model.ofDelete, pure, Except.pure] using hj.symm
  subst hnil
  simpa [splitFor, Model.ofDelete] using hf

/-- The operation of a query removes documents exactly when the query does. -/
theorem ofQuery_delete_iff {s : Settings} {q : Query} {collection : String} {filter : Document} :
    Operation.ofQuery s q = .delete collection filter ↔
      q.command = .delete ∧ collection = q.collection ∧ filter = q.filter := by
  unfold Operation.ofQuery
  split
  · next hc =>
    simp only [hc, true_and, Operation.delete.injEq]
    exact ⟨fun ⟨h, h'⟩ => ⟨h.symm, h'.symm⟩, fun ⟨h, h'⟩ => ⟨h.symm, h'.symm⟩⟩
  · next hc _ => simp [hc]
  · next hc _ =>
    simp only [hc, reduceCtorEq, false_and, iff_false]
    split
    · simp
    · split <;> simp

/-! ## Texts -/

/-- A text compiles when the settings are accepted, it reads as a statement and that compiles. -/
theorem compile_ok {s : Settings} {text : String} {c : Compiled} (h : compile s text = .ok c) :
    parseStatement text = .ok c.statement ∧ compileStatement s c.statement = .ok c.query ∧
      c.operation = Operation.ofQuery s c.query := by
  unfold compile at h
  obtain ⟨-, -, h⟩ := bind_eq_ok.1 h
  obtain ⟨statement, hs, h⟩ := bind_eq_ok.1 h
  obtain ⟨query, hq, h⟩ := bind_eq_ok.1 h
  cases h
  exact ⟨mapError_eq_ok.1 hs, hq, rfl⟩

theorem compile_select_ok {s : Settings} {text : String} {c : Compiled} {query : Select}
    (h : compile s text = .ok c) (hs : c.statement = .select query) :
    compileSelect s query = .ok c.query ∧ c.operation = Operation.ofQuery s c.query := by
  obtain ⟨-, hq, hop⟩ := compile_ok h
  rw [hs, compileStatement] at hq
  exact ⟨hq, hop⟩

/-- What a text denotes can be found by evaluation. -/
theorem exists_parseStatement {β : Type} (text : String) (f : Statement → β) (b : β)
    (h : (parseStatement text).toOption.map f = some b) :
    ∃ statement, parseStatement text = .ok statement ∧ f statement = b :=
  toOption_map_eq_some.1 h

/-- What a text that denotes a `SELECT` statement compiles to can be found by evaluation. -/
theorem exists_compile_select {β : Type} (s : Settings) (text : String)
    (f : Select → Compiled → β) (b : β)
    (h : ((compile s text).toOption.bind fun c => match c.statement with
      | .select query => some (f query c)
      | .delete _ _ _ => none) = some b) :
    ∃ c query, compile s text = .ok c ∧ c.statement = .select query ∧ f query c = b := by
  obtain ⟨c, hc, h⟩ := toOption_bind_eq_some.1 h
  split at h
  · next query hs => exact ⟨c, query, hc, hs, Option.some.inj h⟩
  · cases h

end DocQuery
