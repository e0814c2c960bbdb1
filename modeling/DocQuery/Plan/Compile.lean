import DocQuery.Plan.Having
import DocQuery.Plan.Join
import DocQuery.Plan.Operation
import DocQuery.Syntax.Grammar

/-!
# Compiling statements

`compileStatement` compiles a statement to a query: a nested source is compiled first and its
pipeline goes in front. `compile` takes a text all the way to the operation that is sent.
-/

namespace DocQuery

open Syntax Plan

/-- Where the documents of a statement come from. -/
structure Origin where
  /-- The collection. -/
  collection : String
  /-- The stages of a nested source. -/
  priorStages : List Document

/-- The fields that a statement without groups returns. The id is left out unless it is selected. -/
def plainProjection (m : Model) : Document :=
  if m.command = .delete || m.isWildcard then []
  else
    let fields := m.selectColumns
    let chosen := Keyed.putAll [] (fields.map fun (path, aliasName) =>
      match aliasName with
      | some name => (name, Value.string ("$" ++ path))
      | none => (path, .int 1))
    if fields.any fun field => field.1 = "_id" then chosen else Keyed.put chosen "_id" (.int 0)

/-- The field whose distinct values a statement asks for, if it asks for nothing else. -/
def distinctField (m : Model) (priorStages : List Document) : Option String :=
  if m.distinct && !m.explicitGroups && m.items.length = 1 && m.joins.isEmpty &&
      priorStages.isEmpty && m.aliases.isEmpty && m.orderBy.isEmpty && m.limit.isNone &&
      m.offset.isNone then
    m.selectColumns.head?.map (·.1)
  else none

/-- The two parts of the condition of a statement. Without joins all of it comes first. -/
def splitFor (m : Model) (joined : List String) : Split :=
  match m.condition, joined.isEmpty with
  | some e, false => splitCondition joined e
  | condition, _ => ⟨condition, none⟩

/-- The filter of an optional condition. -/
def filterOf (s : Settings) : Option Expr → Result Document
  | some e => Filter.ofExpr s e
  | none => .ok []

/-- The query with the parts that depend on the groups. -/
def addGroups (s : Settings) (m : Model) (q : Query) : Result Query := do
  let g ← Grouping.ofModel m
  let order ← RowOrder.grouped m g
  let having ← match m.having with
    | some e => compileHaving s m g e
    | none => .ok []
  return { q with
    projection := g.body order.firsts
    groupProjection := g.projection
    sort := order.sort
    groupSort := order.beforeGroups
    having }

/-- The query with the parts of a statement without groups. -/
def addPlain (m : Model) (q : Query) : Result Query := do
  match m.having with
  | some e => throw (.havingWithoutGroups e)
  | none =>
    let order ← RowOrder.plain m
    return { q with sort := order.sort, projection := plainProjection m }

/-- The query of a statement whose documents come from a given origin. -/
def compileModel (s : Settings) (m : Model) (origin : Origin) : Result Query := do
  let joined ← m.joins.mapM joinAlias
  let split := splitFor m joined
  let filter ← filterOf s split.pushed
  let stages ← joinStages s m.joins split.residual
  let q : Query := {
    collection := origin.collection
    command := m.command
    filter
    joinStages := stages
    priorStages := origin.priorStages
    limit := m.limit.map Int.ofNat
    offset := m.offset.map Int.ofNat
    grouping := m.hasGrouping
    countAll := m.countAll
    distinctField := distinctField m origin.priorStages
    needsPipeline := m.needsPipeline origin.priorStages }
  if m.hasGrouping then addGroups s m q else addPlain m q

mutual

/-- The query of a statement. -/
def compileStatement (s : Settings) : Statement → Result Query
  | .select q => compileSelect s q
  | .delete table aliasName condition =>
    compileModel s (Model.ofDelete table aliasName condition) ⟨table, []⟩

/-- The query of a `SELECT` statement. -/
def compileSelect (s : Settings) : Select → Result Query
  | ⟨distinct, items, source, joins, condition, groupBy, having, orderBy, limit, offset⟩ => do
    let m ← Model.ofSelect
      ⟨distinct, items, source, joins, condition, groupBy, having, orderBy, limit, offset⟩
    let origin ← compileSource s source
    compileModel s m origin

/-- The origin of the documents of a source. A nested statement is compiled. -/
def compileSource (s : Settings) : Source → Result Origin
  | .table name _ => .ok ⟨name, []⟩
  | .query statement _ =>
    match statement with
    | .delete _ _ _ => .error .deleteAsSource
    | .select q => do
      let inner ← compileSelect s q
      return ⟨inner.collection, inner.pipeline⟩

end

/-- A statement and what it compiles to. -/
structure Compiled where
  /-- The statement. -/
  statement : Statement
  /-- The compiled query. -/
  query : Query
  /-- The operation that is sent. -/
  operation : Operation

/-- Refuses settings that make no sense. -/
def checkSettings (s : Settings) : Result Unit :=
  match s.refusal? with
  | some e => .error (.settings e)
  | none => .ok ()

/-- Compiles the statement that a text denotes. The settings are checked before the text is read. -/
def compile (s : Settings) (text : String) : Result Compiled := do
  checkSettings s
  let statement ← (parseStatement text).mapError .malformed
  let query ← compileStatement s statement
  return ⟨statement, query, Operation.ofQuery s query⟩

end DocQuery
