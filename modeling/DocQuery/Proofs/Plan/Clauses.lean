import DocQuery.Proofs.Plan.Choice
import DocQuery.Proofs.Plan.Shape

/-!
# The clauses of a statement in its operation

Rows are found as the conditions of all levels say (`compileSelect_keeps_conditions`). The condition
on groups and the page of the result are kept too, except where a shortcut is taken that has no room
for them: distinct values are not filtered by `HAVING` (`compile_keeps_having_iff`), and a number of
rows is not cut by `LIMIT` and `OFFSET` (`compile_keeps_page_iff`).
-/

namespace DocQuery

open Syntax Plan

variable {s : Settings} {query : Select} {q : Query} {l : Level}

/-! ## Conditions on rows -/

/-- The stages of a level apply its condition: as a whole before anything else if there are no
joins, and in two parts before and after them if there are. No other filter stands among the stages
but that of the groups, right after they are made. -/
def KeepsCondition (s : Settings) (query : Select) (stages : List Stage) : Prop :=
  ∃ pushed parts residual rest, RowsOf s query pushed parts residual ∧
    stages = (pushed.map Stage.filter).toList ++ parts.flatMap JoinPart.stages ++
      (residual.map Stage.filter).toList ++ rest ∧
    rest.map Stage.name ∈ query.resultShape.matches'

/-- The operation finds the rows of a query. A pipeline runs the stages of the source and then those
of the query. Any other operation has the filter of the query, and there is nothing else to do. -/
def Operation.FindsRows (query : Select) (q : Query) : Operation → Prop
  | .find request => query.FiltersOnly ∧ request.filter = q.filter
  | .count _ filter => query.FiltersOnly ∧ filter = q.filter
  | .distinct _ _ filter => query.FiltersOnly ∧ filter = q.filter
  | .aggregate _ pipeline _ => pipeline = q.priorStages ++ q.stages.map Stage.toDocument
  | .delete _ _ => False

theorem LevelOf.keepsCondition (h : LevelOf s query l) : KeepsCondition s query l.stages :=
  ⟨l.pushed, l.joins, l.residual, l.resultStages, h.rows, rfl, h.names_mem_resultShape⟩

theorem Sent.findsRows {op : Operation} (h : Sent s query q op) : op.FindsRows query q := by
  cases h with
  | distinct field h => exact ⟨h.toFiltersOnly, rfl⟩
  | count h => exact ⟨h.toFiltersOnly, rfl⟩
  | find hd hc hf hh => exact ⟨hf, rfl⟩
  | aggregate hd hc => rfl

/-- A filter that is empty where there is none comes from the condition. -/
theorem filterOf_of_translated {e : Option Expr} {d : Option Document} (h : Translated s e d) :
    filterOf s e = .ok (d.getD []) := by
  cases h with
  | none => rfl
  | some h => exact h

/-- **No condition on rows is lost or made up.** Without joins the filter of a query is that of its
condition. The stages of the query and those of every level below apply the condition of their
level, and the operation does what these stages do. -/
theorem compileSelect_keeps_conditions (h : compileSelect s query = .ok q) :
    (query.joins = [] → filterOf s query.rowCondition = .ok q.filter) ∧
    KeepsCondition s query q.stages ∧
    (∃ prior : List (List Stage), q.priorStages = prior.flatten.map Stage.toDocument ∧
      List.Forall₂ (KeepsCondition s) query.source.levels prior) ∧
    (Operation.ofQuery s q).FindsRows query q := by
  obtain ⟨origin, l, ho, hl, hprior, hstages, hfilter⟩ := compileSelect_level h
  obtain ⟨levels, hlevels, hblocks⟩ := compileSource_levels ho
  refine ⟨?_, hstages ▸ hl.keepsCondition, ⟨levels.map Level.stages, ?_, ?_⟩,
    (compileSelect_sent h).findsRows⟩
  · intro hj
    rw [hfilter]
    exact filterOf_of_translated (hl.rows.whole hj).1
  · rw [hprior, hblocks]
    rfl
  · rw [List.forall₂_map_right_iff]
    exact hlevels.imp fun _ _ hlevel => hlevel.keepsCondition

/-- A source with a condition of its own, and a condition that is split by a join. -/
theorem compileSelect_keeps_conditions_joined : ∃ query q, compileSelect {} query = .ok q ∧
    q.pipeline.flatMap Keyed.keys =
      ["$match", "$match", "$lookup", "$unwind", "$match", "$project"] ∧
    KeepsCondition {} query q.stages ∧ (Operation.ofQuery {} q).FindsRows query q := by
  obtain ⟨c, query, hc, hs, hkeys⟩ := exists_compile_select {}
    ("SELECT p.name FROM (SELECT * FROM people WHERE age > 20) p JOIN orders o ON o.id = p.id" ++
      " WHERE p.city = 'Rome' AND o.status = 'new'")
    (fun _ c => c.query.pipeline.flatMap Keyed.keys)
    ["$match", "$match", "$lookup", "$unwind", "$match", "$project"] (by decide +kernel)
  obtain ⟨hq, -⟩ := compile_select_ok hc hs
  obtain ⟨-, hown, -, hop⟩ := compileSelect_keeps_conditions hq
  exact ⟨query, c.query, hq, hkeys, hown, hop⟩

/-! ## Conditions on groups -/

/-- The operation filters the groups that it makes, given the stages of its source, the body of the
group stage and the filter. -/
def Operation.FiltersGroups (prior : List Document) (body having : Document) : Operation → Prop
  | .aggregate _ pipeline _ => ∃ before after : List Stage,
    pipeline = prior ++
      (before ++ [Stage.group body, Stage.filter having] ++ after).map Stage.toDocument ∧
    ∀ stage ∈ before ++ after, stage.name ≠ "$group"
  | _ => False

theorem Operation.FiltersGroups.name {op : Operation} {prior : List Document}
    {body having : Document} (h : op.FiltersGroups prior body having) : op.name = "aggregate" := by
  cases op with
  | aggregate => rfl
  | find => cases h
  | count => cases h
  | distinct => cases h
  | delete => cases h

/-- The filter of the groups of a level stands right after they are made. -/
theorem having_of_groupsOf {part : Option GroupPart} (h : GroupsOf s query part) {e : Expr}
    (he : query.having = some e) :
    ∃ m g order having sort, Model.ofSelect query = .ok m ∧ Grouping.ofModel m = .ok g ∧
      RowOrder.grouped m g = .ok order ∧
      compileHaving s m g (Model.stripExpr (Model.baseAliasOf query.source) e) = .ok having ∧
      part = some ⟨sort, g.body order.firsts, some having⟩ := by
  cases h with
  | none hg hh =>
    rw [he] at hh
    cases hh
  | @some m g order part hg hm hp ho hb hh =>
    obtain ⟨sort, body, having⟩ := part
    dsimp only at hb hh
    rw [he] at hh
    cases hh with
    | some hd => exact ⟨m, g, order, _, sort, hm, hp, ho, hd, hb ▸ rfl⟩

/-- A level groups once. -/
theorem Plan.Level.stages_of_groups {sort : Option Document} {body having : Document}
    (h : l.groups = some ⟨sort, body, some having⟩) :
    ∃ before after, l.stages = before ++ [.group body, .filter having] ++ after ∧
      ∀ stage ∈ before ++ after, stage.name ≠ "$group" := by
  refine ⟨l.rowStages ++ (sort.map Stage.sort).toList, (l.sort.map Stage.sort).toList ++
    (l.skip.map Stage.skip).toList ++ (l.limit.map Stage.limit).toList ++
    (l.project.map Stage.project).toList, ?_, ?_⟩
  · simp [Level.stages, Level.resultStages, Level.orderedStages, h, GroupPart.stages]
  · have hrow : ∀ name ∈ ["$match", "$lookup", "$unwind"], name ≠ "$group" := by decide
    intro st hst
    simp only [List.mem_append] at hst
    obtain (hst | hst) | ((hst | hst) | hst) | hst := hst
    · exact hrow _ (name_of_mem_rowStages hst)
    · simp [name_of_mem_toList "$sort" (fun _ => rfl) hst]
    · simp [name_of_mem_toList "$sort" (fun _ => rfl) hst]
    · simp [name_of_mem_toList "$skip" (fun _ => rfl) hst]
    · simp [name_of_mem_toList "$limit" (fun _ => rfl) hst]
    · simp [name_of_mem_toList "$project" (fun _ => rfl) hst]

/-- **A condition on groups is kept unless distinct values are asked for by their own operation**,
which has no room for it. -/
theorem compile_keeps_having_iff {text : String} {c : Compiled} {e : Expr}
    (h : compile s text = .ok c) (hs : c.statement = .select query) (he : query.having = some e) :
    ∃ origin m g order having, compileSource s query.source = .ok origin ∧
      Model.ofSelect query = .ok m ∧ Grouping.ofModel m = .ok g ∧
      RowOrder.grouped m g = .ok order ∧
      compileHaving s m g (Model.stripExpr (Model.baseAliasOf query.source) e) = .ok having ∧
      (c.operation.FiltersGroups origin.priorStages (g.body order.firsts) having ↔
        ¬query.BareDistinct) ∧
      (query.BareDistinct → c.operation.name = "distinct") := by
  obtain ⟨hq, -⟩ := compile_select_ok h hs
  obtain ⟨origin, l, ho, hl, hprior, hstages, -⟩ := compileSelect_level hq
  obtain ⟨m, g, order, having, sort, hm, hg, horder, hh, hgroups⟩ :=
    having_of_groupsOf hl.groups he
  obtain ⟨before, after, hl, hno⟩ := l.stages_of_groups hgroups
  refine ⟨origin, m, g, order, having, ho, hm, hg, horder, hh, ?_⟩
  have hsent := compile_sent h hs
  generalize c.operation = op at hsent ⊢
  cases hsent with
  | distinct field hb => exact ⟨iff_of_false id (not_not_intro hb), fun _ => rfl⟩
  | count hb => cases hb.having.symm.trans he
  | find hd hc hf hnone => cases hnone.symm.trans he
  | aggregate hd hc =>
    refine ⟨iff_of_true ⟨before, after, ?_, hno⟩ hd, fun hb => absurd hb hd⟩
    rw [Query.pipeline, hprior, hstages, hl]

/-- With a page to cut, distinct values are found by a pipeline. -/
theorem compile_keeps_having_iff_page : ∃ c query e,
    compile {} "SELECT DISTINCT a FROM t HAVING a > 1 LIMIT 5" = .ok c ∧
    c.statement = .select query ∧ query.having = some e ∧
    ∃ prior body having, c.operation.FiltersGroups prior body having := by
  obtain ⟨c, query, hc, hs, hfacts⟩ := exists_compile_select {}
    "SELECT DISTINCT a FROM t HAVING a > 1 LIMIT 5"
    (fun query _ => (query.having.isSome, query.limit)) (true, some 5) (by decide +kernel)
  obtain ⟨hhaving, hlimit⟩ := Prod.mk.inj hfacts
  obtain ⟨e, he⟩ := Option.isSome_iff_exists.1 hhaving
  obtain ⟨origin, m, g, order, having, -, -, -, -, -, hiff, -⟩ := compile_keeps_having_iff hc hs he
  refine ⟨c, query, e, hc, hs, he, origin.priorStages, _, having, hiff.2 fun hb => ?_⟩
  cases hlimit.symm.trans hb.limit

/-- Distinct values are not filtered as groups. -/
theorem compile_loses_having : ∃ c query e,
    compile {} "SELECT DISTINCT a FROM t HAVING a > 1" = .ok c ∧
    c.statement = .select query ∧ query.having = some e ∧ c.operation.name = "distinct" ∧
    ∀ prior body having, ¬c.operation.FiltersGroups prior body having := by
  obtain ⟨c, query, hc, hs, hfacts⟩ := exists_compile_select {}
    "SELECT DISTINCT a FROM t HAVING a > 1"
    (fun query c => (query.having.isSome, c.operation.name)) (true, "distinct") (by decide +kernel)
  obtain ⟨hhaving, hname⟩ := Prod.mk.inj hfacts
  obtain ⟨e, he⟩ := Option.isSome_iff_exists.1 hhaving
  refine ⟨c, query, e, hc, hs, he, hname, fun prior body having hf => ?_⟩
  rw [hf.name] at hname
  exact absurd hname (by decide)

/-! ## Pages -/

/-- The operation cuts the result to a page, given the stages of its source. -/
def Operation.CutsPage (prior : List Document) (offset limit : Option Int) : Operation → Prop
  | .find request => request.skip = offset ∧ request.limit = limit
  | .aggregate _ pipeline _ => ∃ own : List Stage,
    pipeline = prior ++ own.map Stage.toDocument ∧ Pages offset limit own
  | .count _ _ => offset = none ∧ limit = none
  | .distinct _ _ _ => offset = none ∧ limit = none
  | .delete _ _ => False

/-- An operation that counts has no room for a page. -/
theorem Operation.CutsPage.offset_eq_none {op : Operation} {prior : List Document}
    {offset limit : Option Int} (h : op.CutsPage prior offset limit) (hname : op.name = "count") :
    offset = none := by
  cases op with
  | count => exact h.1
  | find => simp [Operation.name] at hname
  | distinct => simp [Operation.name] at hname
  | aggregate => simp [Operation.name] at hname
  | delete => cases h

/-- **A page is kept unless the number of rows is asked for by its own operation**, which has no
room for it. -/
theorem compile_keeps_page_iff {text : String} {c : Compiled} (h : compile s text = .ok c)
    (hs : c.statement = .select query) :
    ∃ origin, compileSource s query.source = .ok origin ∧
      (c.operation.CutsPage origin.priorStages (query.offset.map Int.ofNat)
          (query.limit.map Int.ofNat) ↔
        ¬(query.BareCount ∧ (query.offset ≠ none ∨ query.limit ≠ none))) ∧
      (query.BareCount → c.operation.name = "count") := by
  obtain ⟨hq, -⟩ := compile_select_ok h hs
  obtain ⟨origin, l, ho, hl, hprior, hstages, -⟩ := compileSelect_level hq
  refine ⟨origin, ho, ?_⟩
  have hsent := compile_sent h hs
  generalize c.operation = op at hsent ⊢
  cases hsent with
  | distinct field hb =>
    have hpage : query.offset.map Int.ofNat = none ∧ query.limit.map Int.ofNat = none := by
      rw [hb.offset, hb.limit]
      exact ⟨rfl, rfl⟩
    exact ⟨iff_of_true hpage fun hc => hb.not_bareCount hc.1, fun hc => absurd hc hb.not_bareCount⟩
  | count hb =>
    refine ⟨?_, fun _ => rfl⟩
    simp only [Operation.CutsPage, Option.map_eq_none_iff, hb, true_and, not_or, not_not]
  | find hd hc hf hnone =>
    exact ⟨iff_of_true ⟨rfl, rfl⟩ fun hb => hc hb.1, fun hb => absurd hb hc⟩
  | aggregate hd hc =>
    have hpipeline : c.query.pipeline = origin.priorStages ++ l.stages.map Stage.toDocument := by
      rw [Query.pipeline, hprior, hstages]
    exact ⟨iff_of_true ⟨l.stages, hpipeline, hl.pages⟩ fun hb => hc hb.1, fun hb => absurd hb hc⟩

/-- A count with an alias is made by a pipeline. -/
theorem compile_keeps_page_iff_alias : ∃ c query,
    compile {} "SELECT COUNT(*) AS n FROM t LIMIT 10 OFFSET 1" = .ok c ∧
    c.statement = .select query ∧ query.offset = some 1 ∧ query.limit = some 10 ∧
    ∃ prior, c.operation.CutsPage prior (some 1) (some 10) := by
  obtain ⟨c, query, hc, hs, hfacts⟩ := exists_compile_select {}
    "SELECT COUNT(*) AS n FROM t LIMIT 10 OFFSET 1"
    (fun query c => (query.offset, query.limit, c.operation.name)) (some 1, some 10, "aggregate")
    (by decide +kernel)
  obtain ⟨hoffset, hfacts⟩ := Prod.mk.inj hfacts
  obtain ⟨hlimit, hname⟩ := Prod.mk.inj hfacts
  obtain ⟨origin, -, hiff, hcount⟩ := compile_keeps_page_iff hc hs
  rw [hoffset, hlimit] at hiff
  refine ⟨c, query, hc, hs, hoffset, hlimit, origin.priorStages, hiff.2 fun hb => ?_⟩
  rw [hcount hb.1] at hname
  exact absurd hname (by decide)

/-- The number of rows is not cut to a page. -/
theorem compile_loses_page : ∃ c query,
    compile {} "SELECT COUNT(*) FROM t LIMIT 10 OFFSET 1" = .ok c ∧
    c.statement = .select query ∧ query.offset = some 1 ∧ query.limit = some 10 ∧
    c.operation.name = "count" ∧ ∀ prior, ¬c.operation.CutsPage prior (some 1) (some 10) := by
  obtain ⟨c, query, hc, hs, hfacts⟩ := exists_compile_select {}
    "SELECT COUNT(*) FROM t LIMIT 10 OFFSET 1"
    (fun query c => (query.offset, query.limit, c.operation.name)) (some 1, some 10, "count")
    (by decide +kernel)
  obtain ⟨hoffset, hfacts⟩ := Prod.mk.inj hfacts
  obtain ⟨hlimit, hname⟩ := Prod.mk.inj hfacts
  refine ⟨c, query, hc, hs, hoffset, hlimit, hname, fun prior hpage => ?_⟩
  exact absurd (hpage.offset_eq_none hname) (by decide)

end DocQuery
