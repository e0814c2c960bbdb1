import DocQuery.Proofs.Plan.Level
import Mathlib.Computability.RegularExpressions

/-!
# The shape of a pipeline

The names of the stages of a level follow a regular expression that can be read off its clauses
(`Select.shape`), and the stages that cut the result to a page stand where it says with the numbers
of the clauses (`Pages`). `compileSelect_shape` says so for every level of a pipeline.
-/

namespace DocQuery

open Syntax Plan RegularExpression

/-! ## Shapes -/

/-- A name that may be left out. -/
def optionally (name : String) : RegularExpression String := 1 + char name

/-- Names that stand exactly if a condition holds. -/
def presentIf (b : Bool) (r : RegularExpression String) : RegularExpression String :=
  if b then r else 1

namespace Syntax.Select

/-- The names of the stages that find the rows of a level. -/
def rowShape (q : Select) : RegularExpression String :=
  optionally "$match" * (char "$lookup" * char "$unwind") ^ q.joins.length *
    presentIf (!q.joins.isEmpty) (optionally "$match")

/-- The names of the stages that make the result of a level of its rows. -/
def resultShape (q : Select) : RegularExpression String :=
  presentIf q.groups (optionally "$sort" * char "$group" * optionally "$match") *
    optionally "$sort" * presentIf q.offset.isSome (char "$skip") *
    presentIf q.limit.isSome (char "$limit") * presentIf (!q.isWildcard) (char "$project")

/-- The names of the stages of a level. -/
def shape (q : Select) : RegularExpression String := q.rowShape * q.resultShape

end Syntax.Select

/-- Documents are left out and kept as `offset` and `limit` say, in this order and nowhere else. -/
def Pages (offset limit : Option Int) (stages : List Stage) : Prop :=
  ∃ before after,
    stages = before ++ (offset.map Stage.skip).toList ++ (limit.map Stage.limit).toList ++ after ∧
    ∀ stage ∈ before ++ after, stage.name ≠ "$skip" ∧ stage.name ≠ "$limit"

/-! ## The names of the parts -/

theorem map_name_optionally {α : Type} (stage : α → Stage) {name : String}
    (hname : ∀ a, (stage a).name = name) (x : Option α) :
    (x.map stage).toList.map Stage.name ∈ (optionally name).matches' := by
  cases x with
  | none => exact .inl rfl
  | some a => exact .inr (congrArg (fun n => [n]) (hname a))

theorem map_name_presentIf {α : Type} (stage : α → Stage) {name : String}
    (hname : ∀ a, (stage a).name = name) {x : Option α} {b : Bool} (h : x.isSome = b) :
    (x.map stage).toList.map Stage.name ∈ (presentIf b (char name)).matches' := by
  subst h
  cases x with
  | none => exact rfl
  | some a => exact congrArg (fun n => [n]) (hname a)

theorem map_name_joins (joins : List JoinPart) :
    (joins.flatMap JoinPart.stages).map Stage.name ∈
      ((char "$lookup" * char "$unwind") ^ joins.length : RegularExpression String).matches' := by
  rw [matches'_pow, Language.mem_pow]
  refine ⟨joins.map fun part => part.stages.map Stage.name, ?_, ?_, ?_⟩
  · rw [List.map_flatMap, List.flatMap_def]
  · rw [List.length_map]
  · intro names hn
    obtain ⟨part, -, rfl⟩ := List.mem_map.1 hn
    exact Language.append_mem_mul (a := ["$lookup"]) (b := ["$unwind"]) rfl rfl

variable {s : Settings} {query : Select} {l : Level}

theorem map_name_groups {groups : Option GroupPart} (h : GroupsOf s query groups) :
    (groups.elim [] GroupPart.stages).map Stage.name ∈
      (presentIf query.groups
        (optionally "$sort" * char "$group" * optionally "$match")).matches' := by
  cases h with
  | none hg hh =>
    rw [hg]
    exact rfl
  | some hg hm hp ho hb hh =>
    rw [hg, Option.elim_some, GroupPart.stages, List.map_append, List.map_append]
    have hgroup : ["$group"] ∈ (char "$group").matches' := rfl
    exact Language.append_mem_mul
      (Language.append_mem_mul (map_name_optionally .sort (fun _ => rfl) _) hgroup)
      (map_name_optionally .filter (fun _ => rfl) _)

/-- A filter stands after the joins only if there are joins. -/
theorem map_name_residual {pushed residual : Option Document} {joins : List JoinPart}
    (h : RowsOf s query pushed joins residual) :
    (residual.map Stage.filter).toList.map Stage.name ∈
      (presentIf (!query.joins.isEmpty) (optionally "$match")).matches' := by
  cases hj : query.joins with
  | nil =>
    rw [(h.whole hj).2]
    exact rfl
  | cons join joins => exact map_name_optionally .filter (fun _ => rfl) residual

theorem LevelOf.names_mem_rowShape (h : LevelOf s query l) :
    l.rowStages.map Stage.name ∈ query.rowShape.matches' := by
  rw [Level.rowStages, List.map_append, List.map_append, Select.rowShape, h.rows.joins.length_eq]
  exact Language.append_mem_mul
    (Language.append_mem_mul (map_name_optionally .filter (fun _ => rfl) _) (map_name_joins _))
    (map_name_residual h.rows)

theorem LevelOf.names_mem_resultShape (h : LevelOf s query l) :
    l.resultStages.map Stage.name ∈ query.resultShape.matches' := by
  have hskip : l.skip.isSome = query.offset.isSome := by rw [h.skip, Option.isSome_map]
  have hlimit : l.limit.isSome = query.limit.isSome := by rw [h.limit, Option.isSome_map]
  simp only [Level.resultStages, Level.orderedStages, List.map_append]
  exact Language.append_mem_mul
    (Language.append_mem_mul
      (Language.append_mem_mul
        (Language.append_mem_mul (map_name_groups h.groups)
          (map_name_optionally .sort (fun _ => rfl) _))
        (map_name_presentIf .skip (fun _ => rfl) hskip))
      (map_name_presentIf .limit (fun _ => rfl) hlimit))
    (map_name_presentIf .project (fun _ => rfl) h.project)

/-- **The names of the stages of a level follow its shape.** -/
theorem LevelOf.names_mem_shape (h : LevelOf s query l) :
    l.stages.map Stage.name ∈ query.shape.matches' := by
  rw [Level.stages, List.map_append]
  exact Language.append_mem_mul h.names_mem_rowShape h.names_mem_resultShape

/-! ## Pages -/

theorem name_of_mem_toList {α : Type} {stage : α → Stage} (name : String)
    (hname : ∀ a, (stage a).name = name) {x : Option α} {st : Stage}
    (h : st ∈ (x.map stage).toList) : st.name = name := by
  cases x with
  | none => cases h
  | some a =>
    rw [List.mem_singleton.1 h]
    exact hname a

/-- Rows are found with filters, lookups and unwindings. -/
theorem name_of_mem_rowStages {st : Stage} (h : st ∈ l.rowStages) :
    st.name ∈ ["$match", "$lookup", "$unwind"] := by
  rw [Level.rowStages, List.mem_append, List.mem_append, List.mem_flatMap] at h
  obtain (h | ⟨part, -, h⟩) | h := h
  · simp [name_of_mem_toList "$match" (fun _ => rfl) h]
  · obtain rfl | rfl := List.mem_pair.1 h
    · simp [Stage.name]
    · simp [Stage.name]
  · simp [name_of_mem_toList "$match" (fun _ => rfl) h]

theorem name_of_mem_groupStages {part : GroupPart} {st : Stage} (h : st ∈ part.stages) :
    st.name ∈ ["$sort", "$group", "$match"] := by
  rw [GroupPart.stages, List.mem_append, List.mem_append, List.mem_singleton] at h
  obtain (h | rfl) | h := h
  · simp [name_of_mem_toList "$sort" (fun _ => rfl) h]
  · simp [Stage.name]
  · simp [name_of_mem_toList "$match" (fun _ => rfl) h]

/-- Rows are grouped, the groups are filtered, and the result is put in order. -/
theorem name_of_mem_orderedStages {st : Stage} (h : st ∈ l.orderedStages) :
    st.name ∈ ["$sort", "$group", "$match"] := by
  rw [Level.orderedStages, List.mem_append] at h
  obtain h | h := h
  · cases hg : l.groups with
    | none =>
      rw [hg] at h
      cases h
    | some part =>
      rw [hg] at h
      exact name_of_mem_groupStages h
  · simp [name_of_mem_toList "$sort" (fun _ => rfl) h]

/-- **A level cuts its result to a page as its clauses say.** -/
theorem LevelOf.pages (h : LevelOf s query l) :
    Pages (query.offset.map Int.ofNat) (query.limit.map Int.ofNat) l.stages := by
  refine ⟨l.rowStages ++ l.orderedStages, (l.project.map Stage.project).toList, ?_, ?_⟩
  · rw [Level.stages, Level.resultStages, h.skip, h.limit]
    simp only [List.append_assoc]
  · have hrow : ∀ name ∈ ["$match", "$lookup", "$unwind"], name ≠ "$skip" ∧ name ≠ "$limit" := by
      decide
    have hordered : ∀ name ∈ ["$sort", "$group", "$match"], name ≠ "$skip" ∧ name ≠ "$limit" := by
      decide
    intro st hst
    rw [List.mem_append, List.mem_append] at hst
    obtain (hst | hst) | hst := hst
    · exact hrow _ (name_of_mem_rowStages hst)
    · exact hordered _ (name_of_mem_orderedStages hst)
    · rw [name_of_mem_toList "$project" (fun _ => rfl) hst]
      decide

/-! ## Pipelines -/

mutual

/-- The collection of a query is the table that its innermost level reads from. -/
theorem compileSelect_innermost : ∀ {query : Select} {q : Query}, compileSelect s query = .ok q →
    ∃ innermost rest aliasName, query.levels = innermost :: rest ∧
      innermost.source = .table q.collection aliasName
  | ⟨distinct, items, source, joins, condition, groupBy, having, orderBy, limit, offset⟩, q, h => by
    obtain ⟨m, origin, -, ho, hq⟩ := compileSelect_ok h
    rw [Select.levels_eq, (compileModel_base hq).2.1]
    obtain ⟨aliasName, hsource, hlevels⟩ | ⟨innermost, rest, aliasName, hlevels, hsource⟩ :=
      compileSource_innermost ho
    · dsimp only
      rw [hlevels]
      exact ⟨_, [], aliasName, rfl, hsource⟩
    · dsimp only
      rw [hlevels]
      exact ⟨innermost, _, aliasName, rfl, hsource⟩

/-- The collection of a source is the table that it is, or that its innermost level reads from. -/
theorem compileSource_innermost : ∀ {source : Source} {origin : Origin},
    compileSource s source = .ok origin →
      (∃ aliasName, source = .table origin.collection aliasName ∧ source.levels = []) ∨
      ∃ innermost rest aliasName, source.levels = innermost :: rest ∧
        innermost.source = .table origin.collection aliasName
  | .table name aliasName, origin, h => by
    cases h
    exact .inl ⟨aliasName, rfl, rfl⟩
  | .query (.delete _ _ _) _, origin, h => by cases h
  | .query (.select inner) aliasName, origin, h => by
    obtain ⟨q, hq, h⟩ := bind_eq_ok.1 h
    cases h
    exact .inr (compileSelect_innermost hq)

end

/-- **The shape of a pipeline.** The pipeline of a statement is put together from one block of
stages for each level, innermost first. The names of a block follow the shape of its level, and the
block cuts the result to the page that the level asks for. The collection is the table that the
innermost level reads from. -/
theorem compileSelect_shape {q : Query} (h : compileSelect s query = .ok q) :
    (∃ blocks : List (List Stage), q.pipeline = blocks.flatten.map Stage.toDocument ∧
      List.Forall₂ (fun level stages => stages.map Stage.name ∈ level.shape.matches' ∧
        Pages (level.offset.map Int.ofNat) (level.limit.map Int.ofNat) stages)
        query.levels blocks) ∧
    ∃ innermost rest aliasName, query.levels = innermost :: rest ∧
      innermost.source = .table q.collection aliasName := by
  obtain ⟨levels, hlevels, hpipeline⟩ := compileSelect_levels h
  refine ⟨⟨levels.map Level.stages, hpipeline, ?_⟩, compileSelect_innermost h⟩
  rw [List.forall₂_map_right_iff]
  exact hlevels.imp fun level l hl => ⟨hl.names_mem_shape, hl.pages⟩

/-- Two levels, of which the inner one has stages of every kind. -/
theorem compileSelect_shape_nested : ∃ query q, compileSelect {} query = .ok q ∧
    q.pipeline.flatMap Keyed.keys = ["$match", "$lookup", "$unwind", "$match", "$sort", "$group",
      "$match", "$sort", "$skip", "$limit", "$project", "$match", "$limit"] ∧
    (∃ blocks : List (List Stage), blocks.length = 2 ∧
      q.pipeline = blocks.flatten.map Stage.toDocument) ∧
    ∃ innermost rest aliasName, query.levels = innermost :: rest ∧
      innermost.source = .table q.collection aliasName := by
  obtain ⟨c, query, hc, hs, hfacts⟩ := exists_compile_select {}
    ("SELECT * FROM (SELECT p.city, COUNT(*) AS n FROM people p JOIN orders o ON o.id = p.id" ++
      " WHERE p.age > 20 AND o.status = 'new' GROUP BY p.city HAVING n > 1 ORDER BY p.name" ++
      " LIMIT 5 OFFSET 2) x WHERE n < 9 LIMIT 3")
    (fun query c => (query.levels.length, c.query.pipeline.flatMap Keyed.keys))
    (2, ["$match", "$lookup", "$unwind", "$match", "$sort", "$group", "$match", "$sort", "$skip",
      "$limit", "$project", "$match", "$limit"]) (by decide +kernel)
  obtain ⟨hlen, hkeys⟩ := Prod.mk.inj hfacts
  obtain ⟨hq, -⟩ := compile_select_ok hc hs
  obtain ⟨⟨blocks, hpipeline, hblocks⟩, hinnermost⟩ := compileSelect_shape hq
  exact ⟨query, c.query, hq, hkeys, ⟨blocks, hblocks.length_eq.symm.trans hlen, hpipeline⟩,
    hinnermost⟩

end DocQuery
