import DocQuery.Proofs.Filter.OneKey
import DocQuery.Proofs.Model.SelectList
import DocQuery.Proofs.Plan.Compile

/-!
# Levels of a statement

A statement that reads from another one is a stack of levels, and each level adds stages of its own
to the pipeline. A `Level` holds these stages by their parts, `LevelOf` says what the parts have to
do with the clauses of the statement at that level, and `compileSelect_level` finds them in a
compiled query.

`compileSelect_levels` is the statement for the whole stack: the pipeline of a query is put together
from the stages of its levels, innermost first.
-/

namespace DocQuery

open Syntax Plan

/-! ## The parts of a level -/

namespace Plan

/-- The stages of a join. -/
structure JoinPart where
  /-- The body of the lookup. -/
  lookup : Document
  /-- The path of the array that is unwound. -/
  path : String
  /-- Whether rows without a partner are kept. -/
  preserve : Bool

/-- The lookup of a join, and the unwinding of what it found. -/
def JoinPart.stages (part : JoinPart) : List Stage :=
  [.lookup part.lookup, .unwind part.path part.preserve]

/-- The stages of a grouping. -/
structure GroupPart where
  /-- The ordering before documents are grouped. -/
  sort : Option Document
  /-- The body of the group stage. -/
  body : Document
  /-- The filter of the groups. -/
  having : Option Document

/-- The stages of a grouping, in order. -/
def GroupPart.stages (part : GroupPart) : List Stage :=
  (part.sort.map Stage.sort).toList ++ [.group part.body] ++ (part.having.map Stage.filter).toList

/-- The stages of one level of a statement. -/
structure Level where
  /-- The filter before the joins. -/
  pushed : Option Document
  /-- The joins. -/
  joins : List JoinPart
  /-- The filter after the joins. -/
  residual : Option Document
  /-- The grouping. -/
  groups : Option GroupPart
  /-- The ordering of the result. -/
  sort : Option Document
  /-- How many documents are left out. -/
  skip : Option Int
  /-- How many documents are kept. -/
  limit : Option Int
  /-- The fields of the result. -/
  project : Option Document

namespace Level

/-- The stages that find the rows. -/
def rowStages (l : Level) : List Stage :=
  (l.pushed.map Stage.filter).toList ++ l.joins.flatMap JoinPart.stages ++
    (l.residual.map Stage.filter).toList

/-- The stages that group the rows and put the result in order. -/
def orderedStages (l : Level) : List Stage :=
  l.groups.elim [] GroupPart.stages ++ (l.sort.map Stage.sort).toList

/-- The stages that make the result of the rows. -/
def resultStages (l : Level) : List Stage :=
  l.orderedStages ++ (l.skip.map Stage.skip).toList ++ (l.limit.map Stage.limit).toList ++
    (l.project.map Stage.project).toList

/-- The stages of a level, in order. -/
def stages (l : Level) : List Stage := l.rowStages ++ l.resultStages

end Level

end Plan

/-- A document, if it is not empty. -/
def nonempty? (d : Document) : Option Document := if d.isEmpty then none else some d

theorem isSome_nonempty? (d : Document) : (nonempty? d).isSome = !d.isEmpty := by
  unfold nonempty?
  split <;> simp_all

theorem getD_nonempty? (d : Document) : (nonempty? d).getD [] = d := by
  unfold nonempty?
  split
  · next h => rw [List.isEmpty_iff.1 h, Option.getD_none]
  · rfl

theorem stageUnlessEmpty_eq (stage : Document → Stage) (d : Document) :
    Query.stageUnlessEmpty stage d = ((nonempty? d).map stage).toList := by
  unfold Query.stageUnlessEmpty nonempty?
  split <;> rfl

namespace Query

/-- The stages of a query by their parts, given those of its joins. -/
def level (q : Query) (joins : List JoinPart) (residual : Option Document) : Level where
  pushed := nonempty? q.filter
  joins := joins
  residual := residual
  groups :=
    if q.grouping then some ⟨nonempty? q.groupSort, q.projection, nonempty? q.having⟩ else none
  sort := nonempty? q.sort
  skip := q.offset
  limit := q.limit
  project := nonempty? (if q.grouping then q.groupProjection else q.projection)

theorem stages_level {q : Query} {joins : List JoinPart} {residual : Option Document}
    (h : q.joinStages = joins.flatMap JoinPart.stages ++ (residual.map Stage.filter).toList) :
    (q.level joins residual).stages = q.stages := by
  unfold stages Level.stages Level.rowStages Level.resultStages Level.orderedStages level
  rw [h]
  cases q.grouping <;>
    simp [stageUnlessEmpty_eq, groupStages, GroupPart.stages]

end Query

/-! ## What the parts of a level come from -/

/-- An optional condition and its filter: there is a filter if there is a condition, and none if
not. -/
def Translated (s : Settings) : Option Expr → Option Document → Prop :=
  Option.Rel fun e d => Filter.ofExpr s e = .ok d

/-- The grouping of a level. -/
inductive GroupsOf (s : Settings) (query : Select) : Option GroupPart → Prop where
  /-- A level without groups has no condition on them. -/
  | none (hg : query.groups = false) (hh : query.having = none) : GroupsOf s query none
  /-- The groups of a level are made as its model says, and its condition on groups is compiled for
  them. -/
  | some {m : Model} {g : Grouping} {order : RowOrder} {part : GroupPart}
      (hg : query.groups = true) (hm : Model.ofSelect query = .ok m)
      (hp : Grouping.ofModel m = .ok g) (ho : RowOrder.grouped m g = .ok order)
      (hb : part.body = g.body order.firsts)
      (hh : Option.Rel (fun e d =>
          compileHaving s m g (Model.stripExpr (Model.baseAliasOf query.source) e) = .ok d)
        query.having part.having) : GroupsOf s query (some part)

/-- The filters and the joins of a level. -/
structure RowsOf (s : Settings) (query : Select) (pushed : Option Document) (joins : List JoinPart)
    (residual : Option Document) : Prop where
  /-- Without joins the whole condition is applied first. -/
  whole : query.joins = [] → Translated s query.rowCondition pushed ∧ residual = none
  /-- With joins the two parts of the condition are applied before and after them. -/
  split : query.joins ≠ [] → ∃ joined, query.joins.mapM joinAlias = .ok joined ∧
    Translated s (query.rowCondition.bind fun w => (splitCondition joined w).pushed) pushed ∧
    Translated s (query.rowCondition.bind fun w => (splitCondition joined w).residual) residual
  /-- There is a lookup and an unwinding for each join. -/
  joins : List.Forall₂
    (fun join part => joinPair (Model.stripJoin (Model.baseAliasOf query.source) join) =
      .ok (JoinPart.stages part)) query.joins joins

/-- What the parts of a level have to do with the clauses of the statement at that level. -/
structure LevelOf (s : Settings) (query : Select) (l : Level) : Prop where
  /-- The rows are found as the joins and the condition say. -/
  rows : RowsOf s query l.pushed l.joins l.residual
  /-- There is a grouping if the level groups. -/
  groups : GroupsOf s query l.groups
  /-- There is an ordering if there is an `ORDER BY`. -/
  sort : l.sort.isSome = !query.orderBy.isEmpty
  /-- Documents are left out as `OFFSET` says. -/
  skip : l.skip = query.offset.map Int.ofNat
  /-- Documents are kept as `LIMIT` says. -/
  limit : l.limit = query.limit.map Int.ofNat
  /-- Fields are chosen unless all of them are selected. -/
  project : l.project.isSome = !query.isWildcard

variable {s : Settings}

/-! ### Conditions and joins -/

theorem nonempty?_of_ofExpr {e : Expr} {d : Document} (h : Filter.ofExpr s e = .ok d) :
    nonempty? d = some d := by
  obtain ⟨key, value, rfl⟩ := Filter.ofExpr_single h
  rfl

theorem translated_of_filterOf {e : Option Expr} {d : Document} (h : filterOf s e = .ok d) :
    Translated s e (nonempty? d) := by
  cases e with
  | none =>
    cases h
    exact .none
  | some e =>
    rw [nonempty?_of_ofExpr h]
    exact .some h

theorem joinPair_ok {join : Join} {stages : List Stage} (h : joinPair join = .ok stages) :
    ∃ part : JoinPart, stages = part.stages := by
  unfold joinPair at h
  obtain ⟨preserve, -, h⟩ := bind_eq_ok.1 h
  split at h
  · obtain ⟨body, -, h⟩ := bind_eq_ok.1 h
    exact ⟨⟨body, _, preserve⟩, (Except.ok.inj h).symm⟩
  · cases h

theorem mapM_joinPair_ok {joins : List Join} {pairs : List (List Stage)}
    (h : List.Forall₂ (fun join stages => joinPair join = .ok stages) joins pairs) :
    ∃ parts : List JoinPart, pairs = parts.map JoinPart.stages := by
  induction h with
  | nil => exact ⟨[], rfl⟩
  | cons hj _ ih =>
    obtain ⟨part, rfl⟩ := joinPair_ok hj
    obtain ⟨parts, rfl⟩ := ih
    exact ⟨part :: parts, rfl⟩

/-- The stages of joins are a lookup and an unwinding for each of them, and the filter of what
remains of the condition. -/
theorem joinStages_ok {joins : List Join} {residual : Option Expr} {stages : List Stage}
    (h : joinStages s joins residual = .ok stages) :
    ∃ (parts : List JoinPart) (d : Option Document),
      List.Forall₂ (fun join part => joinPair join = .ok (JoinPart.stages part)) joins parts ∧
      Translated s residual d ∧
      stages = parts.flatMap JoinPart.stages ++ (d.map Stage.filter).toList := by
  unfold joinStages at h
  obtain ⟨pairs, hpairs, h⟩ := bind_eq_ok.1 h
  have hall := mapM_eq_ok.1 hpairs
  obtain ⟨parts, rfl⟩ := mapM_joinPair_ok hall
  rw [List.forall₂_map_right_iff] at hall
  cases residual with
  | none =>
    cases h
    exact ⟨parts, none, hall, .none, (List.append_nil _).symm⟩
  | some e =>
    obtain ⟨d, hd, h⟩ := bind_eq_ok.1 h
    cases h
    exact ⟨parts, some d, hall, .some hd, rfl⟩

/-- The names of what is joined do not depend on the base alias. -/
theorem mapM_joinAlias_stripJoin {base : Option String} {joins : List Join} {joined : List String}
    (h : (joins.map (Model.stripJoin base)).mapM joinAlias = .ok joined) :
    joins.mapM joinAlias = .ok joined := by
  rw [mapM_eq_ok, List.forall₂_map_left_iff] at h
  refine mapM_eq_ok.2 (h.imp fun join name hname => ?_)
  unfold joinAlias Model.stripJoin at hname
  unfold joinAlias
  split at hname
  · next hsource => rw [hsource]; exact hname
  · cases hname

/-! ### Orderings and projections -/

/-- An ordering to which every key adds is empty only if there are no keys. -/
theorem sort_isEmpty_of_foldlM {step : RowOrder → OrderKey → Result RowOrder}
    (hstep : ∀ o key o', step o key = .ok o' → o'.sort ≠ []) {keys : List OrderKey}
    {order : RowOrder} (h : keys.foldlM step {} = .ok order) :
    order.sort.isEmpty = keys.isEmpty := by
  cases keys with
  | nil =>
    cases h
    rfl
  | cons key keys =>
    exact List.isEmpty_eq_false_iff.2 (of_foldlM_eq_ok hstep (List.cons_ne_nil _ _) h)

theorem addPlainKey_sort_ne_nil {m : Model} {o o' : RowOrder} {key : OrderKey}
    (h : addPlainKey m o key = .ok o') : o'.sort ≠ [] := by
  obtain ⟨path, -, h⟩ := bind_eq_ok.1 h
  cases h
  exact Keyed.put_ne_nil _ _ _

theorem addGroupedKey_sort_ne_nil {m : Model} {g : Grouping} {o o' : RowOrder} {key : OrderKey}
    (h : addGroupedKey m g o key = .ok o') : o'.sort ≠ [] := by
  unfold addGroupedKey at h
  split at h
  · cases h
    unfold addGroupedColumn
    split
    · exact Keyed.put_ne_nil _ _ _
    · dsimp only
      split <;> exact Keyed.put_ne_nil _ _ _
  · dsimp only at h
    split at h
    · cases h
      exact Keyed.put_ne_nil _ _ _
    · cases h
  · cases h

theorem plain_sort_isEmpty {m : Model} {order : RowOrder} (h : RowOrder.plain m = .ok order) :
    order.sort.isEmpty = m.orderBy.isEmpty :=
  sort_isEmpty_of_foldlM (fun _ _ _ => addPlainKey_sort_ne_nil) h

theorem grouped_sort_isEmpty {m : Model} {g : Grouping} {order : RowOrder}
    (h : RowOrder.grouped m g = .ok order) : order.sort.isEmpty = m.orderBy.isEmpty :=
  sort_isEmpty_of_foldlM (fun _ _ _ => addGroupedKey_sort_ne_nil) h

/-- A statement without groups chooses fields unless it selects all of them. -/
theorem plainProjection_isEmpty {m : Model} (hc : m.command = .select) :
    (plainProjection m).isEmpty = m.isWildcard := by
  unfold plainProjection
  cases hw : m.isWildcard with
  | true => simp
  | false =>
    simp only [hc, reduceCtorEq, decide_false, Bool.or_self, Bool.false_eq_true, if_false,
      List.isEmpty_eq_false_iff]
    split
    · next hid =>
      refine Keyed.putAll_ne_nil (.inr ?_)
      intro hnil
      rw [List.map_eq_nil_iff.1 hnil] at hid
      cases hid
    · exact Keyed.put_ne_nil _ _ _

theorem projection_ofModel {m : Model} {g : Grouping} (h : Grouping.ofModel m = .ok g) :
    g.projection.isEmpty = false := by
  unfold Grouping.ofModel at h
  obtain ⟨acc, -, h⟩ := bind_eq_ok.1 h
  cases h
  exact List.isEmpty_eq_false_iff.2 (Keyed.put_ne_nil _ _ _)

/-! ## One level -/

/-- The two parts of the condition of a level, by whether there are joins. -/
theorem splitFor_ofClauses {query : Select} {joined : List String}
    (h : query.joins.mapM joinAlias = .ok joined) :
    (query.joins = [] → splitFor (.ofClauses query) joined = ⟨query.rowCondition, none⟩) ∧
    (query.joins ≠ [] → splitFor (.ofClauses query) joined =
      ⟨query.rowCondition.bind fun w => (splitCondition joined w).pushed,
        query.rowCondition.bind fun w => (splitCondition joined w).residual⟩) := by
  have hlen := (mapM_eq_ok.1 h).length_eq
  unfold splitFor
  constructor
  · intro hj
    rw [hj] at hlen
    rw [List.length_eq_zero_iff.1 hlen.symm]
    cases hw : query.rowCondition <;> simp [Model.ofClauses, hw]
  · intro hj
    cases joined with
    | nil => exact absurd (List.length_eq_zero_iff.1 hlen) hj
    | cons name names => cases hw : query.rowCondition <;> simp [Model.ofClauses, hw]

/-- The rows of a level are found as its joins and its condition say. -/
theorem rowsOf_ofClauses {query : Select} {joined : List String} {filter : Document}
    {stages : List Stage} (hj : (Model.ofClauses query).joins.mapM joinAlias = .ok joined)
    (hf : filterOf s (splitFor (.ofClauses query) joined).pushed = .ok filter)
    (hs : joinStages s (Model.ofClauses query).joins (splitFor (.ofClauses query) joined).residual =
      .ok stages) :
    ∃ parts residual, RowsOf s query (nonempty? filter) parts residual ∧
      stages = parts.flatMap JoinPart.stages ++ (residual.map Stage.filter).toList := by
  have hjoined : query.joins.mapM joinAlias = .ok joined := mapM_joinAlias_stripJoin hj
  obtain ⟨parts, residual, hparts, hresidual, rfl⟩ := joinStages_ok hs
  refine ⟨parts, residual, ⟨?_, ?_, List.forall₂_map_left_iff.1 hparts⟩, rfl⟩
  · intro hnil
    rw [(splitFor_ofClauses hjoined).1 hnil] at hf hresidual
    cases hresidual
    exact ⟨translated_of_filterOf hf, rfl⟩
  · intro hne
    rw [(splitFor_ofClauses hjoined).2 hne] at hf hresidual
    exact ⟨joined, hjoined, translated_of_filterOf hf, hresidual⟩

/-- There is a filter of the groups if there is a condition on them, and none if not. -/
theorem rel_of_having {m : Model} {g : Grouping} {having : Option Expr} {strip : Expr → Expr}
    {d : Document}
    (h : (match having.map strip with
      | some e => compileHaving s m g e
      | none => .ok []) = .ok d) :
    Option.Rel (fun e d => compileHaving s m g (strip e) = .ok d) having (nonempty? d) := by
  cases having with
  | none =>
    cases h
    exact .none
  | some e =>
    obtain ⟨resolved, -, hd⟩ := bind_eq_ok.1 h
    rw [nonempty?_of_ofExpr hd]
    exact .some h

/-- **The stages of a level come from its clauses.** -/
theorem compileModel_level {query : Select} {m : Model} {origin : Origin} {q : Query}
    (hm : Model.ofSelect query = .ok m) (h : compileModel s m origin = .ok q) :
    ∃ l, LevelOf s query l ∧ q.stages = l.stages ∧ q.filter = l.pushed.getD [] := by
  obtain ⟨joined, filter, stages, hj, hf, hs, h⟩ := compileModel_ok h
  have hgroups := Model.hasGrouping_eq hm
  obtain ⟨-, -, rfl⟩ := Model.ofSelect_ok hm
  obtain ⟨parts, residual, hrows, rfl⟩ := rowsOf_ofClauses hj hf hs
  refine ⟨q.level parts residual, ?_, (Query.stages_level ?_).symm, (getD_nonempty? _).symm⟩
  all_goals split at h
  · next hg =>
    obtain ⟨g, order, having, hgrouping, horder, hhaving, rfl⟩ := addGroups_ok h
    have hgq : query.groups = true := hgroups ▸ hg
    refine ⟨hrows, ?_, ?_, rfl, rfl, ?_⟩
    · change GroupsOf s query (if (Model.ofClauses query).hasGrouping then some _ else none)
      rw [if_pos hg]
      exact .some hgq hm hgrouping horder rfl (rel_of_having hhaving)
    · change (nonempty? order.sort).isSome = _
      rw [isSome_nonempty?, grouped_sort_isEmpty horder]
      exact congrArg (!·) List.isEmpty_map
    · change (nonempty? (if (Model.ofClauses query).hasGrouping then g.projection
        else _)).isSome = _
      rw [if_pos hg, isSome_nonempty?, projection_ofModel hgrouping,
        Model.isWildcard_eq_false_of_groups hm hgq]
  · next hg =>
    obtain ⟨order, hhaving, horder, rfl⟩ := addPlain_ok h
    have hgq : query.groups = false := hgroups ▸ Bool.eq_false_iff.2 hg
    refine ⟨hrows, ?_, ?_, rfl, rfl, ?_⟩
    · change GroupsOf s query (if (Model.ofClauses query).hasGrouping then some _ else none)
      rw [if_neg hg]
      exact .none hgq (Option.map_eq_none_iff.1 hhaving)
    · change (nonempty? order.sort).isSome = _
      rw [isSome_nonempty?, plain_sort_isEmpty horder]
      exact congrArg (!·) List.isEmpty_map
    · change (nonempty? (if (Model.ofClauses query).hasGrouping then _
        else plainProjection (Model.ofClauses query))).isSome = _
      rw [if_neg hg, isSome_nonempty?, plainProjection_isEmpty rfl, Model.isWildcard_ofClauses]
  · obtain ⟨g, order, having, -, -, -, rfl⟩ := addGroups_ok h
    rfl
  · obtain ⟨order, -, -, rfl⟩ := addPlain_ok h
    rfl

/-! ## The stack of levels -/

namespace Syntax

mutual

/-- The levels of a statement, innermost first. -/
def Select.levels : Select → List Select
  | ⟨distinct, items, source, joins, condition, groupBy, having, orderBy, limit, offset⟩ =>
    source.levels ++
      [⟨distinct, items, source, joins, condition, groupBy, having, orderBy, limit, offset⟩]

/-- The levels of what a statement reads from. -/
def Source.levels : Source → List Select
  | .table _ _ => []
  | .query statement _ =>
    match statement with
    | .select q => q.levels
    | .delete _ _ _ => []

end

theorem Select.levels_eq (q : Select) : q.levels = q.source.levels ++ [q] := by
  cases q
  rw [Select.levels]

end Syntax

/-- The stages of a stack of levels, one after the other. -/
def Stacked (s : Settings) (levels : List Select) (pipeline : List Document) : Prop :=
  ∃ blocks : List Level, List.Forall₂ (LevelOf s) levels blocks ∧
    pipeline = (blocks.flatMap Level.stages).map Stage.toDocument

/-- A level goes on top of those of its source. -/
theorem Stacked.push {query : Select} {l : Level} {pipeline : List Document}
    (h : Stacked s query.source.levels pipeline) (hl : LevelOf s query l) :
    Stacked s query.levels (pipeline ++ l.stages.map Stage.toDocument) := by
  obtain ⟨blocks, hblocks, rfl⟩ := h
  refine ⟨blocks ++ [l], ?_, ?_⟩
  · rw [Select.levels_eq]
    exact List.rel_append hblocks (.cons hl .nil)
  · simp

/-- A query puts the stages of its own level after those of its source. -/
theorem compileSelect_level {query : Select} {q : Query} (h : compileSelect s query = .ok q) :
    ∃ origin l, compileSource s query.source = .ok origin ∧ LevelOf s query l ∧
      q.priorStages = origin.priorStages ∧ q.stages = l.stages ∧
      q.filter = l.pushed.getD [] := by
  obtain ⟨m, origin, hm, ho, h⟩ := compileSelect_ok h
  obtain ⟨l, hl, hstages, hfilter⟩ := compileModel_level hm h
  obtain ⟨_, _, _, -, -, -, _, _, _, _, _, rfl⟩ := compileModel_frame h
  exact ⟨origin, l, ho, hl, rfl, hstages, hfilter⟩

mutual

/-- **The pipeline of a query is put together from the stages of its levels**, innermost first. -/
theorem compileSelect_levels : ∀ {query : Select} {q : Query}, compileSelect s query = .ok q →
    Stacked s query.levels q.pipeline
  | ⟨distinct, items, source, joins, condition, groupBy, having, orderBy, limit, offset⟩, q, h => by
    obtain ⟨origin, l, ho, hl, hprior, hstages, -⟩ := compileSelect_level h
    rw [Query.pipeline, hprior, hstages]
    exact (compileSource_levels ho).push hl

/-- The stages of a nested source are those of its levels. -/
theorem compileSource_levels : ∀ {source : Source} {origin : Origin},
    compileSource s source = .ok origin → Stacked s source.levels origin.priorStages
  | .table name aliasName, origin, h => by
    cases h
    exact ⟨[], .nil, rfl⟩
  | .query (.delete _ _ _) _, origin, h => by cases h
  | .query (.select inner) aliasName, origin, h => by
    obtain ⟨q, hq, h⟩ := bind_eq_ok.1 h
    cases h
    exact compileSelect_levels hq

end

end DocQuery
