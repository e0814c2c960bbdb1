import DocQuery.Proofs.Filter.Typing
import DocQuery.Proofs.Plan.Compile

/-!
# What settings change in an operation

Two settings that are accepted give the same operation for a text but for the literals in its
filters and the options of a pipeline (`compile_agree`). The only steps of a compilation that look at
the settings are those that make a filter of a condition. So the proof follows the steps and compares
the filters of a query (`SameQueries`), those among the stages of a pipeline (`SameStages`) and those
of an operation (`SameOperations`).
-/

namespace DocQuery

open Syntax Plan
open DocQuery.Filter (SameFilters)

/-! ## Parts that differ in filters -/

/-- Two stages that are the same, or filter documents by conditions that differ in literals only. -/
inductive SameStages : Stage → Stage → Prop where
  | refl (stage : Stage) : SameStages stage stage
  | filter {d d' : Document} (h : SameFilters d d') : SameStages (.filter d) (.filter d')

/-- Two stages as they are sent that are the same but for literals in a filter. -/
inductive SameSentStages : Document → Document → Prop where
  | sent {stage stage' : Stage} (h : SameStages stage stage') :
    SameSentStages stage.toDocument stage'.toDocument

/-- Two origins that differ in the filters of a nested source. -/
structure SameOrigins (origin origin' : Origin) : Prop where
  collection : origin.collection = origin'.collection
  priorStages : List.Forall₂ SameSentStages origin.priorStages origin'.priorStages

/-- Two queries that differ in the literals of their filters only. -/
inductive SameQueries : Query → Query → Prop where
  | mk (q : Query) {filter filter' having having' : Document} {joinStages joinStages' : List Stage}
    {priorStages priorStages' : List Document} (hfilter : SameFilters filter filter')
    (hhaving : SameFilters having having') (hjoin : List.Forall₂ SameStages joinStages joinStages')
    (hprior : List.Forall₂ SameSentStages priorStages priorStages') :
    SameQueries { q with filter, having, joinStages, priorStages }
      { q with
        filter := filter', having := having', joinStages := joinStages'
        priorStages := priorStages' }

/-- Two operations that differ in the literals of their filters and in the options of a pipeline. -/
inductive SameOperations : Operation → Operation → Prop where
  | find (request : FindRequest) {filter filter' : Document} (h : SameFilters filter filter') :
    SameOperations (.find { request with filter }) (.find { request with filter := filter' })
  | count (collection : String) {filter filter' : Document} (h : SameFilters filter filter') :
    SameOperations (.count collection filter) (.count collection filter')
  | distinct (collection field : String) {filter filter' : Document}
    (h : SameFilters filter filter') :
    SameOperations (.distinct collection field filter) (.distinct collection field filter')
  | aggregate (collection : String) {pipeline pipeline' : List Document} (options options' : Document)
    (h : List.Forall₂ SameSentStages pipeline pipeline') :
    SameOperations (.aggregate collection pipeline options)
      (.aggregate collection pipeline' options')
  | delete (collection : String) {filter filter' : Document} (h : SameFilters filter filter') :
    SameOperations (.delete collection filter) (.delete collection filter')

/-! ## Pipelines -/

theorem forall₂_sameStages (stages : List Stage) : List.Forall₂ SameStages stages stages :=
  List.forall₂_same.2 fun stage _ => .refl stage

theorem stageUnlessEmpty_same {d d' : Document} (h : SameFilters d d') :
    List.Forall₂ SameStages (Query.stageUnlessEmpty .filter d)
      (Query.stageUnlessEmpty .filter d') := by
  unfold Query.stageUnlessEmpty
  rw [h.isEmpty]
  split
  · exact .nil
  · exact .cons (.filter h) .nil

theorem forall₂_sent {stages stages' : List Stage} (h : List.Forall₂ SameStages stages stages') :
    List.Forall₂ SameSentStages (stages.map Stage.toDocument) (stages'.map Stage.toDocument) := by
  rw [List.forall₂_map_left_iff, List.forall₂_map_right_iff]
  exact h.imp fun _ _ => .sent

namespace SameQueries

variable {q q' : Query}

theorem stages (h : SameQueries q q') : List.Forall₂ SameStages q.stages q'.stages := by
  obtain ⟨q, hfilter, hhaving, hjoin, -⟩ := h
  have hbefore := List.rel_append (stageUnlessEmpty_same hfilter) hjoin
  have hgroups := List.rel_append
    (forall₂_sameStages (Query.stageUnlessEmpty .sort q.groupSort ++ [.group q.projection]))
    (stageUnlessEmpty_same hhaving)
  unfold Query.stages
  refine List.rel_append (List.rel_append (List.rel_append (List.rel_append (List.rel_append
    hbefore ?_) (forall₂_sameStages _)) (forall₂_sameStages _)) (forall₂_sameStages _))
    (forall₂_sameStages _)
  dsimp only
  split
  · exact hgroups
  · exact .nil

theorem pipeline (h : SameQueries q q') :
    List.Forall₂ SameSentStages q.pipeline q'.pipeline := by
  have hstages := forall₂_sent h.stages
  obtain ⟨q, -, -, -, hprior⟩ := h
  exact List.rel_append hprior hstages

theorem collection (h : SameQueries q q') : q.collection = q'.collection := by
  cases h
  rfl

/-- The operation is chosen without a look at the filters. -/
theorem operation (h : SameQueries q q') (s t : Settings) :
    SameOperations (Operation.ofQuery s q) (Operation.ofQuery t q') := by
  have hpipeline := h.pipeline
  obtain ⟨q, hfilter, -, -, -⟩ := h
  unfold Operation.ofQuery
  dsimp only
  split
  · exact .delete _ hfilter
  · exact .distinct _ _ hfilter
  · split
    · exact .aggregate _ _ _ hpipeline
    · split
      · exact .count _ hfilter
      · exact .find ⟨q.collection, [], q.projection, q.sort, q.offset, q.limit⟩ hfilter

end SameQueries

/-! ## Steps of a compilation -/

variable (s t : Settings)

theorem filterOf_agree (e : Option Expr) : Agree SameFilters (filterOf s e) (filterOf t e) := by
  cases e with
  | none => exact .ok (.refl _)
  | some e => exact Filter.ofExpr_agree s t e

theorem joinStages_agree (joins : List Join) (residual : Option Expr) :
    Agree (List.Forall₂ SameStages) (joinStages s joins residual)
      (joinStages t joins residual) := by
  unfold joinStages
  refine Agree.bind_same _ fun pairs _ => ?_
  cases residual with
  | none => exact .ok (forall₂_sameStages _)
  | some e =>
    refine (Filter.ofExpr_agree s t e).bind fun d d' _ _ h => .ok ?_
    exact List.rel_append (forall₂_sameStages _) (.cons (.filter h) .nil)

theorem addGroups_agree (m : Model) {q q' : Query} (h : SameQueries q q') :
    Agree SameQueries (addGroups s m q) (addGroups t m q') := by
  unfold addGroups
  refine Agree.bind_same _ fun g _ => Agree.bind_same _ fun order _ => ?_
  obtain ⟨q, hfilter, -, hjoin, hprior⟩ := h
  let grouped : Query := { q with
    projection := g.body order.firsts
    groupProjection := g.projection
    sort := order.sort
    groupSort := order.beforeGroups }
  dsimp only
  split
  · refine Agree.bind (Agree.bind_same _ fun resolved _ => Filter.ofExpr_agree s t resolved) ?_
    exact fun _ _ _ _ hhaving => .ok (.mk grouped hfilter hhaving hjoin hprior)
  · exact .ok (.mk grouped hfilter (.refl _) hjoin hprior)

theorem addPlain_agree (m : Model) {q q' : Query} (h : SameQueries q q') :
    Agree SameQueries (addPlain m q) (addPlain m q') := by
  unfold addPlain
  split
  · exact .error _
  · refine Agree.bind_same _ fun order _ => .ok ?_
    obtain ⟨q, hfilter, hhaving, hjoin, hprior⟩ := h
    exact .mk { q with sort := order.sort, projection := plainProjection m } hfilter hhaving hjoin
      hprior

/-- Of the stages of a nested source it only matters whether there are any. -/
theorem baseQuery_same (m : Model) {origin origin' : Origin} (ho : SameOrigins origin origin')
    {filter filter' : Document} (hf : SameFilters filter filter') {stages stages' : List Stage}
    (hs : List.Forall₂ SameStages stages stages') :
    SameQueries (baseQuery m origin filter stages) (baseQuery m origin' filter' stages') := by
  obtain ⟨collection, prior⟩ := origin
  obtain ⟨_, prior'⟩ := origin'
  obtain ⟨rfl, hp⟩ := ho
  have hempty : prior.isEmpty = prior'.isEmpty := by
    cases hp <;> rfl
  have hdistinct : distinctField m prior = distinctField m prior' := by
    unfold distinctField
    rw [hempty]
  have hneeds : m.needsPipeline prior = m.needsPipeline prior' := by
    unfold Model.needsPipeline
    rw [hempty]
  unfold baseQuery
  dsimp only
  rw [hdistinct, hneeds]
  exact .mk (baseQuery m ⟨collection, prior'⟩ [] []) hf (.refl _) hs hp

theorem compileModel_agree (m : Model) {origin origin' : Origin} (h : SameOrigins origin origin') :
    Agree SameQueries (compileModel s m origin) (compileModel t m origin') := by
  unfold compileModel
  refine Agree.bind_same _ fun joined _ => (filterOf_agree s t _).bind fun d d' _ _ hd =>
    (joinStages_agree s t _ _).bind fun stages stages' _ _ hstages => ?_
  have hbase := baseQuery_same m h hd hstages
  dsimp only
  split
  · exact addGroups_agree s t m hbase
  · exact addPlain_agree m hbase

mutual

theorem compileSelect_agree : ∀ query : Select,
    Agree SameQueries (compileSelect s query) (compileSelect t query)
  | ⟨_, _, source, _, _, _, _, _, _, _⟩ => by
    rw [compileSelect, compileSelect]
    refine Agree.bind_same _ fun m _ => (compileSource_agree source).bind fun _ _ _ _ h => ?_
    exact compileModel_agree s t m h

theorem compileSource_agree : ∀ source : Source,
    Agree SameOrigins (compileSource s source) (compileSource t source)
  | .table name _ => .ok ⟨rfl, .nil⟩
  | .query (.delete _ _ _) _ => .error _
  | .query (.select query) _ => by
    rw [compileSource, compileSource]
    exact (compileSelect_agree query).bind fun _ _ _ _ h => .ok ⟨h.collection, h.pipeline⟩

end

theorem compileStatement_agree (statement : Statement) :
    Agree SameQueries (compileStatement s statement) (compileStatement t statement) := by
  cases statement with
  | select query =>
    rw [compileStatement, compileStatement]
    exact compileSelect_agree s t query
  | delete table aliasName condition =>
    rw [compileStatement, compileStatement]
    exact compileModel_agree s t _ ⟨rfl, .nil⟩

theorem checkSettings_ok {s : Settings} (h : s.refusal? = none) : checkSettings s = .ok () := by
  rw [checkSettings, h]

/-- **Under two settings that are accepted, a text fails with the same error or gives the same
operation but for the literals in filters and for the options of a pipeline.** -/
theorem compile_agree {s t : Settings} (hs : s.refusal? = none) (ht : t.refusal? = none)
    (text : String) :
    Agree (fun c c' => c.statement = c'.statement ∧ SameOperations c.operation c'.operation)
      (compile s text) (compile t text) := by
  unfold compile
  rw [checkSettings_ok hs, checkSettings_ok ht]
  refine Agree.bind_same (.ok ()) fun _ _ => Agree.bind_same _ fun statement _ => ?_
  exact (compileStatement_agree s t statement).bind fun _ _ _ _ h => .ok ⟨rfl, h.operation s t⟩

/-- Whether an operation runs a pipeline that first looks for a text in a field. -/
def Operation.startsWithText : Operation → Bool
  | .aggregate _ ([(_, .document [(_, .string _)])] :: _) _ => true
  | _ => false

/-- A declared type changes a literal in the filter of a nested source. -/
theorem compile_agree_nested : ∃ c c',
    compile {} "SELECT a FROM (SELECT a FROM t WHERE b = '7') AS u ORDER BY a" = .ok c ∧
    compile (.ofTypes [("b", .number)] .unknown)
      "SELECT a FROM (SELECT a FROM t WHERE b = '7') AS u ORDER BY a" = .ok c' ∧
    SameOperations c.operation c'.operation ∧ c.operation ≠ c'.operation := by
  obtain ⟨c, -, hc, -, htext⟩ := exists_compile_select {}
    "SELECT a FROM (SELECT a FROM t WHERE b = '7') AS u ORDER BY a"
    (fun _ c => c.operation.startsWithText) true (by decide +kernel)
  obtain ⟨c', -, hc', -, htext'⟩ := exists_compile_select (.ofTypes [("b", .number)] .unknown)
    "SELECT a FROM (SELECT a FROM t WHERE b = '7') AS u ORDER BY a"
    (fun _ c => c.operation.startsWithText) false (by decide +kernel)
  have hsame := compile_agree (s := {}) (t := .ofTypes [("b", .number)] .unknown)
    (by decide +kernel) (by decide +kernel)
    "SELECT a FROM (SELECT a FROM t WHERE b = '7') AS u ORDER BY a"
  rw [hc, hc'] at hsame
  cases hsame with
  | ok h =>
    refine ⟨c, c', hc, hc', h.2, fun heq => ?_⟩
    rw [heq, htext'] at htext
    cases htext

end DocQuery
