import DocQuery.Model.Basic
import DocQuery.Plan.Stage

/-!
# Compiled queries

A compiled query holds what a statement compiles to before it is decided how the document store is
asked. `Query.stages` puts the parts into the order of a pipeline and `Query.pipeline` puts the
stages of a nested source in front.
-/

namespace DocQuery

open Plan

/-- What a statement compiles to. -/
structure Query where
  /-- The collection that is read or changed. -/
  collection : String := ""
  /-- What the statement does. -/
  command : Command := .select
  /-- The filter that is applied first. -/
  filter : Document := []
  /-- The fields of the result, or the body of the group stage if documents are grouped. -/
  projection : Document := []
  /-- The fields of the result if documents are grouped. -/
  groupProjection : Document := []
  /-- The ordering of the result. -/
  sort : Document := []
  /-- The ordering before documents are grouped. -/
  groupSort : Document := []
  /-- The filter of the groups. -/
  having : Document := []
  /-- The stages of the joins. -/
  joinStages : List Stage := []
  /-- The stages of a nested source, as they are sent. -/
  priorStages : List Document := []
  /-- How many documents are returned at most. -/
  limit : Option Int := none
  /-- How many documents are left out at the start. -/
  offset : Option Int := none
  /-- Whether documents are grouped. -/
  grouping : Bool := false
  /-- Whether the number of all documents is asked for. -/
  countAll : Bool := false
  /-- The field whose distinct values are asked for, if nothing else is. -/
  distinctField : Option String := none
  /-- Whether the statement needs a pipeline. -/
  needsPipeline : Bool := false

namespace Query

/-- A stage with a document, left out if the document is empty. -/
def stageUnlessEmpty (stage : Document → Stage) (body : Document) : List Stage :=
  if body.isEmpty then [] else [stage body]

/-- The stages of a grouping. -/
def groupStages (q : Query) : List Stage :=
  stageUnlessEmpty .sort q.groupSort ++ [.group q.projection] ++ stageUnlessEmpty .filter q.having

/-- The stages of a query in the order of a pipeline. -/
def stages (q : Query) : List Stage :=
  stageUnlessEmpty .filter q.filter ++ q.joinStages ++
    (if q.grouping then q.groupStages else []) ++
    stageUnlessEmpty .sort q.sort ++ (q.offset.map Stage.skip).toList ++
    (q.limit.map Stage.limit).toList ++
    stageUnlessEmpty .project (if q.grouping then q.groupProjection else q.projection)

/-- The pipeline of a query, with the stages of a nested source in front. -/
def pipeline (q : Query) : List Document := q.priorStages ++ q.stages.map Stage.toDocument

end Query

/-- Whether a statement needs a pipeline: there are aliases, groups, joins, stages of a nested source
or aggregates other than a plain count. -/
def Model.needsPipeline (m : Model) (priorStages : List Document) : Bool :=
  !m.aliases.isEmpty || !m.groupKeys.isEmpty || !m.joins.isEmpty || !priorStages.isEmpty ||
    m.having.isSome || (m.totalGroup && !m.countAll)

end DocQuery
