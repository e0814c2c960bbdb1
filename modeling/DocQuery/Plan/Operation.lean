import DocQuery.Plan.Query

/-!
# Operations

An operation is one request to the document store. `Operation.ofQuery` chooses the simplest one that
answers a compiled query.
-/

namespace DocQuery

/-- A plain read. -/
structure FindRequest where
  /-- The collection that is read. -/
  collection : String
  /-- Which documents are returned. -/
  filter : Document
  /-- Which fields are returned. -/
  projection : Document
  /-- The ordering. -/
  sort : Document
  /-- How many documents are left out at the start. -/
  skip : Option Int
  /-- How many documents are returned at most. -/
  limit : Option Int

/-- A request to the document store. -/
inductive Operation where
  /-- Reads documents. -/
  | find (request : FindRequest)
  /-- Counts documents. -/
  | count (collection : String) (filter : Document)
  /-- Reads the distinct values of a field. -/
  | distinct (collection field : String) (filter : Document)
  /-- Runs a pipeline. -/
  | aggregate (collection : String) (pipeline : List Document) (options : Document)
  /-- Removes documents. -/
  | delete (collection : String) (filter : Document)

namespace Operation

/-- The name of an operation. -/
def name : Operation → String
  | .find _ => "find"
  | .count _ _ => "count"
  | .distinct _ _ _ => "distinct"
  | .aggregate _ _ _ => "aggregate"
  | .delete _ _ => "delete"

/-- The collection that an operation works on. -/
def collection : Operation → String
  | .find request => request.collection
  | .count collection _ => collection
  | .distinct collection _ _ => collection
  | .aggregate collection _ _ => collection
  | .delete collection _ => collection

/-- A field with an integer, left out if there is none. -/
def countField (key : String) (n : Option Int) : Document :=
  (n.map fun n => (key, Value.int n)).toList

/-- What is asked for beside the name of an operation. -/
def details : Operation → Document
  | .find r =>
    [("collection", .string r.collection), ("filter", .document r.filter),
      ("projection", .document r.projection), ("sort", .document r.sort)] ++
      countField "skip" r.skip ++ countField "limit" r.limit
  | .count collection filter =>
    [("collection", .string collection), ("filter", .document filter)]
  | .distinct collection field filter =>
    [("collection", .string collection), ("field", .string field), ("filter", .document filter)]
  | .aggregate collection pipeline options =>
    [("collection", .string collection), ("pipeline", .array (pipeline.map Value.document)),
      ("options", .document options)]
  | .delete collection filter =>
    [("collection", .string collection), ("filter", .document filter)]

/-- The operation as a document. -/
def toDocument (op : Operation) : Document := ("operation", .string op.name) :: op.details

/-- The operation that answers a compiled query. -/
def ofQuery (s : Settings) (q : Query) : Operation :=
  match q.command, q.distinctField with
  | .delete, _ => .delete q.collection q.filter
  | .select, some field => .distinct q.collection field q.filter
  | .select, none =>
    if q.needsPipeline then .aggregate q.collection q.pipeline s.pipelineOptions
    else if q.countAll then .count q.collection q.filter
    else .find {
      collection := q.collection
      filter := q.filter
      projection := q.projection
      sort := q.sort
      skip := q.offset
      limit := q.limit }

end Operation

end DocQuery
