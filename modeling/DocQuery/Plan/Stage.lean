import DocQuery.Document.Field
import DocQuery.Document.Value

/-!
# Stages of a pipeline

A pipeline is a list of stages, each of which is sent as a document with a single field.
-/

namespace DocQuery.Plan

/-- A stage of a pipeline. -/
inductive Stage where
  /-- Keeps the documents that a filter matches. -/
  | filter (body : Document)
  /-- Adds the partners of a document in another collection, as an array. -/
  | lookup (body : Document)
  /-- Gives one document for each element of an array, and one for none if `preserve` is set. -/
  | unwind (path : String) (preserve : Bool)
  /-- Orders the documents. -/
  | sort (body : Document)
  /-- Groups the documents. -/
  | group (body : Document)
  /-- Leaves out a number of documents at the start. -/
  | skip (count : Int)
  /-- Keeps a number of documents. -/
  | limit (count : Int)
  /-- Chooses the fields of the documents. -/
  | project (body : Document)

namespace Stage

/-- The name of a stage. -/
def name : Stage → String
  | .filter _ => "$match"
  | .lookup _ => "$lookup"
  | .unwind _ _ => "$unwind"
  | .sort _ => "$sort"
  | .group _ => "$group"
  | .skip _ => "$skip"
  | .limit _ => "$limit"
  | .project _ => "$project"

/-- What a stage works with. -/
def body : Stage → Value
  | .filter body => .document body
  | .lookup body => .document body
  | .unwind path preserve =>
    .document [("path", .string (fieldReference path)),
      ("preserveNullAndEmptyArrays", .bool preserve)]
  | .sort body => .document body
  | .group body => .document body
  | .skip count => .int count
  | .limit count => .int count
  | .project body => .document body

/-- The stage as it is sent. -/
def toDocument (stage : Stage) : Document := [(stage.name, stage.body)]

end Stage

end DocQuery.Plan
