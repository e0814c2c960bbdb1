import DocQuery.Document.Field
import DocQuery.Model.Basic

/-!
# Groups

A grouping says by which fields documents are grouped, which aggregates are computed for each group,
and how the fields of the result are named. After the grouping a grouped field is found at its
`idReference?`, and an aggregate under its output name.
-/

namespace DocQuery.Plan

open Syntax

/-- The groups of a statement. -/
structure Grouping where
  /-- The key of a group. -/
  id : Value
  /-- The aggregates of a group, by their output names. -/
  accumulators : Document
  /-- The fields of the result, by their final names. -/
  projection : Document
  /-- The paths of the fields that documents are grouped by. -/
  fields : List String

/-- Where a field of several grouped ones is found in a group. -/
def idReferenceIn (fields : List String) (path : String) : Option String :=
  if fields.contains path then
    some (if fields.length = 1 then "_id" else "_id." ++ safeKey path)
  else none

/-- The key of a group: nothing to tell groups apart, one field, or a field for each path. -/
def groupId : List String → Value
  | [] => .document []
  | [path] => .string (fieldReference path)
  | paths =>
    .document (Keyed.putAll [] (paths.map fun path => (safeKey path, .string (fieldReference path))))

namespace Grouping

/-- Where a grouped field is found in a group. -/
def idReference? (g : Grouping) (path : String) : Option String := idReferenceIn g.fields path

/-- The body of the group stage: the key, the aggregates and further ones. -/
def body (g : Grouping) (extra : Document) : Document :=
  Keyed.putAll (Keyed.putAll [("_id", g.id)] g.accumulators) extra

end Grouping

/-! ## Aggregates -/

/-- The output name of an aggregate: its alias, else the name of the function, with the field it works
on unless it counts. -/
def accumulatorName (f : Call) (aliasName : Option String) : String :=
  match aliasName with
  | some name => name
  | none =>
    let name := f.lowerName
    if name = "count" then name
    else match f.columnArgs with
      | c :: _ => name ++ "_" ++ safeKey c.path
      | [] => name

/-- The functions that are aggregates. -/
def aggregateNames : List String := ["count", "sum", "min", "max", "avg"]

/-- The expression that computes an aggregate. -/
def accumulator (f : Call) : Result Value :=
  let name := f.lowerName
  if name = "count" then .ok (.single "$sum" (.int 1))
  else if aggregateNames.contains name then
    match f.columnArgs with
    | c :: _ => .ok (.single ("$" ++ name) (.string (fieldReference c.path)))
    | [] => .error (.aggregateArgument f)
  else .error (.aggregateName f.name)

/-! ## The grouping of a statement -/

/-- The aggregates and the projection of a grouping with one more item. -/
def addItem (fields : List String) (acc : Document × Document) : SelectItem →
    Result (Document × Document)
  | .expr (.column c) aliasName =>
    match idReferenceIn fields c.path with
    | some reference =>
      .ok (acc.1, Keyed.put acc.2 (aliasName.getD c.path) (.string (fieldReference reference)))
    | none => .ok acc
  | .expr (.call name args) aliasName =>
    let f : Call := ⟨name, args⟩
    let output := accumulatorName f aliasName
    if Keyed.hasKey acc.1 output then .error (.repeatedOutput f output)
    else do
      let value ← accumulator f
      return (Keyed.put acc.1 output value, Keyed.put acc.2 output (.int 1))
  | _ => .ok acc

/-- The paths without repetitions, each at its first place. -/
def distinctPaths (paths : List String) : List String :=
  paths.foldl (fun acc path => if acc.contains path then acc else acc ++ [path]) []

/-- The paths of the fields that a statement groups by: the selected columns, then the keys. -/
def groupedFields (m : Model) : List String :=
  distinctPaths (m.selectColumns.map (·.1) ++ m.groupKeys)

/-- The grouping of a statement. -/
def Grouping.ofModel (m : Model) : Result Grouping := do
  let fields := groupedFields m
  let (accumulators, projection) ← m.items.foldlM (addItem fields) ([], [])
  return {
    id := groupId fields
    accumulators
    projection := Keyed.put projection "_id" (.int 0)
    fields }

end DocQuery.Plan
