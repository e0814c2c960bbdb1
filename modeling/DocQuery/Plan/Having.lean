import DocQuery.Filter.Compile
import DocQuery.Plan.Order

/-!
# Conditions on groups

A condition on groups speaks of aggregates and of grouped columns. `resolveHaving` replaces them by
the fields of a group that hold them and refuses aggregates that are not selected and columns that
are not grouped, and `compileHaving` makes a filter of the result.
-/

namespace DocQuery.Plan

open Syntax

/-- The aggregate that an expression is. -/
def aggregate? (e : Expr) : Option Call :=
  e.call?.filter fun f => aggregateNames.contains f.lowerName

/-- Whether a column names an aggregate of a group. -/
def namesAggregate (m : Model) (g : Grouping) (path : String) : Bool :=
  m.aliases.isAggregate path || Keyed.hasKey g.accumulators path

/-- Where a grouped column is found in a group. -/
def groupedColumn? (m : Model) (g : Grouping) (path : String) : Option String :=
  g.idReference? (m.aliases.fieldOf path)

/-- What stands for a part of a condition in a group: the output of an aggregate, the place of a
grouped column. Columns that name an aggregate, or nothing in the group, stand as they are. -/
def groupField? (m : Model) (g : Grouping) (e : Expr) : Option Expr :=
  match aggregate? e with
  | some f => some (.column (Column.ofPath (outputName m f)))
  | none =>
    match e.column? with
    | some c =>
      if namesAggregate m g c.path then none
      else (groupedColumn? m g c.path).map fun reference => .column (Column.ofPath reference)
    | none => none

/-- The aggregates and the columns of a condition, without those within an aggregate. -/
def groupParts (e : Expr) : List Expr :=
  e.outermost fun part => (aggregate? part).isSome || part.column?.isSome

/-- The aggregates of a condition that are not selected. -/
def missingAggregates (m : Model) (g : Grouping) (e : Expr) : List Call :=
  ((groupParts e).filterMap aggregate?).filter fun f =>
    !Keyed.hasKey g.accumulators (outputName m f)

/-- The paths of the columns of a condition that are neither grouped nor aggregates. -/
def unknownColumns (m : Model) (g : Grouping) (e : Expr) : List String :=
  (((groupParts e).filterMap Expr.column?).map Column.path).filter fun path =>
    !namesAggregate m g path && (groupedColumn? m g path).isNone

/-- The condition with its aggregates and columns replaced by the fields of a group. -/
def resolveHaving (m : Model) (g : Grouping) (e : Expr) : Result Expr :=
  match missingAggregates m g e, unknownColumns m g e with
  | f :: _, _ => .error (.unselectedHaving f)
  | [], path :: _ => .error (.ungroupedHaving path)
  | [], [] => .ok (e.transform (groupField? m g))

/-- The filter of a condition on groups. -/
def compileHaving (s : Settings) (m : Model) (g : Grouping) (e : Expr) : Result Document := do
  let resolved ← resolveHaving m g e
  Filter.ofExpr s resolved

end DocQuery.Plan
