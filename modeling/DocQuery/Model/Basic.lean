import DocQuery.Error
import DocQuery.Model.Alias

/-!
# Models of statements

A model is the view of one statement that is compiled: the base alias is stripped, the keys of its
groups are resolved, and what the select list amounts to is decided. Select lists that cannot be
compiled are refused here.
-/

namespace DocQuery

open Syntax

/-- What a statement does. -/
inductive Command where
  /-- Reads documents. -/
  | select
  /-- Removes documents. -/
  | delete
deriving DecidableEq

/-- The view of a statement that is compiled. -/
structure Model where
  /-- What the statement does. -/
  command : Command
  /-- The select list. -/
  items : List SelectItem
  /-- What is read from. -/
  source : Source
  /-- The name of what is read from. -/
  baseAlias : Option String
  /-- The joins. -/
  joins : List Join
  /-- The condition on rows. -/
  condition : Option Expr
  /-- The condition on groups. -/
  having : Option Expr
  /-- The paths of the fields that rows are grouped by. -/
  groupKeys : List String
  /-- Whether there is a `GROUP BY`. -/
  explicitGroups : Bool
  /-- The keys of the ordering. -/
  orderBy : List OrderKey
  /-- How many rows are returned at most. -/
  limit : Option Nat
  /-- How many rows are left out at the start. -/
  offset : Option Nat
  /-- Whether repeated rows are dropped. -/
  distinct : Bool
  /-- Whether the number of all rows is the only item. -/
  countAll : Bool
  /-- Whether all items are aggregates over all rows. -/
  totalGroup : Bool
  /-- The aliases of the select list. -/
  aliases : Model.AliasTable

/-! ## Calls -/

namespace Syntax.Call

/-- The name of the function in lower case. -/
def lowerName (f : Call) : String := Text.lower f.name

/-- The columns among the arguments. -/
def columnArgs (f : Call) : List Column := f.args.filterMap Expr.column?

/-- Whether a call counts all rows. -/
def isCountAll (f : Call) : Bool :=
  f.lowerName = "count" && match f.args with
    | [] => true
    | [.wildcard] => true
    | _ => false

end Syntax.Call

namespace Model

/-- Whether an item is the wildcard. -/
def isWildcardItem : SelectItem → Bool
  | .wildcard => true
  | .expr _ _ => false

/-- Whether an item is a call. -/
def isCallItem (item : SelectItem) : Bool := (item.expr?.bind Expr.call?).isSome

/-- The path of an item that is a column, and its alias. -/
def columnItem? : SelectItem → Option (String × Option String)
  | .expr (.column c) name => some (c.path, name)
  | _ => none

/-- Refuses an item that is neither a column nor a call. -/
def checkItem : SelectItem → Result Unit
  | .wildcard => .ok ()
  | .expr (.column _) _ => .ok ()
  | .expr (.call _ _) _ => .ok ()
  | .expr (.subquery s) _ => .error (.selectedSubquery (.subquery s))
  | .expr e _ => .error (.illegalItem e)

/-- Refuses a select list in which the wildcard has company or an item is neither a column nor a
call. -/
def checkItems (distinct explicitGroups : Bool) (items : List SelectItem) : Result Unit := do
  if items.any isWildcardItem then
    if 1 < items.length then throw .wildcardBesideItems
    if distinct then throw .wildcardDistinct
    if explicitGroups then throw .wildcardGrouped
  items.forM checkItem

/-- The name of what is read from: the alias, else the name of the table. -/
def baseAliasOf : Source → Option String
  | .table name aliasName => some (aliasName.getD name)
  | .query _ aliasName => aliasName

/-- The number of items that are calls. -/
def callCount (items : List SelectItem) : Nat := (items.filter isCallItem).length

/-- Whether the only item counts all rows. -/
def isCountAll : List SelectItem → Bool
  | [.expr (.call name args) _] => Call.isCountAll ⟨name, args⟩
  | _ => false

/-- The model of a `SELECT` statement. Without `GROUP BY`, a distinct statement is grouped by the
columns it selects. -/
def ofSelect (q : Select) : Result Model := do
  let base := baseAliasOf q.source
  let items := q.items.map (stripItem base)
  let explicit := !q.groupBy.isEmpty
  checkItems q.distinct explicit items
  let aliases := AliasTable.ofItems items
  let groupKeys :=
    if q.distinct && !explicit then (items.filterMap columnItem?).map (·.1)
    else q.groupBy.map fun c => aliases.fieldOf (stripKey base c.path)
  let calls := callCount items
  let total := !explicit && 0 < calls && calls = items.length
  if !explicit && !q.distinct && !total && 0 < calls then throw .ungroupedItems
  return {
    command := .select
    items
    source := q.source
    baseAlias := base
    joins := q.joins.map (stripJoin base)
    condition := q.condition.map (stripExpr base)
    having := q.having.map (stripExpr base)
    groupKeys
    explicitGroups := explicit
    orderBy := q.orderBy.map (stripOrder base)
    limit := q.limit
    offset := q.offset
    distinct := q.distinct
    countAll := isCountAll items
    totalGroup := total
    aliases }

/-- The model of a `DELETE` statement. -/
def ofDelete (table : String) (aliasName : Option String) (condition : Option Expr) : Model where
  command := .delete
  items := []
  source := .table table aliasName
  baseAlias := some (aliasName.getD table)
  joins := []
  condition := condition.map (stripExpr (some (aliasName.getD table)))
  having := none
  groupKeys := []
  explicitGroups := false
  orderBy := []
  limit := none
  offset := none
  distinct := false
  countAll := false
  totalGroup := false
  aliases := []

/-- The model of a statement. -/
def ofStatement : Statement → Result Model
  | .select q => ofSelect q
  | .delete table aliasName condition => .ok (ofDelete table aliasName condition)

/-- Whether the wildcard is the only item. -/
def isWildcard (m : Model) : Bool :=
  match m.items with
  | [.wildcard] => true
  | _ => false

/-- The paths of the selected columns and their aliases, in order. -/
def selectColumns (m : Model) : List (String × Option String) := m.items.filterMap columnItem?

/-- Whether rows are grouped. -/
def hasGrouping (m : Model) : Bool := !m.groupKeys.isEmpty || m.totalGroup

end Model

end DocQuery
