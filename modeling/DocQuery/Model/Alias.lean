import DocQuery.Keyed
import DocQuery.Syntax.Render
import DocQuery.Syntax.Walk
import DocQuery.Text.Casing

/-!
# Aliases

The base alias of a statement is the name of what it reads from. Columns qualified by it are those
of the base table, and `stripExpr` leaves their bare names. An `AliasTable` holds what the aliases of
the select list stand for.
-/

namespace DocQuery.Model

open Syntax

/-! ## The base alias -/

/-- The column without the base alias. -/
def stripColumn (base : Option String) (c : Column) : Column :=
  match c.qualifier, base with
  | some q, some b => if q = b then ⟨none, c.name⟩ else c
  | _, _ => c

/-- The expression with the base alias removed from its columns. -/
def stripExpr (base : Option String) (e : Expr) : Expr := e.mapColumns (stripColumn base)

/-- The key of a group without the base alias and the dot after it. -/
def stripKey (base : Option String) (key : String) : String :=
  match base with
  | some b =>
    let lead := b.toList ++ ['.']
    if lead.isPrefixOf key.toList then String.ofList (key.toList.drop lead.length) else key
  | none => key

/-- The select item with the base alias removed. -/
def stripItem (base : Option String) : SelectItem → SelectItem
  | .wildcard => .wildcard
  | .expr e name => .expr (stripExpr base e) name

/-- The key of an ordering with the base alias removed. -/
def stripOrder (base : Option String) (key : OrderKey) : OrderKey :=
  ⟨stripExpr base key.expr, key.ascending⟩

/-- The join with the base alias removed from its condition. -/
def stripJoin (base : Option String) (join : Join) : Join :=
  ⟨join.kind, join.source, stripExpr base join.condition⟩

/-! ## Aliases of the select list -/

/-- What an alias stands for. -/
inductive AliasTarget where
  /-- A field, by its path. -/
  | field (path : String)
  /-- An aggregate, by its text. -/
  | aggregate (signature : String)
deriving DecidableEq

/-- The aliases of a select list and what they stand for. -/
abbrev AliasTable := Keyed AliasTarget

namespace AliasTable

/-- What the alias of an item stands for, if it has one and is a column or a call. -/
def entry? : SelectItem → Option (String × AliasTarget)
  | .expr (.column c) (some name) => some (name, .field c.path)
  | .expr (.call f args) (some name) => some (name, .aggregate (Call.render ⟨f, args⟩))
  | _ => none

/-- The table of a select list. A repeated alias stands for its last item. -/
def ofItems (items : List SelectItem) : AliasTable :=
  Keyed.putAll [] (items.filterMap entry?)

/-- The field that a name stands for: the one behind the alias, else the name itself. -/
def fieldOf (table : AliasTable) (name : String) : String :=
  match Keyed.get? table name with
  | some (.field path) => path
  | _ => name

/-- Whether a name is the alias of an aggregate. -/
def isAggregate (table : AliasTable) (name : String) : Bool :=
  match Keyed.get? table name with
  | some (.aggregate _) => true
  | _ => false

/-- The first alias of the aggregate with a given text, in any case. -/
def aliasOf? (table : AliasTable) (signature : String) : Option String :=
  table.findSome? fun (name, target) =>
    match target with
    | .aggregate s => if Text.sameIgnoringCase s signature then some name else none
    | .field _ => none

end AliasTable

end DocQuery.Model
