import DocQuery.Number.Binary64

/-!
# Syntax trees

The trees of the SQL statements that are read: literals, columns, expressions and the clauses of a
statement. An expression may hold a statement as a subquery, and a statement may read from another
one, so the types of expressions, clauses and statements are mutually recursive.
-/

namespace DocQuery.Syntax

/-- A literal. -/
inductive Literal where
  /-- A quoted text. -/
  | string (s : String)
  /-- A whole number that fits in a signed word of 64 bits. -/
  | int (n : Int)
  /-- Any other number. -/
  | float (x : Number.Binary64)
  /-- One of the words `TRUE` and `FALSE`. -/
  | bool (b : Bool)
  /-- The word `NULL`. -/
  | null
deriving DecidableEq

/-- A column: a name, qualified by the table or alias in front of the first dot if there is one. -/
structure Column where
  /-- What qualifies the name. -/
  qualifier : Option String
  /-- The name, which may hold further dots. -/
  name : String
deriving DecidableEq

/-- A comparison. -/
inductive Comparison where
  /-- The sign `=`. -/
  | equal
  /-- The sign `<>`. -/
  | notEqual
  /-- The sign `<`. -/
  | less
  /-- The sign `<=`. -/
  | lessEqual
  /-- The sign `>`. -/
  | greater
  /-- The sign `>=`. -/
  | greaterEqual
deriving DecidableEq

/-- A connective of two conditions. -/
inductive Connective where
  /-- The word `AND`. -/
  | and
  /-- The word `OR`. -/
  | or
deriving DecidableEq

/-- A kind of join. -/
inductive JoinKind where
  /-- Rows with a partner. -/
  | inner
  /-- All rows of the left side. -/
  | left
  /-- All rows of the right side. -/
  | right
  /-- All rows of both sides. -/
  | full
deriving DecidableEq

mutual

/-- An expression. -/
inductive Expr where
  /-- A literal. -/
  | literal (value : Literal)
  /-- A column. -/
  | column (c : Column)
  /-- A function call. -/
  | call (name : String) (args : List Expr)
  /-- The sign `*`. -/
  | wildcard
  /-- A comparison of two operands. -/
  | compare (left : Expr) (op : Comparison) (right : Expr)
  /-- A match of an operand with a `LIKE` pattern. -/
  | like (operand pattern : Expr) (negated : Bool)
  /-- The test whether an operand is `NULL`. -/
  | isNull (operand : Expr) (negated : Bool)
  /-- The test whether an operand is in a list. -/
  | inList (operand : Expr) (list : List Expr) (negated : Bool)
  /-- Two conditions under a connective. -/
  | logic (op : Connective) (left right : Expr)
  /-- An expression in parentheses, with `NOT` in front of them if it is negated. -/
  | parens (inner : Expr) (negated : Bool)
  /-- The negation of an expression that is not in parentheses. -/
  | not (inner : Expr)
  /-- A statement in parentheses. -/
  | subquery (statement : Statement)

/-- An item of a select list. -/
inductive SelectItem where
  /-- All fields. -/
  | wildcard
  /-- An expression and its alias. -/
  | expr (e : Expr) (aliasName : Option String)

/-- What a statement reads from. -/
inductive Source where
  /-- A table and its alias. -/
  | table (name : String) (aliasName : Option String)
  /-- A statement in parentheses and its alias. -/
  | query (statement : Statement) (aliasName : Option String)

/-- A join with a further source. -/
structure Join where
  /-- The kind of join. -/
  kind : JoinKind
  /-- What is joined. -/
  source : Source
  /-- The condition that partners meet. -/
  condition : Expr

/-- A key of an ordering. -/
structure OrderKey where
  /-- What is compared. -/
  expr : Expr
  /-- Whether smaller values come first. -/
  ascending : Bool

/-- The clauses of a `SELECT` statement. -/
structure Select where
  /-- Whether repeated rows are dropped. -/
  distinct : Bool
  /-- The select list. -/
  items : List SelectItem
  /-- What is read from. -/
  source : Source
  /-- The joins, in order. -/
  joins : List Join
  /-- The condition on rows. -/
  condition : Option Expr
  /-- The columns of `GROUP BY`. -/
  groupBy : List Column
  /-- The condition on groups. -/
  having : Option Expr
  /-- The keys of `ORDER BY`. -/
  orderBy : List OrderKey
  /-- How many rows are returned at most. -/
  limit : Option Nat
  /-- How many rows are left out at the start. -/
  offset : Option Nat

/-- A statement. -/
inductive Statement where
  /-- A `SELECT` statement. -/
  | select (query : Select)
  /-- A `DELETE` statement: the table, its alias and the condition on rows. -/
  | delete (table : String) (aliasName : Option String) (condition : Option Expr)

end

/-- A function call. -/
structure Call where
  /-- The name of the function as written. -/
  name : String
  /-- The arguments. -/
  args : List Expr

/-- The call as an expression. -/
def Call.toExpr (f : Call) : Expr := .call f.name f.args

/-! ## Parts of trees -/

namespace Column

/-- The column with the given names between dots. The first of several names qualifies. -/
def ofSegments : List String → Column
  | [] => ⟨none, ""⟩
  | [name] => ⟨none, name⟩
  | qualifier :: names => ⟨some qualifier, ".".intercalate names⟩

/-- The parts of a text between dots. -/
def splitDots : List Char → List (List Char)
  | [] => [[]]
  | c :: cs =>
    if c = '.' then [] :: splitDots cs
    else match splitDots cs with
      | [] => [[c]]
      | part :: parts => (c :: part) :: parts

/-- The column that a dotted path names. -/
def ofPath (path : String) : Column := ofSegments ((splitDots path.toList).map String.ofList)

/-- The dotted path of a column. -/
def path (c : Column) : String :=
  match c.qualifier with
  | none => c.name
  | some q => q ++ "." ++ c.name

end Column

namespace Comparison

/-- The comparison with its two sides exchanged. -/
def swap : Comparison → Comparison
  | .less => .greater
  | .lessEqual => .greaterEqual
  | .greater => .less
  | .greaterEqual => .lessEqual
  | op => op

theorem swap_swap (op : Comparison) : op.swap.swap = op := by cases op <;> rfl

end Comparison

namespace Expr

/-- The column, if the expression is one. -/
def column? : Expr → Option Column
  | .column c => some c
  | _ => none

/-- The call, if the expression is one. -/
def call? : Expr → Option Call
  | .call name args => some ⟨name, args⟩
  | _ => none

/-- The connective, if the expression has one at its root. -/
def connective? : Expr → Option Connective
  | .logic op _ _ => some op
  | _ => none

end Expr

namespace SelectItem

/-- The expression of an item, if it is not the wildcard. -/
def expr? : SelectItem → Option Expr
  | .wildcard => none
  | .expr e _ => some e

end SelectItem

end DocQuery.Syntax
