import DocQuery.Syntax.Tree

/-!
# Walks through expressions

What an expression holds and what becomes of it when parts are replaced. Subqueries are not entered:
their columns belong to another statement.
-/

namespace DocQuery.Syntax

namespace Expr

mutual

/-- The columns of an expression, left to right. -/
def columns : Expr → List Column
  | .column c => [c]
  | .literal _ | .wildcard | .subquery _ => []
  | .call _ args => columnsOfList args
  | .compare left _ right => left.columns ++ right.columns
  | .like operand pattern _ => operand.columns ++ pattern.columns
  | .isNull operand _ => operand.columns
  | .inList operand list _ => operand.columns ++ columnsOfList list
  | .logic _ left right => left.columns ++ right.columns
  | .parens inner _ => inner.columns
  | .not inner => inner.columns

/-- The columns of several expressions. -/
def columnsOfList : List Expr → List Column
  | [] => []
  | e :: es => e.columns ++ columnsOfList es

end

mutual

/-- Whether there is an `OR` in an expression. -/
def containsOr : Expr → Bool
  | .literal _ | .column _ | .wildcard | .subquery _ => false
  | .call _ args => anyContainsOr args
  | .compare left _ right => left.containsOr || right.containsOr
  | .like operand pattern _ => operand.containsOr || pattern.containsOr
  | .isNull operand _ => operand.containsOr
  | .inList operand list _ => operand.containsOr || anyContainsOr list
  | .logic op left right => op == .or || left.containsOr || right.containsOr
  | .parens inner _ => inner.containsOr
  | .not inner => inner.containsOr

/-- Whether there is an `OR` in one of several expressions. -/
def anyContainsOr : List Expr → Bool
  | [] => false
  | e :: es => e.containsOr || anyContainsOr es

end

mutual

/-- The expression with parts replaced from the root down. A part for which `replace` has something
to put in its place is not entered. -/
def transform (replace : Expr → Option Expr) (e : Expr) : Expr :=
  match replace e with
  | some e' => e'
  | none =>
    match e with
    | .literal value => .literal value
    | .column c => .column c
    | .wildcard => .wildcard
    | .subquery statement => .subquery statement
    | .call name args => .call name (transformList replace args)
    | .compare left op right => .compare (left.transform replace) op (right.transform replace)
    | .like operand pattern negated =>
      .like (operand.transform replace) (pattern.transform replace) negated
    | .isNull operand negated => .isNull (operand.transform replace) negated
    | .inList operand list negated =>
      .inList (operand.transform replace) (transformList replace list) negated
    | .logic op left right => .logic op (left.transform replace) (right.transform replace)
    | .parens inner negated => .parens (inner.transform replace) negated
    | .not inner => .not (inner.transform replace)

/-- Several expressions with parts replaced. -/
def transformList (replace : Expr → Option Expr) : List Expr → List Expr
  | [] => []
  | e :: es => e.transform replace :: transformList replace es

end

/-- The expression with every column replaced. -/
def mapColumns (f : Column → Column) (e : Expr) : Expr :=
  e.transform fun part => part.column?.map fun c => .column (f c)

mutual

/-- The parts of an expression that are wanted and not within another wanted part, left to right. -/
def outermost (wanted : Expr → Bool) (e : Expr) : List Expr :=
  if wanted e then [e]
  else match e with
    | .literal _ | .column _ | .wildcard | .subquery _ => []
    | .call _ args => outermostOfList wanted args
    | .compare left _ right => left.outermost wanted ++ right.outermost wanted
    | .like operand pattern _ => operand.outermost wanted ++ pattern.outermost wanted
    | .isNull operand _ => operand.outermost wanted
    | .inList operand list _ => operand.outermost wanted ++ outermostOfList wanted list
    | .logic _ left right => left.outermost wanted ++ right.outermost wanted
    | .parens inner _ => inner.outermost wanted
    | .not inner => inner.outermost wanted

/-- The outermost wanted parts of several expressions. -/
def outermostOfList (wanted : Expr → Bool) : List Expr → List Expr
  | [] => []
  | e :: es => e.outermost wanted ++ outermostOfList wanted es

end

end Expr

end DocQuery.Syntax
