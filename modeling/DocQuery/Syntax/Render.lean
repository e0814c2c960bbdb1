import DocQuery.Number.Layout
import DocQuery.Syntax.Tree

/-!
# The text of a tree

Every tree is written as SQL on one line: keywords in upper case, single blanks between words, texts
in single quotes with the quote doubled, and numbers without an exponent.
-/

namespace DocQuery.Syntax

/-- Numbers in SQL are positional throughout, a whole number has no fraction, and a tie goes up. -/
def sqlLayout : Number.Layout := ⟨fun _ => true, "", .up⟩

/-- The texts with commas between them. -/
def commaSeparated (texts : List String) : String := ", ".intercalate texts

namespace Literal

/-- A character of a quoted text: the quote is written twice. -/
def quoteChar (c : Char) : List Char := if c = '\'' then ['\'', '\''] else [c]

/-- A text between single quotes. -/
def quote (s : String) : String := "'" ++ String.ofList (s.toList.flatMap quoteChar) ++ "'"

/-- The text of a literal. -/
def render : Literal → String
  | .string s => quote s
  | .int n => Number.intText n
  | .float x => x.text sqlLayout
  | .bool b => if b then "TRUE" else "FALSE"
  | .null => "NULL"

end Literal

/-- The sign of a comparison. -/
def Comparison.render : Comparison → String
  | .equal => "="
  | .notEqual => "<>"
  | .less => "<"
  | .lessEqual => "<="
  | .greater => ">"
  | .greaterEqual => ">="

/-- The word of a connective. -/
def Connective.render : Connective → String
  | .and => "AND"
  | .or => "OR"

/-- The words of a kind of join. -/
def JoinKind.render : JoinKind → String
  | .inner => "INNER JOIN"
  | .left => "LEFT JOIN"
  | .right => "RIGHT JOIN"
  | .full => "FULL JOIN"

/-- The word `NOT` and a blank if there is a negation. -/
def negation (negated : Bool) : String := if negated then "NOT " else ""

/-- A blank and the alias, if there is one. -/
def aliasSuffix : Option String → String
  | some name => " " ++ name
  | none => ""

/-- A clause of texts with commas between them, nothing if there are none. -/
def listClause (words : String) : List String → String
  | [] => ""
  | texts => words ++ commaSeparated texts

/-- A clause of a number, nothing if there is none. -/
def countClause (words : String) : Option Nat → String
  | some n => words ++ Number.natText n
  | none => ""

mutual

/-- The text of an expression. -/
def Expr.render : Expr → String
  | .literal value => value.render
  | .column c => c.path
  | .call name args => name ++ "(" ++ commaSeparated (exprTexts args) ++ ")"
  | .wildcard => "*"
  | .compare left op right => left.render ++ " " ++ op.render ++ " " ++ right.render
  | .like operand pattern negated =>
    operand.render ++ " " ++ negation negated ++ "LIKE " ++ pattern.render
  | .isNull operand negated => operand.render ++ " IS " ++ negation negated ++ "NULL"
  | .inList operand list negated =>
    operand.render ++ " " ++ negation negated ++ "IN (" ++ commaSeparated (exprTexts list) ++ ")"
  | .logic op left right => left.render ++ " " ++ op.render ++ " " ++ right.render
  | .parens inner negated => negation negated ++ "(" ++ inner.render ++ ")"
  | .not inner => "NOT " ++ inner.render
  | .subquery statement => "(" ++ statement.render ++ ")"

/-- The texts of expressions. -/
def exprTexts : List Expr → List String
  | [] => []
  | e :: es => e.render :: exprTexts es

/-- The text of a select item. -/
def SelectItem.render : SelectItem → String
  | .wildcard => "*"
  | .expr e (some name) => e.render ++ " AS " ++ name
  | .expr e none => e.render

/-- The texts of select items. -/
def itemTexts : List SelectItem → List String
  | [] => []
  | item :: items => item.render :: itemTexts items

/-- The text of a source. -/
def Source.render : Source → String
  | .table name aliasName => name ++ aliasSuffix aliasName
  | .query statement aliasName => "(" ++ statement.render ++ ")" ++ aliasSuffix aliasName

/-- The text of a join. -/
def Join.render : Join → String
  | ⟨kind, source, condition⟩ =>
    kind.render ++ " " ++ source.render ++ " ON " ++ condition.render

/-- The texts of joins, each with a blank in front. -/
def joinsText : List Join → String
  | [] => ""
  | join :: joins => " " ++ join.render ++ joinsText joins

/-- The text of a key of an ordering. -/
def OrderKey.render : OrderKey → String
  | ⟨e, ascending⟩ => e.render ++ (if ascending then " ASC" else " DESC")

/-- The texts of the keys of an ordering. -/
def orderTexts : List OrderKey → List String
  | [] => []
  | key :: keys => key.render :: orderTexts keys

/-- A clause of a condition, nothing if there is none. -/
def conditionClause (words : String) : Option Expr → String
  | some e => words ++ e.render
  | none => ""

/-- The text of a `SELECT` statement. -/
def Select.render : Select → String
  | ⟨distinct, items, source, joins, condition, groupBy, having, orderBy, limit, offset⟩ =>
    "SELECT " ++ (if distinct then "DISTINCT " else "") ++ commaSeparated (itemTexts items) ++
      " FROM " ++ source.render ++ joinsText joins ++ conditionClause " WHERE " condition ++
      listClause " GROUP BY " (groupBy.map Column.path) ++ conditionClause " HAVING " having ++
      listClause " ORDER BY " (orderTexts orderBy) ++ countClause " LIMIT " limit ++
      countClause " OFFSET " offset

/-- The text of a statement. -/
def Statement.render : Statement → String
  | .select query => query.render
  | .delete table aliasName condition =>
    "DELETE FROM " ++ table ++ aliasSuffix aliasName ++ conditionClause " WHERE " condition

end

/-! ### The text of each form of expression -/

namespace Expr

theorem render_literal (value : Literal) : (literal value).render = value.render := rfl

theorem render_column (c : Column) : (column c).render = c.path := rfl

theorem render_call (name : String) (args : List Expr) :
    (call name args).render = name ++ "(" ++ commaSeparated (exprTexts args) ++ ")" := rfl

theorem render_compare (left : Expr) (op : Comparison) (right : Expr) :
    (compare left op right).render = left.render ++ " " ++ op.render ++ " " ++ right.render := rfl

theorem render_like (operand pattern : Expr) (negated : Bool) :
    (like operand pattern negated).render =
      operand.render ++ " " ++ negation negated ++ "LIKE " ++ pattern.render := rfl

theorem render_isNull (operand : Expr) (negated : Bool) :
    (isNull operand negated).render = operand.render ++ " IS " ++ negation negated ++ "NULL" := rfl

theorem render_inList (operand : Expr) (list : List Expr) (negated : Bool) :
    (inList operand list negated).render = operand.render ++ " " ++ negation negated ++ "IN (" ++
      commaSeparated (exprTexts list) ++ ")" := rfl

theorem render_logic (op : Connective) (left right : Expr) :
    (logic op left right).render = left.render ++ " " ++ op.render ++ " " ++ right.render := rfl

theorem render_parens (inner : Expr) (negated : Bool) :
    (parens inner negated).render = negation negated ++ "(" ++ inner.render ++ ")" := rfl

theorem render_not (inner : Expr) : (not inner).render = "NOT " ++ inner.render := rfl

theorem render_subquery (statement : Statement) :
    (subquery statement).render = "(" ++ statement.render ++ ")" := rfl

end Expr

/-- The text of a call. -/
def Call.render (f : Call) : String := f.toExpr.render

end DocQuery.Syntax
