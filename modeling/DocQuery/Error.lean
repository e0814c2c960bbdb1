import DocQuery.Document.Text
import DocQuery.Filter.ObjectId
import DocQuery.Settings.Basic
import DocQuery.Syntax.Cursor
import DocQuery.Syntax.Render

/-!
# Errors

Every way in which a statement can fail to compile or to run. Each error has a kind and a wording,
which shows the offending part of the statement.
-/

namespace DocQuery

open Syntax

/-- The kind of an error. -/
inductive ErrorKind where
  /-- The text is no statement. -/
  | malformed
  /-- The statement makes no sense. -/
  | invalid
  /-- The statement asks for something that is not provided. -/
  | unsupported
  /-- An expression has no counterpart in the document store. -/
  | inexpressible
  /-- The settings are refused. -/
  | settings
  /-- The document store reports a failure. -/
  | store
deriving DecidableEq

/-- Why a statement fails to compile or to run. -/
inductive CompileError where
  /-- The text is no statement. -/
  | malformed (e : SyntaxError)
  /-- The wildcard stands beside other items. -/
  | wildcardBesideItems
  /-- The wildcard is selected with `DISTINCT`. -/
  | wildcardDistinct
  /-- The wildcard is selected with `GROUP BY`. -/
  | wildcardGrouped
  /-- An item of the select list is neither a column nor a call. -/
  | illegalItem (e : Expr)
  /-- Columns stand beside aggregates without `GROUP BY`. -/
  | ungroupedItems
  /-- Two aggregates have the same output field. -/
  | repeatedOutput (f : Call) (name : String)
  /-- An aggregate of `ORDER BY` is not selected. -/
  | unselectedOrder (f : Call)
  /-- An aggregate of `HAVING` is not selected. -/
  | unselectedHaving (f : Call)
  /-- A column of `HAVING` is neither grouped nor an aggregate. -/
  | ungroupedHaving (path : String)
  /-- There is a `HAVING` without groups. -/
  | havingWithoutGroups (e : Expr)
  /-- A subquery is selected. -/
  | selectedSubquery (e : Expr)
  /-- A subquery stands in an `IN` list. -/
  | listedSubquery (s : Statement)
  /-- A subquery stands in an expression. -/
  | nestedSubquery (s : Statement)
  /-- There is a `NOT LIKE`. -/
  | negatedLike
  /-- An object id is compared by order. -/
  | objectIdComparison (op : Comparison)
  /-- The kind of a join. -/
  | joinKind (kind : JoinKind)
  /-- A subquery is joined. -/
  | joinedSubquery (join : Join)
  /-- An expression stands in the condition of a join. -/
  | joinCondition (e : Expr)
  /-- An aggregate orders rows that are not grouped. -/
  | orderByAggregate (f : Call)
  /-- An expression that is no column and no call orders rows. -/
  | orderByExpression (e : Expr)
  /-- The name of an aggregate function. -/
  | aggregateName (name : String)
  /-- A `DELETE` statement is read from. -/
  | deleteAsSource
  /-- An expression gives no filter but a plain value. -/
  | noFilter (e : Expr) (value : Value)
  /-- Neither side of a comparison is a field. -/
  | comparisonWithoutField (e : Expr)
  /-- A literal stands as a condition. -/
  | literalCondition (value : Literal)
  /-- The wildcard stands in an expression. -/
  | strayWildcard
  /-- A negation stands as an operand. -/
  | negatedOperand (e : Expr)
  /-- The wildcard stands among the arguments of a call. -/
  | wildcardArgument (f : Call)
  /-- The left side of `LIKE` is no field. -/
  | likeOperand (e : Expr)
  /-- The right side of `LIKE` is no pattern. -/
  | likePattern (e : Expr)
  /-- The left side of `IN` is no field, literal or call. -/
  | inOperand (e : Expr)
  /-- The arguments of `regexMatch` are not a column and a pattern. -/
  | regexArguments (f : Call)
  /-- The options of `regexMatch` are no text. -/
  | regexOptions (f : Call)
  /-- The arguments of `date` are not a column and a pattern. -/
  | dateArguments (f : Call)
  /-- A `date` is compared to something that is no text. -/
  | dateOperand (e : Expr)
  /-- A text is no date in a pattern. -/
  | dateText (text pattern : String)
  /-- The argument of `OBJECTID` is no field. -/
  | objectIdField (f : Call)
  /-- An object id is compared to something that is no text. -/
  | objectIdOperand (e : Expr)
  /-- A text is no object id. -/
  | objectIdText (text : String) (cause : Filter.ObjectIdError)
  /-- An aggregate has no field to work on. -/
  | aggregateArgument (f : Call)
  /-- The settings are refused. -/
  | settings (e : SettingsError)
  /-- The document store reports a failure, which may be of any kind. -/
  | reported (kind : ErrorKind) (report : String)

/-- The outcome of a part of a compilation. -/
abbrev Result (α : Type) := Except CompileError α

namespace CompileError

/-- The kind of an error. -/
def kind : CompileError → ErrorKind
  | .malformed _ => .malformed
  | .wildcardBesideItems | .wildcardDistinct | .wildcardGrouped | .illegalItem _
  | .ungroupedItems | .repeatedOutput _ _ | .unselectedOrder _ | .unselectedHaving _
  | .ungroupedHaving _ | .havingWithoutGroups _ => .invalid
  | .selectedSubquery _ | .listedSubquery _ | .nestedSubquery _ | .negatedLike
  | .objectIdComparison _ | .joinKind _ | .joinedSubquery _ | .joinCondition _
  | .orderByAggregate _ | .orderByExpression _ | .aggregateName _ | .deleteAsSource => .unsupported
  | .noFilter _ _ | .comparisonWithoutField _ | .literalCondition _ | .strayWildcard
  | .negatedOperand _ | .wildcardArgument _ | .likeOperand _ | .likePattern _ | .inOperand _
  | .regexArguments _ | .regexOptions _ | .dateArguments _ | .dateOperand _ | .dateText _ _
  | .objectIdField _ | .objectIdOperand _ | .objectIdText _ _
  | .aggregateArgument _ => .inexpressible
  | .settings _ => .settings
  | .reported kind _ => kind

/-- The wording of an error without its kind. -/
def detail : CompileError → String
  | .malformed e => e.message
  | .wildcardBesideItems => "cannot run SELECT * with other fields"
  | .wildcardDistinct => "cannot run SELECT * with DISTINCT"
  | .wildcardGrouped => "cannot run SELECT * with GROUP BY"
  | .illegalItem e =>
    "illegal expression(s) found in select clause. Only column names supported: " ++ e.render
  | .ungroupedItems => "illegal expression(s) found in select clause. Only column names supported"
  | .repeatedOutput f name =>
    f.render ++ " repeats the output field " ++ name ++ ", alias one of the aggregates"
  | .unselectedOrder f => "ORDER BY aggregate " ++ f.render ++ " must also be selected"
  | .unselectedHaving f => "HAVING aggregate " ++ f.render ++ " must also be selected"
  | .ungroupedHaving path => "HAVING column " ++ path ++ " is neither grouped nor aggregated"
  | .havingWithoutGroups e => "HAVING requires GROUP BY or aggregate functions: " ++ e.render
  | .selectedSubquery e => "subqueries are not supported in the select list: " ++ e.render
  | .listedSubquery s => "subquery in IN is not supported: (" ++ s.render ++ ")"
  | .nestedSubquery s => "subqueries are not supported in expressions: (" ++ s.render ++ ")"
  | .negatedLike => "NOT LIKE queries not supported"
  | .objectIdComparison op => "OBJECTID does not support operator " ++ op.render
  | .joinKind kind => kind.render ++ " is not supported"
  | .joinedSubquery join => "subqueries are not supported as join targets: " ++ join.render
  | .joinCondition e => "unsupported expression in join condition: " ++ e.render
  | .orderByAggregate f => "cannot sort by aggregate " ++ f.render ++ " without grouping"
  | .orderByExpression e => "unsupported ORDER BY expression: " ++ e.render
  | .aggregateName name => "could not understand function: " ++ name
  | .deleteAsSource => "DELETE cannot be used as a source"
  | .noFilter e value => "expression '" ++ e.render ++ "' does not produce a filter: " ++ value.text
  | .comparisonWithoutField e => "comparison needs a field on one side: " ++ e.render
  | .literalCondition value => "literal " ++ value.render ++ " cannot be used as a predicate"
  | .strayWildcard => "unexpected '*' in expression"
  | .negatedOperand e => "NOT cannot be used as an operand: " ++ e.render
  | .wildcardArgument f => "'*' is not a valid argument of " ++ f.render
  | .likeOperand e => "LIKE requires a field on the left side: " ++ e.render
  | .likePattern e => "invalid LIKE pattern: " ++ e.render
  | .inOperand e => "invalid IN operand: " ++ e.render
  | .regexArguments f => "regexMatch requires a column and a pattern: " ++ f.render
  | .regexOptions f => "invalid regexMatch options: " ++ f.render
  | .dateArguments f => "date requires a column and a pattern: " ++ f.render
  | .dateOperand e => "date must be compared to a string: " ++ e.render
  | .dateText text pattern =>
    "could not convert '" ++ text ++ "' to a date with pattern '" ++ pattern ++ "'"
  | .objectIdField f => "OBJECTID requires a single field name: " ++ f.render
  | .objectIdOperand e => "object id must be a string: " ++ e.render
  | .objectIdText text cause => "invalid object id '" ++ text ++ "': " ++ cause.message
  | .aggregateArgument f => f.render ++ " requires a field argument"
  | .settings e => e.message
  | .reported _ report => report

/-- What stands in front of the wording of an error. -/
def heading : ErrorKind → String
  | .malformed => ""
  | .invalid => "ValidationError: "
  | .unsupported => "UnsupportedError: "
  | .inexpressible => "TranslationError: "
  | .settings => "ConfigError: "
  | .store => "StoreError: "

/-- The wording of an error. -/
def message (e : CompileError) : String := heading e.kind ++ e.detail

end CompileError

end DocQuery
