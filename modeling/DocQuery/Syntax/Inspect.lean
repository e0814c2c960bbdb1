import DocQuery.Syntax.Render

/-!
# Diagnostic texts

The leaves of a tree as they are shown in diagnostics: the text of a leaf inside a mark of what it
is.
-/

namespace DocQuery.Syntax

/-- A column, marked by whether it is qualified. -/
def Column.inspect (c : Column) : String :=
  (if c.qualifier.isSome then "Column::WithCollection(" else "Column::Name(") ++ c.path ++ ")"

/-- A comparison. -/
def Comparison.inspect (op : Comparison) : String := "ComparatorOp(" ++ op.render ++ ")"

/-- A literal, marked by its kind. -/
def Literal.inspect (value : Literal) : String :=
  match value with
  | .string _ => "String(" ++ value.render ++ ")"
  | .int _ => "Int(" ++ value.render ++ ")"
  | .float _ => "Float(" ++ value.render ++ ")"
  | .bool _ => "Bool(" ++ value.render ++ ")"
  | .null => "Null"

end DocQuery.Syntax
