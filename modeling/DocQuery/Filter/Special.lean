import DocQuery.Calendar.Reading
import DocQuery.Error
import DocQuery.Text.Casing

/-!
# Special functions

Three functions give filters of their own: `regexMatch` matches a field with a regular expression,
`date` compares a field with a date written in a pattern, and `OBJECTID` compares a field with
object ids. Each is recognised by its name in any case and asks for certain arguments.
-/

namespace DocQuery

open Syntax

/-- The operator of a comparison in the document store. -/
def Syntax.Comparison.operator : Comparison → String
  | .equal => "$eq"
  | .notEqual => "$ne"
  | .less => "$lt"
  | .lessEqual => "$lte"
  | .greater => "$gt"
  | .greaterEqual => "$gte"

namespace Filter

/-- The call that an expression is, if it is one of the function with the given name. -/
def callOf? (name : String) (e : Expr) : Option Call :=
  e.call?.filter fun f => Text.sameIgnoringCase f.name name

/-- The text that an expression is. -/
def text? : Expr → Option String
  | .literal (.string s) => some s
  | _ => none

/-- The text at a place among the arguments. -/
def textArg? (f : Call) (index : Nat) : Option String := f.args[index]?.bind text?

/-- The column at a place among the arguments. -/
def columnArg? (f : Call) (index : Nat) : Option Column := f.args[index]?.bind Expr.column?

/-! ## Regular expressions -/

/-- The call of `regexMatch` that an expression is, or compares with `TRUE`. -/
def regexCall? : Expr → Option Call
  | .call name args => callOf? "regexMatch" (.call name args)
  | .compare left .equal (.literal (.bool true)) => callOf? "regexMatch" left
  | .compare (.literal (.bool true)) .equal right => callOf? "regexMatch" right
  | _ => none

/-- The filter of a call of `regexMatch`: a column, a pattern and possibly options. -/
def regexFilter (f : Call) : Result Document :=
  match columnArg? f 0, textArg? f 1 with
  | some c, some pattern =>
    match f.args.length, textArg? f 2 with
    | 2, _ => .ok [(c.path, .single "$regex" (.string pattern))]
    | 3, some options =>
      .ok [(c.path, .document [("$regex", .string pattern), ("$options", .string options)])]
    | _, _ => .error (.regexOptions f)
  | _, _ => .error (.regexArguments f)

/-- The filter of an expression that asks for a match with a regular expression. -/
def regexMatch (e : Expr) : Result (Option Document) :=
  match regexCall? e with
  | some f => (regexFilter f).map some
  | none => .ok none

/-! ## Dates -/

/-- The instant that a text denotes in a date pattern. -/
def dateOfText (s pattern : String) : Result Calendar.Instant :=
  match Calendar.parseDate? s pattern with
  | some t => .ok t
  | none => .error (.dateText s pattern)

/-- The filter of the comparison `e` of a call of `date` with an operand. -/
def dateFilter (e : Expr) (f : Call) (op : Comparison) (operand : Expr) : Result Document :=
  match columnArg? f 0, textArg? f 1 with
  | some c, some pattern =>
    match text? operand with
    | some s => do
      let t ← dateOfText s pattern
      return [(c.path, .single op.operator t.toValue)]
    | none => .error (.dateOperand e)
  | _, _ => .error (.dateArguments f)

/-- The filter of an expression that compares a date, on either side. -/
def dateMatch (e : Expr) : Result (Option Document) :=
  match e with
  | .compare left op right =>
    match callOf? "date" left, callOf? "date" right with
    | some f, _ => (dateFilter e f op right).map some
    | none, some f => (dateFilter e f op.swap left).map some
    | none, none => .ok none
  | _ => .ok none

/-! ## Object ids -/

/-- The value of the object id that a text denotes. -/
def objectIdValue (s : String) : Result Value :=
  match objectIdDigits s with
  | .ok digits => .ok (.single "$oid" (.string digits))
  | .error cause => .error (.objectIdText s cause)

/-- The field that a call of `OBJECTID` names by its only argument. -/
def objectIdField (f : Call) : Result String :=
  match f.args with
  | [.literal (.string field)] => .ok field
  | [.column c] => .ok c.path
  | _ => .error (.objectIdField f)

/-- The object id that an operand denotes. -/
def objectIdOperand (e : Expr) : Result Value :=
  match text? e with
  | some s => objectIdValue s
  | none => .error (.objectIdOperand e)

/-- The filter of the comparison of a call of `OBJECTID` with an operand. -/
def objectIdFilter (f : Call) (op : Comparison) (operand : Expr) : Result Document := do
  let field ← objectIdField f
  let id ← objectIdOperand operand
  match op with
  | .equal => return [(field, id)]
  | .notEqual => return [(field, .single "$ne" id)]
  | op => throw (.objectIdComparison op)

/-- The filter of an expression that compares an object id, on either side, or looks it up in a
list. -/
def objectIdMatch : Expr → Result (Option Document)
  | .compare left op right =>
    match callOf? "objectid" left, callOf? "objectid" right with
    | some f, _ => (objectIdFilter f op right).map some
    | none, some f => (objectIdFilter f op left).map some
    | none, none => .ok none
  | .inList operand list negated =>
    match callOf? "objectid" operand with
    | some f => do
      let field ← objectIdField f
      let ids ← list.mapM objectIdOperand
      return some [(field, .single (if negated then "$nin" else "$in") (.array ids))]
    | none => .ok none
  | _ => .ok none

/-- The filter of a comparison with a special function: the first of the three that there is. -/
def specialMatch (e : Expr) : Result (Option Document) := do
  match ← regexMatch e with
  | some filter => return some filter
  | none =>
    match ← dateMatch e with
    | some filter => return some filter
    | none => objectIdMatch e

end Filter

end DocQuery
