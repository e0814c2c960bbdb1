import DocQuery.Calendar.Reading
import DocQuery.Error
import DocQuery.Text.Casing

/-!
# Values of literals

A literal is stored as its plain value unless the field it is compared with has a declared type.
`coerce` makes a value of that type where the literal allows it and keeps the plain value otherwise.
-/

namespace DocQuery

open Syntax

/-- The plain value of a literal. -/
def Syntax.Literal.toValue : Literal → Value
  | .string s => .string s
  | .int n => .int n
  | .float x => .float x
  | .bool b => .bool b
  | .null => .null

namespace Filter

/-- The number that a text denotes: a whole number if it is one that fits in a word, else a finite
number of double precision. -/
def numberOfText? (s : String) : Option Value :=
  let cs := Text.trimChars s.toList
  match Number.wordInt? cs with
  | some n => some (.int n)
  | none => ((Number.Decimal.parse? cs).bind Number.Binary64.ofDecimal?).map .float

/-- The truth value that a text denotes, in any case. -/
def boolOfText? (s : String) : Option Value :=
  let word := Text.lower s
  if word = "true" then some (.bool true)
  else if word = "false" then some (.bool false)
  else none

/-- The instant that a text denotes in one of the usual notations. -/
def dateOfText? (s : String) : Option Value :=
  (Calendar.parseDate? s "natural").map (·.toValue)

/-- The value of a literal of a declared type, if the literal is not already of that type and denotes
a value of it. -/
def coerced? : FieldType → Literal → Option Value
  | .number, .string s => numberOfText? s
  | .boolean, .string s => boolOfText? s
  | .date, .string s => dateOfText? s
  | .string, .string _ => none
  | .string, .null => none
  | .string, value => some (.string (Text.lower value.render))
  | _, _ => none

/-- The value of a literal for a field of a declared type. -/
def coerce (type : FieldType) (value : Literal) : Value :=
  (coerced? type value).getD value.toValue

end Filter

end DocQuery
