import DocQuery.Number.Decimal

/-!
# JSON trees

A JSON text as it was written: numbers keep their notation apart from their value, members of an
object keep their order and their repetitions, and a text whose escapes name half of a surrogate
pair is kept as a text without characters.
-/

namespace DocQuery

/-- A JSON tree. -/
inductive Json where
  /-- The word `null`. -/
  | null
  /-- One of the words `true` and `false`. -/
  | bool (b : Bool)
  /-- A number, and whether it is written without a fraction and an exponent. -/
  | number (value : Number.Decimal) (whole : Bool)
  /-- A text, `none` if it has half of a surrogate pair. -/
  | string (text? : Option String)
  /-- The elements of an array. -/
  | array (elements : List Json)
  /-- The members of an object. -/
  | object (members : List (Option String × Json))

namespace Json

/-- The value of the first member with a given name. -/
def member? (name : String) : Json → Option Json
  | .object members => members.lookup (some name)
  | _ => none

/-- The integer that a number without a fraction, an exponent and a minus zero denotes. -/
def integer? : Json → Option Int
  | .number ⟨negative, significand, _⟩ true =>
    if negative then if significand = 0 then none else some (-(significand : Int))
    else some significand
  | _ => none

end Json

end DocQuery
