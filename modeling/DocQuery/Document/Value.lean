import DocQuery.Keyed
import DocQuery.Number.Binary64

/-!
# Documents

The values a document store holds and the filters, stages and options that are sent to it. A
document lists its fields in order.
-/

namespace DocQuery

/-- A value in a document. -/
inductive Value where
  /-- The absent value. -/
  | null
  /-- A truth value. -/
  | bool (b : Bool)
  /-- A whole number. -/
  | int (n : Int)
  /-- A number of double precision. -/
  | float (x : Number.Binary64)
  /-- A text. -/
  | string (s : String)
  /-- A list of values. -/
  | array (elements : List Value)
  /-- A document within a document. -/
  | document (fields : List (String × Value))

/-- A document: its fields in order. -/
abbrev Document := Keyed Value

/-- The document with a single field. -/
def Document.single (key : String) (value : Value) : Document := [(key, value)]

namespace Value

/-- The value that is a document with a single field. -/
def single (key : String) (value : Value) : Value := .document [(key, value)]

/-- An optional integer, null if it is absent. -/
def ofInt? : Option Int → Value
  | some n => .int n
  | none => .null

/-- An optional text, null if it is absent. -/
def ofString? : Option String → Value
  | some s => .string s
  | none => .null

end Value

end DocQuery
