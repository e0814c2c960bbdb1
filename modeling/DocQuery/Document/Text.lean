import DocQuery.Document.Value
import DocQuery.Number.Layout

/-!
# The text of a document

Documents are written as JSON without blanks, fields in their order. A text is quoted by escaping
the quote, the backslash and the control characters; all else stands for itself. A number of double
precision always shows a fraction or an exponent, so it is never taken for a whole number.
-/

namespace DocQuery

/-- Numbers in documents are positional from `0.00001` up to below `10 ^ 16`, a whole number
carries the fraction `.0`, and a tie goes to the even digit. -/
def documentLayout : Number.Layout := ⟨fun point => -5 < point && point ≤ 16, ".0", .toEven⟩

namespace Value

/-- A hexadecimal digit in lower case. -/
def hexDigit (n : Nat) : Char :=
  if n < 10 then Char.ofNat ('0'.toNat + n) else Char.ofNat ('a'.toNat + (n - 10))

/-- The characters that stand for one character between quotes. -/
def escapeChar (c : Char) : List Char :=
  if c = '"' then ['\\', '"']
  else if c = '\\' then ['\\', '\\']
  else if c.toNat = 0x08 then ['\\', 'b']
  else if c.toNat = 0x09 then ['\\', 't']
  else if c.toNat = 0x0A then ['\\', 'n']
  else if c.toNat = 0x0C then ['\\', 'f']
  else if c.toNat = 0x0D then ['\\', 'r']
  else if c.toNat < 0x20 then
    ['\\', 'u', '0', '0', hexDigit (c.toNat / 16), hexDigit (c.toNat % 16)]
  else [c]

/-- A text between quotes. -/
def quote (s : String) : String :=
  "\"" ++ String.ofList (s.toList.flatMap escapeChar) ++ "\""

mutual

/-- The text of a value. -/
def text : Value → String
  | .null => "null"
  | .bool b => if b then "true" else "false"
  | .int n => Number.intText n
  | .float x => x.text documentLayout
  | .string s => quote s
  | .array elements => "[" ++ ",".intercalate (elementTexts elements) ++ "]"
  | .document fields => "\x7b" ++ ",".intercalate (fieldTexts fields) ++ "\x7d"

/-- The texts of the elements of an array. -/
def elementTexts : List Value → List String
  | [] => []
  | v :: vs => text v :: elementTexts vs

/-- The texts of the fields of a document, each with its key. -/
def fieldTexts : List (String × Value) → List String
  | [] => []
  | (k, v) :: rest => (quote k ++ ":" ++ text v) :: fieldTexts rest

end

end Value

/-- The text of a document. -/
def Document.text (d : Document) : String := Value.text (.document d)

end DocQuery
