import DocQuery.Calendar.Civil
import DocQuery.Document.Value

/-!
# Instants

An instant is a number of milliseconds since the start of 1970 in universal time. In a document it
is written as a date text if its year has four digits and it is not before 1970, and as a number of
milliseconds otherwise.
-/

namespace DocQuery.Calendar

/-- A point in time. -/
structure Instant where
  /-- Milliseconds since 1970-01-01T00:00:00 in universal time. -/
  millis : Int
deriving DecidableEq

namespace Instant

/-- A number written with at least a given count of digits. -/
def padded (width n : Nat) : List Char :=
  let digits := Nat.toDigits 10 n
  List.replicate (width - digits.length) '0' ++ digits

/-- A list without the given character at its end. -/
def dropTrailing (c : Char) (cs : List Char) : List Char :=
  (cs.reverse.dropWhile (· == c)).reverse

/-- The fraction of a second given in milliseconds: a point and digits, nothing for no fraction. -/
def fractionText (millis : Nat) : List Char :=
  if millis = 0 then [] else '.' :: dropTrailing '0' (padded 3 millis)

/-- The date and the time of day, to the second and its fraction. -/
def text (t : Instant) : String :=
  let (year, month, day) := dateOfDays (t.millis / 86400000)
  let ofDay := (t.millis % 86400000).toNat
  let seconds := ofDay / 1000
  String.ofList
    (padded 4 year.toNat ++ '-' :: padded 2 month ++ '-' :: padded 2 day ++
      'T' :: padded 2 (seconds / 3600) ++ ':' :: padded 2 (seconds / 60 % 60) ++
      ':' :: padded 2 (seconds % 60) ++ fractionText (ofDay % 1000) ++ ['Z'])

/-- Whether an instant is written as a date text. -/
def hasText (t : Instant) : Bool :=
  0 ≤ t.millis && (dateOfDays (t.millis / 86400000)).1 ≤ 9999

/-- The value that holds an instant in a document. -/
def toValue (t : Instant) : Value :=
  if t.hasText then .single "$date" (.string t.text)
  else .single "$date" (.single "$numberLong" (.string (Number.intText t.millis)))

end Instant

end DocQuery.Calendar
