import DocQuery.Text.Blank

/-!
# Date formats

A date format is a list of items. An item is a field of a date, a character that stands for itself,
or a blank, which stands for any run of blanks.
-/

namespace DocQuery.Calendar

/-- An item of a date format. -/
inductive Item where
  /-- A character that stands for itself. -/
  | literal (c : Char)
  /-- Any run of blank characters, also an empty one. -/
  | blank
  /-- The year. -/
  | year
  /-- The last two digits of the year. -/
  | yearOfCentury
  /-- The month as a number. -/
  | month
  /-- The month as an English name of three letters. -/
  | monthName
  /-- The day of the month. -/
  | day
  /-- The hour of the day. -/
  | hour
  /-- The hour of the half day, from 1 to 12. -/
  | halfHour
  /-- The minute. -/
  | minute
  /-- The second. -/
  | second
  /-- The milliseconds as exactly three digits. -/
  | millis
  /-- A point and the fraction of the second, or nothing. -/
  | fraction
  /-- The half of the day, `am` or `pm`. -/
  | halfDay
  /-- The distance from universal time. -/
  | offset
  /-- A field that does not exist, which nothing matches. -/
  | unknown
deriving DecidableEq

namespace Item

/-- The field that a letter after a percent sign names. -/
def ofLetter (c : Char) : Item :=
  match c with
  | 'Y' => .year
  | 'y' => .yearOfCentury
  | 'm' => .month
  | 'b' => .monthName
  | 'd' => .day
  | 'H' => .hour
  | 'I' => .halfHour
  | 'M' => .minute
  | 'S' => .second
  | 'p' => .halfDay
  | 'z' => .offset
  | '%' => .literal '%'
  | _ => .unknown

end Item

/-- The items of a date format. -/
def items : List Char → List Item
  | [] => []
  | '%' :: '3' :: 'f' :: cs => .millis :: items cs
  | '%' :: '.' :: 'f' :: cs => .fraction :: items cs
  | '%' :: ':' :: 'z' :: cs => .offset :: items cs
  | '%' :: c :: cs => Item.ofLetter c :: items cs
  | c :: cs =>
    (if Text.isBlank c then .blank else if c = '%' then .unknown else .literal c) :: items cs

end DocQuery.Calendar
