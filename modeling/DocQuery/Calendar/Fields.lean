import DocQuery.Calendar.Instant

/-!
# Fields of a date

The fields that a reading of a date has found. A field may be found more than once if the values
agree. `Fields.instantAtOffset?`, `Fields.instantLocal?` and `Fields.instantOfDate?` are the three
ways to make an instant of them, which need a date with a time and an offset, a date with a time,
and a date.
-/

namespace DocQuery.Calendar

/-- The fields found so far. -/
structure Fields where
  /-- The year. -/
  year : Option Int := none
  /-- The last two digits of the year. -/
  yearOfCentury : Option Nat := none
  /-- The month, from 1 to 12. -/
  month : Option Nat := none
  /-- The day, from 1 to 31. -/
  day : Option Nat := none
  /-- Whether the hour is in the second half of the day. -/
  afternoon : Option Bool := none
  /-- The hour of the half day, from 0 to 11. -/
  hourOfHalf : Option Nat := none
  /-- The minute, from 0 to 59. -/
  minute : Option Nat := none
  /-- The second, from 0 to 60. -/
  second : Option Nat := none
  /-- The fraction of the second in nanoseconds. -/
  nanos : Option Nat := none
  /-- The distance from universal time in seconds. -/
  offset : Option Int := none

namespace Fields

/-- The field with a value put into it, unless it holds another one. -/
def agree? {α : Type} [DecidableEq α] (field : Option α) (value : α) : Option (Option α) :=
  match field with
  | none => some (some value)
  | some old => if old = value then some field else none

/-- Puts the year, which fits in a signed word of 32 bits. -/
def setYear (f : Fields) (n : Int) : Option Fields :=
  if -2147483648 ≤ n ∧ n ≤ 2147483647 then (agree? f.year n).map ({ f with year := · }) else none

/-- Puts the last two digits of the year. -/
def setYearOfCentury (f : Fields) (n : Nat) : Option Fields :=
  (agree? f.yearOfCentury n).map ({ f with yearOfCentury := · })

/-- Puts the month. -/
def setMonth (f : Fields) (n : Nat) : Option Fields :=
  if 1 ≤ n ∧ n ≤ 12 then (agree? f.month n).map ({ f with month := · }) else none

/-- Puts the day of the month. -/
def setDay (f : Fields) (n : Nat) : Option Fields :=
  if 1 ≤ n ∧ n ≤ 31 then (agree? f.day n).map ({ f with day := · }) else none

/-- Puts the half of the day. -/
def setAfternoon (f : Fields) (b : Bool) : Option Fields :=
  (agree? f.afternoon b).map ({ f with afternoon := · })

/-- Puts the hour of the half day, from 0 to 11. -/
def setHourOfHalf (f : Fields) (n : Nat) : Option Fields :=
  (agree? f.hourOfHalf n).map ({ f with hourOfHalf := · })

/-- Puts the hour of the day. -/
def setHour (f : Fields) (n : Nat) : Option Fields :=
  if n ≤ 23 then (f.setAfternoon (12 ≤ n)).bind (·.setHourOfHalf (n % 12)) else none

/-- Puts the hour of the half day, from 1 to 12. -/
def setHour12 (f : Fields) (n : Nat) : Option Fields :=
  if 1 ≤ n ∧ n ≤ 12 then f.setHourOfHalf (n % 12) else none

/-- Puts the minute. -/
def setMinute (f : Fields) (n : Nat) : Option Fields :=
  if n ≤ 59 then (agree? f.minute n).map ({ f with minute := · }) else none

/-- Puts the second, of which a minute may have one more than sixty. -/
def setSecond (f : Fields) (n : Nat) : Option Fields :=
  if n ≤ 60 then (agree? f.second n).map ({ f with second := · }) else none

/-- Puts the fraction of the second. -/
def setNanos (f : Fields) (n : Nat) : Option Fields :=
  (agree? f.nanos n).map ({ f with nanos := · })

/-- Puts the distance from universal time. -/
def setOffset (f : Fields) (seconds : Int) : Option Fields :=
  (agree? f.offset seconds).map ({ f with offset := · })

/-- The year that the fields name. Two digits alone mean the years 1970 to 2069. -/
def fullYear? (f : Fields) : Option Int :=
  match f.year, f.yearOfCentury with
  | some y, none => some y
  | some y, some r => if 0 ≤ y ∧ y % 100 = r then some y else none
  | none, some r => some (if r < 70 then r + 2000 else r + 1900)
  | none, none => none

/-- The date that the fields name, in days since 1970-01-01. -/
def days? (f : Fields) : Option Int := do
  let year ← f.fullYear?
  let month ← f.month
  let day ← f.day
  if isDate year month day then some (daysOfDate year month day) else none

/-- The time of day that the fields name, in milliseconds. The second may be missing unless there
is a fraction of it. -/
def millisOfDay? (f : Fields) : Option Int := do
  let afternoon ← f.afternoon
  let hourOfHalf ← f.hourOfHalf
  let minute ← f.minute
  let hour := if afternoon then hourOfHalf + 12 else hourOfHalf
  if f.nanos.isSome && f.second.isNone then none
  let seconds := (hour * 60 + minute) * 60 + f.second.getD 0
  return (seconds * 1000 + f.nanos.getD 0 / 1000000 : Nat)

/-- The instant of a date and a time of day in universal time. -/
def instantLocal? (f : Fields) : Option Instant := do
  let days ← f.days?
  let millis ← f.millisOfDay?
  return ⟨days * 86400000 + millis⟩

/-- The instant of a date, a time of day and their distance from universal time, which is less than
a day. The date in universal time must have a year that dates may have. -/
def instantAtOffset? (f : Fields) : Option Instant := do
  let offset ← f.offset
  let t ← f.instantLocal?
  if ¬ (-86400 < offset ∧ offset < 86400) then none
  let leap := if f.second = some 60 then 1000 else 0
  let shifted : Instant := ⟨t.millis - offset * 1000⟩
  if isYear (dateOfDays ((shifted.millis - leap) / 86400000)).1 then some shifted else none

/-- The start of a date in universal time. -/
def instantOfDate? (f : Fields) : Option Instant :=
  f.days?.map fun days => ⟨days * 86400000⟩

end Fields

end DocQuery.Calendar
