import DocQuery.Calendar.Fields
import DocQuery.Calendar.Format
import DocQuery.Calendar.Pattern
import DocQuery.Text.Casing

/-!
# Reading dates

`readFormat` reads a text by the items of a date format, and `parseDate?` reads it by a date
pattern, or by the usual notations if the pattern is the word `natural`.
-/

namespace DocQuery.Calendar

/-- A reader of part of a text: the fields with what was found, and the rest of the text. -/
abbrev FieldReader := Fields → List Char → Option (Fields × List Char)

/-! ## Parts of a date -/

/-- The number made by the first digits, at least `least` and at most `most` of them. -/
def readDigits (least most : Nat) (cs : List Char) : Option (Nat × List Char) :=
  let ds := (cs.takeWhile Number.isDigit).take most
  if ds.length < least then none else some (Number.natOfDigits ds, cs.drop ds.length)

/-- A number of one or two digits after blanks, put by `set`. -/
def readTwo (set : Fields → Nat → Option Fields) : FieldReader := fun f cs => do
  let (n, rest) ← readDigits 1 2 (cs.dropWhile Text.isBlank)
  return (← set f n, rest)

/-- A year after blanks: up to four digits, or a sign and any number of digits. -/
def readYear : FieldReader := fun f cs =>
  match cs.dropWhile Text.isBlank with
  | '-' :: cs => do
    let (n, rest) ← readDigits 1 cs.length cs
    return (← f.setYear (-(n : Int)), rest)
  | '+' :: cs => do
    let (n, rest) ← readDigits 1 cs.length cs
    return (← f.setYear n, rest)
  | cs => do
    let (n, rest) ← readDigits 1 4 cs
    return (← f.setYear n, rest)

/-- The short English names of the months. -/
def monthNames : List (List Char) :=
  ["jan", "feb", "mar", "apr", "may", "jun", "jul", "aug", "sep", "oct", "nov", "dec"].map
    String.toList

/-- A month name of three letters in any case. -/
def readMonthName : FieldReader := fun f cs => do
  let index ← monthNames.idxOf? ((cs.take 3).map Text.asciiLower)
  return (← f.setMonth (index + 1), cs.drop 3)

/-- One of the words `am` and `pm` in any case. -/
def readHalfDay : FieldReader := fun f cs =>
  match (cs.take 2).map Text.asciiLower with
  | ['a', 'm'] => (f.setAfternoon false).map (·, cs.drop 2)
  | ['p', 'm'] => (f.setAfternoon true).map (·, cs.drop 2)
  | _ => none

/-- Exactly three digits, the milliseconds. -/
def readMillis : FieldReader := fun f cs => do
  let (n, rest) ← readDigits 3 3 cs
  return (← f.setNanos (n * 1000000), rest)

/-- A point and at least one digit of the fraction of a second, of which nine count. -/
def readFraction : FieldReader := fun f cs =>
  match cs with
  | '.' :: cs => do
    let ds := (cs.takeWhile Number.isDigit).take 9
    if ds.isEmpty then none
    let nanos := Number.natOfDigits ds * Nat.pow 10 (9 - ds.length)
    return (← f.setNanos nanos, cs.dropWhile Number.isDigit)
  | _ => some (f, cs)

/-- The sign of an offset, true for a minus. -/
def readOffsetSign : List Char → Option (Bool × List Char)
  | c :: cs =>
    if c = '+' then some (false, cs)
    else if c = '-' ∨ c = '−' then some (true, cs)
    else none
  | [] => none

/-- An offset in seconds: a sign, two digits of hours, what `separator` passes over, and two digits
of minutes. -/
def readOffset (separator : List Char → Option (List Char)) (cs : List Char) :
    Option (Int × List Char) := do
  let (negative, cs) ← readOffsetSign cs
  let (hours, cs) ← readDigits 2 2 cs
  let (minutes, cs) ← readDigits 2 2 (← separator cs)
  if 59 < minutes then none
  let seconds : Int := hours * 3600 + minutes * 60
  return (if negative then -seconds else seconds, cs)

/-- An offset after blanks, with colons and blanks allowed between hours and minutes. -/
def readLooseOffset : FieldReader := fun f cs => do
  let (seconds, rest) ←
    readOffset (fun cs => some (cs.dropWhile fun c => c = ':' || Text.isBlank c))
      (cs.dropWhile Text.isBlank)
  return (← f.setOffset seconds, rest)

/-- A character that must come next. -/
def expectChar (c : Char) : List Char → Option (List Char)
  | d :: cs => if d = c then some cs else none
  | [] => none

/-! ## Formats -/

/-- Reads one item of a format. -/
def readItem : Item → FieldReader
  | .literal c => fun f cs => (expectChar c cs).map (f, ·)
  | .blank => fun f cs => some (f, cs.dropWhile Text.isBlank)
  | .year => readYear
  | .yearOfCentury => readTwo Fields.setYearOfCentury
  | .month => readTwo Fields.setMonth
  | .monthName => readMonthName
  | .day => readTwo Fields.setDay
  | .hour => readTwo Fields.setHour
  | .halfHour => readTwo Fields.setHour12
  | .minute => readTwo Fields.setMinute
  | .second => readTwo Fields.setSecond
  | .millis => readMillis
  | .fraction => readFraction
  | .halfDay => readHalfDay
  | .offset => readLooseOffset
  | .unknown => fun _ _ => none

/-- The fields of a text that the items match as a whole. -/
def readItems : List Item → Fields → List Char → Option Fields
  | [], f, [] => some f
  | [], _, _ :: _ => none
  | item :: items, f, cs =>
    match readItem item f cs with
    | some (f, rest) => readItems items f rest
    | none => none

/-- The instant that a text denotes in a format: with its offset if it has one, else in universal
time, else the start of its date. -/
def readFormat (format : String) (s : String) : Option Instant := do
  let f ← readItems (items format.toList) {} s.toList
  f.instantAtOffset? <|> f.instantLocal? <|> f.instantOfDate?

/-! ## Usual notations -/

/-- A number of exactly `count` digits, put by `set`. -/
def readExact (count : Nat) (set : Fields → Nat → Option Fields) : FieldReader := fun f cs => do
  let (n, rest) ← readDigits count count cs
  return (← set f n, rest)

/-- The offset of an internet date: `Z`, or hours and minutes with a colon between them. -/
def readStrictOffset : FieldReader := fun f cs =>
  match cs with
  | 'Z' :: rest => (f.setOffset 0).map (·, rest)
  | 'z' :: rest => (f.setOffset 0).map (·, rest)
  | cs => do
    let (seconds, rest) ← readOffset (expectChar ':') cs
    if ¬ (-86400 < seconds ∧ seconds < 86400) then none
    return (← f.setOffset seconds, rest)

/-- An internet date such as `2020-01-31T12:30:00.5+01:00`, with all fields but the fraction. -/
def readInternet (s : String) : Option Instant := do
  let (f, cs) ← readExact 4 (fun f n => f.setYear n) {} s.toList
  let cs ← expectChar '-' cs
  let (f, cs) ← readExact 2 Fields.setMonth f cs
  let cs ← expectChar '-' cs
  let (f, cs) ← readExact 2 Fields.setDay f cs
  let cs ← expectChar 'T' cs <|> expectChar 't' cs <|> expectChar ' ' cs
  let (f, cs) ← readExact 2 Fields.setHour f cs
  let cs ← expectChar ':' cs
  let (f, cs) ← readExact 2 Fields.setMinute f cs
  let cs ← expectChar ':' cs
  let (f, cs) ← readExact 2 Fields.setSecond f cs
  let (f, cs) ← readFraction f cs
  let (f, cs) ← readStrictOffset f cs
  if cs.isEmpty then f.instantAtOffset? else none

/-- The formats tried for a text that is no internet date. -/
def naturalFormats : List String :=
  ["%Y-%m-%dT%H:%M:%S%.f", "%Y-%m-%d %H:%M:%S%.f", "%Y-%m-%d"]

/-- The instant that a text denotes in one of the usual notations. -/
def readNatural (s : String) : Option Instant :=
  readInternet s <|> naturalFormats.findSome? (readFormat · s)

/-- The instant that a text denotes in a date pattern. -/
def parseDate? (s pattern : String) : Option Instant :=
  if Text.sameIgnoringCase pattern "natural" then readNatural s
  else readFormat (Pattern.format pattern) s

end DocQuery.Calendar
