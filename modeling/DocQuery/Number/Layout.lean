import DocQuery.Number.Shortest

/-!
# The text of a double precision number

A `Layout` is the choice between positional and exponent notation, of what follows a whole number
and of the digits where two are equally near. `Binary64.text` lays out the shortest digits of a number accordingly.
-/

namespace DocQuery.Number

/-- How the digits of a number are laid out. -/
structure Layout where
  /-- Whether the number `0.ddd * 10 ^ point` is written without an exponent. -/
  positional : Int → Bool
  /-- What is written after a whole number in positional notation. -/
  wholeSuffix : String
  /-- Which of two equally near decimals is written. -/
  tie : Tie

namespace Layout

/-- The text of `0.ddd * 10 ^ point` without an exponent. -/
def positionalText (layout : Layout) (digits : List Char) (point : Int) : String :=
  let count : Int := digits.length
  if point ≤ 0 then
    "0." ++ String.ofList (List.replicate point.natAbs '0' ++ digits)
  else if count ≤ point then
    String.ofList (digits ++ List.replicate (point - count).natAbs '0') ++ layout.wholeSuffix
  else
    String.ofList (digits.take point.natAbs ++ '.' :: digits.drop point.natAbs)

/-- The text of `0.ddd * 10 ^ point` with one digit before the decimal point and an exponent. -/
def exponentText (digits : List Char) (point : Int) : String :=
  let mantissa :=
    match digits with
    | [] => []
    | [d] => [d]
    | d :: ds => d :: '.' :: ds
  let sign := if point - 1 < 0 then "e-" else "e+"
  String.ofList mantissa ++ sign ++ natText (point - 1).natAbs

/-- The text of a positive number given by the significand and the exponent of its decimal. -/
def magnitudeText (layout : Layout) (significand : Nat) (exponent : Int) : String :=
  let digits := Nat.toDigits 10 significand
  let point := exponent + digits.length
  if layout.positional point then layout.positionalText digits point else exponentText digits point

end Layout

/-- The text of a number in a layout. -/
def Binary64.text (layout : Layout) (x : Binary64) : String :=
  let magnitude :=
    if x.units = 0 then "0" ++ layout.wholeSuffix
    else
      let decimal := Binary64.shortest layout.tie x.units
      layout.magnitudeText decimal.1 decimal.2
  if x.negative then "-" ++ magnitude else magnitude

end DocQuery.Number
