/-!
# Decimal numerals

A `Decimal` is a sign, a significand and a power of ten. `Decimal.parse?` reads the usual notation
with an optional sign, fraction and exponent, and `wordInt?` reads a whole number that fits in
64 bits. Digits are ASCII digits throughout.
-/

namespace DocQuery.Number

/-- Whether a character is one of the digits `0` to `9`. -/
def isDigit (c : Char) : Bool := '0' ≤ c && c ≤ '9'

/-- The number that a list of digits denotes. -/
def natOfDigits (ds : List Char) : Nat :=
  ds.foldl (fun n d => 10 * n + (d.toNat - '0'.toNat)) 0

/-- The text of a natural number. -/
def natText (n : Nat) : String := Nat.repr n

/-- The text of an integer, with a minus sign if it is negative. -/
def intText (n : Int) : String :=
  if n < 0 then "-" ++ natText n.natAbs else natText n.natAbs

/-- The number `significand * 10 ^ exponent`, negated if `negative`. -/
structure Decimal where
  /-- Whether a minus sign stands in front. -/
  negative : Bool
  /-- The digits, read as one number. -/
  significand : Nat
  /-- The power of ten. -/
  exponent : Int
deriving DecidableEq

/-- An optional sign in front of a numeral: whether it is a minus, and what follows it. -/
def readSign : List Char → Bool × List Char
  | '-' :: cs => (true, cs)
  | '+' :: cs => (false, cs)
  | cs => (false, cs)

/-- An integer written with an optional sign and at least one digit. -/
def int? (cs : List Char) : Option Int :=
  match readSign cs with
  | (_, []) => none
  | (negative, ds) =>
    if ds.all isDigit then
      some (if negative then -(natOfDigits ds : Int) else (natOfDigits ds : Int))
    else none

/-- Whether an integer fits in a signed word of 64 bits. -/
def fitsWord (n : Int) : Bool := -9223372036854775808 ≤ n && n ≤ 9223372036854775807

/-- An integer that fits in a signed word of 64 bits. -/
def wordInt? (cs : List Char) : Option Int :=
  (int? cs).filter fitsWord

namespace Decimal

/-- The part of a numeral that starts at its exponent mark: nothing, or the mark and an integer. -/
def exponent? : List Char → Option Int
  | [] => some 0
  | 'e' :: cs => int? cs
  | 'E' :: cs => int? cs
  | _ => none

/-- The digits after a decimal point and what follows them, no digits if there is no point. -/
def readFraction : List Char → List Char × List Char
  | '.' :: cs => (cs.takeWhile isDigit, cs.dropWhile isDigit)
  | cs => ([], cs)

/-- A decimal numeral: a sign, digits, a point and more digits, an exponent. All parts but one of
the two runs of digits may be missing. -/
def parse? (cs : List Char) : Option Decimal := do
  let (negative, body) := readSign cs
  let whole := body.takeWhile isDigit
  let (fraction, tail) := readFraction (body.dropWhile isDigit)
  if whole.isEmpty && fraction.isEmpty then none
  let exponent ← exponent? tail
  return ⟨negative, natOfDigits (whole ++ fraction), exponent - fraction.length⟩

end Decimal

end DocQuery.Number
