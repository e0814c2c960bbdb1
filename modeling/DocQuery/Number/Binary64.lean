import DocQuery.Number.Decimal

/-!
# Double precision numbers

A finite binary64 number is a sign and a whole number of units, where a unit is the smallest
positive number `2 ^ -1074`. Numbers of at least `2 ^ 53` units are spaced `ulp` units apart.
`Binary64.ofDecimal?` rounds a decimal to the nearest number, a tie to the even neighbour, and
refuses those that round past the largest finite one.
-/

namespace DocQuery.Number

/-- A finite number of double precision: `units * 2 ^ -1074`, negated if `negative`. -/
structure Binary64 where
  /-- The sign bit, which zero has as well. -/
  negative : Bool
  /-- The magnitude in units of `2 ^ -1074`. -/
  units : Nat
deriving DecidableEq

namespace Binary64

/-- The distance between neighbouring numbers at a magnitude. -/
def ulp (units : Nat) : Nat := Nat.pow 2 (units.log2 - 52)

/-- The first magnitude that is too large for a finite number. -/
def overflow : Nat := Nat.pow 2 2098

/-- The multiple of `spacing` nearest to `num / den`, a tie going to the even multiple. -/
def roundTo (num den spacing : Nat) : Nat :=
  let step := den * spacing
  let low := num / step
  let excess := 2 * (num % step)
  if excess < step ∨ (excess = step ∧ low % 2 = 0) then low * spacing else (low + 1) * spacing

/-- The magnitude nearest to `num / den` units. -/
def round (num den : Nat) : Nat :=
  roundTo num den (ulp (num / den))

/-- The magnitude nearest to `significand * 10 ^ exponent`. Powers of ten that decide the answer by
their size alone are not computed. -/
def magnitude (significand : Nat) (exponent : Int) : Nat :=
  match exponent with
  | .ofNat e =>
    if significand = 0 then 0
    else if 400 < e then overflow
    else round (significand * Nat.pow 10 e * Nat.pow 2 1074) 1
  | .negSucc e =>
    if significand.log2 + 400 < e then 0
    else round (significand * Nat.pow 2 1074) (Nat.pow 10 (e + 1))

/-- The number nearest to a decimal, if it is finite. -/
def ofDecimal? (d : Decimal) : Option Binary64 :=
  let units := magnitude d.significand d.exponent
  if units < overflow then some ⟨d.negative, units⟩ else none

/-- Equality of values, for which the two zeros are one number. -/
def sameValue (x y : Binary64) : Bool :=
  x.units == y.units && (x.negative == y.negative || x.units == 0)

end Binary64

end DocQuery.Number
