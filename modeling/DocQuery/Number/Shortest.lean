import DocQuery.Number.Binary64

/-!
# Shortest decimal digits

`Binary64.shortest` is the decimal with the fewest digits that rounds to a given magnitude, and
among those the nearest, a `Tie` telling which of two equally near ones. For each number of digits
only the two neighbours of the value on that decimal grid are tried. A magnitude has an exact
decimal of 1074 places, which stands in if no short decimal rounds to it.
-/

namespace DocQuery.Number

/-- Which of two equally near decimals is taken. -/
inductive Tie where
  /-- The larger one. -/
  | up
  /-- The one with the even last digit. -/
  | toEven
deriving DecidableEq

/-- Whether the lower neighbour is tried before the upper one, given twice the distance from the
lower neighbour and the spacing of the grid. -/
def Tie.lowerFirst (tie : Tie) (low twice spacing : Nat) : Bool :=
  twice < spacing || (twice == spacing && tie == .toEven && low % 2 == 0)

namespace Binary64

/-- The exact decimal of a magnitude, as a multiple of `10 ^ -1074`. -/
def exactSignificand (units : Nat) : Nat := units * Nat.pow 5 1074

/-- The candidate if it rounds to the given magnitude. -/
def readsBack? (units significand : Nat) (exponent : Int) : Option (Nat × Int) :=
  if magnitude significand exponent = units then some (significand, exponent) else none

/-- The nearest decimal on the grid of `10 ^ (dropped - 1074)` that rounds to a magnitude: of the
neighbours of the exact value the nearer one is tried first. -/
def onGrid? (tie : Tie) (units exact dropped : Nat) : Option (Nat × Int) :=
  let spacing := Nat.pow 10 dropped
  let low := exact / spacing
  let exponent : Int := dropped - 1074
  if tie.lowerFirst low (2 * (exact % spacing)) spacing then
    readsBack? units low exponent <|> readsBack? units (low + 1) exponent
  else
    readsBack? units (low + 1) exponent <|> readsBack? units low exponent

/-- A significand without its trailing zeros, and the exponent raised to match. The first argument
bounds the number of zeros. -/
def dropZeros : Nat → Nat → Int → Nat × Int
  | 0, significand, exponent => (significand, exponent)
  | bound + 1, significand, exponent =>
    if significand ≠ 0 ∧ significand % 10 = 0 then dropZeros bound (significand / 10) (exponent + 1)
    else (significand, exponent)

/-- The first decimal of up to 17 digits that rounds to a magnitude, given the exact significand, which
stands in if there is none. -/
def candidate (tie : Tie) (units exact : Nat) : Nat × Int :=
  let places := (Nat.toDigits 10 exact).length
  ((List.range 17).findSome? fun i => onGrid? tie units exact (places - (i + 1))).getD
    (exact, -1074)

/-- The significand and the exponent of the shortest decimal that rounds to a magnitude. -/
def shortest (tie : Tie) (units : Nat) : Nat × Int :=
  let found := candidate tie units (exactSignificand units)
  dropZeros (Nat.toDigits 10 found.1).length found.1 found.2

end Binary64

end DocQuery.Number
