import DocQuery.Json.Tree

/-!
# Reading JSON

`Json.parse?` reads a whole text as one JSON value. The notation is strict: no comments, no commas
before a closing bracket, no leading zeros, no control characters between quotes and nothing after
the value.
-/

namespace DocQuery.Json

/-- Whether a character may stand between the parts of a JSON text. -/
def isSpace (c : Char) : Bool := c = ' ' || c = '\t' || c = '\n' || c = '\r'

/-- The characters after leading space. -/
def skipSpace (cs : List Char) : List Char := cs.dropWhile isSpace

/-! ## Texts -/

/-- The value of a hexadecimal digit. -/
def hexValue? (c : Char) : Option Nat :=
  if '0' ≤ c ∧ c ≤ '9' then some (c.toNat - '0'.toNat)
  else if 'a' ≤ c ∧ c ≤ 'f' then some (c.toNat - 'a'.toNat + 10)
  else if 'A' ≤ c ∧ c ≤ 'F' then some (c.toNat - 'A'.toNat + 10)
  else none

/-- The value of four hexadecimal digits. -/
def hexUnit? (a b c d : Char) : Option Nat := do
  let a ← hexValue? a
  let b ← hexValue? b
  let c ← hexValue? c
  let d ← hexValue? d
  return ((a * 16 + b) * 16 + c) * 16 + d

/-- The character that a one-letter escape stands for. -/
def escaped? (c : Char) : Option Char :=
  if c = '"' ∨ c = '\\' ∨ c = '/' then some c
  else if c = 'b' then some (Char.ofNat 0x08)
  else if c = 'f' then some (Char.ofNat 0x0C)
  else if c = 'n' then some '\n'
  else if c = 'r' then some '\r'
  else if c = 't' then some '\t'
  else none

/-- A piece of a quoted text. -/
inductive Piece where
  /-- A character. -/
  | char (c : Char)
  /-- A unit of sixteen bits given by an escape. -/
  | unit (code : Nat)

/-- The pieces of a quoted text up to its closing quote, and what follows the quote. -/
def readPieces : List Char → Option (List Piece × List Char)
  | [] => none
  | '"' :: cs => some ([], cs)
  | '\\' :: 'u' :: a :: b :: c :: d :: cs => do
    let code ← hexUnit? a b c d
    let (pieces, rest) ← readPieces cs
    return (.unit code :: pieces, rest)
  | '\\' :: c :: cs => do
    let c ← escaped? c
    let (pieces, rest) ← readPieces cs
    return (.char c :: pieces, rest)
  | c :: cs =>
    if c.toNat < 0x20 ∨ c = '\\' then none
    else do
      let (pieces, rest) ← readPieces cs
      return (.char c :: pieces, rest)

/-- Whether a unit is the first half of a surrogate pair. -/
def isHighHalf (code : Nat) : Bool := 0xD800 ≤ code && code < 0xDC00

/-- Whether a unit is the second half of a surrogate pair. -/
def isLowHalf (code : Nat) : Bool := 0xDC00 ≤ code && code < 0xE000

/-- The characters of a quoted text, if no half of a surrogate pair stands alone. -/
def decode : List Piece → Option (List Char)
  | [] => some []
  | .char c :: ps => (decode ps).map (c :: ·)
  | .unit high :: .unit low :: ps =>
    if isHighHalf high then
      if isLowHalf low then
        (decode ps).map (Char.ofNat (0x10000 + (high - 0xD800) * 0x400 + (low - 0xDC00)) :: ·)
      else none
    else if isLowHalf high then none
    else (decode (.unit low :: ps)).map (Char.ofNat high :: ·)
  | .unit code :: ps =>
    if isHighHalf code || isLowHalf code then none
    else (decode ps).map (Char.ofNat code :: ·)

/-- A text after its opening quote. -/
def readText (cs : List Char) : Option (Option String × List Char) := do
  let (pieces, rest) ← readPieces cs
  return ((decode pieces).map String.ofList, rest)

/-! ## Numbers -/

/-- The whole part of a number: a zero alone, or digits of which the first is no zero. -/
def readWhole (cs : List Char) : Option (List Char × List Char) :=
  match cs.takeWhile Number.isDigit, cs.dropWhile Number.isDigit with
  | [], _ => none
  | ['0'], rest => some (['0'], rest)
  | '0' :: _, _ => none
  | ds, rest => some (ds, rest)

/-- The digits after the decimal point, if there is one. -/
def readFraction : List Char → Option (Option (List Char) × List Char)
  | '.' :: cs =>
    match cs.takeWhile Number.isDigit with
    | [] => none
    | ds => some (some ds, cs.dropWhile Number.isDigit)
  | cs => some (none, cs)

/-- The exponent, if there is one. -/
def readExponent : List Char → Option (Option Int × List Char)
  | c :: cs =>
    if c = 'e' ∨ c = 'E' then
      let (negative, body) := Number.readSign cs
      match body.takeWhile Number.isDigit with
      | [] => none
      | ds =>
        let n : Int := Number.natOfDigits ds
        some (some (if negative then -n else n), body.dropWhile Number.isDigit)
    else some (none, c :: cs)
  | [] => some (none, [])

/-- A number. -/
def readNumber (cs : List Char) : Option (Json × List Char) := do
  let (negative, body) :=
    match cs with
    | '-' :: cs => (true, cs)
    | cs => (false, cs)
  let (whole, rest) ← readWhole body
  let (fraction, rest) ← readFraction rest
  let (exponent, rest) ← readExponent rest
  let digits := fraction.getD []
  let value : Number.Decimal :=
    ⟨negative, Number.natOfDigits (whole ++ digits), exponent.getD 0 - digits.length⟩
  return (.number value (fraction.isNone && exponent.isNone), rest)

/-! ## Values -/

/-- What follows a given word, if the text starts with it. -/
def afterWord (word : String) (cs : List Char) : Option (List Char) :=
  if word.toList.isPrefixOf cs then some (cs.drop word.length) else none

mutual

/-- A value after leading space. The first argument bounds the calls. -/
def readValue : Nat → List Char → Option (Json × List Char)
  | 0, _ => none
  | bound + 1, cs =>
    match skipSpace cs with
    | '\x7b' :: cs =>
      match skipSpace cs with
      | '\x7d' :: rest => some (.object [], rest)
      | cs => (readMembers bound cs).map fun (members, rest) => (.object members, rest)
    | '[' :: cs =>
      match skipSpace cs with
      | ']' :: rest => some (.array [], rest)
      | cs => (readElements bound cs).map fun (elements, rest) => (.array elements, rest)
    | '"' :: cs => (readText cs).map fun (text?, rest) => (.string text?, rest)
    | 'n' :: cs => (afterWord "ull" cs).map fun rest => (.null, rest)
    | 't' :: cs => (afterWord "rue" cs).map fun rest => (.bool true, rest)
    | 'f' :: cs => (afterWord "alse" cs).map fun rest => (.bool false, rest)
    | cs => readNumber cs

/-- The elements of an array up to its closing bracket. -/
def readElements : Nat → List Char → Option (List Json × List Char)
  | 0, _ => none
  | bound + 1, cs => do
    let (element, rest) ← readValue bound cs
    match skipSpace rest with
    | ',' :: rest =>
      let (elements, rest) ← readElements bound rest
      return (element :: elements, rest)
    | ']' :: rest => return ([element], rest)
    | _ => none

/-- The members of an object up to its closing brace. -/
def readMembers : Nat → List Char → Option (List (Option String × Json) × List Char)
  | 0, _ => none
  | bound + 1, cs =>
    match skipSpace cs with
    | '"' :: cs => do
      let (name, rest) ← readText cs
      match skipSpace rest with
      | ':' :: rest =>
        let (value, rest) ← readValue bound rest
        match skipSpace rest with
        | ',' :: rest =>
          let (members, rest) ← readMembers bound rest
          return ((name, value) :: members, rest)
        | '\x7d' :: rest => return ([(name, value)], rest)
        | _ => none
      | _ => none
    | _ => none

end

/-- The value that a whole text denotes. A value nested in another starts after its bracket, so
twice the length of the text bounds the calls. -/
def parse? (s : String) : Option Json :=
  match readValue (2 * s.length + 2) s.toList with
  | some (value, rest) => if (skipSpace rest).isEmpty then some value else none
  | none => none

end DocQuery.Json
