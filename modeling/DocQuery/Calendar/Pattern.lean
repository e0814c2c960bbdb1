/-!
# Date patterns

A date pattern such as `yyyy-MM-dd'T'HH:mm` is cut into pieces: quoted runs, maximal runs of one
pattern letter, the single signs `a`, `Z` and `%`, and other characters. `Pattern.format` writes each
piece as a date format, in which a percent sign starts a field and two of them stand for one.
-/

namespace DocQuery.Calendar

/-- A piece of a date pattern. -/
inductive Piece where
  /-- The characters between two quotes. -/
  | quoted (body : List Char)
  /-- A maximal run of one of the letters `y M d H h m s S X`. -/
  | run (letter : Char) (count : Nat)
  /-- One of the signs `a`, `Z` and `%`. -/
  | sign (c : Char)
  /-- Any other character. -/
  | plain (c : Char)
deriving DecidableEq

namespace Pattern

/-- Whether a character is a pattern letter that forms runs. -/
def isRunLetter (c : Char) : Bool :=
  ['y', 'M', 'd', 'H', 'h', 'm', 's', 'S', 'X'].contains c

/-- Whether a character is a sign that stands alone. -/
def isSign (c : Char) : Bool := ['a', 'Z', '%'].contains c

/-- The pieces of a pattern, where the first argument is at least the number of its characters. -/
def cutWithin : Nat → List Char → List Piece
  | _, [] => []
  | 0, _ :: _ => []
  | bound + 1, c :: cs =>
    if c = '\'' then
      match cs.dropWhile (· != '\'') with
      | _ :: after => .quoted (cs.takeWhile (· != '\'')) :: cutWithin bound after
      | [] => .plain c :: cutWithin bound cs
    else if isRunLetter c then
      .run c ((cs.takeWhile (· == c)).length + 1) :: cutWithin bound (cs.dropWhile (· == c))
    else if isSign c then .sign c :: cutWithin bound cs
    else .plain c :: cutWithin bound cs

/-- The pieces of a pattern, left to right. -/
def cut (cs : List Char) : List Piece := cutWithin cs.length cs

/-- A character of a literal in a format: the percent sign is written twice. -/
def literal (c : Char) : List Char := if c = '%' then ['%', '%'] else [c]

/-- The field that a run of a pattern letter names. -/
def runField? (letter : Char) (count : Nat) : Option (List Char) :=
  match letter, count with
  | 'y', 4 => some ['%', 'Y']
  | 'y', 1 => some ['%', 'Y']
  | 'y', 2 => some ['%', 'y']
  | 'M', 2 => some ['%', 'm']
  | 'M', 1 => some ['%', 'm']
  | 'M', 3 => some ['%', 'b']
  | 'd', 2 => some ['%', 'd']
  | 'd', 1 => some ['%', 'd']
  | 'H', 2 => some ['%', 'H']
  | 'H', 1 => some ['%', 'H']
  | 'h', 2 => some ['%', 'I']
  | 'h', 1 => some ['%', 'I']
  | 'm', 2 => some ['%', 'M']
  | 'm', 1 => some ['%', 'M']
  | 's', 2 => some ['%', 'S']
  | 's', 1 => some ['%', 'S']
  | 'S', 3 => some ['%', '3', 'f']
  | 'X', 1 => some ['%', ':', 'z']
  | 'X', 2 => some ['%', ':', 'z']
  | 'X', 3 => some ['%', ':', 'z']
  | _, _ => none

/-- The format of a sign. -/
def signFormat (c : Char) : List Char :=
  if c = 'a' then ['%', 'p'] else if c = 'Z' then ['%', 'z'] else ['%', '%']

/-- The format of a piece. A run that names no field stands for itself. -/
def pieceFormat : Piece → List Char
  | .quoted body => body.flatMap literal
  | .run letter count => (runField? letter count).getD (List.replicate count letter)
  | .sign c => signFormat c
  | .plain c => [c]

/-- The date format that a pattern denotes. -/
def format (pattern : String) : String :=
  String.ofList ((cut pattern.toList).flatMap pieceFormat)

end Pattern

end DocQuery.Calendar
