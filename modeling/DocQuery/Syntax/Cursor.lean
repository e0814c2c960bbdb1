import DocQuery.Text.Blank

/-!
# Cursors

A cursor is a position in a text. Positions count characters, and a cursor knows the characters from
its position on (`Cursor.rest_eq`). Moving forward stops at the end of the text.
-/

namespace DocQuery.Syntax

/-- A position in a text. -/
structure Cursor where
  /-- The whole text. -/
  text : List Char
  /-- The number of characters before the cursor. -/
  pos : Nat
  /-- The characters from the cursor on. -/
  rest : List Char
  /-- The rest is what the text has from the position on. -/
  rest_eq : rest = text.drop pos

/-- Where and why a text is refused. -/
structure SyntaxError where
  /-- Why the text is refused. -/
  reason : String
  /-- The characters from `start` up to and including `stop`. -/
  text : String
  /-- Where the refused part starts. -/
  start : Nat
  /-- Where the cursor stood. -/
  stop : Nat
deriving DecidableEq

/-- The wording of a refusal. -/
def SyntaxError.message (e : SyntaxError) : String :=
  "ParseError: " ++ e.reason ++ "\n  at [" ++ Nat.repr e.start ++ ":" ++ Nat.repr e.stop ++
    "] -> '" ++ e.text ++ "'"

namespace Cursor

/-- The cursor at the start of a text. -/
def ofString (s : String) : Cursor := ⟨s.toList, 0, s.toList, rfl⟩

/-- The character that stands for the end of the text. -/
def endMark : Char := Char.ofNat 0

/-- Whether there is nothing after the cursor. -/
def atEnd (c : Cursor) : Bool := c.rest.isEmpty

/-- The character a number of places after the cursor, the end mark past the end. -/
def peek (c : Cursor) (ahead : Nat) : Char := c.rest[ahead]?.getD endMark

/-- The character after the cursor. -/
def current (c : Cursor) : Char := c.peek 0

/-- The cursor at any position, also past the end. -/
def seek (c : Cursor) (pos : Nat) : Cursor := ⟨c.text, pos, c.text.drop pos, rfl⟩

/-- The cursor moved forward by a number of characters, as far as there are any. -/
def advance (c : Cursor) (count : Nat) : Cursor where
  text := c.text
  pos := c.pos + min count c.rest.length
  rest := c.rest.drop count
  rest_eq := by
    rw [c.rest_eq, List.drop_drop]
    by_cases h : count ≤ (c.text.drop c.pos).length
    · rw [Nat.min_eq_left h]
    · have h' : (c.text.drop c.pos).length ≤ count := by omega
      rw [Nat.min_eq_right h']
      simp only [List.length_drop] at h' ⊢
      rw [List.drop_of_length_le (by omega), List.drop_of_length_le (by omega)]

/-- The cursor moved forward by a number of characters, and to the end of the text if that is not
as far, even from past the end. -/
def jump (c : Cursor) (count : Nat) : Cursor :=
  if c.atEnd then c.seek c.text.length else c.advance count

/-- The cursor moved over blank characters. -/
def skipBlank (c : Cursor) : Cursor :=
  c.advance (c.rest.takeWhile Text.isBlank).length

/-- The characters of the text from one position to before another. -/
def slice (c : Cursor) (start stop : Nat) : String :=
  String.ofList ((c.text.take stop).drop start)

/-- The characters from a position to before the cursor. -/
def sliceFrom (c : Cursor) (start : Nat) : String := c.slice start c.pos

/-- The refusal of what stands between a position and the cursor. -/
def error (c : Cursor) (reason : String) (pivot : Nat) : SyntaxError :=
  let start := min pivot c.pos
  ⟨reason, c.slice start (c.pos + 1), start, c.pos⟩

/-- The refusal of what is left after a complete statement. -/
def trailing (c : Cursor) : SyntaxError :=
  ⟨"unable to parse complete sql string", c.slice c.pos c.text.length, c.pos, c.text.length⟩

end Cursor

end DocQuery.Syntax
