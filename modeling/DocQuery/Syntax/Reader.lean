import DocQuery.Syntax.Cursor
import DocQuery.Text.Casing

/-!
# Readers

A reader takes a cursor to a value and a cursor further on, or refuses the text. A refusal stops
where the cursor stood, so `Reader.after` is the cursor after a reader in both cases.

Words are matched without regard to the case of ASCII letters. The keywords of the language end at a
delimiter or at the end of the text.
-/

namespace DocQuery.Syntax

/-- A reader of part of a text. -/
abbrev Reader (α : Type) := StateT Cursor (Except SyntaxError) α

namespace Reader

/-- The cursor after a reader: where it stopped, whether it read something or refused the text. -/
def after {α : Type} (r : Reader α) (c : Cursor) : Cursor :=
  match r c with
  | .ok (_, c') => c'
  | .error e => c.seek e.stop

/-- Refuses what stands between a position and the cursor. -/
def fail {α : Type} (reason : String) (pivot : Nat) : Reader α :=
  fun c => .error (c.error reason pivot)

/-- Moves over blank characters. -/
def skipBlank : Reader Unit := fun c => .ok ((), c.skipBlank)

/-- The position of the cursor. -/
def position : Reader Nat := fun c => .ok (c.pos, c)

/-- Moves over a given character and the blanks after it, if it comes next. -/
def consumeChar (expected : Char) : Reader Bool := fun c =>
  if c.current = expected then .ok (true, (c.advance 1).skipBlank) else .ok (false, c)

/-- Moves over a given character and the blanks after it, and refuses any other. -/
def expectChar (expected : Char) (reason : String) : Reader Unit := do
  unless ← consumeChar expected do fail reason (← position)

end Reader

/-! ## Words -/

/-- Whether a character ends a word. -/
def isDelimiter (c : Char) : Bool :=
  [',', '(', ')', ';', '=', '<', '>', '!', '\'', '"'].contains c || Text.isBlank c

/-- A word that is matched without regard to case. -/
structure Word where
  /-- The letters, in upper case. -/
  letters : List Char
  /-- Whether a delimiter must follow. -/
  delimited : Bool
  /-- Whether the word may end the text. -/
  closing : Bool

namespace Word

/-- The word with the letters of a text. -/
def ofString (s : String) (delimited closing : Bool) : Word :=
  ⟨(Text.upper s).toList, delimited, closing⟩

/-- The keyword spelled by a text in upper case. -/
def keyword (s : String) : Word := ⟨s.toList, true, true⟩

/-- Whether nothing would be left after the word. -/
def reachesEnd (w : Word) (c : Cursor) : Bool := (c.rest.drop w.letters.length).isEmpty

/-- Whether the letters stand at the cursor, the end mark standing for what is past the end. -/
def spelledAt (letters : List Char) (rest : List Char) : Bool :=
  match letters with
  | [] => true
  | l :: ls =>
    Text.asciiUpper (rest.head?.getD Cursor.endMark) = l && spelledAt ls rest.tail

/-- Whether the word stands at the cursor. -/
def isAt (w : Word) (c : Cursor) : Bool :=
  spelledAt w.letters c.rest &&
    if w.reachesEnd c then w.closing
    else !w.delimited || isDelimiter (c.peek w.letters.length)

end Word

namespace Reader

/-- Whether a keyword stands at the cursor. -/
def isWord (word : String) : Reader Bool := fun c => .ok ((Word.keyword word).isAt c, c)

/-- Moves over a keyword and the blanks after it, if it comes next. -/
def consumeWord (word : String) : Reader Bool := fun c =>
  if (Word.keyword word).isAt c then .ok (true, (c.jump word.length).skipBlank)
  else .ok (false, c)

/-- Moves over a keyword and the blanks after it, and refuses all else. -/
def expectWord (word : String) (reason : String) : Reader Unit := do
  unless ← consumeWord word do fail reason (← position)

end Reader

/-- The keywords, none of which is read as an alias or as a column without a table. -/
def reservedWords : List String :=
  ["SELECT", "DISTINCT", "DELETE", "AS", "FROM", "JOIN", "INNER", "LEFT", "RIGHT", "FULL",
   "OUTER", "ON", "WHERE", "GROUP", "BY", "HAVING", "ORDER", "ASC", "DESC", "LIMIT",
   "OFFSET", "AND", "OR", "NOT", "LIKE", "IS", "IN", "TRUE", "FALSE", "NULL"]

/-- Whether a text is a keyword. -/
def isReserved (s : String) : Bool := reservedWords.any (Text.sameIgnoringCase · s)

end DocQuery.Syntax
