import DocQuery.Syntax.Reader
import DocQuery.Text.Letter
import DocQuery.Text.Numeral

/-!
# Names

A name starts with a letter of any script, an underscore or a dollar sign and goes on with those and
with numerals. A path is a list of names with dots between them.
-/

namespace DocQuery.Syntax

/-- Whether a character may start a name. -/
def isNameStart (c : Char) : Bool := Text.isLetter c || c = '_' || c = '$'

/-- Whether a character may stand in a name. -/
def isNameChar (c : Char) : Bool := Text.isLetter c || Text.isNumeral c || c = '_' || c = '$'

namespace Reader

/-- A name without dots. -/
def name : Reader String := fun c =>
  if isNameStart c.current then
    let letters := c.rest.takeWhile isNameChar
    .ok (String.ofList letters, c.advance letters.length)
  else .error (c.error "Invalid identifier" c.pos)

/-- The names that follow dots. The first argument bounds their number. -/
def dottedNames : Nat → Reader (List String)
  | 0 => pure []
  | bound + 1 => fun c =>
    if c.current = '.' && isNameStart (c.peek 1) then
      match name (c.advance 1) with
      | .ok (first, c') =>
        match dottedNames bound c' with
        | .ok (others, c'') => .ok (first :: others, c'')
        | .error e => .error e
      | .error e => .error e
    else .ok ([], c)

/-- A dotted path. -/
def path : Reader (List String) := do
  let first ← name
  let others ← fun c => dottedNames c.rest.length c
  return first :: others

/-- An alias: a name after `AS`, or a name that is no keyword. -/
def aliasName : Reader (Option String) := do
  if ← consumeWord "AS" then
    let word ← name
    skipBlank
    return some word
  let start ← get
  if isNameStart start.current then
    let word ← name
    if isReserved word then
      set start
      return none
    skipBlank
    return some word
  return none

end Reader

end DocQuery.Syntax
