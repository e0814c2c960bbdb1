import DocQuery.Syntax.Name
import DocQuery.Syntax.Tree

/-!
# Literals and signs

Readers of quoted texts, numbers and comparison signs.
-/

namespace DocQuery.Syntax

/-- Whether a character opens a quoted text. -/
def isQuote (c : Char) : Bool := c = '\'' || c = '"'

/-- The characters of a quoted text after its opening quote, and how many characters they take with
the closing quote. A doubled quote stands for the quote itself. Past the end of the text stands the
end mark, so a text between end marks is never closed by the last one. -/
def quotedBody (quote : Char) : List Char → Option (List Char × Nat)
  | [] => none
  | [c] => if c = quote ∧ quote ≠ Cursor.endMark then some ([], 1) else none
  | c :: d :: cs =>
    if c = quote then
      if d = quote then (quotedBody quote cs).map fun (body, size) => (quote :: body, size + 2)
      else some ([], 1)
    else (quotedBody quote (d :: cs)).map fun (body, size) => (c :: body, size + 1)

/-- The characters of a number after its sign, where `pointed` tells whether there was a point. -/
def numberBody (pointed : Bool) : List Char → List Char
  | [] => []
  | c :: cs =>
    if c = '.' ∧ pointed = false then c :: numberBody true cs
    else if Number.isDigit c then c :: numberBody pointed cs
    else []

/-- The literal that the characters of a number denote: a whole number if it has no point and fits
in a word, else a number of double precision if there is a finite one. -/
def numberLiteral? (cs : List Char) : Option Literal :=
  match if cs.contains '.' then none else Number.wordInt? cs with
  | some n => some (.int n)
  | none => ((Number.Decimal.parse? cs).bind Number.Binary64.ofDecimal?).map .float

/-- Whether a number starts at the cursor: a digit, or a minus sign or a point before a digit. -/
def startsNumber (c : Cursor) : Bool :=
  Number.isDigit c.current ||
    ((c.current = '-' || c.current = '.') && Number.isDigit (c.peek 1))

/-- The comparison whose sign two characters start with, and how many of them the sign takes. -/
def Comparison.ofSign? : Char → Char → Option (Comparison × Nat)
  | '<', '>' => some (.notEqual, 2)
  | '!', '=' => some (.notEqual, 2)
  | '<', '=' => some (.lessEqual, 2)
  | '>', '=' => some (.greaterEqual, 2)
  | '=', _ => some (.equal, 1)
  | '<', _ => some (.less, 1)
  | '>', _ => some (.greater, 1)
  | _, _ => none

namespace Reader

/-- A quoted text, whatever character comes next being the quote. -/
def quoted : Reader Literal := fun c =>
  match quotedBody c.current (c.rest.drop 1) with
  | some (body, size) => .ok (.string (String.ofList body), c.advance (size + 1))
  | none => .error ((c.advance c.rest.length).error "Unterminated string" c.pos)

/-- A number. -/
def number : Reader Literal := fun c =>
  let sign := if c.current = '-' then c.rest.take 1 else []
  let body := numberBody false (c.rest.drop sign.length)
  let c' := c.advance (sign.length + body.length)
  match numberLiteral? (sign ++ body) with
  | some value => .ok (value, c')
  | none => .error (c'.error "Invalid number" c.pos)

/-- A comparison sign and the blanks after it, if one comes next. -/
def comparison : Reader (Option Comparison) := fun c =>
  match Comparison.ofSign? c.current (c.peek 1) with
  | some (op, size) => .ok (some op, (c.advance size).skipBlank)
  | none => .ok (none, c)

end Reader

end DocQuery.Syntax
