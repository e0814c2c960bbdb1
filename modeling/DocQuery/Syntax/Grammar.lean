import DocQuery.Syntax.Lexeme

/-!
# The grammar

Readers of expressions, clauses and statements. A reader of one level takes the readers of the level
below for what stands in parentheses or follows a keyword (`Nested`), and `nested n` reads texts
nested up to `n` deep. Nesting takes at least one character each time, so as many levels as there are
characters left read everything; at the lowest level nothing is left to read, and its readers refuse
the empty rest as any level would.

`parseStatement` reads a whole text as one statement, and `parseExpr` as one expression.
-/

namespace DocQuery.Syntax

/-- The readers of what is nested in a text. -/
structure Nested where
  /-- Reads an expression. -/
  expr : Reader Expr
  /-- Reads an operand. -/
  operand : Reader Expr
  /-- Reads a statement. -/
  statement : Reader Statement

namespace Grammar

open Reader

/-! ## Lists -/

/-- What follows the first of several things separated by commas. The first argument bounds their
number. -/
def moreOf {α : Type} (single : Reader α) : Nat → Reader (List α)
  | 0 => pure []
  | bound + 1 => do
    if ← consumeChar ',' then
      let first ← single
      let others ← moreOf single bound
      return first :: others
    return []

/-- One or more things separated by commas. -/
def listOf {α : Type} (single : Reader α) : Reader (List α) := do
  let first ← single
  let others ← fun c => moreOf single c.rest.length c
  return first :: others

/-! ## Expressions -/

/-- The arguments of a call, in parentheses. -/
def arguments (inner : Nested) : Reader (List Expr) := do
  expectChar '(' "Expected '('"
  if ← consumeChar ')' then return []
  let args ← listOf inner.expr
  expectChar ')' "Invalid function arguments"
  return args

/-- A statement after an opening parenthesis, up to the closing one. -/
def subquery (inner : Nested) : Reader Expr := do
  let statement ← inner.statement
  expectChar ')' "Expected ')' to close the subquery"
  return .subquery statement

/-- What stands in parentheses, after the opening one. -/
def parenthesized (inner : Nested) : Reader Expr := do
  if ← isWord "SELECT" then subquery inner
  else
    let e ← inner.expr
    expectChar ')' "Expected ')'"
    return .parens e false

/-- A column or a call. -/
def reference (inner : Nested) : Reader Expr := do
  let start ← position
  let segments ← path
  if (← get).current = '(' then
    let args ← arguments inner
    skipBlank
    return .call (".".intercalate segments) args
  match segments with
  | [word] => if isReserved word then fail "Invalid expression" start
  | _ => pure ()
  skipBlank
  return .column (Column.ofSegments segments)

/-- A literal that is a word, a column or a call. -/
def worded (inner : Nested) : Reader Expr := do
  if ← consumeWord "TRUE" then return .literal (.bool true)
  if ← consumeWord "FALSE" then return .literal (.bool false)
  if ← consumeWord "NULL" then return .literal .null
  let c ← get
  if isNameStart c.current then reference inner
  else fail "Invalid expression" c.pos

/-- An operand: what stands in parentheses, a literal, the wildcard, a column or a call. -/
def operand (inner : Nested) : Reader Expr := do
  let c ← get
  if c.current = '(' then
    discard <| consumeChar '('
    parenthesized inner
  else if isQuote c.current then
    let value ← quoted
    skipBlank
    return .literal value
  else if startsNumber c then
    let value ← number
    skipBlank
    return .literal value
  else if c.current = '*' then
    discard <| consumeChar '*'
    return .wildcard
  else worded inner

/-- The list of an `IN` test, in parentheses: one subquery or operands. -/
def membership (inner : Nested) : Reader (List Expr) := do
  expectChar '(' "Expected '(' to open the list"
  if ← isWord "SELECT" then
    return [← subquery inner]
  let list ← listOf inner.operand
  expectChar ')' "Expected ')' to close the list"
  return list

/-- What may follow an operand other than a comparison or `IS`: a `LIKE` or an `IN` test, negated or
not. -/
def patternOrList (inner : Nested) (left : Expr) : Reader Expr := do
  let start ← position
  let negated ← consumeWord "NOT"
  if ← consumeWord "LIKE" then
    let pattern ← operand inner
    return .like left pattern negated
  if ← consumeWord "IN" then
    let list ← membership inner
    return .inList left list negated
  if negated then fail "Expected LIKE or IN after NOT" start
  return left

/-- An operand and the test it is put to, if there is one. -/
def predicate (inner : Nested) : Reader Expr := do
  let left ← operand inner
  match ← comparison with
  | some op =>
    let right ← operand inner
    return .compare left op right
  | none =>
    if ← consumeWord "IS" then
      let negated ← consumeWord "NOT"
      expectWord "NULL" "Expected NULL"
      return .isNull left negated
    patternOrList inner left

/-- The negation of an expression: of parentheses it is a mark on them. -/
def negate : Expr → Expr
  | .parens e false => .parens e true
  | e => .not e

/-- A predicate with any number of `NOT` in front, which the first argument bounds. -/
def negations (inner : Nested) : Nat → Reader Expr
  | 0 => predicate inner
  | bound + 1 => do
    if ← consumeWord "NOT" then
      return negate (← negations inner bound)
    predicate inner

/-- A predicate with any number of `NOT` in front. -/
def negation (inner : Nested) : Reader Expr := fun c => negations inner c.rest.length c

/-- The rest of a chain of one connective, grouped to the left. The first argument bounds its
length. -/
def chain (op : Connective) (word : String) (part : Reader Expr) : Nat → Expr → Reader Expr
  | 0, left => pure left
  | bound + 1, left => do
    if ← consumeWord word then
      let right ← part
      chain op word part bound (.logic op left right)
    else return left

/-- Parts joined by one connective, grouped to the left. -/
def chainOf (op : Connective) (word : String) (part : Reader Expr) : Reader Expr := do
  let left ← part
  fun c => chain op word part c.rest.length left c

/-- A chain of negations joined by `AND`. -/
def conjunction (inner : Nested) : Reader Expr := chainOf .and "AND" (negation inner)

/-- An expression: a chain of conjunctions joined by `OR`. -/
def expr (inner : Nested) : Reader Expr := chainOf .or "OR" (conjunction inner)

/-! ## Clauses -/

/-- An item of a select list. -/
def selectItem (inner : Nested) : Reader SelectItem := do
  if ← consumeChar '*' then return .wildcard
  let e ← inner.expr
  let name ← aliasName
  return .expr e name

/-- A select list. -/
def selectItems (inner : Nested) : Reader (List SelectItem) := listOf (selectItem inner)

/-- The name of a table, with the whole of it refused if it is no path. -/
def tableName : Reader String := fun c =>
  match path c with
  | .ok (segments, c') => .ok (".".intercalate segments, c')
  | .error e => .error ((c.seek e.stop).error "Invalid table name" c.pos)

/-- What is read from. -/
def source (inner : Nested) : Reader Source := do
  if ← consumeChar '(' then
    let statement ← inner.statement
    expectChar ')' "Expected ')' to close the sub select"
    let name ← aliasName
    return .query statement name
  let table ← tableName
  skipBlank
  let name ← aliasName
  return .table table name

/-- The word in front of `JOIN`, if one comes next. -/
def joinSide : Reader (Option JoinKind) := do
  if ← consumeWord "INNER" then return some .inner
  if ← consumeWord "LEFT" then return some .left
  if ← consumeWord "RIGHT" then return some .right
  if ← consumeWord "FULL" then return some .full
  return none

/-- The words that start a join, if it comes next. -/
def joinKind : Reader (Option JoinKind) := do
  if ← consumeWord "JOIN" then return some .inner
  match ← joinSide with
  | none => return none
  | some kind =>
    unless kind = .inner do discard <| consumeWord "OUTER"
    expectWord "JOIN" "Expected JOIN"
    return some kind

/-- The joins that come next. The first argument bounds their number. -/
def joinsWithin (inner : Nested) : Nat → Reader (List Join)
  | 0 => pure []
  | bound + 1 => do
    match ← joinKind with
    | none => return []
    | some kind =>
      let source ← source inner
      expectWord "ON" "Expected ON after the joined table"
      let condition ← inner.expr
      let others ← joinsWithin inner bound
      return ⟨kind, source, condition⟩ :: others

/-- The joins that come next. -/
def joins (inner : Nested) : Reader (List Join) := fun c => joinsWithin inner c.rest.length c

/-- A key of an ordering. -/
def orderKey (inner : Nested) : Reader OrderKey := do
  let e ← inner.operand
  if ← consumeWord "DESC" then return ⟨e, false⟩
  discard <| consumeWord "ASC"
  return ⟨e, true⟩

/-- The keys of an ordering. -/
def orderKeys (inner : Nested) : Reader (List OrderKey) := listOf (orderKey inner)

/-- A column of `GROUP BY`. -/
def groupColumn (inner : Nested) : Reader Column := do
  let start ← position
  match ← inner.operand with
  | .column c => return c
  | _ => fail "Invalid group by" start

/-- A number of rows. -/
def rowCount (inner : Nested) (reason : String) : Reader Nat := do
  let start ← position
  match ← inner.operand with
  | .literal (.int (.ofNat n)) => return n
  | _ => fail reason start

/-- A condition after a keyword, if the keyword comes next. -/
def conditionAfter (inner : Nested) (word : String) : Reader (Option Expr) := do
  if ← consumeWord word then return some (← inner.expr)
  return none

/-- A number of rows after a keyword, if the keyword comes next. -/
def rowCountAfter (inner : Nested) (word reason : String) : Reader (Option Nat) := do
  if ← consumeWord word then return some (← rowCount inner reason)
  return none

/-- A list after a keyword and `BY`, if the keyword comes next. -/
def listAfter {α : Type} (word reason : String) (list : Reader (List α)) : Reader (List α) := do
  if ← consumeWord word then
    expectWord "BY" reason
    list
  else return []

/-! ## Statements -/

/-- A `DELETE` statement after its first word. -/
def delete (inner : Nested) : Reader Statement := do
  expectWord "FROM" "Expected FROM after DELETE"
  match ← source inner with
  | .query _ _ => fail "DELETE requires a table" (← position)
  | .table table name =>
    let condition ← conditionAfter inner "WHERE"
    return .delete table name condition

/-- A `SELECT` statement after its first word. -/
def select (inner : Nested) : Reader Select := do
  let distinct ← consumeWord "DISTINCT"
  let items ← selectItems inner
  expectWord "FROM" "Expected FROM"
  let source ← source inner
  let joins ← joins inner
  let condition ← conditionAfter inner "WHERE"
  let groupBy ← listAfter "GROUP" "Expected BY after GROUP" (listOf (groupColumn inner))
  let having ← conditionAfter inner "HAVING"
  let orderBy ← listAfter "ORDER" "Expected BY after ORDER" (orderKeys inner)
  let limit ← rowCountAfter inner "LIMIT" "Invalid limit"
  let offset ← rowCountAfter inner "OFFSET" "Invalid offset"
  return ⟨distinct, items, source, joins, condition, groupBy, having, orderBy, limit, offset⟩

/-- A statement. -/
def statement (inner : Nested) : Reader Statement := do
  skipBlank
  if ← consumeWord "DELETE" then delete inner
  else
    expectWord "SELECT" "Expected SELECT or DELETE"
    return .select (← select inner)

/-! ## Levels -/

/-- The readers at a nesting depth of which nothing is left to read. -/
def lowest : Nested where
  expr := fun c => .error (c.error "Invalid expression" c.pos)
  operand := fun c => .error (c.error "Invalid expression" c.pos)
  statement := fun c => .error (c.error "Expected SELECT or DELETE" c.pos)

/-- The readers of texts nested up to a given depth. -/
def nested : Nat → Nested
  | 0 => lowest
  | depth + 1 =>
    let inner := nested depth
    ⟨expr inner, operand inner, statement inner⟩

/-- A reader given by what is nested, with as many levels as there are characters left. -/
def withNested {α : Type} (r : Nested → Reader α) : Reader α := fun c =>
  r (nested c.rest.length) c

end Grammar

/-- Reads one statement and what may end it, a semicolon, and refuses all that follows. -/
def statementText : Reader Statement := do
  let s ← Grammar.withNested Grammar.statement
  discard <| Reader.consumeChar ';'
  let c ← get
  if c.atEnd then return s else throw c.trailing

/-- The statement that a whole text denotes. -/
def parseStatement (s : String) : Except SyntaxError Statement :=
  (statementText (Cursor.ofString s)).map (·.1)

/-- Reads one expression and refuses all that follows. -/
def exprText : Reader Expr := do
  let e ← Grammar.withNested Grammar.expr
  let c ← get
  if c.atEnd then return e else throw c.trailing

/-- The expression that a whole text denotes. -/
def parseExpr (s : String) : Except SyntaxError Expr :=
  (exprText (Cursor.ofString s)).map (·.1)

end DocQuery.Syntax
