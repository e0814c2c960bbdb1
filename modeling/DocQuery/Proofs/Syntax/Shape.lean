import DocQuery.Proofs.Syntax.Literals
import DocQuery.Syntax.Grammar

/-!
# The shape of what is read

Not every tree is the tree of a text. The sides of a comparison are operands, the parts of a
conjunction are negations, a column without a table is not reserved, and so on: `IsOperand`,
`IsPredicate`, `IsExpr`, `IsSource`, `IsSelect` and `IsStatement` say what the grammar can read. Some
calls are never read at the start of an expression, because the name of the function is a keyword that
is looked for there first (`Expr.Calls`).

`nested_sound` says that whatever is read has this shape, at any depth of nesting: one level reads
trees of this shape if the level below does (`sound_next`).
-/

namespace DocQuery.Syntax

open Reader Grammar

/-! ## How an expression starts -/

/-- The operand that an expression starts with. Of an expression that starts with `NOT` it is the
expression itself. -/
def Expr.first : Expr → Expr
  | .compare left _ _ => left.first
  | .like operand _ _ => operand.first
  | .isNull operand _ => operand.first
  | .inList operand _ _ => operand.first
  | .logic _ left _ => left.first
  | e => e

/-- Whether an expression starts with a call of the function that a keyword names. -/
def Expr.Calls (word : String) (e : Expr) : Prop :=
  ∃ name args, e.first = .call name args ∧ name.toList.map Text.asciiUpper = word.toList

/-- Whether a text is a dotted path. -/
def IsPath (text : String) : Prop :=
  ∃ segments : List String, segments ≠ [] ∧ (∀ s ∈ segments, IsName s) ∧
    ".".intercalate segments = text

/-- Whether a column can be read: it is a path, and not reserved if it has no table. -/
def IsColumn (c : Column) : Prop :=
  ∃ segments : List String, segments ≠ [] ∧ (∀ s ∈ segments, IsName s) ∧
    (∀ word, segments = [word] → isReserved word = false) ∧ Column.ofSegments segments = c

theorem mem_dotted {names : List String} (hn : ∀ s ∈ names, IsName s) {ch : Char}
    (h : ch ∈ dotted names) : isDelimiter ch = false := by
  obtain ⟨s, hs, hch⟩ := List.mem_flatMap.1 h
  rcases List.mem_cons.1 hch with rfl | hch
  · decide
  · exact (hn s hs).not_delimiter ch hch

theorem IsPath.not_delimiter {text : String} (h : IsPath text) :
    ∀ ch ∈ text.toList, isDelimiter ch = false := by
  obtain ⟨segments, hne, hn, rfl⟩ := h
  obtain ⟨s, names, rfl⟩ := List.exists_cons_of_ne_nil hne
  obtain ⟨hs, hnames⟩ := List.forall_mem_cons.1 hn
  rw [toList_intercalate_dot]
  intro ch hm
  rcases List.mem_append.1 hm with hm | hm
  · exact hs.not_delimiter ch hm
  · exact mem_dotted hnames hm

/-- A text that starts as an expression does: with the name and the parenthesis of a call, or with
the wildcard. -/
def Begins (cs : List Char) (e : Expr) : Prop :=
  (∀ name args, e.first = .call name args →
    IsPath name ∧ ∃ rest, cs = name.toList ++ '(' :: rest) ∧
  (e.first = .wildcard → ∃ rest, cs = '*' :: rest)

/-- An expression with the same first operand starts the same way. -/
theorem Begins.of_first {cs : List Char} {e e' : Expr} (h : Begins cs e)
    (he : e'.first = e.first) : Begins cs e' := by
  unfold Begins at h ⊢
  rw [he]
  exact h

/-- Nothing is known of a text where something else than a call or the wildcard is read. -/
theorem begins_of_ne {cs : List Char} {e : Expr} (hc : ∀ name args, e.first ≠ .call name args)
    (hw : e.first ≠ .wildcard) : Begins cs e :=
  ⟨fun name args h => absurd h (hc name args), fun h => absurd h hw⟩

/-- The keyword that names the function of a first call stands at the start of the text. -/
theorem Begins.startsWith {cs : List Char} {e : Expr} (h : Begins cs e) {word : String}
    (hw : IsUpperWord word) (hc : e.Calls word) : startsWith word cs = true := by
  obtain ⟨name, args, hf, hname⟩ := hc
  obtain ⟨hp, rest, rfl⟩ := h.1 name args hf
  exact (startsWith_append_iff hw hp.not_delimiter (delimited_cons (by decide) _)).2 hname

theorem Begins.not_calls {cs : List Char} {e : Expr} (h : Begins cs e) {word : String}
    (hw : IsUpperWord word) (hs : Syntax.startsWith word cs = false) : ¬ e.Calls word := by
  intro hc
  rw [h.startsWith hw hc] at hs
  cases hs

/-! ## Trees that can be read -/

/-- Expressions with any number of negations in front, of which the innermost has the given shape and
does not itself start with `NOT`. -/
inductive Negated (p : Expr → Prop) : Expr → Prop
  /-- No negation. -/
  | base {e : Expr} (h : p e) (hn : ¬ e.Calls "NOT") : Negated p e
  /-- One more negation. -/
  | negate {e : Expr} (h : Negated p e) : Negated p (Grammar.negate e)

/-- Expressions of the given shape, joined by one connective and grouped to the left. -/
inductive Chained (op : Connective) (p : Expr → Prop) : Expr → Prop
  /-- A single expression. -/
  | single {e : Expr} (h : p e) : Chained op p e
  /-- One more expression. -/
  | logic {left right : Expr} (hl : Chained op p left) (hr : p right) :
    Chained op p (.logic op left right)

mutual

/-- The trees that are read as operands. -/
inductive IsOperand : Expr → Prop
  | literal {value : Literal} (h : value.Readable) : IsOperand (.literal value)
  | column {c : Column} (h : IsColumn c) : IsOperand (.column c)
  | call {name : String} {args : List Expr} (hn : IsPath name)
    (hw : ∀ word ∈ ["TRUE", "FALSE", "NULL"], ¬ (Expr.call name args).Calls word)
    (h : ∀ e ∈ args, IsExpr e) : IsOperand (.call name args)
  | wildcard : IsOperand .wildcard
  | parens {e : Expr} (h : IsExpr e) (hs : ¬ e.Calls "SELECT") : IsOperand (.parens e false)
  | subquery {query : Select} (h : IsSelect query) : IsOperand (.subquery (.select query))

/-- The trees that are read as an operand and the test it is put to. -/
inductive IsPredicate : Expr → Prop
  | operand {e : Expr} (h : IsOperand e) : IsPredicate e
  | compare {left right : Expr} (op : Comparison) (hl : IsOperand left) (hr : IsOperand right) :
    IsPredicate (.compare left op right)
  | like {operand pattern : Expr} (negated : Bool) (hl : IsOperand operand)
    (hr : IsOperand pattern) : IsPredicate (.like operand pattern negated)
  | isNull {operand : Expr} (negated : Bool) (hl : IsOperand operand) :
    IsPredicate (.isNull operand negated)
  | inList {operand : Expr} {list : List Expr} (negated : Bool) (hl : IsOperand operand)
    (hne : list ≠ []) (h : ∀ e ∈ list, IsOperand e) (hs : ∀ e ∈ list.head?, ¬ e.Calls "SELECT") :
    IsPredicate (.inList operand list negated)

/-- The trees that are read as expressions. -/
inductive IsExpr : Expr → Prop
  | of {e : Expr} (h : Chained .or (Chained .and (Negated IsPredicate)) e) : IsExpr e

/-- The trees that are read as select items. -/
inductive IsItem : SelectItem → Prop
  | wildcard : IsItem .wildcard
  | expr {e : Expr} {name : Option String} (h : IsExpr e) (hw : e.first ≠ .wildcard)
    (hn : ∀ word ∈ name, IsName word) : IsItem (.expr e name)

/-- The trees that are read as sources. -/
inductive IsSource : Source → Prop
  | table {table : String} {name : Option String} (h : IsPath table)
    (hn : ∀ word ∈ name, IsName word) : IsSource (.table table name)
  | query {statement : Statement} {name : Option String} (h : IsStatement statement)
    (hn : ∀ word ∈ name, IsName word) : IsSource (.query statement name)

/-- The trees that are read as joins. -/
inductive IsJoin : Join → Prop
  | of {join : Join} (hs : IsSource join.source) (hc : IsExpr join.condition) : IsJoin join

/-- The trees that are read as `SELECT` statements. -/
inductive IsSelect : Select → Prop
  | of {query : Select} (items_ne : query.items ≠ []) (items : ∀ item ∈ query.items, IsItem item)
    (first : query.distinct = false → ∀ e name, query.items.head? = some (.expr e name) →
      ¬ e.Calls "DISTINCT")
    (source : IsSource query.source) (joins : ∀ join ∈ query.joins, IsJoin join)
    (condition : ∀ e ∈ query.condition, IsExpr e) (groupBy : ∀ c ∈ query.groupBy, IsColumn c)
    (having : ∀ e ∈ query.having, IsExpr e)
    (orderBy : ∀ key ∈ query.orderBy, IsOperand key.expr)
    (limit : ∀ n ∈ query.limit, Number.fitsWord n = true)
    (offset : ∀ n ∈ query.offset, Number.fitsWord n = true) : IsSelect query

/-- The trees that are read as statements. -/
inductive IsStatement : Statement → Prop
  | select {query : Select} (h : IsSelect query) : IsStatement (.select query)
  | delete {table : String} {name : Option String} {condition : Option Expr} (h : IsPath table)
    (hn : ∀ word ∈ name, IsName word) (hc : ∀ e ∈ condition, IsExpr e) :
    IsStatement (.delete table name condition)

end

/-! ## Connectives at the root -/

theorem IsPredicate.connective? {e : Expr} (h : IsPredicate e) : e.connective? = none := by
  cases h with
  | operand h => cases h <;> rfl
  | compare | like | isNull | inList => rfl

theorem connective?_negate (e : Expr) : (negate e).connective? = none := by
  unfold negate
  split <;> rfl

theorem Negated.connective? {e : Expr} (h : Negated IsPredicate e) : e.connective? = none := by
  cases h with
  | base h _ => exact h.connective?
  | negate _ => exact connective?_negate _

/-! ## Lists and chains -/

namespace Grammar

section

variable {α : Type} {p : α → Prop} {single : Reader α}

theorem forall_of_moreOf (hs : ∀ {c a c'}, single c = .ok (a, c') → p a) {bound : Nat}
    {c c' : Cursor} {found : List α} (h : moreOf single bound c = .ok (found, c')) :
    ∀ a ∈ found, p a := by
  induction bound generalizing c c' found with
  | zero =>
    obtain ⟨rfl, -⟩ := run_pure_eq_ok.1 h
    exact fun _ hm => nomatch hm
  | succ bound ih =>
    rw [moreOf] at h
    obtain ⟨comma, c₁, -, h⟩ := run_bind_eq_ok.1 h
    cases comma with
    | true =>
      obtain ⟨first, c₂, hf, h⟩ := run_bind_eq_ok.1 h
      obtain ⟨others, c₃, ho, h⟩ := run_bind_eq_ok.1 h
      obtain ⟨rfl, -⟩ := run_pure_eq_ok.1 h
      exact List.forall_mem_cons.2 ⟨hs hf, ih ho⟩
    | false =>
      obtain ⟨rfl, -⟩ := run_pure_eq_ok.1 h
      exact fun _ hm => nomatch hm

/-- A list is read with its first element where the list starts. -/
theorem listOf_eq_ok (hs : ∀ {c a c'}, single c = .ok (a, c') → p a) {c c' : Cursor}
    {found : List α} (h : listOf single c = .ok (found, c')) :
    ∃ first others c₁, found = first :: others ∧ single c = .ok (first, c₁) ∧
      ∀ a ∈ found, p a := by
  rw [listOf] at h
  obtain ⟨first, c₁, hf, h⟩ := run_bind_eq_ok.1 h
  obtain ⟨others, c₂, ho, h⟩ := run_bind_eq_ok.1 h
  obtain ⟨rfl, -⟩ := run_pure_eq_ok.1 h
  exact ⟨first, others, c₁, rfl, hf, List.forall_mem_cons.2 ⟨hs hf, forall_of_moreOf hs ho⟩⟩

end

section

variable {op : Connective} {word : String} {part : Reader Expr} {p : Expr → Prop}

theorem chained_of_chain (hp : ∀ {c e c'}, part c = .ok (e, c') → p e) {bound : Nat}
    {left e : Expr} {c c' : Cursor} (hl : Chained op p left)
    (h : chain op word part bound left c = .ok (e, c')) :
    Chained op p e ∧ e.first = left.first := by
  induction bound generalizing left c with
  | zero =>
    obtain ⟨rfl, -⟩ := run_pure_eq_ok.1 h
    exact ⟨hl, rfl⟩
  | succ bound ih =>
    rw [chain] at h
    obtain ⟨found, c₁, -, h⟩ := run_bind_eq_ok.1 h
    cases found with
    | true =>
      obtain ⟨right, c₂, hr, h⟩ := run_bind_eq_ok.1 h
      obtain ⟨he, hf⟩ := ih (.logic hl (hp hr)) h
      exact ⟨he, hf⟩
    | false =>
      obtain ⟨rfl, -⟩ := run_pure_eq_ok.1 h
      exact ⟨hl, rfl⟩

theorem chainOf_eq_ok (hp : ∀ {c e c'}, part c = .ok (e, c') → p e ∧ Begins c.rest e)
    {c c' : Cursor} {e : Expr} (h : chainOf op word part c = .ok (e, c')) :
    Chained op p e ∧ Begins c.rest e := by
  rw [chainOf] at h
  obtain ⟨left, c₁, hl, h⟩ := run_bind_eq_ok.1 h
  obtain ⟨hleft, hb⟩ := hp hl
  obtain ⟨he, hf⟩ := chained_of_chain (fun hr => (hp hr).1) (.single hleft) h
  exact ⟨he, hb.of_first hf⟩

end

end Grammar

/-! ## One level -/

/-- Readers that read trees of the shape that the grammar has. Where the word `SELECT` comes next no
other statement is read. -/
structure Nested.Sound (inner : Nested) : Prop where
  expr {c c' : Cursor} {e : Expr} (h : inner.expr c = .ok (e, c')) : IsExpr e ∧ Begins c.rest e
  operand {c c' : Cursor} {e : Expr} (h : inner.operand c = .ok (e, c')) :
    IsOperand e ∧ Begins c.rest e
  statement {c c' : Cursor} {s : Statement} (h : inner.statement c = .ok (s, c')) :
    IsStatement s ∧ (startsWith "SELECT" c.rest = true → ∃ query, s = .select query)

namespace Grammar

variable {inner : Nested} {c c' : Cursor} {e : Expr}

theorem arguments_eq_ok (hi : inner.Sound) {args : List Expr}
    (h : arguments inner c = .ok (args, c')) : c.current = '(' ∧ ∀ e ∈ args, IsExpr e := by
  rw [arguments] at h
  obtain ⟨⟨⟩, c₁, ho, h⟩ := run_bind_eq_ok.1 h
  obtain ⟨closed, c₂, -, h⟩ := run_bind_eq_ok.1 h
  refine ⟨(expectChar_eq_ok ho).1, ?_⟩
  cases closed with
  | true =>
    obtain ⟨rfl, -⟩ := run_pure_eq_ok.1 h
    exact fun _ hm => nomatch hm
  | false =>
    obtain ⟨found, c₃, hl, h⟩ := run_bind_eq_ok.1 h
    obtain ⟨-, c₄, -, h⟩ := run_bind_eq_ok.1 h
    obtain ⟨rfl, -⟩ := run_pure_eq_ok.1 h
    obtain ⟨_, _, _, -, -, hall⟩ := listOf_eq_ok (fun h => (hi.expr h).1) hl
    exact hall

theorem subquery_eq_ok (hi : inner.Sound) (hs : startsWith "SELECT" c.rest = true)
    (h : subquery inner c = .ok (e, c')) :
    ∃ query, IsSelect query ∧ e = .subquery (.select query) := by
  rw [subquery] at h
  obtain ⟨s, c₁, hst, h⟩ := run_bind_eq_ok.1 h
  obtain ⟨-, c₂, -, h⟩ := run_bind_eq_ok.1 h
  obtain ⟨rfl, -⟩ := run_pure_eq_ok.1 h
  obtain ⟨hshape, hsel⟩ := hi.statement hst
  obtain ⟨query, rfl⟩ := hsel hs
  cases hshape with
  | select hq => exact ⟨query, hq, rfl⟩

theorem isWord_eq_ok {word : String} {found : Bool} (h : isWord word c = .ok (found, c')) :
    found = startsWith word c.rest ∧ c' = c := by
  rw [isWord, isAt_keyword] at h
  cases h
  exact ⟨rfl, rfl⟩

theorem parenthesized_eq_ok (hi : inner.Sound) (h : parenthesized inner c = .ok (e, c')) :
    IsOperand e ∧ ∀ cs, Begins cs e := by
  rw [parenthesized] at h
  obtain ⟨found, c₁, hw, h⟩ := run_bind_eq_ok.1 h
  obtain ⟨hfound, rfl⟩ := isWord_eq_ok hw
  cases found with
  | true =>
    obtain ⟨query, hq, rfl⟩ := subquery_eq_ok hi hfound.symm h
    exact ⟨.subquery hq, fun cs => begins_of_ne (fun _ _ h => nomatch h) (fun h => nomatch h)⟩
  | false =>
    obtain ⟨e₁, c₂, he, h⟩ := run_bind_eq_ok.1 h
    obtain ⟨-, c₃, -, h⟩ := run_bind_eq_ok.1 h
    obtain ⟨rfl, -⟩ := run_pure_eq_ok.1 h
    obtain ⟨hshape, hb⟩ := hi.expr he
    exact ⟨.parens hshape (hb.not_calls (by decide) hfound.symm),
      fun cs => begins_of_ne (fun _ _ h => nomatch h) (fun h => nomatch h)⟩

theorem reference_eq_ok (hi : inner.Sound)
    (hw : ∀ word ∈ ["TRUE", "FALSE", "NULL"], startsWith word c.rest = false)
    (h : reference inner c = .ok (e, c')) : IsOperand e ∧ Begins c.rest e := by
  rw [reference] at h
  obtain ⟨start, c₀, hpos, h⟩ := run_bind_eq_ok.1 h
  obtain rfl : c = c₀ := by
    cases hpos
    rfl
  obtain ⟨segments, c₁, hpath, h⟩ := run_bind_eq_ok.1 h
  obtain ⟨hne, hnames, hrest⟩ := path_eq_ok hpath
  obtain ⟨c₂, c₃, hget, h⟩ := run_bind_eq_ok.1 h
  obtain ⟨rfl, rfl⟩ := run_get_eq_ok.1 hget
  split at h
  · next hopen =>
    obtain ⟨args, c₂, hargs, h⟩ := run_bind_eq_ok.1 h
    obtain ⟨⟨⟩, c₃, -, h⟩ := run_bind_eq_ok.1 h
    obtain ⟨rfl, -⟩ := run_pure_eq_ok.1 h
    obtain ⟨cs, hcs⟩ := Cursor.exists_rest_of_current hopen (by decide)
    have hp : IsPath (".".intercalate segments) := ⟨segments, hne, hnames, rfl⟩
    have hb : Begins c.rest (.call (".".intercalate segments) args) := by
      refine ⟨?_, fun h => nomatch h⟩
      rintro _ _ ⟨⟩
      exact ⟨hp, cs, by rw [hrest, hcs]⟩
    have hup : ∀ word ∈ ["TRUE", "FALSE", "NULL"], IsUpperWord word := by decide
    exact ⟨.call hp (fun word hm => hb.not_calls (hup word hm) (hw word hm))
      (arguments_eq_ok hi hargs).2, hb⟩
  · have hcolumn : (∀ word, segments = [word] → isReserved word = false) ∧
        e = .column (Column.ofSegments segments) := by
      split at h
      · next word =>
        split at h
        · cases h
        · next hres =>
          obtain ⟨⟨⟩, c₂, -, h⟩ := run_bind_eq_ok.1 h
          obtain ⟨rfl, -⟩ := run_pure_eq_ok.1 h
          refine ⟨?_, rfl⟩
          rintro _ ⟨⟩
          exact Bool.not_eq_true _ ▸ hres
      · next hmany =>
        obtain ⟨⟨⟩, c₂, -, h⟩ := run_bind_eq_ok.1 h
        obtain ⟨rfl, -⟩ := run_pure_eq_ok.1 h
        exact ⟨fun word hone => absurd hone (hmany word), rfl⟩
    obtain ⟨hres, rfl⟩ := hcolumn
    exact ⟨.column ⟨segments, hne, hnames, hres, rfl⟩,
      begins_of_ne (fun _ _ h => nomatch h) (fun h => nomatch h)⟩

theorem begins_literal (cs : List Char) (value : Literal) : Begins cs (.literal value) :=
  begins_of_ne (fun _ _ h => nomatch h) (fun h => nomatch h)

theorem worded_eq_ok (hi : inner.Sound) (h : worded inner c = .ok (e, c')) :
    IsOperand e ∧ Begins c.rest e := by
  rw [worded] at h
  obtain ⟨isTrue, c₁, ht, h⟩ := run_bind_eq_ok.1 h
  obtain ⟨htrue, rfl⟩ := consumeWord_eq_ok ht
  cases isTrue with
  | true =>
    obtain ⟨rfl, -⟩ := run_pure_eq_ok.1 h
    exact ⟨.literal trivial, begins_literal _ _⟩
  | false =>
    obtain ⟨isFalse, c₂, hf, h⟩ := run_bind_eq_ok.1 h
    obtain ⟨hfalse, rfl⟩ := consumeWord_eq_ok hf
    cases isFalse with
    | true =>
      obtain ⟨rfl, -⟩ := run_pure_eq_ok.1 h
      exact ⟨.literal trivial, begins_literal _ _⟩
    | false =>
      obtain ⟨isNull, c₃, hn, h⟩ := run_bind_eq_ok.1 h
      obtain ⟨hnull, rfl⟩ := consumeWord_eq_ok hn
      cases isNull with
      | true =>
        obtain ⟨rfl, -⟩ := run_pure_eq_ok.1 h
        exact ⟨.literal trivial, begins_literal _ _⟩
      | false =>
        simp only [Bool.false_eq_true, if_false] at h hfalse hnull
        obtain ⟨c₁, c₂, hget, h⟩ := run_bind_eq_ok.1 h
        obtain ⟨rfl, rfl⟩ := run_get_eq_ok.1 hget
        split at h
        · refine reference_eq_ok hi ?_ h
          simp only [List.forall_mem_cons]
          exact ⟨htrue.symm, hfalse.symm, hnull.symm, fun _ hm => nomatch hm⟩
        · cases h

theorem operand_eq_ok (hi : inner.Sound) (h : operand inner c = .ok (e, c')) :
    IsOperand e ∧ Begins c.rest e := by
  rw [operand] at h
  obtain ⟨c₁, c₂, hget, h⟩ := run_bind_eq_ok.1 h
  obtain ⟨rfl, rfl⟩ := run_get_eq_ok.1 hget
  split at h
  · obtain ⟨⟨⟩, c₁, -, h⟩ := run_bind_eq_ok.1 h
    obtain ⟨he, hb⟩ := parenthesized_eq_ok hi h
    exact ⟨he, hb _⟩
  split at h
  · obtain ⟨value, c₁, hq, h⟩ := run_bind_eq_ok.1 h
    obtain ⟨⟨⟩, c₂, -, h⟩ := run_bind_eq_ok.1 h
    obtain ⟨rfl, -⟩ := run_pure_eq_ok.1 h
    exact ⟨.literal (quoted_eq_ok hq), begins_literal _ _⟩
  split at h
  · obtain ⟨value, c₁, hn, h⟩ := run_bind_eq_ok.1 h
    obtain ⟨⟨⟩, c₂, -, h⟩ := run_bind_eq_ok.1 h
    obtain ⟨rfl, -⟩ := run_pure_eq_ok.1 h
    exact ⟨.literal (number_eq_ok hn), begins_literal _ _⟩
  split at h
  · next hwild =>
    obtain ⟨⟨⟩, c₁, -, h⟩ := run_bind_eq_ok.1 h
    obtain ⟨rfl, -⟩ := run_pure_eq_ok.1 h
    refine ⟨.wildcard, ?_, fun _ => Cursor.exists_rest_of_current hwild (by decide)⟩
    rintro _ _ ⟨⟩
  · exact worded_eq_ok hi h

theorem membership_eq_ok (hi : inner.Sound) {list : List Expr}
    (h : membership inner c = .ok (list, c')) :
    list ≠ [] ∧ (∀ e ∈ list, IsOperand e) ∧ ∀ e ∈ list.head?, ¬ e.Calls "SELECT" := by
  rw [membership] at h
  obtain ⟨⟨⟩, c₁, -, h⟩ := run_bind_eq_ok.1 h
  obtain ⟨found, c₂, hw, h⟩ := run_bind_eq_ok.1 h
  obtain ⟨hfound, rfl⟩ := isWord_eq_ok hw
  cases found with
  | true =>
    obtain ⟨e, c₃, he, h⟩ := run_bind_eq_ok.1 h
    obtain ⟨rfl, -⟩ := run_pure_eq_ok.1 h
    obtain ⟨query, hq, rfl⟩ := subquery_eq_ok hi hfound.symm he
    refine ⟨List.cons_ne_nil _ _, List.forall_mem_singleton.2 (.subquery hq), ?_⟩
    rintro _ ⟨⟩ ⟨_, _, ⟨⟩, _⟩
  | false =>
    obtain ⟨found, c₃, hl, h⟩ := run_bind_eq_ok.1 h
    obtain ⟨⟨⟩, c₄, -, h⟩ := run_bind_eq_ok.1 h
    obtain ⟨rfl, -⟩ := run_pure_eq_ok.1 h
    obtain ⟨first, others, c₅, rfl, hf, hall⟩ := listOf_eq_ok (fun h => (hi.operand h).1) hl
    refine ⟨List.cons_ne_nil _ _, hall, ?_⟩
    rintro _ ⟨⟩
    exact (hi.operand hf).2.not_calls (by decide) hfound.symm

theorem patternOrList_eq_ok (hi : inner.Sound) {left : Expr} (hl : IsOperand left)
    (h : patternOrList inner left c = .ok (e, c')) : IsPredicate e ∧ e.first = left.first := by
  rw [patternOrList] at h
  obtain ⟨start, c₁, -, h⟩ := run_bind_eq_ok.1 h
  obtain ⟨negated, c₂, -, h⟩ := run_bind_eq_ok.1 h
  obtain ⟨isLike, c₃, -, h⟩ := run_bind_eq_ok.1 h
  cases isLike with
  | true =>
    obtain ⟨pattern, c₄, hp, h⟩ := run_bind_eq_ok.1 h
    obtain ⟨rfl, -⟩ := run_pure_eq_ok.1 h
    exact ⟨.like negated hl (operand_eq_ok hi hp).1, rfl⟩
  | false =>
    obtain ⟨isIn, c₄, -, h⟩ := run_bind_eq_ok.1 h
    cases isIn with
    | true =>
      obtain ⟨list, c₅, hm, h⟩ := run_bind_eq_ok.1 h
      obtain ⟨rfl, -⟩ := run_pure_eq_ok.1 h
      obtain ⟨hne, hall, hs⟩ := membership_eq_ok hi hm
      exact ⟨.inList negated hl hne hall hs, rfl⟩
    | false =>
      cases negated with
      | true => cases h
      | false =>
        obtain ⟨rfl, -⟩ := run_pure_eq_ok.1 h
        exact ⟨.operand hl, rfl⟩

theorem predicate_eq_ok (hi : inner.Sound) (h : predicate inner c = .ok (e, c')) :
    IsPredicate e ∧ Begins c.rest e := by
  rw [predicate] at h
  obtain ⟨left, c₁, hleft, h⟩ := run_bind_eq_ok.1 h
  obtain ⟨hl, hb⟩ := operand_eq_ok hi hleft
  obtain ⟨sign, c₂, -, h⟩ := run_bind_eq_ok.1 h
  cases sign with
  | some op =>
    obtain ⟨right, c₃, hright, h⟩ := run_bind_eq_ok.1 h
    obtain ⟨rfl, -⟩ := run_pure_eq_ok.1 h
    exact ⟨.compare op hl (operand_eq_ok hi hright).1, hb.of_first rfl⟩
  | none =>
    obtain ⟨isIs, c₃, -, h⟩ := run_bind_eq_ok.1 h
    cases isIs with
    | true =>
      obtain ⟨negated, c₄, -, h⟩ := run_bind_eq_ok.1 h
      obtain ⟨⟨⟩, c₅, -, h⟩ := run_bind_eq_ok.1 h
      obtain ⟨rfl, -⟩ := run_pure_eq_ok.1 h
      exact ⟨.isNull negated hl, hb.of_first rfl⟩
    | false =>
      obtain ⟨he, hf⟩ := patternOrList_eq_ok hi hl h
      exact ⟨he, hb.of_first hf⟩

theorem begins_negate (cs : List Char) (e : Expr) : Begins cs (negate e) := by
  unfold negate
  split <;> exact begins_of_ne (fun _ _ h => nomatch h) (fun h => nomatch h)

/-- The bound on the number of negations is never reached: where nothing is left to read, nothing
starts with `NOT` either. -/
theorem negations_eq_ok (hi : inner.Sound) {bound : Nat} (hc : c.rest.length ≤ bound)
    (h : negations inner bound c = .ok (e, c')) : Negated IsPredicate e ∧ Begins c.rest e := by
  induction bound generalizing c c' e with
  | zero =>
    obtain ⟨he, hb⟩ := predicate_eq_ok hi h
    have hnil : c.rest = [] := List.eq_nil_of_length_eq_zero (Nat.le_zero.1 hc)
    exact ⟨.base he (hb.not_calls (by decide) (by rw [hnil]; decide)), hb⟩
  | succ bound ih =>
    rw [negations] at h
    obtain ⟨found, c₁, hw, h⟩ := run_bind_eq_ok.1 h
    obtain ⟨hfound, rfl⟩ := consumeWord_eq_ok hw
    cases found with
    | true =>
      obtain ⟨e₁, c₂, he, h⟩ := run_bind_eq_ok.1 h
      obtain ⟨rfl, -⟩ := run_pure_eq_ok.1 h
      refine ⟨.negate (ih ?_ he).1, begins_negate _ _⟩
      have hlen := length_trimStart_le (c.rest.drop "NOT".length)
      rw [List.length_drop, show "NOT".length = 3 from rfl] at hlen
      simp only [if_true, Cursor.rest_skipBlank, Cursor.rest_jump]
      rw [show "NOT".length = 3 from rfl]
      omega
    | false =>
      simp only [Bool.false_eq_true, if_false] at h
      obtain ⟨he, hb⟩ := predicate_eq_ok hi h
      exact ⟨.base he (hb.not_calls (by decide) hfound.symm), hb⟩

theorem expr_eq_ok (hi : inner.Sound) (h : expr inner c = .ok (e, c')) :
    IsExpr e ∧ Begins c.rest e := by
  obtain ⟨he, hb⟩ := chainOf_eq_ok (chainOf_eq_ok (negations_eq_ok hi (Nat.le_refl _))) h
  exact ⟨.of he, hb⟩

/-! ## Clauses -/

theorem selectItem_eq_ok (hi : inner.Sound) {item : SelectItem}
    (h : selectItem inner c = .ok (item, c')) :
    IsItem item ∧ ∀ e name, item = .expr e name → Begins c.rest e := by
  rw [selectItem] at h
  obtain ⟨found, c₁, hw, h'⟩ := run_bind_eq_ok.1 h
  obtain ⟨rfl, -, rfl⟩ | ⟨rfl, hstar, rfl⟩ := consumeChar_eq_ok hw
  · obtain ⟨rfl, -⟩ := run_pure_eq_ok.1 h'
    exact ⟨.wildcard, fun _ _ h => nomatch h⟩
  · obtain ⟨e, c₂, he, h⟩ := run_bind_eq_ok.1 h'
    obtain ⟨name, c₃, hn, h⟩ := run_bind_eq_ok.1 h
    obtain ⟨rfl, -⟩ := run_pure_eq_ok.1 h
    obtain ⟨hshape, hb⟩ := hi.expr he
    have hwild : e.first ≠ .wildcard := by
      intro hf
      obtain ⟨cs, hcs⟩ := hb.2 hf
      exact hstar (Cursor.current_of_rest hcs)
    refine ⟨.expr hshape hwild (aliasName_eq_ok hn), ?_⟩
    rintro _ _ ⟨⟩
    exact hb

theorem tableName_eq_ok {table : String} (h : tableName c = .ok (table, c')) : IsPath table := by
  unfold tableName at h
  split at h
  · next segments c₁ hp =>
    cases h
    obtain ⟨hne, hn, -⟩ := path_eq_ok hp
    exact ⟨segments, hne, hn, rfl⟩
  · cases h

theorem source_eq_ok (hi : inner.Sound) {found : Source}
    (h : source inner c = .ok (found, c')) : IsSource found := by
  rw [source] at h
  obtain ⟨isOpen, c₁, -, h⟩ := run_bind_eq_ok.1 h
  cases isOpen with
  | true =>
    obtain ⟨s, c₂, hs, h⟩ := run_bind_eq_ok.1 h
    obtain ⟨⟨⟩, c₃, -, h⟩ := run_bind_eq_ok.1 h
    obtain ⟨name, c₄, hn, h⟩ := run_bind_eq_ok.1 h
    obtain ⟨rfl, -⟩ := run_pure_eq_ok.1 h
    exact .query (hi.statement hs).1 (aliasName_eq_ok hn)
  | false =>
    obtain ⟨table, c₂, ht, h⟩ := run_bind_eq_ok.1 h
    obtain ⟨⟨⟩, c₃, -, h⟩ := run_bind_eq_ok.1 h
    obtain ⟨name, c₄, hn, h⟩ := run_bind_eq_ok.1 h
    obtain ⟨rfl, -⟩ := run_pure_eq_ok.1 h
    exact .table (tableName_eq_ok ht) (aliasName_eq_ok hn)

theorem joinsWithin_eq_ok (hi : inner.Sound) {bound : Nat} {found : List Join}
    (h : joinsWithin inner bound c = .ok (found, c')) : ∀ join ∈ found, IsJoin join := by
  induction bound generalizing c c' found with
  | zero =>
    obtain ⟨rfl, -⟩ := run_pure_eq_ok.1 h
    exact fun _ hm => nomatch hm
  | succ bound ih =>
    rw [joinsWithin] at h
    obtain ⟨kind, c₁, -, h⟩ := run_bind_eq_ok.1 h
    cases kind with
    | none =>
      obtain ⟨rfl, -⟩ := run_pure_eq_ok.1 h
      exact fun _ hm => nomatch hm
    | some kind =>
      obtain ⟨joined, c₂, hs, h⟩ := run_bind_eq_ok.1 h
      obtain ⟨⟨⟩, c₃, -, h⟩ := run_bind_eq_ok.1 h
      obtain ⟨condition, c₄, hc, h⟩ := run_bind_eq_ok.1 h
      obtain ⟨others, c₅, ho, h⟩ := run_bind_eq_ok.1 h
      obtain ⟨rfl, -⟩ := run_pure_eq_ok.1 h
      exact List.forall_mem_cons.2 ⟨.of (source_eq_ok hi hs) (hi.expr hc).1, ih ho⟩

theorem orderKey_eq_ok (hi : inner.Sound) {key : OrderKey}
    (h : orderKey inner c = .ok (key, c')) : IsOperand key.expr := by
  rw [orderKey] at h
  obtain ⟨e, c₁, he, h⟩ := run_bind_eq_ok.1 h
  obtain ⟨descending, c₂, -, h⟩ := run_bind_eq_ok.1 h
  cases descending with
  | true =>
    obtain ⟨rfl, -⟩ := run_pure_eq_ok.1 h
    exact (hi.operand he).1
  | false =>
    obtain ⟨⟨⟩, c₃, -, h⟩ := run_bind_eq_ok.1 h
    obtain ⟨rfl, -⟩ := run_pure_eq_ok.1 h
    exact (hi.operand he).1

theorem groupColumn_eq_ok (hi : inner.Sound) {column : Column}
    (h : groupColumn inner c = .ok (column, c')) : IsColumn column := by
  rw [groupColumn] at h
  obtain ⟨start, c₁, -, h⟩ := run_bind_eq_ok.1 h
  obtain ⟨e, c₂, he, h⟩ := run_bind_eq_ok.1 h
  have hshape := (hi.operand he).1
  split at h
  · obtain ⟨rfl, -⟩ := run_pure_eq_ok.1 h
    cases hshape with
    | column hcolumn => exact hcolumn
  · cases h

theorem rowCountAfter_eq_ok (hi : inner.Sound) {word reason : String} {found : Option Nat}
    (h : rowCountAfter inner word reason c = .ok (found, c')) :
    ∀ n ∈ found, Number.fitsWord n = true := by
  rw [rowCountAfter] at h
  obtain ⟨isWord, c₁, -, h⟩ := run_bind_eq_ok.1 h
  cases isWord with
  | true =>
    obtain ⟨n, c₂, hn, h⟩ := run_bind_eq_ok.1 h
    obtain ⟨rfl, -⟩ := run_pure_eq_ok.1 h
    rw [rowCount] at hn
    obtain ⟨start, c₃, -, hn⟩ := run_bind_eq_ok.1 hn
    obtain ⟨e, c₄, he, hn⟩ := run_bind_eq_ok.1 hn
    have hshape := (hi.operand he).1
    split at hn
    · obtain ⟨rfl, -⟩ := run_pure_eq_ok.1 hn
      cases hshape with
      | literal hfits =>
        rintro _ ⟨⟩
        exact hfits
    · cases hn
  | false =>
    obtain ⟨rfl, -⟩ := run_pure_eq_ok.1 h
    exact fun _ hm => nomatch hm

theorem conditionAfter_eq_ok (hi : inner.Sound) {word : String} {found : Option Expr}
    (h : conditionAfter inner word c = .ok (found, c')) : ∀ e ∈ found, IsExpr e := by
  rw [conditionAfter] at h
  obtain ⟨isWord, c₁, -, h⟩ := run_bind_eq_ok.1 h
  cases isWord with
  | true =>
    obtain ⟨e, c₂, he, h⟩ := run_bind_eq_ok.1 h
    obtain ⟨rfl, -⟩ := run_pure_eq_ok.1 h
    rintro _ ⟨⟩
    exact (hi.expr he).1
  | false =>
    obtain ⟨rfl, -⟩ := run_pure_eq_ok.1 h
    exact fun _ hm => nomatch hm

theorem listAfter_eq_ok {α : Type} {p : α → Prop} {single : Reader α}
    (hs : ∀ {c a c'}, single c = .ok (a, c') → p a) {word reason : String} {found : List α}
    (h : listAfter word reason (listOf single) c = .ok (found, c')) : ∀ a ∈ found, p a := by
  rw [listAfter] at h
  obtain ⟨isWord, c₁, -, h⟩ := run_bind_eq_ok.1 h
  cases isWord with
  | true =>
    obtain ⟨⟨⟩, c₂, -, h⟩ := run_bind_eq_ok.1 h
    obtain ⟨_, _, _, -, -, hall⟩ := listOf_eq_ok hs h
    exact hall
  | false =>
    obtain ⟨rfl, -⟩ := run_pure_eq_ok.1 h
    exact fun _ hm => nomatch hm

/-! ## Statements -/

theorem delete_eq_ok (hi : inner.Sound) {s : Statement} (h : delete inner c = .ok (s, c')) :
    IsStatement s := by
  rw [delete] at h
  obtain ⟨⟨⟩, c₁, -, h⟩ := run_bind_eq_ok.1 h
  obtain ⟨found, c₂, hs, h⟩ := run_bind_eq_ok.1 h
  have hshape := source_eq_ok hi hs
  cases found with
  | query _ _ => cases h
  | table table name =>
    obtain ⟨condition, c₃, hc, h⟩ := run_bind_eq_ok.1 h
    obtain ⟨rfl, -⟩ := run_pure_eq_ok.1 h
    cases hshape with
    | table ht hn => exact .delete ht hn (conditionAfter_eq_ok hi hc)

theorem select_eq_ok (hi : inner.Sound) {query : Select}
    (h : select inner c = .ok (query, c')) : IsSelect query := by
  rw [select] at h
  obtain ⟨distinct, c₁, hd, h⟩ := run_bind_eq_ok.1 h
  obtain ⟨items, c₂, hitems, h⟩ := run_bind_eq_ok.1 h
  obtain ⟨⟨⟩, c₃, -, h⟩ := run_bind_eq_ok.1 h
  obtain ⟨origin, c₄, hsource, h⟩ := run_bind_eq_ok.1 h
  obtain ⟨joined, c₅, hjoins, h⟩ := run_bind_eq_ok.1 h
  obtain ⟨condition, c₆, hcondition, h⟩ := run_bind_eq_ok.1 h
  obtain ⟨groupBy, c₇, hgroup, h⟩ := run_bind_eq_ok.1 h
  obtain ⟨having, c₈, hhaving, h⟩ := run_bind_eq_ok.1 h
  obtain ⟨orderBy, c₉, horder, h⟩ := run_bind_eq_ok.1 h
  obtain ⟨limit, c₁₀, hlimit, h⟩ := run_bind_eq_ok.1 h
  obtain ⟨offset, c₁₁, hoffset, h⟩ := run_bind_eq_ok.1 h
  obtain ⟨rfl, -⟩ := run_pure_eq_ok.1 h
  obtain ⟨first, others, c₁₂, rfl, hfirst, hall⟩ :=
    listOf_eq_ok (fun h => (selectItem_eq_ok hi h).1) hitems
  obtain ⟨hdistinct, rfl⟩ := consumeWord_eq_ok hd
  refine .of (List.cons_ne_nil _ _) hall ?_ (source_eq_ok hi hsource)
    (joinsWithin_eq_ok hi hjoins) (conditionAfter_eq_ok hi hcondition)
    (listAfter_eq_ok (groupColumn_eq_ok hi) hgroup) (conditionAfter_eq_ok hi hhaving)
    (listAfter_eq_ok (orderKey_eq_ok hi) horder) (rowCountAfter_eq_ok hi hlimit)
    (rowCountAfter_eq_ok hi hoffset)
  -- Without the word `DISTINCT` the list starts where it would stand.
  rintro rfl e name ⟨⟩
  exact ((selectItem_eq_ok hi hfirst).2 e name rfl).not_calls (by decide) hdistinct.symm

theorem statement_eq_ok (hi : inner.Sound) {s : Statement}
    (h : statement inner c = .ok (s, c')) :
    IsStatement s ∧ (startsWith "SELECT" c.rest = true → ∃ query, s = .select query) := by
  rw [statement] at h
  obtain ⟨⟨⟩, c₁, hb, h⟩ := run_bind_eq_ok.1 h
  obtain rfl : c.skipBlank = c₁ := by
    cases hb
    rfl
  obtain ⟨found, c₂, hw, h⟩ := run_bind_eq_ok.1 h
  obtain ⟨hfound, rfl⟩ := consumeWord_eq_ok hw
  cases found with
  | true =>
    refine ⟨delete_eq_ok hi h, fun hs => ?_⟩
    -- A text that starts with `SELECT` has no blanks in front and does not start with `DELETE`.
    have hS := asciiUpper_of_startsWith (show "SELECT".toList = 'S' :: "ELECT".toList from rfl) hs
    rw [Cursor.rest_skipBlank, trimStart_of_startsWith (by decide) (by decide) hs] at hfound
    have hD := asciiUpper_of_startsWith (show "DELETE".toList = 'D' :: "ELETE".toList from rfl)
      hfound.symm
    rw [hS] at hD
    exact absurd hD (by decide)
  | false =>
    obtain ⟨⟨⟩, c₃, -, h⟩ := run_bind_eq_ok.1 h
    obtain ⟨query, c₄, hq, h⟩ := run_bind_eq_ok.1 h
    obtain ⟨rfl, -⟩ := run_pure_eq_ok.1 h
    exact ⟨.select (select_eq_ok hi hq), fun _ => ⟨query, rfl⟩⟩

/-! ## All levels -/

/-- **What the level below reads is all that a level needs to know of it.** -/
theorem sound_next (hi : inner.Sound) :
    (⟨expr inner, operand inner, statement inner⟩ : Nested).Sound :=
  ⟨expr_eq_ok hi, operand_eq_ok hi, statement_eq_ok hi⟩

/-- **What is read has the shape of the grammar**, however deep it is nested. -/
theorem nested_sound (depth : Nat) : (nested depth).Sound := by
  induction depth with
  | zero =>
    constructor
    all_goals
      intro _ _ _ h
      cases h
  | succ depth ih => exact sound_next ih

end Grammar

/-- **The tree of a text is a tree that the grammar reads.** -/
theorem isStatement_of_parseStatement {text : String} {s : Statement}
    (h : parseStatement text = .ok s) : IsStatement s := by
  obtain ⟨⟨s', c'⟩, hr, rfl⟩ := map_eq_ok.1 h
  rw [statementText] at hr
  obtain ⟨s₁, c₁, hs, hr⟩ := run_bind_eq_ok.1 hr
  obtain ⟨⟨⟩, c₂, -, hr⟩ := run_bind_eq_ok.1 hr
  obtain ⟨c₃, c₄, -, hr⟩ := run_bind_eq_ok.1 hr
  split at hr
  · obtain ⟨rfl, -⟩ := run_pure_eq_ok.1 hr
    exact (statement_eq_ok (nested_sound _) hs).1
  · cases hr

end DocQuery.Syntax
