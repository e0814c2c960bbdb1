import DocQuery.Proofs.Syntax.Parts
import DocQuery.Proofs.Syntax.Shape

/-!
# What stands in a statement or an expression

A statement holds other ones: those it reads from and the subqueries of its expressions. `Reaches`
goes through all of them, at any depth, and `Writes` says which columns are written at any of these
places. `Expr.Reaches` goes through an expression and all that is nested in it: the arguments, the
lists, what stands in parentheses, and the clauses of its subqueries.

What stands in a text that is read has the shape of the grammar itself, as the parts of an expression
do (`IsPart.of_contains`), the nested statements (`IsStatement.of_reaches`) and the columns
(`IsStatement.isColumn`).
-/

namespace DocQuery.Syntax

/-! ## Places in a statement -/

/-- The expressions in the clauses of a statement. -/
def Statement.clauseExprs : Statement → List Expr
  | .select q => q.items.filterMap SelectItem.expr? ++ q.joins.map (·.condition) ++
      q.condition.toList ++ q.having.toList ++ q.orderBy.map (·.expr)
  | .delete _ _ condition => condition.toList

/-- What a statement reads from. -/
def Statement.sources : Statement → List Source
  | .select q => q.source :: q.joins.map (·.source)
  | .delete table aliasName _ => [.table table aliasName]

/-- The columns of `GROUP BY`. -/
def Statement.keys : Statement → List Column
  | .select q => q.groupBy
  | .delete _ _ _ => []

/-- The columns in the clauses of a statement. -/
def Statement.columns (s : Statement) : List Column := s.clauseExprs.flatMap Expr.columns ++ s.keys

/-- Whether a statement directly holds another one. -/
inductive Statement.Holds (s inner : Statement) : Prop where
  /-- It is read from. -/
  | source {aliasName : Option String} (h : .query inner aliasName ∈ s.sources) : Holds s inner
  /-- It is a subquery. -/
  | subquery {e : Expr} (he : e ∈ s.clauseExprs) (hc : e.Contains (.subquery inner)) : Holds s inner

/-- Whether a statement is another one or holds it, at any depth. -/
def Statement.Reaches (s inner : Statement) : Prop := Relation.ReflTransGen Statement.Holds s inner

/-- Whether a column is written in a statement, at any depth. -/
def Statement.Writes (s : Statement) (c : Column) : Prop :=
  ∃ inner, s.Reaches inner ∧ c ∈ inner.columns

/-! ## Places in an expression -/

/-- Whether an expression directly holds another one. -/
inductive Expr.Holds (e inner : Expr) : Prop where
  /-- It is a part. -/
  | part (h : inner ∈ e.parts) : Holds e inner
  /-- It stands in a clause of a subquery or of a statement that the subquery holds. -/
  | clause {s nested : Statement} (he : e = .subquery s) (hr : s.Reaches nested)
    (hi : inner ∈ nested.clauseExprs) : Holds e inner

/-- Whether an expression is another one or holds it, at any depth. -/
def Expr.Reaches (e inner : Expr) : Prop := Relation.ReflTransGen Expr.Holds e inner

/-! ## Parts of expressions -/

/-- The trees that are read somewhere in an expression. -/
inductive IsPart : Expr → Prop where
  /-- An operand and the test it is put to. -/
  | predicate {e : Expr} (h : IsPredicate e) : IsPart e
  /-- A predicate with negations in front. -/
  | negation {e : Expr} (h : Negated IsPredicate e) : IsPart e
  /-- A chain of negations. -/
  | conjunction {e : Expr} (h : Chained .and (Negated IsPredicate) e) : IsPart e
  /-- A chain of conjunctions. -/
  | disjunction {e : Expr} (h : Chained .or (Chained .and (Negated IsPredicate)) e) : IsPart e

theorem IsExpr.isPart {e : Expr} (h : IsExpr e) : IsPart e := by
  cases h with
  | of h => exact .disjunction h

theorem IsOperand.isPart {e : Expr} (h : IsOperand e) : IsPart e := .predicate (.operand h)

theorem IsPredicate.isPart_of_mem {e part : Expr} (h : IsPredicate e) (hp : part ∈ e.parts) :
    IsPart part := by
  cases h with
  | operand h =>
    cases h with
    | literal | column | wildcard | subquery => cases hp
    | call _ _ hargs => exact (hargs part hp).isPart
    | parens h _ =>
      obtain rfl := List.mem_singleton.1 hp
      exact h.isPart
  | compare _ hl hr | like _ hl hr =>
    obtain rfl | hp := List.mem_cons.1 hp
    · exact hl.isPart
    · obtain rfl := List.mem_singleton.1 hp
      exact hr.isPart
  | isNull _ hl =>
    obtain rfl := List.mem_singleton.1 hp
    exact hl.isPart
  | inList _ hl _ hlist _ =>
    obtain rfl | hp := List.mem_cons.1 hp
    · exact hl.isPart
    · exact (hlist part hp).isPart

/-- The part of a negation is what is negated, or what stands in its parentheses. -/
theorem parts_negate (e : Expr) :
    (Grammar.negate e).parts = e.parts ∨ (Grammar.negate e).parts = [e] := by
  unfold Grammar.negate
  split
  · exact .inl rfl
  · exact .inr rfl

theorem parts_negate_ne_nil (e : Expr) : (Grammar.negate e).parts ≠ [] := by
  unfold Grammar.negate
  split <;> exact List.cons_ne_nil _ _

theorem Negated.isPart_of_mem {e part : Expr} (h : Negated IsPredicate e) (hp : part ∈ e.parts) :
    IsPart part := by
  induction h with
  | base h _ => exact h.isPart_of_mem hp
  | @negate e h ih =>
    obtain heq | heq := parts_negate e
    · exact ih (heq ▸ hp)
    · rw [heq] at hp
      obtain rfl := List.mem_singleton.1 hp
      exact .negation h

theorem Chained.isPart_of_mem {op : Connective} {p : Expr → Prop} {e part : Expr}
    (hsingle : ∀ {e part}, p e → part ∈ e.parts → IsPart part)
    (hchain : ∀ {e}, Chained op p e → IsPart e) (hp : ∀ {e}, p e → IsPart e) (h : Chained op p e)
    (hm : part ∈ e.parts) : IsPart part := by
  cases h with
  | single h => exact hsingle h hm
  | logic hl hr =>
    obtain rfl | hm := List.mem_cons.1 hm
    · exact hchain hl
    · obtain rfl := List.mem_singleton.1 hm
      exact hp hr

theorem IsPart.of_mem {e part : Expr} (h : IsPart e) (hp : part ∈ e.parts) : IsPart part := by
  cases h with
  | predicate h => exact h.isPart_of_mem hp
  | negation h => exact h.isPart_of_mem hp
  | conjunction h => exact h.isPart_of_mem Negated.isPart_of_mem .conjunction .negation hp
  | disjunction h =>
    exact h.isPart_of_mem (Chained.isPart_of_mem Negated.isPart_of_mem .conjunction .negation)
      .disjunction .conjunction hp

/-- **What stands in an expression that is read is itself read somewhere in one.** -/
theorem IsPart.of_contains {e part : Expr} (h : IsPart e) (hc : e.Contains part) : IsPart part := by
  induction hc with
  | refl => exact h
  | tail _ hp ih => exact ih.of_mem hp

/-- An expression without parts is no chain and no negation. -/
theorem IsPart.isPredicate {e : Expr} (h : IsPart e) (hparts : e.parts = []) : IsPredicate e := by
  have hnegation : Negated IsPredicate e → IsPredicate e := by
    rintro (⟨h, -⟩ | h)
    · exact h
    · exact absurd hparts (parts_negate_ne_nil _)
  have hconjunction : Chained .and (Negated IsPredicate) e → IsPredicate e := by
    rintro (h | ⟨-, -⟩)
    · exact hnegation h
    · cases hparts
  cases h with
  | predicate h => exact h
  | negation h => exact hnegation h
  | conjunction h => exact hconjunction h
  | disjunction h =>
    cases h with
    | single h => exact hconjunction h
    | logic => cases hparts

theorem IsPart.isColumn {c : Column} (h : IsPart (.column c)) : IsColumn c := by
  cases h.isPredicate rfl with
  | operand h =>
    cases h with
    | column h => exact h

theorem IsPart.isStatement {s : Statement} (h : IsPart (.subquery s)) : IsStatement s := by
  cases h.isPredicate rfl with
  | operand h =>
    cases h with
    | subquery hq => exact .select hq

/-! ## Statements -/

theorem IsStatement.isPart {s : Statement} (h : IsStatement s) {e : Expr} (he : e ∈ s.clauseExprs) :
    IsPart e := by
  cases h with
  | select h =>
    cases h with
    | of _ items _ _ joins condition _ having orderBy _ _ =>
      simp only [Statement.clauseExprs, List.mem_append, List.mem_filterMap, List.mem_map,
        Option.mem_toList] at he
      rcases he with (((⟨item, hi, he⟩ | ⟨join, hj, rfl⟩) | he) | he) | ⟨key, hk, rfl⟩
      · cases items item hi with
        | wildcard => cases he
        | expr h _ _ =>
          cases he
          exact h.isPart
      · cases joins join hj with
        | of _ h => exact h.isPart
      · exact (condition e he).isPart
      · exact (having e he).isPart
      · exact (orderBy key hk).isPart
  | delete _ _ hc => exact (hc e (Option.mem_toList.1 he)).isPart

theorem IsStatement.isSource {s : Statement} (h : IsStatement s) {source : Source}
    (hs : source ∈ s.sources) : IsSource source := by
  cases h with
  | select h =>
    cases h with
    | of _ _ _ first joins =>
      obtain rfl | hs := List.mem_cons.1 hs
      · exact first
      · obtain ⟨join, hj, rfl⟩ := List.mem_map.1 hs
        cases joins join hj with
        | of h _ => exact h
  | delete ht hn _ =>
    obtain rfl := List.mem_singleton.1 hs
    exact .table ht hn

theorem IsStatement.of_holds {s inner : Statement} (h : IsStatement s) (hi : s.Holds inner) :
    IsStatement inner := by
  cases hi with
  | source hs =>
    cases h.isSource hs with
    | query h _ => exact h
  | subquery he hc => exact ((h.isPart he).of_contains hc).isStatement

/-- **What is nested in a statement that is read is a statement that can be read.** -/
theorem IsStatement.of_reaches {s inner : Statement} (h : IsStatement s) (hr : s.Reaches inner) :
    IsStatement inner := by
  induction hr with
  | refl => exact h
  | tail _ hi ih => exact ih.of_holds hi

/-- **Every column that is written in a statement that is read can be read.** -/
theorem IsStatement.isColumn {s : Statement} (h : IsStatement s) {c : Column} (hc : s.Writes c) :
    IsColumn c := by
  obtain ⟨inner, hr, hc⟩ := hc
  have hi := h.of_reaches hr
  rcases List.mem_append.1 hc with hc | hc
  · obtain ⟨e, he, hc⟩ := List.mem_flatMap.1 hc
    exact ((hi.isPart he).of_contains (Expr.mem_columns_iff.1 hc)).isColumn
  · cases hi with
    | select h =>
      cases h with
      | of _ _ _ _ _ _ groupBy => exact groupBy c hc
    | delete => cases hc

end DocQuery.Syntax
