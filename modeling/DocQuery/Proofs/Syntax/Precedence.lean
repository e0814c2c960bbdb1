import DocQuery.Proofs.Syntax.Within

/-!
# Precedence

`AND` binds tighter than `OR`, both group to the left, `NOT` binds tighter than either, and tests
are put to operands only. `Expr.Grouped` says what this means for the parts of an expression, and
`IsPart.grouped` that it holds of whatever the grammar reads.

`read_precedence` says that at every place of an expression that is read, also in the clauses of its
subqueries, the parts are grouped, that a column without a table is a name that is not reserved, and
that numbers of rows are not negative.
-/

namespace DocQuery.Syntax

/-! ## Places in an expression -/

/-- Whether a statement is nested in an expression, at any depth. -/
def Expr.Nests (e : Expr) (s : Statement) : Prop :=
  ∃ outer, e.Reaches (.subquery outer) ∧ outer.Reaches s

/-- Whether a column is written in an expression, at any depth. -/
def Expr.Writes (e : Expr) (c : Column) : Prop :=
  e.Reaches (.column c) ∨ ∃ s, e.Nests s ∧ c ∈ s.keys

/-- The numbers of rows in the clauses of a statement. -/
def Statement.rowCounts : Statement → List Nat
  | .select q => q.limit.toList ++ q.offset.toList
  | .delete _ _ _ => []

theorem IsPart.of_holds {e inner : Expr} (h : IsPart e) (hi : e.Holds inner) : IsPart inner := by
  cases hi with
  | part hp => exact h.of_mem hp
  | clause he hr hc =>
    subst he
    exact (h.isStatement.of_reaches hr).isPart hc

/-- **Whatever stands in an expression that is read, also in its subqueries, is read there.** -/
theorem IsPart.of_reaches {e inner : Expr} (h : IsPart e) (hr : e.Reaches inner) :
    IsPart inner := by
  induction hr with
  | refl => exact h
  | tail _ hi ih => exact ih.of_holds hi

theorem IsPart.of_nests {e : Expr} {s : Statement} (h : IsPart e) (hs : e.Nests s) :
    IsStatement s := by
  obtain ⟨outer, ho, hr⟩ := hs
  exact (h.of_reaches ho).isStatement.of_reaches hr

/-! ## Parts that are grouped -/

/-- Whether an expression is of a form that operands have: a literal, a column, a call, the wildcard,
a subquery, or parentheses without `NOT` in front. -/
def Expr.isClosed : Expr → Bool
  | .literal _ | .column _ | .call _ _ | .wildcard | .subquery _ => true
  | .parens _ negated => !negated
  | _ => false

/-- Whether the parts of an expression bind tighter than the expression itself, except that a chain
of one connective goes on to the left. -/
def Expr.Grouped : Expr → Prop
  | .logic .and left right => left.connective? ≠ some .or ∧ right.connective? = none
  | .logic .or _ right => right.connective? ≠ some .or
  | .compare left _ right => left.isClosed = true ∧ right.isClosed = true
  | .like operand pattern _ => operand.isClosed = true ∧ pattern.isClosed = true
  | .isNull operand _ => operand.isClosed = true
  | .inList operand list _ => operand.isClosed = true ∧ list ≠ [] ∧ ∀ e ∈ list, e.isClosed = true
  | .not inner => inner.connective? = none ∧ ∀ e, inner ≠ .parens e false
  | .literal _ | .column _ | .call _ _ | .wildcard | .parens _ _ | .subquery _ => True

theorem IsOperand.isClosed {e : Expr} (h : IsOperand e) : e.isClosed = true := by
  cases h <;> rfl

/-- A chain of one connective has no other one at its root. -/
theorem Chained.connective? {op : Connective} {p : Expr → Prop} {e : Expr} (h : Chained op p e)
    (hp : ∀ {e}, p e → e.connective? = none) : e.connective? = none ∨ e.connective? = some op := by
  cases h with
  | single h => exact .inl (hp h)
  | logic => exact .inr rfl

theorem connective?_ne_or {e : Expr} (h : Chained .and (Negated IsPredicate) e) :
    e.connective? ≠ some .or := by
  rcases h.connective? Negated.connective? with hc | hc <;> rw [hc] <;> decide

theorem IsPredicate.grouped {e : Expr} (h : IsPredicate e) : e.Grouped := by
  cases h with
  | operand h => cases h <;> trivial
  | compare _ hl hr | like _ hl hr => exact ⟨hl.isClosed, hr.isClosed⟩
  | isNull _ hl => exact hl.isClosed
  | inList _ hl hne hlist _ => exact ⟨hl.isClosed, hne, fun e he => (hlist e he).isClosed⟩

/-- What is negated is no chain, and the negation of parentheses is a mark on them. -/
theorem Negated.grouped {e : Expr} (h : Negated IsPredicate e) : e.Grouped := by
  cases h with
  | base h _ => exact h.grouped
  | @negate inner h =>
    unfold Grammar.negate
    split
    · trivial
    · next hparens => exact ⟨h.connective?, hparens⟩

theorem grouped_conjunction {e : Expr} (h : Chained .and (Negated IsPredicate) e) : e.Grouped := by
  cases h with
  | single h => exact h.grouped
  | logic hl hr => exact ⟨connective?_ne_or hl, hr.connective?⟩

/-- **The parts of whatever is read are grouped.** -/
theorem IsPart.grouped {e : Expr} (h : IsPart e) : e.Grouped := by
  cases h with
  | predicate h => exact h.grouped
  | negation h => exact h.grouped
  | conjunction h => exact grouped_conjunction h
  | disjunction h =>
    cases h with
    | single h => exact grouped_conjunction h
    | logic _ hr => exact connective?_ne_or hr

/-! ## Columns and numbers of rows -/

theorem IsName.dot_not_mem {s : String} (h : IsName s) : '.' ∉ s.toList := fun hm =>
  absurd (h.2 '.' hm) (by decide)

/-- A column without a table is a single name that is not reserved. -/
theorem IsColumn.of_unqualified {c : Column} (h : IsColumn c) (hq : c.qualifier = none) :
    isReserved c.name = false ∧ '.' ∉ c.name.toList := by
  obtain ⟨segments, hne, hnames, hres, rfl⟩ := h
  obtain ⟨word, others, rfl⟩ := List.exists_cons_of_ne_nil hne
  cases others with
  | nil => exact ⟨hres word rfl, (hnames word (List.mem_singleton_self _)).dot_not_mem⟩
  | cons => cases hq

theorem IsPart.isColumn_of_writes {e : Expr} {c : Column} (h : IsPart e) (hc : e.Writes c) :
    IsColumn c := by
  rcases hc with hc | ⟨s, hs, hc⟩
  · exact (h.of_reaches hc).isColumn
  · exact (h.of_nests hs).isColumn ⟨s, .refl, List.mem_append_right _ hc⟩

theorem IsStatement.fitsWord {s : Statement} (h : IsStatement s) :
    ∀ n ∈ s.rowCounts, Number.fitsWord n = true := by
  cases h with
  | select h =>
    cases h with
    | of _ _ _ _ _ _ _ _ _ limit offset =>
      simp only [Statement.rowCounts, List.mem_append, Option.mem_toList]
      rintro n (hn | hn)
      · exact limit n hn
      · exact offset n hn
  | delete => exact List.forall_mem_nil _

/-- A number of rows is read where an integer stands that is not negative, and is that integer. -/
theorem Grammar.rowCount_eq_ok_iff {inner : Nested} {reason : String} {c c' : Cursor} {n : Nat} :
    Grammar.rowCount inner reason c = .ok (n, c') ↔
      inner.operand c = .ok (.literal (.int n), c') := by
  rw [Grammar.rowCount]
  constructor
  · intro h
    obtain ⟨start, c₁, hpos, h⟩ := Reader.run_bind_eq_ok.1 h
    cases hpos
    obtain ⟨e, c₂, he, h⟩ := Reader.run_bind_eq_ok.1 h
    split at h
    · obtain ⟨rfl, rfl⟩ := Reader.run_pure_eq_ok.1 h
      exact he
    · cases h
  · intro h
    exact Reader.run_bind_eq_ok.2 ⟨c.pos, c, rfl, Reader.run_bind_eq_ok.2 ⟨_, c', h, rfl⟩⟩

/-! ## What is read -/

theorem isPart_of_withNested {c c' : Cursor} {e : Expr}
    (h : Grammar.withNested Grammar.expr c = .ok (e, c')) : IsPart e :=
  (Grammar.expr_eq_ok (Grammar.nested_sound _) h).1.isPart

/-- **Precedence of what is read.** At every place of an expression that is read from a text, also
in its subqueries, the parts are grouped; a column without a table is no reserved word and has no
dot; and the numbers of rows are not negative, as only such integers are read where they stand. -/
theorem read_precedence {c c' : Cursor} {e : Expr}
    (h : Grammar.withNested Grammar.expr c = .ok (e, c')) :
    (∀ inner, e.Reaches inner → inner.Grouped) ∧
    (∀ column, e.Writes column → column.qualifier = none →
      isReserved column.name = false ∧ '.' ∉ column.name.toList) ∧
    (∀ s, e.Nests s → ∀ n ∈ s.rowCounts, 0 ≤ (n : Int) ∧ Number.fitsWord n = true) ∧
    ∀ depth reason c₁ c₂ n, Grammar.rowCount (Grammar.nested depth) reason c₁ = .ok (n, c₂) ↔
      (Grammar.nested depth).operand c₁ = .ok (.literal (.int n), c₂) := by
  have hpart := isPart_of_withNested h
  refine ⟨fun inner hr => (hpart.of_reaches hr).grouped,
    fun column hw hq => (hpart.isColumn_of_writes hw).of_unqualified hq, ?_,
    fun _ _ _ _ _ => Grammar.rowCount_eq_ok_iff⟩
  intro s hs n hn
  exact ⟨Int.natCast_nonneg n, (hpart.of_nests hs).fitsWord n hn⟩

/-- The chain in the subquery of this text is grouped, and its columns and its number of rows are as
they should be. -/
theorem read_precedence_subquery :
    ∃ e c' s, Grammar.withNested Grammar.expr
        (Cursor.ofString "NOT (a OR b IN (SELECT c FROM t WHERE d AND NOT f LIMIT 5))") =
          .ok (e, c') ∧
      e.Reaches (.logic .and (.column ⟨none, "d"⟩) (.not (.column ⟨none, "f"⟩))) ∧
      (Expr.logic .and (.column ⟨none, "d"⟩) (.not (.column ⟨none, "f"⟩))).Grouped ∧
      e.Writes ⟨none, "f"⟩ ∧ isReserved "f" = false ∧ '.' ∉ "f".toList ∧
      e.Nests s ∧ s.rowCounts = [5] ∧ (0 ≤ (5 : Int) ∧ Number.fitsWord 5 = true) := by
  obtain ⟨query, hquery⟩ : ∃ query : Select, query = ⟨false, [.expr (.column ⟨none, "c"⟩) none],
      .table "t" none, [], some (.logic .and (.column ⟨none, "d"⟩) (.not (.column ⟨none, "f"⟩))),
      [], none, [], some 5, none⟩ := ⟨_, rfl⟩
  obtain ⟨c', h⟩ : ∃ c', Grammar.withNested Grammar.expr
      (Cursor.ofString "NOT (a OR b IN (SELECT c FROM t WHERE d AND NOT f LIMIT 5))") =
        .ok (.parens (.logic .or (.column ⟨none, "a"⟩)
          (.inList (.column ⟨none, "b"⟩) [.subquery (.select query)] false)) true, c') := by
    subst hquery
    exact ⟨_, rfl⟩
  obtain ⟨hgrouped, hcolumn, hcount, -⟩ := read_precedence h
  have hsecond {e e' : Expr} : e' ∈ [e, e'] := List.mem_cons_of_mem _ (List.mem_singleton_self _)
  have hsubquery : Expr.Reaches (.parens (.logic .or (.column ⟨none, "a"⟩)
      (.inList (.column ⟨none, "b"⟩) [.subquery (.select query)] false)) true)
      (.subquery (.select query)) :=
    .head (.part (List.mem_singleton_self _)) (.head (.part hsecond) (.single (.part hsecond)))
  have hchain := hsubquery.tail (.clause rfl .refl (by rw [hquery]; exact hsecond))
  have hfield := (hchain.tail (.part hsecond)).tail (.part (List.mem_singleton_self _))
  obtain ⟨hreserved, hdot⟩ := hcolumn _ (.inl hfield) rfl
  have hcounts : (Statement.select query).rowCounts = [5] := by rw [hquery]; rfl
  exact ⟨_, c', _, h, hchain, hgrouped _ hchain, .inl hfield, hreserved, hdot,
    ⟨_, hsubquery, .refl⟩, hcounts,
    hcount _ ⟨_, hsubquery, .refl⟩ 5 (hcounts ▸ List.mem_singleton_self _)⟩

end DocQuery.Syntax
