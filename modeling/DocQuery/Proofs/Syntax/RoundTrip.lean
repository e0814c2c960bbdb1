import DocQuery.Proofs.Syntax.Statements

/-!
# Statements written and read again

The text of a statement that was read is read again, and gives the statement back with every literal
as its own text is read (`parseStatement_render`). The one thing that the text does not keep is that a
whole number was a float: it is read again as the integer that its digits show. These digits are the
shortest ones that round to the float, so from `2 ^ 53` on they may show a neighbour of its value
(`parseStatement_render_inexact`).
-/

namespace DocQuery.Syntax

open Number

/-! ## The literals of what is read -/

theorem literals_negate (e : Expr) : (Grammar.negate e).literals = e.literals := by
  unfold Grammar.negate
  split <;> rfl

mutual

/-- The literals of an operand that is read can be read. -/
theorem IsOperand.readable :
    ∀ {e : Expr}, IsOperand e → ∀ value ∈ e.literals, value.Readable
  | _, .literal h => List.forall_mem_singleton.2 h
  | _, .column _ => List.forall_mem_nil _
  | _, .call _ _ h => by
    rw [Expr.literals, literalsOfList_eq_flatMap, List.forall_mem_flatMap]
    exact fun e he => (h e he).readable
  | _, .wildcard => List.forall_mem_nil _
  | _, .parens h _ => h.readable
  | _, .subquery h => h.readable

theorem IsPredicate.readable :
    ∀ {e : Expr}, IsPredicate e → ∀ value ∈ e.literals, value.Readable
  | _, .operand h => h.readable
  | _, .compare _ hl hr => List.forall_mem_append.2 ⟨hl.readable, hr.readable⟩
  | _, .like _ hl hr => List.forall_mem_append.2 ⟨hl.readable, hr.readable⟩
  | _, .isNull _ hl => hl.readable
  | _, .inList _ hl _ h _ => by
    rw [Expr.literals, literalsOfList_eq_flatMap, List.forall_mem_append, List.forall_mem_flatMap]
    exact ⟨hl.readable, fun e he => (h e he).readable⟩

theorem Negated.readable :
    ∀ {e : Expr}, Negated IsPredicate e → ∀ value ∈ e.literals, value.Readable
  | _, .base h _ => h.readable
  | _, .negate h => by
    rw [literals_negate]
    exact h.readable

theorem readable_of_ands :
    ∀ {e : Expr}, Chained .and (Negated IsPredicate) e → ∀ value ∈ e.literals, value.Readable
  | _, .single h => h.readable
  | _, .logic hl hr => List.forall_mem_append.2 ⟨readable_of_ands hl, hr.readable⟩

theorem readable_of_ors :
    ∀ {e : Expr}, Chained .or (Chained .and (Negated IsPredicate)) e →
      ∀ value ∈ e.literals, value.Readable
  | _, .single h => readable_of_ands h
  | _, .logic hl hr => List.forall_mem_append.2 ⟨readable_of_ors hl, readable_of_ands hr⟩

theorem IsExpr.readable : ∀ {e : Expr}, IsExpr e → ∀ value ∈ e.literals, value.Readable
  | _, .of h => readable_of_ors h

theorem IsItem.readable :
    ∀ {item : SelectItem}, IsItem item → ∀ value ∈ item.literals, value.Readable
  | _, .wildcard => List.forall_mem_nil _
  | _, .expr h _ _ => h.readable

theorem IsSource.readable :
    ∀ {source : Source}, IsSource source → ∀ value ∈ source.literals, value.Readable
  | _, .table _ _ => List.forall_mem_nil _
  | _, .query h _ => h.readable

theorem IsJoin.readable : ∀ {join : Join}, IsJoin join → ∀ value ∈ join.literals, value.Readable
  | ⟨_, _, _⟩, .of hs hc => List.forall_mem_append.2 ⟨hs.readable, hc.readable⟩

theorem IsSelect.readable :
    ∀ {query : Select}, IsSelect query → ∀ value ∈ query.literals, value.Readable
  | ⟨_, _, _, _, _, _, _, _, _, _⟩,
    .of _ items _ source joins condition _ having orderBy _ _ => by
    simp only [Select.literals, literalsOfItems_eq_flatMap, literalsOfJoins_eq_flatMap,
      literalsOfOption_eq_flatMap, literalsOfKeys_eq_flatMap, List.forall_mem_append,
      List.forall_mem_flatMap, Option.mem_toList]
    exact ⟨fun item hm => (items item hm).readable, source.readable,
      fun join hm => (joins join hm).readable, fun e hm => (condition e hm).readable,
      fun e hm => (having e hm).readable, fun key hm => (orderBy key hm).readable⟩

/-- **Every literal of a statement that is read can be read.** -/
theorem IsStatement.readable :
    ∀ {s : Statement}, IsStatement s → ∀ value ∈ s.literals, value.Readable
  | _, .select h => h.readable
  | _, .delete _ _ hc => by
    simp only [Statement.literals, literalsOfOption_eq_flatMap, List.forall_mem_flatMap,
      Option.mem_toList]
    exact fun e hm => (hc e hm).readable

end

/-! ## The text of a statement -/

/-- **A statement of the shape that is read, without reserved aliases, is read from its text.** -/
theorem parseStatement_of_isStatement {s : Statement} (hs : IsStatement s)
    (ha : Unreserved s.sourceAliases) : parseStatement s.render = .ok s.reread := by
  have hstatement : Reader.Reads (Grammar.withNested Grammar.statement) s.render.toList s.reread
      [] := by
    change Reader.Reads (fun c => Grammar.statement (Grammar.nested c.rest.length) c) _ _ _
    refine Reader.reads_of_cursor fun c hc => ?_
    -- There are as many levels as characters, and a statement needs one level less.
    have hread := Grammar.reads_statement (Grammar.nested_rereads c.rest.length) hs
      (by rw [hc, String.length_toList]; exact Nat.le_succ _) ha
      (show Continues [] [] from .inl rfl)
    rwa [List.append_nil] at hread
  have hend : Reader.Reads (discard (Reader.consumeChar ';')) [] () [] :=
    Grammar.reads_discard (Reader.reads_consumeChar_of_ne (by decide))
  have hread : Reader.Reads statementText s.render.toList s.reread [] := by
    refine hstatement.bind (hend.bind (Reader.reads_get fun c hc => ?_))
    have hat : c.atEnd = true := by rw [Cursor.atEnd, hc]; rfl
    rw [if_pos hat]
    exact Reader.reads_pure _ _
  obtain ⟨c, hrun, -⟩ := hread (Cursor.ofString s.render) rfl
  exact map_eq_ok.2 ⟨_, hrun, rfl⟩

/-- **What was read is read again from its text, with every float that is a whole number in a word as
the integer that its digits show.** This integer rounds to the float, and is its value below `2 ^ 53`.
Without such floats the statement comes back as it was. -/
theorem parseStatement_render {text : String} {s : Statement} (h : parseStatement text = .ok s)
    (ha : ∀ name ∈ s.sourceAliases, isReserved name = false) :
    parseStatement s.render = .ok (s.mapLiterals Literal.reread) ∧
    ((∀ x, .float x ∈ s.literals → Binary64.one ∣ x.units → fitsWord x.shownInt = false) →
      parseStatement s.render = .ok s) ∧
    ∀ x, .float x ∈ s.literals → Binary64.one ∣ x.units →
      ∃ n, x.shownInt = signedInt x.negative n ∧ Binary64.magnitude n 0 = x.units ∧
        (x.units < 2 ^ 53 * Binary64.one → n * Binary64.one = x.units) := by
  have hs := isStatement_of_parseStatement h
  have hread := parseStatement_of_isStatement hs ha
  refine ⟨hread, fun hx => ?_, fun x hm => exists_shownInt_eq (hs.readable _ hm)⟩
  have hself : s.reread = s := by
    refine s.mapLiterals_eq_self fun value hm => reread_eq_self ?_
    rintro x rfl
    exact hx x hm
  rw [hread, hself]

/-- The whole number in this text is read again as an integer, and the number in the subquery as
itself. -/
theorem parseStatement_render_mixed :
    ∃ s, parseStatement "select a from t x where b >= 2.0 and c in (select d from u y where e = 0.5)" =
        .ok s ∧
      s.sourceAliases = ["x", "y"] ∧
      s.literals.map Literal.reread = [.int 2, .float ⟨false, Binary64.one / 2⟩] ∧
      s.render = "SELECT a FROM t x WHERE b >= 2 AND c IN ((SELECT d FROM u y WHERE e = 0.5))" ∧
      parseStatement s.render = .ok (s.mapLiterals Literal.reread) := by
  obtain ⟨s, hs, hfacts⟩ := toOption_map_eq_some.1 (show
    (parseStatement
      "select a from t x where b >= 2.0 and c in (select d from u y where e = 0.5)").toOption.map
        (fun s => (s.sourceAliases, s.literals.map Literal.reread, s.render)) =
      some (["x", "y"], [.int 2, .float ⟨false, Binary64.one / 2⟩],
        "SELECT a FROM t x WHERE b >= 2 AND c IN ((SELECT d FROM u y WHERE e = 0.5))")
    by decide +kernel)
  obtain ⟨ha, hfacts⟩ := Prod.mk.inj hfacts
  obtain ⟨hl, hr⟩ := Prod.mk.inj hfacts
  have hfree : ∀ name ∈ s.sourceAliases, isReserved name = false := by
    rw [ha]
    decide +kernel
  exact ⟨s, hs, ha, hl, hr, (parseStatement_render hs hfree).1⟩

/-- A float that is a whole number in a word as the integer of that value. -/
def Literal.integral : Literal → Literal
  | .float x =>
    if Binary64.one ∣ x.units ∧ fitsWord (signedInt x.negative (x.units / Binary64.one)) = true then
      .int (signedInt x.negative (x.units / Binary64.one))
    else .float x
  | value => value

/-- The float `2 ^ 60` is written with `1152921504606847000` as its digits, and is not read again as
the integer `2 ^ 60`. -/
theorem parseStatement_render_inexact : ¬ ∀ text s, parseStatement text = .ok s →
    (∀ name ∈ s.sourceAliases, isReserved name = false) →
      parseStatement s.render = .ok (s.mapLiterals Literal.integral) := by
  intro h
  obtain ⟨s, hs, hfacts⟩ := toOption_map_eq_some.1 (show
    (parseStatement "SELECT a FROM t WHERE a = 1152921504606846976.0").toOption.map
      (fun s => (s.sourceAliases, (parseStatement s.render).toOption.map Statement.render,
        (s.mapLiterals Literal.integral).render)) =
      some ([], some "SELECT a FROM t WHERE a = 1152921504606847000",
        "SELECT a FROM t WHERE a = 1152921504606846976")
    by decide +kernel)
  obtain ⟨ha, hr⟩ := Prod.mk.inj hfacts
  obtain ⟨hread, hintegral⟩ := Prod.mk.inj hr
  rw [h _ s hs (by rw [ha]; exact List.forall_mem_nil _), Except.toOption, Option.map_some,
    hintegral] at hread
  revert hread
  decide

end DocQuery.Syntax
