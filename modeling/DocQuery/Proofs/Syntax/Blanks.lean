import DocQuery.Proofs.Syntax.Lockstep
import DocQuery.Syntax.Grammar

/-!
# Blanks in statements

Of the blanks outside of quoted texts it only matters where there are any: a text and the text with
one space for each run of blanks denote the same statement, or neither denotes one
(`parseStatement_squeezeBlanks`).

The readers of the grammar are in step on the two texts. What is nested starts after a character or a
keyword, so a level that reads a text of some length finds a shorter one below, and the numbers of
levels, which are not the same for the two texts, do not matter (`nested_inStep`).
-/

namespace DocQuery.Syntax

open Reader

/-- The readers of what is nested are in step on texts up to given lengths. -/
structure Nested.InStep (n m : Nat) (inner inner' : Nested) : Prop where
  expr : Reader.InStep n m inner.expr inner'.expr
  operand : Reader.InStep n m inner.operand inner'.operand
  statement : Reader.InStep n m inner.statement inner'.statement

namespace Grammar

variable {α : Type} {n m : Nat} {inner inner' : Nested}

/-! ## Where nothing is left -/

theorem run_bind_of_ok {β : Type} {r : Reader α} {f : α → Reader β} {c d : Cursor} {a : α}
    (h : r c = .ok (a, d)) : (r >>= f) c = f a d := by
  rw [run_bind, h]
  rfl

theorem consumeChar_nil {ch : Char} (hne : ch ≠ Cursor.endMark) {c : Cursor} (h : c.rest = []) :
    consumeChar ch c = .ok (false, c) := by
  refine if_neg ?_
  rw [Cursor.current_eq, h]
  exact hne.symm

theorem consumeWord_nil {word : String} (hw : word ∈ reservedWords) {c : Cursor} (h : c.rest = []) :
    consumeWord word c = .ok (false, c) := by
  refine if_neg ?_
  rw [isAt_keyword, h, startsWith_of_delimited (isUpperWord_of_mem word hw)
    (reserved_ne_empty word hw) fun _ hc => by cases hc]
  exact Bool.false_ne_true

/-! ## Lists and chains -/

theorem listOf_inStep {single single' : Reader α} (h : InStep n m single single') :
    InStep n m (listOf single) (listOf single') := by
  have hmore := inStep_loop (n := n) (m := m) (fun k (_ : Unit) => moreOf single k)
    (fun k _ => moreOf single' k) ?_ ?_ ()
  · exact h.bind fun first => hmore.bind fun others => inStep_pure _
  · have hnil : ∀ {single : Reader α} (k : Nat) {c : Cursor}, c.rest = [] →
        moreOf single k c = .ok ([], c) := by
      intro single k c hr
      cases k with
      | zero => rfl
      | succ k => exact run_bind_of_ok (consumeChar_nil (by decide) hr)
    intro k k' _ c c' hc hr hr'
    rw [hnil k hr, hnil k' hr']
    exact .read [] hc (Nat.le_refl _) (Nat.le_refl _)
  · intro k k' l l' hk hk' hmore _
    refine InStep.bind_consumeChar (by decide) ?_ (inStep_pure [])
    exact (h.mono (by omega) (by omega)).bind fun first => (hmore ()).bind fun others => inStep_pure _

theorem chainOf_inStep (op : Connective) {word : String} (hw : word ∈ reservedWords)
    {part part' : Reader Expr} (h : InStep n m part part') :
    InStep n m (chainOf op word part) (chainOf op word part') := by
  refine h.bind (inStep_loop (chain op word part) (chain op word part') ?_ ?_)
  · have hnil : ∀ {part : Reader Expr} (k : Nat) (left : Expr) {c : Cursor}, c.rest = [] →
        chain op word part k left c = .ok (left, c) := by
      intro part k left c hr
      cases k with
      | zero => rfl
      | succ k => exact run_bind_of_ok (consumeWord_nil hw hr)
    intro k k' left c c' hc hr hr'
    rw [hnil k left hr, hnil k' left hr']
    exact .read left hc (Nat.le_refl _) (Nat.le_refl _)
  · intro k k' l l' hk hk' hchain left
    refine InStep.bind_consumeWord hw ?_ (inStep_pure left)
    exact (h.mono (by omega) (by omega)).bind fun right => hchain (.logic op left right)

/-! ## Expressions -/

theorem arguments_inStep (h : inner.InStep n m inner') :
    InStep (n + 1) (m + 1) (arguments inner) (arguments inner') := by
  refine InStep.bind_expectChar (by decide) _ ?_
  refine (inStep_consumeChar (by decide)).bind fun found => ?_
  cases found with
  | true => exact inStep_pure []
  | false =>
    exact (listOf_inStep h.expr).bind fun args =>
      (inStep_expectChar (by decide) _).bind fun _ => inStep_pure args

theorem subquery_inStep (h : inner.InStep n m inner') :
    InStep n m (subquery inner) (subquery inner') :=
  h.statement.bind fun _ => (inStep_expectChar (by decide) _).bind fun _ => inStep_pure _

theorem parenthesized_inStep (h : inner.InStep n m inner') :
    InStep n m (parenthesized inner) (parenthesized inner') := by
  refine (inStep_isWord (by decide)).bind fun found => ?_
  cases found with
  | true => exact subquery_inStep h
  | false =>
    exact h.expr.bind fun e => (inStep_expectChar (by decide) _).bind fun _ => inStep_pure _

theorem reference_inStep (h : inner.InStep n m inner') :
    InStep (n + 1) (m + 1) (reference inner) (reference inner') := by
  refine inStep_position fun start start' => inStep_path.bind fun segments =>
    inStep_get fun c c' hc => ?_
  refine InStep.ite (hc.current_eq_iff (by decide)).symm ?_ ?_
  · exact (arguments_inStep h).bind fun args => inStep_skipBlank.bind fun _ => inStep_pure _
  · have hcolumn : InStep (n + 1) (m + 1)
        (skipBlank >>= fun _ => pure (Expr.column (Column.ofSegments segments)))
        (skipBlank >>= fun _ => pure (Expr.column (Column.ofSegments segments))) :=
      inStep_skipBlank.bind fun _ => inStep_pure _
    dsimp only
    split
    · split
      · exact (inStep_fail _ _ _).bind fun _ => hcolumn
      · exact hcolumn
    · exact hcolumn

theorem worded_inStep (h : inner.InStep n m inner') :
    InStep (n + 1) (m + 1) (worded inner) (worded inner') := by
  refine (inStep_consumeWord (by decide)).bind fun isTrue => ?_
  cases isTrue with
  | true => exact inStep_pure _
  | false =>
    refine (inStep_consumeWord (by decide)).bind fun isFalse => ?_
    cases isFalse with
    | true => exact inStep_pure _
    | false =>
      refine (inStep_consumeWord (by decide)).bind fun isNull => ?_
      cases isNull with
      | true => exact inStep_pure _
      | false =>
        refine inStep_get fun c c' hc => ?_
        have hstart : isNameStart c'.current = isNameStart c.current :=
          hc.test_current fun ch h => isPlain_of_isNameChar (isNameChar_of_isNameStart h)
        rw [hstart]
        exact InStep.ite Iff.rfl (reference_inStep h) (inStep_fail _ _ _)

theorem operand_inStep (h : inner.InStep n m inner') :
    InStep (n + 1) (m + 1) (operand inner) (operand inner') := by
  intro c c' hc hle hle'
  have hquote : isQuote c'.current = isQuote c.current := by rw [hc.current_eq, isQuote_spaced]
  have hopen : c'.current = '(' ↔ c.current = '(' := hc.current_eq_iff (by decide)
  have hstar : c'.current = '*' ↔ c.current = '*' := hc.current_eq_iff (by decide)
  change InStepAt c c' ((if c.current = '(' then _ else _ : Reader Expr) c)
    ((if c'.current = '(' then _ else _ : Reader Expr) c')
  rw [hquote, startsNumber_squeezed hc]
  simp only [hopen, hstar]
  split
  · next hparen =>
    have hrun : ∀ {inner : Nested} {c : Cursor}, c.current = '(' →
        (discard (consumeChar '(') >>= fun _ => parenthesized inner) c =
          parenthesized inner (c.advance 1).skipBlank := by
      intro inner c hparen
      have hdiscard : (consumeChar '(' >>= fun _ => pure ()) c =
          .ok ((), (c.advance 1).skipBlank) := run_bind_of_ok (if_pos hparen)
      exact run_bind_of_ok hdiscard
    have hlt := length_after_char hparen (by decide)
    have hlt' := length_after_char (hopen.2 hparen) (by decide)
    have hplain : IsPlain c.current := by
      rw [hparen]
      decide
    rw [hrun hparen, hrun (hopen.2 hparen)]
    refine (parenthesized_inStep h _ _ (hc.advance_one hplain).skipBlank ?_ ?_).mono ?_ ?_ <;> omega
  · split
    · next hq =>
      refine (inStepAt_quoted hc hq).bind fun value d d' _ _ hd hdle hdle' => ?_
      have hskip : InStep (n + 1) (m + 1) (skipBlank >>= fun _ => pure (Expr.literal value))
          (skipBlank >>= fun _ => pure (Expr.literal value)) :=
        inStep_skipBlank.bind fun _ => inStep_pure _
      exact (hskip d d' hd (Nat.le_trans hdle hle) (Nat.le_trans hdle' hle')).mono hdle hdle'
    · have hrest : InStep (n + 1) (m + 1)
          (if startsNumber c = true then (do
            let value ← number
            skipBlank
            return .literal value)
          else if c.current = '*' then (do
            discard <| consumeChar '*'
            return .wildcard)
          else worded inner)
          (if startsNumber c = true then (do
            let value ← number
            skipBlank
            return .literal value)
          else if c.current = '*' then (do
            discard <| consumeChar '*'
            return .wildcard)
          else worded inner') := by
        refine InStep.ite Iff.rfl ?_ (InStep.ite Iff.rfl ?_ (worded_inStep h))
        · exact inStep_number.bind fun value => inStep_skipBlank.bind fun _ => inStep_pure _
        · exact (inStep_consumeChar (by decide)).discard.bind fun _ => inStep_pure _
      exact hrest c c' hc hle hle'

theorem membership_inStep (h : inner.InStep n m inner') :
    InStep (n + 1) (m + 1) (membership inner) (membership inner') := by
  refine InStep.bind_expectChar (by decide) _ ((inStep_isWord (by decide)).bind fun found => ?_)
  cases found with
  | true => exact (subquery_inStep h).bind fun e => inStep_pure _
  | false =>
    exact (listOf_inStep h.operand).bind fun list =>
      (inStep_expectChar (by decide) _).bind fun _ => inStep_pure list

theorem patternOrList_inStep (h : inner.InStep n m inner') (left : Expr) :
    InStep (n + 1) (m + 1) (patternOrList inner left) (patternOrList inner' left) := by
  refine inStep_position fun start start' => (inStep_consumeWord (by decide)).bind fun negated =>
    (inStep_consumeWord (by decide)).bind fun isLike => ?_
  cases isLike with
  | true => exact (operand_inStep h).bind fun pattern => inStep_pure _
  | false =>
    refine (inStep_consumeWord (by decide)).bind fun isIn => ?_
    cases isIn with
    | true => exact (membership_inStep h).bind fun list => inStep_pure _
    | false =>
      cases negated with
      | true => exact (inStep_fail _ _ _).bind fun _ => inStep_pure left
      | false => exact inStep_pure left

theorem predicate_inStep (h : inner.InStep n m inner') :
    InStep (n + 1) (m + 1) (predicate inner) (predicate inner') := by
  refine (operand_inStep h).bind fun left => inStep_comparison.bind fun sign => ?_
  cases sign with
  | some op => exact (operand_inStep h).bind fun right => inStep_pure _
  | none =>
    refine (inStep_consumeWord (by decide)).bind fun isIs => ?_
    cases isIs with
    | true =>
      exact (inStep_consumeWord (by decide)).bind fun negated =>
        (inStep_expectWord (by decide) _).bind fun _ => inStep_pure _
    | false => exact patternOrList_inStep h left

theorem negation_inStep (h : inner.InStep n m inner') :
    InStep (n + 1) (m + 1) (negation inner) (negation inner') := by
  refine inStep_loop (fun k (_ : Unit) => negations inner k) (fun k _ => negations inner' k) ?_ ?_ ()
  · have hnil : ∀ {inner : Nested} (k : Nat) {c : Cursor}, c.rest = [] →
        negations inner k c = predicate inner c := by
      intro inner k c hr
      cases k with
      | zero => rfl
      | succ k => exact run_bind_of_ok (consumeWord_nil (by decide) hr)
    intro k k' _ c c' hc hr hr'
    rw [hnil k hr, hnil k' hr']
    exact predicate_inStep h c c' hc (by simp [hr]) (by simp [hr'])
  · intro k k' l l' hk hk' hmore _
    refine InStep.bind_consumeWord (by decide) ?_ ((predicate_inStep h).mono (by omega) (by omega))
    exact (hmore ()).bind fun e => inStep_pure _

theorem expr_inStep (h : inner.InStep n m inner') :
    InStep (n + 1) (m + 1) (expr inner) (expr inner') :=
  chainOf_inStep .or (by decide) (chainOf_inStep .and (by decide) (negation_inStep h))

/-! ## Clauses -/

theorem selectItem_inStep (h : inner.InStep n m inner') :
    InStep n m (selectItem inner) (selectItem inner') := by
  refine (inStep_consumeChar (by decide)).bind fun found => ?_
  cases found with
  | true => exact inStep_pure _
  | false => exact h.expr.bind fun e => inStep_aliasName.bind fun name => inStep_pure _

theorem tableName_inStep : InStep n m tableName tableName := by
  intro c c' hc hle hle'
  have hpath := inStep_path c c' hc hle hle'
  unfold tableName
  generalize path c = found, path c' = found' at hpath
  cases hpath with
  | refused e e' => exact .refused _ _
  | read segments h hle hle' => exact .read _ h hle hle'

theorem source_inStep (h : inner.InStep n m inner') :
    InStep n m (source inner) (source inner') := by
  refine (inStep_consumeChar (by decide)).bind fun found => ?_
  cases found with
  | true =>
    exact h.statement.bind fun statement => (inStep_expectChar (by decide) _).bind fun _ =>
      inStep_aliasName.bind fun name => inStep_pure _
  | false =>
    exact tableName_inStep.bind fun table => inStep_skipBlank.bind fun _ =>
      inStep_aliasName.bind fun name => inStep_pure _

theorem joinSide_inStep : InStep n m joinSide joinSide := by
  refine (inStep_consumeWord (by decide)).bind fun isInner => ?_
  cases isInner with
  | true => exact inStep_pure _
  | false =>
    refine (inStep_consumeWord (by decide)).bind fun isLeft => ?_
    cases isLeft with
    | true => exact inStep_pure _
    | false =>
      refine (inStep_consumeWord (by decide)).bind fun isRight => ?_
      cases isRight with
      | true => exact inStep_pure _
      | false =>
        refine (inStep_consumeWord (by decide)).bind fun isFull => ?_
        cases isFull <;> exact inStep_pure _

theorem joinKind_inStep : InStep n m joinKind joinKind := by
  refine (inStep_consumeWord (by decide)).bind fun isJoin => ?_
  cases isJoin with
  | true => exact inStep_pure _
  | false =>
    refine joinSide_inStep.bind fun side => ?_
    cases side with
    | none => exact inStep_pure _
    | some kind =>
      have hjoin : InStep n m (expectWord "JOIN" "Expected JOIN" >>= fun _ => pure (some kind))
          (expectWord "JOIN" "Expected JOIN" >>= fun _ => pure (some kind)) :=
        (inStep_expectWord (by decide) _).bind fun _ => inStep_pure _
      dsimp only
      split
      · exact hjoin
      · exact (inStep_consumeWord (by decide)).discard.bind fun _ => hjoin

theorem joinKind_nil {c : Cursor} (h : c.rest = []) : joinKind c = .ok (none, c) := by
  have hside : joinSide c = .ok (none, c) := by
    refine (run_bind_of_ok (consumeWord_nil (by decide) h)).trans ?_
    refine (run_bind_of_ok (consumeWord_nil (by decide) h)).trans ?_
    refine (run_bind_of_ok (consumeWord_nil (by decide) h)).trans ?_
    exact run_bind_of_ok (consumeWord_nil (by decide) h)
  exact (run_bind_of_ok (consumeWord_nil (by decide) h)).trans (run_bind_of_ok hside)

theorem joins_inStep (h : inner.InStep n m inner') :
    InStep n m (joins inner) (joins inner') := by
  refine inStep_loop (fun k (_ : Unit) => joinsWithin inner k) (fun k _ => joinsWithin inner' k)
    ?_ ?_ ()
  · have hnil : ∀ {inner : Nested} (k : Nat) {c : Cursor}, c.rest = [] →
        joinsWithin inner k c = .ok ([], c) := by
      intro inner k c hr
      cases k with
      | zero => rfl
      | succ k => exact run_bind_of_ok (joinKind_nil hr)
    intro k k' _ c c' hc hr hr'
    rw [hnil k hr, hnil k' hr']
    exact .read [] hc (Nat.le_refl _) (Nat.le_refl _)
  · intro k k' l l' hk hk' hmore _
    refine joinKind_inStep.bind fun found => ?_
    cases found with
    | none => exact inStep_pure []
    | some kind =>
      refine ((source_inStep h).mono (by omega) (by omega)).bind fun source => ?_
      refine InStep.bind_expectWord (by decide) _ ?_
      exact (h.expr.mono (by omega) (by omega)).bind fun condition =>
        (hmore ()).bind fun others => inStep_pure _

theorem orderKey_inStep (h : inner.InStep n m inner') :
    InStep n m (orderKey inner) (orderKey inner') := by
  refine h.operand.bind fun e => (inStep_consumeWord (by decide)).bind fun isDesc => ?_
  cases isDesc with
  | true => exact inStep_pure _
  | false => exact (inStep_consumeWord (by decide)).discard.bind fun _ => inStep_pure _

theorem groupColumn_inStep (h : inner.InStep n m inner') :
    InStep n m (groupColumn inner) (groupColumn inner') := by
  refine inStep_position fun start start' => h.operand.bind fun e => ?_
  split
  · exact inStep_pure _
  · exact inStep_fail _ _ _

theorem rowCount_inStep (h : inner.InStep n m inner') (reason : String) :
    InStep n m (rowCount inner reason) (rowCount inner' reason) := by
  refine inStep_position fun start start' => h.operand.bind fun e => ?_
  split
  · exact inStep_pure _
  · exact inStep_fail _ _ _

theorem conditionAfter_inStep (h : inner.InStep n m inner') {word : String}
    (hw : word ∈ reservedWords) :
    InStep n m (conditionAfter inner word) (conditionAfter inner' word) := by
  refine (inStep_consumeWord (isUpperWord_of_mem word hw)).bind fun found => ?_
  cases found with
  | true => exact h.expr.bind fun e => inStep_pure _
  | false => exact inStep_pure _

theorem rowCountAfter_inStep (h : inner.InStep n m inner') {word : String}
    (hw : word ∈ reservedWords) (reason : String) :
    InStep n m (rowCountAfter inner word reason) (rowCountAfter inner' word reason) := by
  refine (inStep_consumeWord (isUpperWord_of_mem word hw)).bind fun found => ?_
  cases found with
  | true => exact (rowCount_inStep h reason).bind fun count => inStep_pure _
  | false => exact inStep_pure _

theorem listAfter_inStep {list list' : Reader (List α)} (h : InStep n m list list') {word : String}
    (hw : word ∈ reservedWords) (reason : String) :
    InStep n m (listAfter word reason list) (listAfter word reason list') := by
  refine (inStep_consumeWord (isUpperWord_of_mem word hw)).bind fun found => ?_
  cases found with
  | true => exact (inStep_expectWord (by decide) reason).bind fun _ => h
  | false => exact inStep_pure _

/-! ## Statements -/

theorem delete_inStep (h : inner.InStep n m inner') :
    InStep n m (delete inner) (delete inner') := by
  refine (inStep_expectWord (by decide) _).bind fun _ => (source_inStep h).bind fun source => ?_
  cases source with
  | query statement name => exact inStep_position fun _ _ => inStep_fail _ _ _
  | table table name =>
    exact (conditionAfter_inStep h (by decide)).bind fun condition => inStep_pure _

theorem select_inStep (h : inner.InStep n m inner') :
    InStep n m (select inner) (select inner') :=
  (inStep_consumeWord (by decide)).bind fun distinct =>
    (listOf_inStep (selectItem_inStep h)).bind fun items =>
    (inStep_expectWord (by decide) _).bind fun _ =>
    (source_inStep h).bind fun source =>
    (joins_inStep h).bind fun joins =>
    (conditionAfter_inStep h (by decide)).bind fun condition =>
    (listAfter_inStep (listOf_inStep (groupColumn_inStep h)) (by decide) _).bind fun groupBy =>
    (conditionAfter_inStep h (by decide)).bind fun having =>
    (listAfter_inStep (listOf_inStep (orderKey_inStep h)) (by decide) _).bind fun orderBy =>
    (rowCountAfter_inStep h (by decide) _).bind fun limit =>
    (rowCountAfter_inStep h (by decide) _).bind fun offset => inStep_pure _

theorem statement_inStep (h : inner.InStep n m inner') :
    InStep (n + 1) (m + 1) (statement inner) (statement inner') := by
  refine inStep_skipBlank.bind fun _ => InStep.bind_consumeWord (by decide) (delete_inStep h) ?_
  exact InStep.bind_expectWord (by decide) _ ((select_inStep h).bind fun query => inStep_pure _)

/-! ## Levels -/

theorem operand_nil {c : Cursor} (h : c.rest = []) : ∃ e, operand inner c = .error e := by
  obtain ⟨text, pos, _, hrest⟩ := c
  subst h
  exact ⟨_, rfl⟩

theorem statement_nil {c : Cursor} (h : c.rest = []) : ∃ e, statement inner c = .error e := by
  obtain ⟨text, pos, _, hrest⟩ := c
  subst h
  exact ⟨_, rfl⟩

theorem expr_nil {c : Cursor} (h : c.rest = []) : ∃ e, expr inner c = .error e := by
  obtain ⟨text, pos, _, hrest⟩ := c
  subst h
  exact ⟨_, rfl⟩

/-- At the end of a text nothing is read at any level. -/
theorem nested_nil (depth : Nat) {c : Cursor} (h : c.rest = []) :
    (∃ e, (nested depth).expr c = .error e) ∧ (∃ e, (nested depth).operand c = .error e) ∧
      ∃ e, (nested depth).statement c = .error e := by
  cases depth with
  | zero => exact ⟨⟨_, rfl⟩, ⟨_, rfl⟩, ⟨_, rfl⟩⟩
  | succ depth => exact ⟨expr_nil h, operand_nil h, statement_nil h⟩

/-- Readers that refuse the empty rest are in step on empty texts. -/
theorem inStep_of_nil {r r' : Reader α} (h : ∀ {c : Cursor}, c.rest = [] → ∃ e, r c = .error e)
    (h' : ∀ {c : Cursor}, c.rest = [] → ∃ e, r' c = .error e) (hnm : n = 0 ∨ m = 0) :
    InStep n m r r' := by
  intro c c' hc hle hle'
  have hr : c.rest = [] := by
    rcases hnm with rfl | rfl
    · exact List.eq_nil_of_length_eq_zero (Nat.le_zero.1 hle)
    · exact hc.rest_eq_nil_iff.1 (List.eq_nil_of_length_eq_zero (Nat.le_zero.1 hle'))
  obtain ⟨e, he⟩ := h hr
  obtain ⟨e', he'⟩ := h' (hc.rest_eq_nil_iff.2 hr)
  rw [he, he']
  exact .refused e e'

/-- **With a level for each character that is left, the readers of the two texts are in step.** -/
theorem nested_inStep (n m : Nat) : (nested n).InStep n m (nested m) := by
  have hend : ∀ {k k' : Nat}, (k = 0 ∨ k' = 0) → (nested k).InStep k k' (nested k') :=
    fun hk =>
      ⟨inStep_of_nil (fun h => (nested_nil _ h).1) (fun h => (nested_nil _ h).1) hk,
        inStep_of_nil (fun h => (nested_nil _ h).2.1) (fun h => (nested_nil _ h).2.1) hk,
        inStep_of_nil (fun h => (nested_nil _ h).2.2) (fun h => (nested_nil _ h).2.2) hk⟩
  induction n generalizing m with
  | zero => exact hend (.inl rfl)
  | succ n ih =>
    cases m with
    | zero => exact hend (.inr rfl)
    | succ m => exact ⟨expr_inStep (ih m), operand_inStep (ih m), statement_inStep (ih m)⟩

end Grammar

theorem statementText_inStep {n m : Nat} : InStep n m statementText statementText := by
  have hstatement : InStep n m (Grammar.withNested Grammar.statement)
      (Grammar.withNested Grammar.statement) := by
    intro c c' hc _ _
    exact Grammar.statement_inStep (Grammar.nested_inStep _ _) c c' hc (Nat.le_succ _)
      (Nat.le_succ _)
  refine hstatement.bind fun s => (inStep_consumeChar (by decide)).discard.bind fun _ =>
    inStep_get fun c c' hc => InStep.ite ?_ (inStep_pure s) fun _ _ _ _ _ => .refused _ _
  rw [Cursor.atEnd, Cursor.atEnd, List.isEmpty_iff, List.isEmpty_iff, hc.rest_eq_nil_iff]

/-- **Of the blanks outside of quoted texts it only matters where there are any.** The text with one
space for each run of them denotes the same statement, or neither text denotes one. -/
theorem parseStatement_squeezeBlanks (text : String) :
    (parseStatement (squeezeBlanks text)).toOption = (parseStatement text).toOption := by
  have hstart : Squeezed (Cursor.ofString text) (Cursor.ofString (squeezeBlanks text)) :=
    String.toList_ofList
  have hread := statementText_inStep _ _ hstart (Nat.le_refl _) (Nat.le_refl _)
  unfold parseStatement
  generalize statementText (Cursor.ofString text) = found,
    statementText (Cursor.ofString (squeezeBlanks text)) = found' at hread
  cases hread with
  | refused e e' => rfl
  | read s h hle hle' => rfl

end DocQuery.Syntax
