import DocQuery.Proofs.Syntax.Texts
import DocQuery.Proofs.Syntax.Walks

/-!
# Expressions that are read back

The text of an expression that the grammar reads is read back as the same expression, but for its
literals (`Literal.reread`). What follows the text must not go on with it: `Ends` says so for operands,
and `Follows exprWords` for expressions.

Nested texts are left to the level below, of which `Nested.Rereads inner bound` says that it reads texts
of up to `bound` characters back. Chains of a connective are read back from their left end: what is read
after the first parts goes on from the tree of these parts (`reads_chainOf`).
-/

namespace DocQuery.Syntax

open Reader Grammar

/-- The words that may follow an expression. -/
def exprWords : List String :=
  ["AS", "FROM", "INNER", "LEFT", "RIGHT", "FULL", "WHERE", "GROUP", "HAVING", "ORDER", "LIMIT",
   "OFFSET"]

/-- No alias is a keyword. -/
abbrev Unreserved (aliases : List String) : Prop := ∀ name ∈ aliases, isReserved name = false

/-- The expression as it is read when its text is read again. -/
abbrev Expr.reread (e : Expr) : Expr := e.mapLiterals Literal.reread

/-- The statement as it is read when its text is read again. -/
abbrev Statement.reread (s : Statement) : Statement := s.mapLiterals Literal.reread

/-- Readers that read back the texts, up to a length, of the trees that the grammar reads. -/
structure Nested.Rereads (inner : Nested) (bound : Nat) : Prop where
  expr {e : Expr} (he : IsExpr e) (hlen : e.render.length ≤ bound)
    (ha : Unreserved e.sourceAliases) {tail : List Char} (ht : Follows exprWords tail) :
    Reads inner.expr (e.render.toList ++ tail) e.reread (trimStart tail)
  operand {e : Expr} (he : IsOperand e) (hlen : e.render.length ≤ bound)
    (ha : Unreserved e.sourceAliases) {tail : List Char} (ht : Ends tail) :
    Reads inner.operand (e.render.toList ++ tail) e.reread (trimStart tail)
  statement {s : Statement} (hs : IsStatement s) (hlen : s.render.length ≤ bound)
    (ha : Unreserved s.sourceAliases) {tail : List Char} (ht : Continues [] tail) :
    Reads inner.statement (s.render.toList ++ tail) s.reread (trimStart tail)

/-! ## Lists and chains -/

namespace Grammar

section

variable {α β : Type} {single : Reader β} {text : α → String} {value : α → β}
  {tail : List Char}

theorem commas_append_cases (texts : List String) (tail : List Char) :
    (∃ cs, commas texts ++ tail = ',' :: cs) ∨ commas texts ++ tail = tail := by
  cases texts with
  | nil => exact .inr rfl
  | cons text texts => exact .inl ⟨_, rfl⟩

theorem reads_moreOf {xs : List α}
    (hsingle : ∀ x ∈ xs, ∀ rest, (∃ cs, rest = ',' :: cs) ∨ rest = tail →
      Reads single ((text x).toList ++ rest) (value x) (trimStart rest))
    (htrim : ∀ x ∈ xs, ∀ rest, trimStart ((text x).toList ++ rest) = (text x).toList ++ rest)
    (ht : (trimStart tail).head?.getD Cursor.endMark ≠ ',') {bound : Nat}
    (hb : xs.length ≤ bound) :
    Reads (moreOf single bound) (trimStart (commas (xs.map text) ++ tail)) (xs.map value)
      (trimStart tail) := by
  induction xs generalizing bound with
  | nil =>
    cases bound with
    | zero => exact reads_pure _ _
    | succ bound => exact (reads_consumeChar_of_ne ht).bind (reads_pure _ _)
  | cons x xs ih =>
    obtain ⟨bound, rfl⟩ : ∃ b, bound = b + 1 := ⟨bound - 1, by rw [List.length_cons] at hb; omega⟩
    obtain ⟨hx, hxs⟩ := List.forall_mem_cons.1 hsingle
    obtain ⟨hxtrim, hxstrim⟩ := List.forall_mem_cons.1 htrim
    have hinput : trimStart (commas ((x :: xs).map text) ++ tail) =
        ',' :: ' ' :: ((text x).toList ++ (commas (xs.map text) ++ tail)) := by
      simp only [List.map_cons, commas, List.flatMap_cons, List.cons_append, List.append_assoc]
      exact trimStart_cons (by decide) _
    rw [hinput]
    refine (reads_consumeChar ',' _).bind ?_
    rw [trimStart_space, hxtrim]
    exact (hx _ (commas_append_cases _ _)).bind ((ih hxs hxstrim (Nat.le_of_succ_le_succ hb)).bind (reads_pure _ _))

/-- **A list is read back** if its elements are, before a comma and before what follows the list. -/
theorem reads_listOf {xs : List α} (hne : xs ≠ [])
    (hsingle : ∀ x ∈ xs, ∀ rest, (∃ cs, rest = ',' :: cs) ∨ rest = tail →
      Reads single ((text x).toList ++ rest) (value x) (trimStart rest))
    (htrim : ∀ x ∈ xs, ∀ rest, trimStart ((text x).toList ++ rest) = (text x).toList ++ rest)
    (ht : (trimStart tail).head?.getD Cursor.endMark ≠ ',') :
    Reads (listOf single) ((commaSeparated (xs.map text)).toList ++ tail) (xs.map value)
      (trimStart tail) := by
  obtain ⟨x, xs, rfl⟩ := List.exists_cons_of_ne_nil hne
  obtain ⟨hx, hxs⟩ := List.forall_mem_cons.1 hsingle
  obtain ⟨-, hxstrim⟩ := List.forall_mem_cons.1 htrim
  rw [List.map_cons, toList_commaSeparated, List.append_assoc]
  refine (hx _ (commas_append_cases _ _)).bind (Reads.bind (reads_of_cursor fun c hc => ?_) (reads_pure _ _))
  refine reads_moreOf hxs hxstrim ht ?_
  cases xs with
  | nil => exact Nat.zero_le _
  | cons y ys =>
    have hlen := length_le_commas ((y :: ys).map text)
    have hcomma : trimStart (commas ((y :: ys).map text) ++ tail) =
        commas ((y :: ys).map text) ++ tail := trimStart_cons (by decide) _
    rw [List.length_map] at hlen
    rw [hc, hcomma, List.length_append]
    omega

end

/-- A reader that reads back the texts of expressions of a given shape, up to a length and where one
of some words or the end follows. -/
def RereadsExpr (r : Reader Expr) (p : Expr → Prop) (bound : Nat) (words : List String) : Prop :=
  ∀ e, p e → e.render.length ≤ bound → Unreserved e.sourceAliases →
    ∀ tail, Follows words tail → Reads r (e.render.toList ++ tail) e.reread (trimStart tail)

section

variable {op : Connective} {part : Reader Expr} {p : Expr → Prop} {bound : Nat}
  {words : List String}

theorem render_connective_mem (op : Connective) : op.render ∈ reservedWords := by
  cases op <;> decide

/-- A word after a blank, without the blank. -/
theorem trimStart_word {word : String} (hw : word ∈ reservedWords) (cs : List Char) :
    trimStart (' ' :: (word.toList ++ cs)) = word.toList ++ cs := by
  rw [trimStart_space, (isName_of_mem word hw).trimStart_append]

/-- What is read after a chain goes on from the tree of the chain. -/
theorem reads_chainOf_of_chain (hpart : RereadsExpr part p bound (op.render :: words))
    (hstarts : ∀ e, p e → Starts e) {e : Expr} (he : Chained op p e)
    (hlen : e.render.length ≤ bound) (ha : Unreserved e.sourceAliases) (rest : List Char)
    (hr : Follows (op.render :: words) rest) {result : Expr} {out : List Char}
    (hgoes : ∀ b, (trimStart rest).length ≤ b →
      Reads (chain op op.render part b e.reread) (trimStart rest) result out) :
    Reads (chainOf op op.render part) (e.render.toList ++ rest) result out := by
  induction he generalizing rest with
  | single h =>
    refine (hpart _ h hlen ha rest hr).bind (reads_of_cursor fun c hc => hgoes _ ?_)
    exact Nat.le_of_eq (congrArg List.length hc.symm)
  | @logic left right hl hright ih =>
    have hword := render_connective_mem op
    simp only [Expr.render_logic, String.length_append] at hlen
    rw [Expr.sourceAliases, Unreserved, List.forall_mem_append] at ha
    rw [render_logic_append]
    refine ih (by omega) ha.1 _ (.inr (continues_word List.mem_cons_self _)) fun b hb => ?_
    rw [trimStart_word hword] at hb ⊢
    simp only [List.length_append, List.length_cons] at hb
    obtain ⟨b, rfl⟩ : ∃ b', b = b' + 1 := ⟨b - 1, by omega⟩
    refine (reads_consumeWord (isUpperWord_of_mem _ hword) (ends_space _).delimited).bind ?_
    rw [trimStart_space, (hstarts right hright).trimStart_append]
    refine (hpart right hright (by omega) ha.2 rest hr).bind (hgoes b ?_)
    have hrest := length_trimStart_le rest
    omega

/-- **A chain of one connective is read back** if its parts are. -/
theorem reads_chainOf (op : Connective) (hpart : RereadsExpr part p bound (op.render :: words))
    (hstarts : ∀ e, p e → Starts e) (hwords : ∀ word ∈ words, word ∈ reservedWords)
    (hop : op.render ∉ words) :
    RereadsExpr (chainOf op op.render part) (Chained op p) bound words := by
  intro e he hlen ha tail ht
  refine reads_chainOf_of_chain hpart hstarts he hlen ha tail
    (ht.mono fun _ => List.mem_cons_of_mem _) fun b _ => ?_
  have hstop := ht.startsWith_eq_false hwords (render_connective_mem op) hop
  cases b with
  | zero => exact reads_pure _ _
  | succ b => exact (reads_consumeWord_of_not hstop).bind (reads_pure _ _)

end

section

variable {inner : Nested} {p : Expr → Prop} {bound : Nat} {words : List String}

theorem mapLiterals_negate (f : Literal → Literal) (e : Expr) :
    (negate e).mapLiterals f = negate (e.mapLiterals f) := by
  unfold negate
  split
  · rfl
  · next h =>
    split
    · next e' he =>
      cases e with
      | parens inner negated =>
        rw [Expr.mapLiterals] at he
        cases he
        exact absurd rfl (h inner)
      | _ =>
        rw [Expr.mapLiterals] at he
        cases he
    · rw [Expr.mapLiterals]

theorem sourceAliases_negate (e : Expr) : (negate e).sourceAliases = e.sourceAliases := by
  unfold negate
  split <;> simp only [Expr.sourceAliases]

theorem length_render_negate (e : Expr) : (negate e).render.length = e.render.length + 4 := by
  have h := congrArg List.length (render_negate_append [] e)
  simp only [List.append_nil, List.length_append, List.length_cons, String.length_toList] at h
  rw [h, show "NOT".length = 3 from rfl]
  omega

theorem reads_negations (hp : RereadsExpr (predicate inner) IsPredicate bound words) {e : Expr}
    (he : Negated IsPredicate e) (hlen : e.render.length ≤ bound)
    (ha : Unreserved e.sourceAliases) {tail : List Char} (ht : Follows words tail) {b : Nat}
    (hb : (e.render.toList ++ tail).length ≤ b) :
    Reads (negations inner b) (e.render.toList ++ tail) e.reread (trimStart tail) := by
  induction he generalizing b with
  | base h hn =>
    have hread := hp _ h hlen ha tail ht
    have hnot := h.startsOperand.startsWith_eq_false (by decide) (by decide) hn ht.ends
    cases b with
    | zero => exact hread
    | succ b => exact (reads_consumeWord_of_not hnot).bind hread
  | @negate e h ih =>
    have hstarts : Starts e := h.starts fun _ h => .inr h.startsOperand
    rw [length_render_negate] at hlen
    rw [sourceAliases_negate] at ha
    rw [render_negate_append] at hb ⊢
    simp only [List.length_append, List.length_cons] at hb
    obtain ⟨b, rfl⟩ : ∃ b', b = b' + 1 := ⟨b - 1, by omega⟩
    refine (reads_consumeWord (by decide) (ends_space _).delimited).bind ?_
    rw [trimStart_space, hstarts.trimStart_append, Expr.reread, mapLiterals_negate]
    refine (ih (by omega) ha ?_).bind (reads_pure _ _)
    rw [List.length_append]
    omega

/-- **Negations are read back** if what they negate is. -/
theorem reads_negation (hp : RereadsExpr (predicate inner) IsPredicate bound words) :
    RereadsExpr (negation inner) (Negated IsPredicate) bound words := by
  intro e he hlen ha tail ht
  change Reads (fun c => negations inner c.rest.length c) _ _ _
  refine reads_of_cursor fun c hc => reads_negations hp he hlen ha ht ?_
  exact Nat.le_of_eq (congrArg List.length hc.symm)

end

/-! ## Operands -/

theorem reads_discard {α : Type} {r : Reader α} {input output : List Char} {a : α}
    (h : Reads r input a output) : Reads (discard r) input () output := by
  intro c hc
  obtain ⟨c', hr, hc'⟩ := h c hc
  refine ⟨c', ?_, hc'⟩
  change (r c >>= fun p => pure ((), p.2)) = _
  rw [hr]
  rfl

section

variable {inner : Nested} {bound : Nat} {tail : List Char}

theorem mapLiteralsOfList_eq_map (f : Literal → Literal) (es : List Expr) :
    mapLiteralsOfList f es = es.map (Expr.mapLiterals f) := by
  induction es with
  | nil => rfl
  | cons e es ih => rw [mapLiteralsOfList, ih, List.map_cons]

theorem unreserved_of_mem {es : List Expr} (h : Unreserved (aliasesOfList es)) {e : Expr}
    (he : e ∈ es) : Unreserved e.sourceAliases := by
  induction es with
  | nil => cases he
  | cons e' es ih =>
    rw [aliasesOfList, Unreserved, List.forall_mem_append] at h
    rcases List.mem_cons.1 he with rfl | he
    · exact h.1
    · exact ih h.2 he

theorem length_le_of_mem {es : List Expr} {e : Expr} (he : e ∈ es) :
    e.render.length ≤ (commaSeparated (exprTexts es)).length := by
  rw [exprTexts_eq_map]
  exact length_le_of_mem_commaSeparated (List.mem_map_of_mem he)

/-- **Expressions before a closing parenthesis are read back** if each of them is. -/
theorem reads_exprList {r : Reader Expr} {es : List Expr} (hne : es ≠ [])
    (hstarts : ∀ e ∈ es, Starts e)
    (hr : ∀ e ∈ es, ∀ rest, Follows [] rest →
      Reads r (e.render.toList ++ rest) e.reread (trimStart rest)) (tail : List Char) :
    Reads (listOf r) ((commaSeparated (exprTexts es)).toList ++ ')' :: tail)
      (mapLiteralsOfList Literal.reread es) (')' :: tail) := by
  have hclose := continues_close [] tail
  have htrim : trimStart (')' :: tail) = ')' :: tail := trimStart_cons (by decide) _
  have hlist : Reads (listOf r) ((commaSeparated (es.map Expr.render)).toList ++ ')' :: tail)
      (es.map Expr.reread) (trimStart (')' :: tail)) := by
    refine reads_listOf hne (fun e he rest hrest => hr e he rest ?_)
      (fun e he rest => (hstarts e he).trimStart_append rest) ?_
    · obtain hcomma | rfl := hrest
      · exact .inl hcomma
      · exact .inr hclose
    · exact hclose.head_ne (fun _ hm => nomatch hm) (by decide) (by decide) (by decide)
  rw [exprTexts_eq_map, mapLiteralsOfList_eq_map]
  rw [htrim] at hlist
  exact hlist

theorem reads_arguments (hi : inner.Rereads bound) {args : List Expr}
    (h : ∀ e ∈ args, IsExpr e) (hlen : (commaSeparated (exprTexts args)).length ≤ bound)
    (ha : Unreserved (aliasesOfList args)) (tail : List Char) :
    Reads (arguments inner)
      ('(' :: ((commaSeparated (exprTexts args)).toList ++ ')' :: tail))
      (mapLiteralsOfList Literal.reread args) (trimStart tail) := by
  refine (reads_expectChar '(' _ _).bind ?_
  cases args with
  | nil => exact (reads_consumeChar ')' tail).bind (reads_pure _ _)
  | cons e es =>
    obtain ⟨ch, cs, hcs, hblank, hclose, -⟩ := (h e List.mem_cons_self).starts.exists_cons
    have hopen : (commaSeparated (exprTexts (e :: es))).toList ++ ')' :: tail =
        ch :: (cs ++ (commas (exprTexts es) ++ ')' :: tail)) := by
      rw [exprTexts, toList_commaSeparated, hcs, List.append_assoc, List.cons_append]
    have hlist := reads_exprList (List.cons_ne_nil e es) (fun x hx => (h x hx).starts)
      (fun x hx rest hr => hi.expr (h x hx) (Nat.le_trans (length_le_of_mem hx) hlen)
        (unreserved_of_mem ha hx) (hr.mono fun _ hm => absurd hm List.not_mem_nil)) tail
    rw [hopen, trimStart_cons hblank]
    refine (reads_consumeChar_cons_of_ne hclose _).bind ?_
    rw [← hopen]
    exact hlist.bind ((reads_expectChar ')' _ tail).bind (reads_pure _ _))

/-- What starts as a name is read as a word, a column or a call. -/
theorem reads_operand_of_worded {ch : Char} (hs : isNameStart ch = true) {cs output : List Char}
    {e : Expr} (h : Reads (worded inner) (ch :: cs) e output) :
    Reads (operand inner) (ch :: cs) e output := by
  refine reads_get fun c hc => ?_
  have hcur := Cursor.current_of_rest hc
  obtain ⟨-, hopen, -, hstar, hquote, hminus, hpoint, hdigit⟩ := ne_of_isNameStart hs
  have hnumber : startsNumber c = false := by
    rw [startsNumber, hcur, hdigit, decide_eq_false hminus, decide_eq_false hpoint]
    rfl
  rw [if_neg (by rw [hcur]; exact hopen), if_neg (by rw [hcur, hquote]; decide),
    if_neg (by rw [hnumber]; decide), if_neg (by rw [hcur]; exact hstar)]
  exact h

/-- What is read as a column or a call, where no word that is a literal stands. -/
theorem reads_worded_of_reference {text : String} (hp : IsPath text) {rest output : List Char}
    {e : Expr} (hw : ∀ word ∈ ["TRUE", "FALSE", "NULL"],
      startsWith word (text.toList ++ rest) = false)
    (h : Reads (reference inner) (text.toList ++ rest) e output) :
    Reads (operand inner) (text.toList ++ rest) e output := by
  obtain ⟨ch, cs, hcs, hs⟩ := hp.exists_cons
  rw [hcs, List.cons_append] at hw h ⊢
  refine reads_operand_of_worded hs ?_
  refine (reads_consumeWord_of_not (hw "TRUE" (by decide))).bind ?_
  refine (reads_consumeWord_of_not (hw "FALSE" (by decide))).bind ?_
  refine (reads_consumeWord_of_not (hw "NULL" (by decide))).bind (reads_get fun c hc => ?_)
  rw [if_pos (by rw [Cursor.current_of_rest hc]; exact hs)]
  exact h

theorem reads_operand_column {c : Column} (hcol : IsColumn c) (ht : Ends tail) :
    Reads (operand inner) (c.path.toList ++ tail) (.column c) (trimStart tail) := by
  have hwords : ∀ word ∈ ["TRUE", "FALSE", "NULL"], word ∈ reservedWords := by decide
  refine reads_worded_of_reference hcol.isPath
    (fun word hm => hcol.startsWith_eq_false (hwords word hm) ht.delimited) ?_
  obtain ⟨segments, hne, hn, hres, rfl⟩ := hcol
  rw [path_ofSegments hne]
  refine reads_position fun start => ?_
  refine (reads_path hne hn ht.delimited.noPath).bind (reads_get fun c₁ hc₁ => ?_)
  have hopen : c₁.current ≠ '(' := by
    rw [Cursor.current_eq, hc₁]
    cases tail with
    | nil => decide
    | cons ch cs => rcases ht ch rfl with rfl | rfl | rfl <;> simp
  rw [if_neg hopen]
  split
  · next word =>
    rw [hres word rfl]
    exact (reads_skipBlank tail).bind (reads_pure _ _)
  · exact (reads_skipBlank tail).bind (reads_pure _ _)

theorem reads_operand_call (hi : inner.Rereads bound) {name : String} {args : List Expr}
    (hn : IsPath name)
    (hw : ∀ word ∈ ["TRUE", "FALSE", "NULL"], ¬ (Expr.call name args).Calls word)
    (h : ∀ e ∈ args, IsExpr e) (hlen : (Expr.call name args).render.length ≤ bound + 1)
    (ha : Unreserved (Expr.call name args).sourceAliases) (tail : List Char) :
    Reads (operand inner) ((Expr.call name args).render.toList ++ tail)
      (Expr.call name args).reread (trimStart tail) := by
  have hup : ∀ word ∈ ["TRUE", "FALSE", "NULL"], IsUpperWord word := by decide
  simp only [Expr.render_call, String.length_append, show "(".length = 1 from rfl] at hlen
  rw [Expr.sourceAliases] at ha
  rw [render_call_append]
  refine reads_worded_of_reference hn (fun word hm => ?_) ?_
  · rw [← Bool.not_eq_true, startsWith_append_iff (hup word hm) hn.not_delimiter
      (delimited_cons (by decide) _)]
    exact fun hname => hw word hm ⟨name, args, rfl, hname⟩
  · have hargs := reads_arguments hi h (by omega) ha tail
    obtain ⟨segments, hne, hnames, rfl⟩ := hn
    refine reads_position fun start => ?_
    refine (reads_path hne hnames (delimited_cons (by decide) _).noPath).bind
      (reads_get fun c hc => ?_)
    rw [if_pos (Cursor.current_of_rest hc), Expr.reread, Expr.mapLiterals]
    refine hargs.bind ((reads_skipBlank _).bind ?_)
    rw [trimStart_trimStart]
    exact reads_pure _ _

theorem reads_operand_literal {value : Literal} (hv : value.Readable) (ht : Ends tail) :
    Reads (operand inner) (value.render.toList ++ tail) (.literal value.reread)
      (trimStart tail) := by
  have hnumber : (∃ n, value = .int n) ∨ (∃ x, value = .float x) →
      Reads (operand inner) (value.render.toList ++ tail) (.literal value.reread)
        (trimStart tail) := by
    intro hn
    obtain ⟨hnumeral, hread⟩ := numberLiteral?_render hv hn
    refine reads_get fun c hc => ?_
    obtain ⟨hstarts, hopen, hquote⟩ := hnumeral.startsNumber hc
    rw [if_neg hopen, if_neg (by rw [hquote]; decide), if_pos hstarts]
    exact (reads_number hnumeral hread ht).bind ((reads_skipBlank tail).bind (reads_pure _ _))
  have hword : ∀ word ∈ ["TRUE", "FALSE", "NULL"], ∀ e,
      Reads (worded inner) (word.toList ++ tail) e (trimStart tail) →
      Reads (operand inner) (word.toList ++ tail) e (trimStart tail) := by
    intro word hm e h
    have hnames : ∀ word ∈ ["TRUE", "FALSE", "NULL"], IsName word := by decide
    obtain ⟨ch, cs, hcs⟩ := (hnames word hm).exists_cons
    have hs := (hnames word hm).1
    rw [hcs, List.head?_cons, Option.getD_some] at hs
    rw [hcs, List.cons_append] at h ⊢
    exact reads_operand_of_worded hs h
  cases value with
  | string s =>
    refine reads_get fun c hc => ?_
    have hcur : c.current = '\'' := by
      rw [Literal.render, toList_quote] at hc
      exact Cursor.current_of_rest hc
    rw [if_neg (by rw [hcur]; decide), if_pos (by rw [hcur]; decide)]
    exact (reads_quoted s ht).bind ((reads_skipBlank tail).bind (reads_pure _ _))
  | int n => exact hnumber (.inl ⟨n, rfl⟩)
  | float x => exact hnumber (.inr ⟨x, rfl⟩)
  | bool b =>
    cases b with
    | true =>
      refine hword "TRUE" (by decide) _ ?_
      exact (reads_consumeWord (by decide) ht.delimited).bind (reads_pure _ _)
    | false =>
      refine hword "FALSE" (by decide) _ ?_
      refine (reads_consumeWord_of_not
        (startsWith_other (by decide) (by decide) (by decide) ht.delimited)).bind ?_
      exact (reads_consumeWord (by decide) ht.delimited).bind (reads_pure _ _)
  | null =>
    refine hword "NULL" (by decide) _ ?_
    refine (reads_consumeWord_of_not
        (startsWith_other (by decide) (by decide) (by decide) ht.delimited)).bind ?_
    refine (reads_consumeWord_of_not
        (startsWith_other (by decide) (by decide) (by decide) ht.delimited)).bind ?_
    exact (reads_consumeWord (by decide) ht.delimited).bind (reads_pure _ _)

/-- **An operand is read back** if what is nested in it is. -/
theorem reads_operand (hi : inner.Rereads bound) {e : Expr} (he : IsOperand e)
    (hlen : e.render.length ≤ bound + 1) (ha : Unreserved e.sourceAliases) (ht : Ends tail) :
    Reads (operand inner) (e.render.toList ++ tail) e.reread (trimStart tail) := by
  cases he with
  | literal hv => exact reads_operand_literal hv ht
  | column hcol => exact reads_operand_column hcol ht
  | call hn hw h => exact reads_operand_call hi hn hw h hlen ha tail
  | wildcard =>
    refine reads_get fun c hc => ?_
    have hcur : c.current = '*' := Cursor.current_of_rest hc
    have hnumber : startsNumber c = false := by
      rw [startsNumber, hcur]
      rfl
    rw [if_neg (by rw [hcur]; decide), if_neg (by rw [hcur]; decide),
      if_neg (by rw [hnumber]; decide), if_pos hcur]
    exact (reads_discard (reads_consumeChar '*' tail)).bind (reads_pure _ _)
  | @parens e he hs =>
    simp only [Expr.render_parens, String.length_append, show "(".length = 1 from rfl] at hlen
    rw [render_parens_append]
    refine reads_get fun c hc => ?_
    rw [if_pos (Cursor.current_of_rest hc)]
    refine (reads_discard (reads_consumeChar '(' _)).bind ?_
    rw [he.starts.trimStart_append]
    refine (reads_isWord "SELECT" _).bind ?_
    rw [he.starts.startsWith_eq_false (by decide) (by decide) hs (ends_close tail)]
    exact (hi.expr he (by omega) ha (.inr (continues_close _ _))).bind
      ((reads_expectChar ')' _ tail).bind (reads_pure _ _))
  | @subquery query hq =>
    simp only [Expr.render_subquery, String.length_append, show "(".length = 1 from rfl] at hlen
    rw [render_subquery_append]
    refine reads_get fun c hc => ?_
    rw [if_pos (Cursor.current_of_rest hc)]
    refine (reads_discard (reads_consumeChar '(' _)).bind ?_
    have hword : startsWith "SELECT" ((Statement.select query).render.toList ++ ')' :: tail) =
        true := by
      rw [render_select_append, startsWith_word_iff (by decide) (by decide)
        (ends_space _).delimited]
    rw [trimStart_render_statement]
    refine (reads_isWord "SELECT" _).bind ?_
    rw [hword]
    exact (hi.statement (.select hq) (by omega) ha (continues_close _ _)).bind
      ((reads_expectChar ')' _ tail).bind (reads_pure _ _))

/-! ## Predicates -/

/-- The words that may follow a predicate. -/
def predicateWords : List String := "AND" :: "OR" :: exprWords

theorem mem_reserved_of_predicateWords : ∀ word ∈ predicateWords, word ∈ reservedWords := by decide

/-- A text that starts with no sign of a comparison. -/
def NoSign (input : List Char) : Prop :=
  ∀ ch ∈ ['<', '>', '=', '!'], input.head?.getD Cursor.endMark ≠ ch

theorem sign_ne {ch : Char} (hm : ch ∈ ['<', '>', '=', '!']) :
    isNameStart ch = false ∧ ch ≠ Cursor.endMark ∧ ch ≠ ')' ∧ ',' ≠ ch := by
  simp only [List.mem_cons, List.not_mem_nil, or_false] at hm
  obtain rfl | rfl | rfl | rfl := hm <;> decide

theorem noSign_word {word : String} (hw : word ∈ reservedWords) (cs : List Char) :
    NoSign (word.toList ++ cs) :=
  fun _ hm => head_word_ne hw (sign_ne hm).1 cs

theorem noSign_of_follows (ht : Follows predicateWords tail) : NoSign (trimStart tail) := by
  intro ch hm
  obtain ⟨hstart, hend, hclose, hcomma⟩ := sign_ne hm
  obtain ⟨cs, rfl⟩ | ht := ht
  · rw [trimStart_cons (by decide)]
    exact hcomma
  · exact ht.head_ne mem_reserved_of_predicateWords hstart hend hclose

/-- A sign is told by two characters, of which the second may be the blank after it. -/
theorem ofSign?_render (op : Comparison) (cs : List Char) :
    Comparison.ofSign? ((op.render.toList ++ ' ' :: cs).head?.getD Cursor.endMark)
      ((op.render.toList ++ ' ' :: cs)[1]?.getD Cursor.endMark) = some (op, op.render.length) := by
  cases op <;> rfl

theorem ofSign?_eq_none {ch next : Char} (h : ch ∉ ['<', '>', '=', '!']) :
    Comparison.ofSign? ch next = none := by
  unfold Comparison.ofSign?
  split
  all_goals first
    | rfl
    | exact absurd (by decide) h

theorem reads_comparison (op : Comparison) (cs : List Char) :
    Reads comparison (op.render.toList ++ ' ' :: cs) (some op) (trimStart cs) := by
  intro c hc
  have hsign : Comparison.ofSign? c.current (c.peek 1) = some (op, op.render.length) := by
    rw [Cursor.current_eq, Cursor.peek, hc]
    exact ofSign?_render op cs
  refine ⟨(c.advance op.render.length).skipBlank, ?_, ?_⟩
  · unfold comparison
    rw [hsign]
  · rw [Cursor.rest_skipBlank, Cursor.rest_advance, hc, ← String.length_toList, List.drop_left,
      trimStart_space]

theorem reads_comparison_none {input : List Char} (h : NoSign input) :
    Reads comparison input none input := by
  intro c hc
  have hsign : Comparison.ofSign? c.current (c.peek 1) = none := by
    refine ofSign?_eq_none fun hm => ?_
    rw [Cursor.current_eq, hc] at hm
    exact h _ hm rfl
  refine ⟨c, ?_, hc⟩
  unfold comparison
  rw [hsign]

theorem reads_membership (hi : inner.Rereads bound) {list : List Expr} (hne : list ≠ [])
    (h : ∀ e ∈ list, IsOperand e) (hs : ∀ e ∈ list.head?, ¬ e.Calls "SELECT")
    (hlen : (commaSeparated (exprTexts list)).length ≤ bound)
    (ha : Unreserved (aliasesOfList list)) (tail : List Char) :
    Reads (membership inner)
      ('(' :: ((commaSeparated (exprTexts list)).toList ++ ')' :: tail))
      (mapLiteralsOfList Literal.reread list) (trimStart tail) := by
  refine (reads_expectChar '(' _ _).bind ?_
  have hlist := reads_exprList hne (fun x hx => .inr (h x hx).startsOperand)
    (fun x hx rest hr => hi.operand (h x hx) (Nat.le_trans (length_le_of_mem hx) hlen)
      (unreserved_of_mem ha hx) hr.ends) tail
  obtain ⟨e, es, rfl⟩ := List.exists_cons_of_ne_nil hne
  have he := h e List.mem_cons_self
  have htext : (commaSeparated (exprTexts (e :: es))).toList ++ ')' :: tail =
      e.render.toList ++ (commas (exprTexts es) ++ ')' :: tail) := by
    rw [exprTexts, toList_commaSeparated, List.append_assoc]
  have hrest : Delimited (commas (exprTexts es) ++ ')' :: tail) := by
    cases es with
    | nil => exact delimited_cons (by decide) _
    | cons e' es => exact delimited_cons (by decide) _
  rw [htext] at hlist ⊢
  rw [Starts.trimStart_append (.inr he.startsOperand)]
  refine (reads_isWord "SELECT" _).bind ?_
  rw [he.startsWith_eq_false (by decide) (by decide) (hs e rfl) hrest]
  exact hlist.bind ((reads_expectChar ')' _ tail).bind (reads_pure _ _))

/-- The word `NOT` in front of another word is read as the mark that it stands for. -/
theorem reads_negationMark (negated : Bool) {word : String} (hw : word ∈ reservedWords)
    (hne : word ≠ "NOT") {cs : List Char} (hd : Delimited cs) :
    Reads (consumeWord "NOT") ((Syntax.negation negated).toList ++ (word.toList ++ cs)) negated
      (word.toList ++ cs) := by
  cases negated with
  | true =>
    have h := reads_consumeWord (show IsUpperWord "NOT" by decide)
      (ends_space (word.toList ++ cs)).delimited
    rw [trimStart_word hw] at h
    exact h
  | false => exact reads_consumeWord_of_not (startsWith_other (by decide) hw hne hd)

/-- A test that starts with a word, with `NOT` in front or without, is read after its operand. -/
theorem reads_predicate_of_test (hi : inner.Rereads bound) {left : Expr} (hl : IsOperand left)
    (hlen : left.render.length ≤ bound + 1) (ha : Unreserved left.sourceAliases) (negated : Bool)
    {word : String} (hw : word ∈ ["LIKE", "IN"]) {cs output : List Char} {e : Expr}
    (h : Reads (patternOrList inner left.reread)
      ((Syntax.negation negated).toList ++ (word.toList ++ ' ' :: cs)) e output) :
    Reads (predicate inner) (left.render.toList ++
      ' ' :: ((Syntax.negation negated).toList ++ (word.toList ++ ' ' :: cs))) e output := by
  have hfirst : ∃ other ∈ ["NOT", "LIKE", "IN"], ∃ rest, Delimited rest ∧
      (Syntax.negation negated).toList ++ (word.toList ++ ' ' :: cs) = other.toList ++ rest := by
    cases negated with
    | true => exact ⟨"NOT", by decide, ' ' :: (word.toList ++ ' ' :: cs), (ends_space _).delimited, rfl⟩
    | false => exact ⟨word, List.mem_cons_of_mem _ hw, ' ' :: cs, (ends_space _).delimited, rfl⟩
  have htests : ∀ word ∈ ["NOT", "LIKE", "IN"], word ∈ reservedWords ∧ word ≠ "IS" := by decide
  obtain ⟨other, hm, rest, hd, htext⟩ := hfirst
  obtain ⟨hreserved, hne⟩ := htests other hm
  rw [htext] at h ⊢
  refine (reads_operand hi hl hlen ha (ends_space _)).bind ?_
  rw [trimStart_word hreserved]
  refine (reads_comparison_none (noSign_word hreserved _)).bind ?_
  exact (reads_consumeWord_of_not (startsWith_other (by decide) hreserved hne hd)).bind h

/-- **A predicate is read back** if what is nested in it is. -/
theorem reads_predicate (hi : inner.Rereads bound) :
    RereadsExpr (predicate inner) IsPredicate (bound + 1) predicateWords := by
  intro e he hlen ha tail ht
  have hno : ∀ word ∈ reservedWords, word ∉ predicateWords →
      startsWith word (trimStart tail) = false :=
    fun word hw hn => ht.startsWith_eq_false mem_reserved_of_predicateWords hw hn
  cases he with
  | operand ho =>
    refine (reads_operand hi ho hlen ha ht.ends).bind ?_
    refine (reads_comparison_none (noSign_of_follows ht)).bind ?_
    refine (reads_consumeWord_of_not (hno "IS" (by decide) (by decide))).bind ?_
    refine reads_position fun start => ?_
    refine (reads_consumeWord_of_not (hno "NOT" (by decide) (by decide))).bind ?_
    refine (reads_consumeWord_of_not (hno "LIKE" (by decide) (by decide))).bind ?_
    exact (reads_consumeWord_of_not (hno "IN" (by decide) (by decide))).bind (reads_pure _ _)
  | @compare left right op hl hr =>
    simp only [Expr.render_compare, String.length_append] at hlen
    rw [Expr.sourceAliases, Unreserved, List.forall_mem_append] at ha
    have hsign : trimStart (' ' :: (op.render.toList ++ ' ' :: (right.render.toList ++ tail))) =
        op.render.toList ++ ' ' :: (right.render.toList ++ tail) := by
      rw [trimStart_space]
      cases op <;> exact trimStart_cons (by decide) _
    rw [render_compare_append]
    refine (reads_operand hi hl (by omega) ha.1 (ends_space _)).bind ?_
    rw [hsign]
    refine (reads_comparison op _).bind ?_
    rw [Starts.trimStart_append (.inr hr.startsOperand)]
    exact (reads_operand hi hr (by omega) ha.2 ht.ends).bind (reads_pure _ _)
  | @like operand pattern negated hl hr =>
    simp only [Expr.render_like, String.length_append] at hlen
    rw [Expr.sourceAliases, Unreserved, List.forall_mem_append] at ha
    rw [render_like_append]
    refine reads_predicate_of_test hi hl (by omega) ha.1 negated (by decide)
      (reads_position fun start => ?_)
    refine (reads_negationMark negated (by decide) (by decide) (ends_space _).delimited).bind ?_
    refine (reads_consumeWord (by decide) (ends_space _).delimited).bind ?_
    rw [trimStart_space, Starts.trimStart_append (.inr hr.startsOperand)]
    exact (reads_operand hi hr (by omega) ha.2 ht.ends).bind (reads_pure _ _)
  | @isNull operand negated hl =>
    simp only [Expr.render_isNull, String.length_append] at hlen
    rw [Expr.sourceAliases] at ha
    rw [render_isNull_append]
    refine (reads_operand hi hl (by omega) ha (ends_space _)).bind ?_
    rw [trimStart_word (by decide)]
    refine (reads_comparison_none (noSign_word (by decide) _)).bind ?_
    refine (reads_consumeWord (by decide) (ends_space _).delimited).bind ?_
    have hmark : trimStart (' ' :: ((Syntax.negation negated).toList ++ ("NULL".toList ++ tail))) =
        (Syntax.negation negated).toList ++ ("NULL".toList ++ tail) := by
      rw [trimStart_space]
      cases negated <;> exact trimStart_cons (by decide) _
    rw [hmark]
    refine (reads_negationMark negated (by decide) (by decide) ht.ends.delimited).bind ?_
    exact (reads_expectWord _ (by decide) ht.ends.delimited).bind (reads_pure _ _)
  | @inList operand list negated hl hne h hs =>
    simp only [Expr.render_inList, String.length_append, show ")".length = 1 from rfl] at hlen
    rw [Expr.sourceAliases, Unreserved, List.forall_mem_append] at ha
    rw [render_inList_append]
    refine reads_predicate_of_test hi hl (by omega) ha.1 negated (by decide)
      (reads_position fun start => ?_)
    refine (reads_negationMark negated (by decide) (by decide) (ends_space _).delimited).bind ?_
    refine (reads_consumeWord_of_not (startsWith_other (by decide) (by decide) (by decide)
      (ends_space _).delimited)).bind ?_
    refine (reads_consumeWord (by decide) (ends_space _).delimited).bind ?_
    rw [trimStart_space, trimStart_cons (by decide)]
    exact (reads_membership hi hne h hs (by omega) ha.2 tail).bind (reads_pure _ _)

theorem reads_expr (hi : inner.Rereads bound) :
    RereadsExpr (expr inner) IsExpr (bound + 1) exprWords := by
  have hand : RereadsExpr (conjunction inner) _ (bound + 1) ("OR" :: exprWords) :=
    reads_chainOf .and (reads_negation (reads_predicate hi))
      (fun _ h => h.starts fun _ h => .inr h.startsOperand) (by decide) (by decide)
  have hor := reads_chainOf .or hand
    (fun _ h => h.starts fun _ h => h.starts fun _ h => .inr h.startsOperand)
    (by decide) (by decide)
  intro e he
  cases he with
  | of he => exact hor e he

end

end Grammar

end DocQuery.Syntax
