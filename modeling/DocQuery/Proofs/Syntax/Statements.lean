import DocQuery.Proofs.Syntax.Expressions

/-!
# Statements that are read back

The clauses of a statement are read back one after the other. Each clause of a text is empty or starts
with its own word, so what follows a clause starts with the word of a later one (`continues_clause`),
and no reader takes it for more of its own. An alias of a source stands in the text without `AS`, so it
is read back only if it is not reserved.

`nested_rereads` puts the levels together: the readers for texts nested up to `n` deep read back every
text of up to `n` characters.
-/

namespace DocQuery.Syntax

open Reader Grammar

/-- The words of the clauses after the sources. -/
def clauseWords : List String := ["WHERE", "GROUP", "HAVING", "ORDER", "LIMIT", "OFFSET"]

/-- The words that may follow a joined source and its condition. -/
def joinWords : List String := "INNER" :: "LEFT" :: "RIGHT" :: "FULL" :: clauseWords

/-- The words that may follow a source. -/
def sourceWords : List String := "ON" :: joinWords

theorem mem_reserved_of_sourceWords : ∀ word ∈ sourceWords, word ∈ reservedWords := by decide

/-- A text that is empty or starts with a word after a blank. -/
def IsClause (word : String) (text : String) : Prop :=
  text = "" ∨ ∃ cs, text.toList = ' ' :: (word.toList ++ ' ' :: cs)

/-- A clause goes on with its own word or with what follows it. -/
theorem continues_clause {word text : String} (h : IsClause word text) {words : List String}
    {rest : List Char} (hr : Continues words rest) : Continues (word :: words) (text.toList ++ rest) := by
  obtain rfl | ⟨cs, hcs⟩ := h
  · exact hr.mono fun _ => List.mem_cons_of_mem _
  · rw [hcs, List.cons_append, List.append_assoc, List.cons_append]
    exact continues_word List.mem_cons_self _

namespace Grammar

variable {inner : Nested} {bound : Nat} {tail : List Char}

/-! ## Sources -/

/-- **An alias of a source is read back** if it is not reserved. -/
theorem reads_aliasSuffix {name : Option String} (hn : ∀ word ∈ name, IsName word)
    (ha : Unreserved name.toList) (ht : Continues sourceWords tail) :
    Reads aliasName (trimStart ((aliasSuffix name).toList ++ tail)) name (trimStart tail) := by
  cases name with
  | none => exact reads_aliasName_none (.inr ht) mem_reserved_of_sourceWords (by decide)
  | some word =>
    have hword := hn word rfl
    have htext : trimStart ((aliasSuffix (some word)).toList ++ tail) = word.toList ++ tail := by
      rw [aliasSuffix, String.toList_append, List.append_assoc]
      exact (trimStart_space _).trans (hword.trimStart_append tail)
    rw [htext]
    exact reads_aliasName hword (ha word List.mem_cons_self) (Follows.ends (.inr ht))

theorem ends_aliasSuffix (name : Option String) (ht : Continues sourceWords tail) :
    Ends ((aliasSuffix name).toList ++ tail) := by
  cases name with
  | none => exact Follows.ends (.inr ht)
  | some word =>
    rw [aliasSuffix, String.toList_append, List.append_assoc]
    exact ends_space _

theorem reads_tableName {table : String} (h : IsPath table) {rest : List Char} (hr : Ends rest) :
    Reads tableName (table.toList ++ rest) table rest := by
  obtain ⟨segments, hne, hn, rfl⟩ := h
  intro c hc
  obtain ⟨c', hp, hc'⟩ := reads_path hne hn hr.delimited.noPath c hc
  refine ⟨c', ?_, hc'⟩
  unfold tableName
  rw [hp]

theorem reads_source (hi : inner.Rereads bound) {found : Source} (h : IsSource found)
    (hlen : found.render.length ≤ bound + 1) (ha : Unreserved found.sourceAliases)
    (ht : Continues sourceWords tail) :
    Reads (source inner) (found.render.toList ++ tail) (found.mapLiterals Literal.reread)
      (trimStart tail) := by
  cases h with
  | @table table name hp hn =>
    have htext : (Source.table table name).render.toList ++ tail =
        table.toList ++ ((aliasSuffix name).toList ++ tail) := by
      rw [Source.render, String.toList_append, List.append_assoc]
    rw [Source.sourceAliases] at ha
    rw [htext]
    obtain ⟨ch, cs, hcs, hs⟩ := hp.exists_cons
    have hopen : Reads (consumeChar '(') (table.toList ++ ((aliasSuffix name).toList ++ tail)) false
        (table.toList ++ ((aliasSuffix name).toList ++ tail)) := by
      rw [hcs]
      exact reads_consumeChar_cons_of_ne (ne_of_isNameStart hs).2.1 _
    refine hopen.bind ((reads_tableName hp (ends_aliasSuffix name ht)).bind ?_)
    exact (reads_skipBlank _).bind ((reads_aliasSuffix hn ha ht).bind (reads_pure _ _))
  | @query s name hs hn =>
    have htext : (Source.query s name).render.toList ++ tail =
        '(' :: (s.render.toList ++ ')' :: ((aliasSuffix name).toList ++ tail)) := by
      simp [Source.render]
    simp only [Source.render, String.length_append, show "(".length = 1 from rfl] at hlen
    rw [Source.sourceAliases, Unreserved, List.forall_mem_append] at ha
    rw [htext]
    refine (reads_consumeChar '(' _).bind ?_
    rw [trimStart_render_statement]
    refine (hi.statement hs (by omega) ha.2 (continues_close _ _)).bind ?_
    refine (reads_expectChar ')' _ _).bind ?_
    exact (reads_aliasSuffix hn ha.1 ht).bind (reads_pure _ _)

/-- The text of a source starts with no blank. -/
theorem trimStart_render_source {found : Source} (h : IsSource found) (tail : List Char) :
    trimStart (found.render.toList ++ tail) = found.render.toList ++ tail := by
  cases h with
  | @table table name hp hn =>
    obtain ⟨ch, cs, hcs, hs⟩ := hp.exists_cons
    rw [Source.render, String.toList_append, hcs]
    exact trimStart_cons (ne_of_isNameStart hs).1 _
  | query _ _ =>
    simp only [Source.render, String.toList_append, List.append_assoc]
    exact trimStart_cons (by decide) _

/-! ## Joins -/

/-- The word in front of `JOIN`. -/
def sideWord : JoinKind → String
  | .inner => "INNER"
  | .left => "LEFT"
  | .right => "RIGHT"
  | .full => "FULL"

theorem sideWord_mem (kind : JoinKind) : sideWord kind ∈ reservedWords := by
  cases kind <;> decide

theorem toList_render_joinKind (kind : JoinKind) :
    kind.render.toList = (sideWord kind).toList ++ ' ' :: "JOIN".toList := by
  cases kind <;> rfl

theorem reads_joinSide (kind : JoinKind) (cs : List Char) :
    Reads joinSide ((sideWord kind).toList ++ ' ' :: cs) (some kind) (trimStart cs) := by
  have hskip : ∀ {word : String}, word ∈ reservedWords → sideWord kind ≠ word →
      Reads (consumeWord word) ((sideWord kind).toList ++ ' ' :: cs) false
        ((sideWord kind).toList ++ ' ' :: cs) :=
    fun hw hne => reads_consumeWord_of_not
      (startsWith_other hw (sideWord_mem kind) hne (ends_space cs).delimited)
  have htake : Reads (consumeWord (sideWord kind)) ((sideWord kind).toList ++ ' ' :: cs) true
      (trimStart cs) := by
    have h := reads_consumeWord (isUpperWord_of_mem _ (sideWord_mem kind)) (ends_space cs).delimited
    rw [trimStart_space] at h
    exact h
  cases kind with
  | inner => exact htake.bind (reads_pure _ _)
  | left => exact (hskip (by decide) (by decide)).bind (htake.bind (reads_pure _ _))
  | right =>
    refine (hskip (by decide) (by decide)).bind ?_
    exact (hskip (by decide) (by decide)).bind (htake.bind (reads_pure _ _))
  | full =>
    refine (hskip (by decide) (by decide)).bind ((hskip (by decide) (by decide)).bind ?_)
    exact (hskip (by decide) (by decide)).bind (htake.bind (reads_pure _ _))

/-- **The words of a join are read back.** -/
theorem reads_joinKind (kind : JoinKind) (cs : List Char) :
    Reads joinKind (kind.render.toList ++ ' ' :: cs) (some kind) (trimStart cs) := by
  have hside := reads_joinSide kind ("JOIN".toList ++ ' ' :: cs)
  have hjoin := reads_expectWord "Expected JOIN" (show IsUpperWord "JOIN" by decide)
    (ends_space cs).delimited
  have houter : startsWith "OUTER" ("JOIN".toList ++ ' ' :: cs) = false :=
    startsWith_other (by decide) (by decide) (by decide) (ends_space cs).delimited
  have hfirst : startsWith "JOIN" ((sideWord kind).toList ++ ' ' :: ("JOIN".toList ++ ' ' :: cs)) =
      false :=
    startsWith_other (by decide) (sideWord_mem kind) (by cases kind <;> decide)
      (ends_space _).delimited
  rw [(isName_of_mem "JOIN" (by decide)).trimStart_append] at hside
  rw [trimStart_space] at hjoin
  rw [toList_render_joinKind, List.append_assoc, List.cons_append]
  refine (reads_consumeWord_of_not hfirst).bind (hside.bind ?_)
  cases kind with
  | inner => exact hjoin.bind (reads_pure _ _)
  | _ =>
    exact (reads_discard (reads_consumeWord_of_not houter)).bind (hjoin.bind (reads_pure _ _))

theorem reads_joinKind_none (ht : Continues clauseWords tail) :
    Reads joinKind (trimStart tail) none (trimStart tail) := by
  have hno : ∀ word ∈ ["JOIN", "INNER", "LEFT", "RIGHT", "FULL"],
      startsWith word (trimStart tail) = false := by
    intro word hm
    have hwords : ∀ word ∈ ["JOIN", "INNER", "LEFT", "RIGHT", "FULL"],
        word ∈ reservedWords ∧ word ∉ clauseWords := by decide
    exact Follows.startsWith_eq_false (.inr ht) (by decide) (hwords word hm).1 (hwords word hm).2
  refine (reads_consumeWord_of_not (hno "JOIN" (by decide))).bind ?_
  refine Reads.bind (a := none) ?_ (reads_pure _ _)
  refine (reads_consumeWord_of_not (hno "INNER" (by decide))).bind ?_
  refine (reads_consumeWord_of_not (hno "LEFT" (by decide))).bind ?_
  refine (reads_consumeWord_of_not (hno "RIGHT" (by decide))).bind ?_
  exact (reads_consumeWord_of_not (hno "FULL" (by decide))).bind (reads_pure _ _)

theorem joinsText_cons_append (kind : JoinKind) (found : Source) (condition : Expr)
    (joins : List Join) (tail : List Char) :
    (joinsText (⟨kind, found, condition⟩ :: joins)).toList ++ tail =
      ' ' :: (kind.render.toList ++ ' ' :: (found.render.toList ++ ' ' :: ("ON".toList ++
        ' ' :: (condition.render.toList ++ ((joinsText joins).toList ++ tail))))) := by
  simp [joinsText, Join.render]

/-- What follows a join starts with the words of another one or of a later clause. -/
theorem continues_joins (joins : List Join) (ht : Continues clauseWords tail) :
    Continues joinWords ((joinsText joins).toList ++ tail) := by
  cases joins with
  | nil => exact ht.mono (by decide)
  | cons join joins =>
    obtain ⟨kind, found, condition⟩ := join
    have hword : ∀ kind, sideWord kind ∈ joinWords := by
      intro kind
      cases kind <;> decide
    rw [joinsText_cons_append, toList_render_joinKind, List.append_assoc, List.cons_append]
    exact continues_word (hword kind) _

theorem length_render_join (kind : JoinKind) (found : Source) (condition : Expr) :
    found.render.length + condition.render.length ≤ (Join.render ⟨kind, found, condition⟩).length := by
  simp only [Join.render, String.length_append]
  omega

theorem reads_joinsWithin (hi : inner.Rereads bound) {found : List Join}
    (h : ∀ join ∈ found, IsJoin join) (hlen : (joinsText found).length ≤ bound)
    (ha : Unreserved (aliasesOfJoins found)) (ht : Continues clauseWords tail) {b : Nat}
    (hb : found.length ≤ b) :
    Reads (joinsWithin inner b) (trimStart ((joinsText found).toList ++ tail))
      (mapLiteralsOfJoins Literal.reread found) (trimStart tail) := by
  induction found generalizing b with
  | nil =>
    cases b with
    | zero => exact reads_pure _ _
    | succ b => exact (reads_joinKind_none ht).bind (reads_pure _ _)
  | cons join joins ih =>
    obtain ⟨kind, joined, condition⟩ := join
    obtain ⟨b, rfl⟩ : ∃ b', b = b' + 1 := ⟨b - 1, by rw [List.length_cons] at hb; omega⟩
    obtain ⟨hjoin, hjoins⟩ := List.forall_mem_cons.1 h
    have hrest := continues_joins joins ht
    have hparts := length_render_join kind joined condition
    simp only [joinsText, String.length_append] at hlen
    simp only [aliasesOfJoins, Join.sourceAliases, Unreserved, List.forall_mem_append] at ha
    cases hjoin with
    | of hs hc =>
      dsimp only at hs hc
      have hkind : ∀ cs, trimStart (' ' :: (kind.render.toList ++ cs)) = kind.render.toList ++ cs := by
        intro cs
        rw [toList_render_joinKind, List.append_assoc, trimStart_word (sideWord_mem kind)]
      rw [joinsText_cons_append, hkind]
      refine (reads_joinKind kind _).bind ?_
      rw [trimStart_render_source hs]
      refine (reads_source hi hs (by omega) ha.1.1 (continues_word (by decide) _)).bind ?_
      rw [trimStart_word (by decide)]
      refine (reads_expectWord _ (by decide) (ends_space _).delimited).bind ?_
      rw [trimStart_space, hc.starts.trimStart_append]
      refine (hi.expr hc (by omega) ha.1.2 (.inr (hrest.mono (by decide)))).bind ?_
      exact (ih hjoins (by omega) ha.2 (Nat.le_of_succ_le_succ hb)).bind (reads_pure _ _)

/-! ## Clauses -/

section

variable {word words : String} {after : List String}

/-- The word of a clause that is there is read, and the word of one that is not is not. -/
theorem reads_consumeWord_clause (hw : word ∈ reservedWords) {cs : List Char} :
    Reads (consumeWord word) (trimStart (' ' :: (word.toList ++ ' ' :: cs))) true (trimStart cs) := by
  have h := reads_consumeWord (isUpperWord_of_mem word hw) (ends_space cs).delimited
  rw [trimStart_space] at h
  rw [trimStart_word hw]
  exact h

theorem startsWith_of_continues (hw : word ∈ reservedWords) (hn : word ∉ after)
    (hafter : ∀ other ∈ after, other ∈ clauseWords) (ht : Continues after tail) :
    startsWith word (trimStart tail) = false := by
  have hreserved : ∀ other ∈ clauseWords, other ∈ reservedWords := by decide
  exact Follows.startsWith_eq_false (.inr ht) (fun other hm => hreserved other (hafter other hm)) hw hn

theorem isClause_condition (hwords : words.toList = ' ' :: (word.toList ++ [' ']))
    (condition : Option Expr) : IsClause word (conditionClause words condition) := by
  cases condition with
  | none => exact .inl rfl
  | some e =>
    refine .inr ⟨e.render.toList, ?_⟩
    rw [conditionClause, String.toList_append, hwords]
    simp

theorem reads_conditionAfter (hi : inner.Rereads bound) (hw : word ∈ reservedWords)
    (hwords : words.toList = ' ' :: (word.toList ++ [' '])) {condition : Option Expr}
    (hc : ∀ e ∈ condition, IsExpr e) (hlen : (conditionClause words condition).length ≤ bound)
    (ha : Unreserved (aliasesOfOption condition)) (hn : word ∉ after)
    (hafter : ∀ other ∈ after, other ∈ clauseWords) (ht : Continues after tail) :
    Reads (conditionAfter inner word)
      (trimStart ((conditionClause words condition).toList ++ tail))
      (mapLiteralsOfOption Literal.reread condition) (trimStart tail) := by
  cases condition with
  | none =>
    exact (reads_consumeWord_of_not (startsWith_of_continues hw hn hafter ht)).bind (reads_pure _ _)
  | some e =>
    have he := hc e rfl
    have hexpr : ∀ other ∈ clauseWords, other ∈ exprWords := by decide
    have htext : (conditionClause words (some e)).toList ++ tail =
        ' ' :: (word.toList ++ ' ' :: (e.render.toList ++ tail)) := by
      rw [conditionClause, String.toList_append, hwords]
      simp
    rw [conditionClause, String.length_append] at hlen
    rw [htext]
    refine (reads_consumeWord_clause hw).bind ?_
    rw [he.starts.trimStart_append]
    exact (hi.expr he (by omega) ha (.inr (ht.mono fun other hm =>
      hexpr other (hafter other hm)))).bind (reads_pure _ _)

theorem isClause_count (hwords : words.toList = ' ' :: (word.toList ++ [' ']))
    (count : Option Nat) : IsClause word (countClause words count) := by
  cases count with
  | none => exact .inl rfl
  | some n =>
    refine .inr ⟨(Number.natText n).toList, ?_⟩
    rw [countClause, String.toList_append, hwords]
    simp

theorem reads_rowCountAfter (hi : inner.Rereads bound) (hw : word ∈ reservedWords)
    (hwords : words.toList = ' ' :: (word.toList ++ [' '])) {reason : String} {count : Option Nat}
    (hc : ∀ n ∈ count, Number.fitsWord n = true) (hlen : (countClause words count).length ≤ bound)
    (hn : word ∉ after) (hafter : ∀ other ∈ after, other ∈ clauseWords)
    (ht : Continues after tail) :
    Reads (rowCountAfter inner word reason)
      (trimStart ((countClause words count).toList ++ tail)) count (trimStart tail) := by
  cases count with
  | none =>
    exact (reads_consumeWord_of_not (startsWith_of_continues hw hn hafter ht)).bind (reads_pure _ _)
  | some n =>
    have he : IsOperand (.literal (.int n)) := .literal (hc n rfl)
    have hrender : (Expr.literal (.int n)).render = Number.natText n := by
      rw [Expr.render, Literal.render, Number.intText, if_neg (by omega), Int.natAbs_natCast]
    have htext : (countClause words (some n)).toList ++ tail =
        ' ' :: (word.toList ++ ' ' :: ((Expr.literal (.int n)).render.toList ++ tail)) := by
      rw [countClause, String.toList_append, hwords, hrender]
      simp
    rw [countClause, String.length_append, ← hrender] at hlen
    rw [htext]
    refine (reads_consumeWord_clause hw).bind ?_
    rw [Starts.trimStart_append (.inr he.startsOperand)]
    refine Reads.bind (reads_position fun start => ?_) (reads_pure _ _)
    have ha : Unreserved (Expr.literal (.int n)).sourceAliases :=
      fun _ hm => absurd hm List.not_mem_nil
    refine (hi.operand he (by omega) ha (Follows.ends (.inr ht))).bind ?_
    exact reads_pure _ _

theorem isClause_list (hwords : ∃ cs, words.toList = ' ' :: (word.toList ++ ' ' :: cs))
    (texts : List String) : IsClause word (listClause words texts) := by
  obtain ⟨cs, hwords⟩ := hwords
  cases texts with
  | nil => exact .inl rfl
  | cons text texts =>
    refine .inr ⟨cs ++ (commaSeparated (text :: texts)).toList, ?_⟩
    rw [listClause, String.toList_append, hwords]
    · simp
    · simp

/-- **A list after a word and `BY` is read back** if its elements are. -/
theorem reads_listAfter {α β : Type} {single : Reader β} {text : α → String} {value : α → β}
    (hw : word ∈ reservedWords)
    (hwords : words.toList = ' ' :: (word.toList ++ ' ' :: ("BY".toList ++ [' ']))) {reason : String}
    {xs : List α} (hsingle : ∀ x ∈ xs, ∀ rest, Ends rest →
      Reads single ((text x).toList ++ rest) (value x) (trimStart rest))
    (htrim : ∀ x ∈ xs, ∀ rest, trimStart ((text x).toList ++ rest) = (text x).toList ++ rest)
    (hn : word ∉ after) (hafter : ∀ other ∈ after, other ∈ clauseWords)
    (ht : Continues after tail) :
    Reads (listAfter word reason (listOf single))
      (trimStart ((listClause words (xs.map text)).toList ++ tail)) (xs.map value)
      (trimStart tail) := by
  cases xs with
  | nil =>
    exact (reads_consumeWord_of_not (startsWith_of_continues hw hn hafter ht)).bind (reads_pure _ _)
  | cons x xs =>
    have hreserved : ∀ other ∈ clauseWords, other ∈ reservedWords := by decide
    have htext : (listClause words ((x :: xs).map text)).toList ++ tail =
        ' ' :: (word.toList ++ ' ' :: ("BY".toList ++
          ' ' :: ((commaSeparated ((x :: xs).map text)).toList ++ tail))) := by
      rw [List.map_cons, listClause, String.toList_append, hwords]
      · simp
      · simp
    have hlist : trimStart ((commaSeparated ((x :: xs).map text)).toList ++ tail) =
        (commaSeparated ((x :: xs).map text)).toList ++ tail := by
      rw [List.map_cons, toList_commaSeparated, List.append_assoc, htrim x List.mem_cons_self]
    rw [htext]
    refine (reads_consumeWord_clause hw).bind ?_
    rw [(isName_of_mem "BY" (by decide)).trimStart_append]
    refine (reads_expectWord _ (by decide) (ends_space _).delimited).bind ?_
    rw [trimStart_space, hlist]
    refine reads_listOf (List.cons_ne_nil x xs) (fun y hy rest hr => hsingle y hy rest ?_) htrim
      (ht.head_ne (fun other hm => hreserved other (hafter other hm)) (by decide) (by decide)
        (by decide))
    obtain ⟨cs, rfl⟩ | rfl := hr
    · exact ends_comma cs
    · exact Follows.ends (.inr ht)

theorem reads_groupColumn (hi : inner.Rereads bound) {c : Column} (hc : IsColumn c)
    (hlen : c.path.length ≤ bound) {rest : List Char} (hr : Ends rest) :
    Reads (groupColumn inner) (c.path.toList ++ rest) c (trimStart rest) := by
  have he : IsOperand (.column c) := .column hc
  refine reads_position fun start => ?_
  exact (hi.operand he hlen (fun _ hm => nomatch hm) hr).bind (reads_pure _ _)

theorem render_orderKey_append (key : OrderKey) (rest : List Char) :
    key.render.toList ++ rest = key.expr.render.toList ++
      ' ' :: ((if key.ascending then "ASC" else "DESC").toList ++ rest) := by
  obtain ⟨e, ascending⟩ := key
  cases ascending <;> simp [OrderKey.render]

theorem reads_orderKey (hi : inner.Rereads bound) {key : OrderKey} (hk : IsOperand key.expr)
    (hlen : key.render.length ≤ bound) (ha : Unreserved key.expr.sourceAliases)
    {rest : List Char} (hr : Ends rest) :
    Reads (orderKey inner) (key.render.toList ++ rest) (key.mapLiterals Literal.reread)
      (trimStart rest) := by
  rw [render_orderKey_append]
  obtain ⟨e, ascending⟩ := key
  simp only [OrderKey.render, String.length_append] at hlen
  dsimp only at hk ha ⊢
  refine (hi.operand hk (by omega) ha (ends_space _)).bind ?_
  cases ascending with
  | true =>
    have hdesc : startsWith "DESC" ("ASC".toList ++ rest) = false :=
      startsWith_other (by decide) (by decide) (by decide) hr.delimited
    change Reads _ (trimStart (' ' :: ("ASC".toList ++ rest))) _ _
    rw [trimStart_word (by decide)]
    refine (reads_consumeWord_of_not hdesc).bind ?_
    exact (reads_discard (reads_consumeWord (by decide) hr.delimited)).bind (reads_pure _ _)
  | false =>
    change Reads _ (trimStart (' ' :: ("DESC".toList ++ rest))) _ _
    rw [trimStart_word (by decide)]
    exact (reads_consumeWord (by decide) hr.delimited).bind (reads_pure _ _)

/-! ## Select lists -/

theorem reads_selectItem (hi : inner.Rereads bound) {item : SelectItem} (h : IsItem item)
    (hlen : item.render.length ≤ bound) (ha : Unreserved item.sourceAliases) {rest : List Char}
    (hr : Follows ["FROM"] rest) :
    Reads (selectItem inner) (item.render.toList ++ rest) (item.mapLiterals Literal.reread)
      (trimStart rest) := by
  cases h with
  | wildcard => exact (reads_consumeChar '*' rest).bind (reads_pure _ _)
  | @expr e name he hw hn =>
    obtain ⟨ch, cs, hcs, -, -, hstar⟩ := he.starts.exists_cons
    have hskip : ∀ cs', Reads (consumeChar '*') (e.render.toList ++ cs') false
        (e.render.toList ++ cs') := by
      intro cs'
      rw [hcs]
      exact reads_consumeChar_cons_of_ne (fun h => hw (hstar h)) _
    cases name with
    | none =>
      refine (hskip rest).bind ?_
      refine (hi.expr he hlen ha (hr.mono (by decide))).bind ?_
      exact (reads_aliasName_none hr (by decide) (by decide)).bind (reads_pure _ _)
    | some name =>
      have hname := hn name rfl
      have htext : (SelectItem.expr e (some name)).render.toList ++ rest =
          e.render.toList ++ ' ' :: ("AS".toList ++ ' ' :: (name.toList ++ rest)) := by
        simp [SelectItem.render]
      simp only [SelectItem.render, String.length_append] at hlen
      rw [htext]
      refine (hskip _).bind ?_
      refine (hi.expr he (by omega) ha (.inr (continues_word (by decide) _))).bind ?_
      rw [trimStart_word (by decide)]
      exact (reads_aliasName_as hname hr.ends).bind (reads_pure _ _)

/-- The text of a select item starts with no blank. -/
theorem trimStart_render_item {item : SelectItem} (h : IsItem item) (rest : List Char) :
    trimStart (item.render.toList ++ rest) = item.render.toList ++ rest := by
  cases h with
  | wildcard => exact trimStart_cons (by decide) rest
  | @expr e name he _ _ =>
    cases name with
    | none => exact he.starts.trimStart_append rest
    | some name =>
      rw [SelectItem.render, String.toList_append, String.toList_append, List.append_assoc,
        List.append_assoc]
      exact he.starts.trimStart_append _

end

/-! ## Statements -/

theorem mapLiteralsOfItems_eq_map (f : Literal → Literal) (items : List SelectItem) :
    mapLiteralsOfItems f items = items.map (SelectItem.mapLiterals f) := by
  induction items with
  | nil => rfl
  | cons item items ih => rw [mapLiteralsOfItems, ih, List.map_cons]

theorem mapLiteralsOfKeys_eq_map (f : Literal → Literal) (keys : List OrderKey) :
    mapLiteralsOfKeys f keys = keys.map (OrderKey.mapLiterals f) := by
  induction keys with
  | nil => rfl
  | cons key keys ih => rw [mapLiteralsOfKeys, ih, List.map_cons]

theorem unreserved_of_mem_items {items : List SelectItem} (h : Unreserved (aliasesOfItems items))
    {item : SelectItem} (hm : item ∈ items) : Unreserved item.sourceAliases := by
  induction items with
  | nil => cases hm
  | cons other items ih =>
    rw [aliasesOfItems, Unreserved, List.forall_mem_append] at h
    rcases List.mem_cons.1 hm with rfl | hm
    · exact h.1
    · exact ih h.2 hm

theorem unreserved_of_mem_keys {keys : List OrderKey} (h : Unreserved (aliasesOfKeys keys))
    {key : OrderKey} (hm : key ∈ keys) : Unreserved key.expr.sourceAliases := by
  induction keys with
  | nil => cases hm
  | cons other keys ih =>
    obtain ⟨e, ascending⟩ := other
    rw [aliasesOfKeys, Unreserved, List.forall_mem_append] at h
    rcases List.mem_cons.1 hm with rfl | hm
    · exact h.1
    · exact ih h.2 hm

/-- There are at most as many joins as characters after the first blank of their text. -/
theorem length_le_joins (found : List Join) (rest : List Char) :
    found.length ≤ (trimStart ((joinsText found).toList ++ rest)).length := by
  have hcount : ∀ found : List Join, found.length ≤ (joinsText found).toList.length := by
    intro found
    induction found with
    | nil => exact Nat.zero_le _
    | cons join found ih =>
      simp only [joinsText, String.toList_append, List.length_append, List.length_cons,
        show " ".toList.length = 1 from rfl]
      omega
  cases found with
  | nil => exact Nat.zero_le _
  | cons join found =>
    obtain ⟨kind, joined, condition⟩ := join
    have h := hcount found
    rw [joinsText_cons_append, toList_render_joinKind, List.append_assoc,
      trimStart_word (sideWord_mem kind)]
    simp only [List.length_append, List.length_cons]
    omega

theorem reads_joins (hi : inner.Rereads bound) {found : List Join}
    (h : ∀ join ∈ found, IsJoin join) (hlen : (joinsText found).length ≤ bound)
    (ha : Unreserved (aliasesOfJoins found)) (ht : Continues clauseWords tail) :
    Reads (joins inner) (trimStart ((joinsText found).toList ++ tail))
      (mapLiteralsOfJoins Literal.reread found) (trimStart tail) := by
  change Reads (fun c => joinsWithin inner c.rest.length c) _ _ _
  refine reads_of_cursor fun c hc => reads_joinsWithin hi h hlen ha ht ?_
  rw [hc]
  exact length_le_joins found tail

/-- The word `DISTINCT` is read as the mark that it stands for. -/
theorem reads_distinct {query : Select} (hq : IsSelect query) {rest : List Char} (hr : Ends rest) :
    Reads (consumeWord "DISTINCT")
      ((if query.distinct then "DISTINCT " else "").toList ++
        ((commaSeparated (itemTexts query.items)).toList ++ rest)) query.distinct
      ((commaSeparated (itemTexts query.items)).toList ++ rest) := by
  cases hq with
  | of hne hitems hfirst =>
    obtain ⟨item, items, hcons⟩ := List.exists_cons_of_ne_nil hne
    have hitem := hitems item (by rw [hcons]; exact List.mem_cons_self)
    have hends : Ends (commas (itemTexts items) ++ rest) := by
      cases items with
      | nil => exact hr
      | cons item' items => exact ends_comma _
    have htext : (commaSeparated (itemTexts query.items)).toList ++ rest =
        item.render.toList ++ (commas (itemTexts items) ++ rest) := by
      rw [hcons, itemTexts, toList_commaSeparated, List.append_assoc]
    rw [htext]
    cases hd : query.distinct with
    | true =>
      have h := reads_consumeWord (show IsUpperWord "DISTINCT" by decide)
        (ends_space (item.render.toList ++ (commas (itemTexts items) ++ rest))).delimited
      rw [trimStart_space, trimStart_render_item hitem] at h
      exact h
    | false =>
      refine reads_consumeWord_of_not ?_
      cases hitem with
      | wildcard => exact startsWith_cons_eq_false (by decide) (by decide) _
      | @expr e name he _ _ =>
        have hcalls := hfirst hd e name (by rw [hcons]; rfl)
        cases name with
        | none => exact he.starts.startsWith_eq_false (by decide) (by decide) hcalls hends
        | some name =>
          simp only [SelectItem.render, String.toList_append, List.append_assoc]
          exact he.starts.startsWith_eq_false (by decide) (by decide) hcalls (ends_space _)

/-- **A select list is read back** if the expressions in it are. -/
theorem reads_selectItems (hi : inner.Rereads bound) {items : List SelectItem} (hne : items ≠ [])
    (h : ∀ item ∈ items, IsItem item) (hlen : (commaSeparated (itemTexts items)).length ≤ bound)
    (ha : Unreserved (aliasesOfItems items)) (ht : Continues ["FROM"] tail) :
    Reads (selectItems inner) ((commaSeparated (itemTexts items)).toList ++ tail)
      (items.map (SelectItem.mapLiterals Literal.reread)) (trimStart tail) := by
  rw [itemTexts_eq_map] at hlen ⊢
  refine reads_listOf hne (fun item hm rest hr => ?_)
    (fun item hm rest => trimStart_render_item (h item hm) rest)
    (ht.head_ne (by decide) (by decide) (by decide) (by decide))
  have hitem : item.render.length ≤ _ :=
    length_le_of_mem_commaSeparated (List.mem_map_of_mem hm)
  refine reads_selectItem hi (h item hm) (Nat.le_trans hitem hlen) (unreserved_of_mem_items ha hm) ?_
  obtain hcomma | rfl := hr
  · exact .inl hcomma
  · exact .inr ht

/-- The text of a list is no longer than its clause. -/
theorem length_le_listClause (words : String) {text : String} {texts : List String}
    (h : text ∈ texts) : text.length ≤ (listClause words texts).length := by
  have hle := length_le_of_mem_commaSeparated h
  obtain ⟨first, others, rfl⟩ := List.exists_cons_of_ne_nil (List.ne_nil_of_mem h)
  rw [listClause, String.length_append]
  · omega
  · exact List.cons_ne_nil _ _

theorem reads_groupBy (hi : inner.Rereads bound) {columns : List Column}
    (h : ∀ c ∈ columns, IsColumn c)
    (hlen : (listClause " GROUP BY " (columns.map Column.path)).length ≤ bound)
    {after : List String} (hn : "GROUP" ∉ after) (hafter : ∀ other ∈ after, other ∈ clauseWords)
    (ht : Continues after tail) (reason : String) :
    Reads (listAfter "GROUP" reason (listOf (groupColumn inner)))
      (trimStart ((listClause " GROUP BY " (columns.map Column.path)).toList ++ tail)) columns
      (trimStart tail) := by
  have hlist : Reads (listAfter "GROUP" reason (listOf (groupColumn inner)))
      (trimStart ((listClause " GROUP BY " (columns.map Column.path)).toList ++ tail))
      (columns.map id) (trimStart tail) := by
    refine reads_listAfter (by decide) rfl (fun c hm rest hr => ?_) (fun c hm rest => ?_) hn hafter ht
    · have hc : c.path.length ≤ _ := length_le_listClause " GROUP BY " (List.mem_map_of_mem hm)
      exact reads_groupColumn hi (h c hm) (Nat.le_trans hc hlen) hr
    · exact Starts.trimStart_append (.inr (IsOperand.column (h c hm)).startsOperand) rest
  rw [List.map_id] at hlist
  exact hlist

theorem reads_orderBy (hi : inner.Rereads bound) {keys : List OrderKey}
    (h : ∀ key ∈ keys, IsOperand key.expr)
    (hlen : (listClause " ORDER BY " (orderTexts keys)).length ≤ bound)
    (ha : Unreserved (aliasesOfKeys keys)) {after : List String} (hn : "ORDER" ∉ after)
    (hafter : ∀ other ∈ after, other ∈ clauseWords) (ht : Continues after tail) (reason : String) :
    Reads (listAfter "ORDER" reason (orderKeys inner))
      (trimStart ((listClause " ORDER BY " (orderTexts keys)).toList ++ tail))
      (keys.map (OrderKey.mapLiterals Literal.reread)) (trimStart tail) := by
  rw [orderTexts_eq_map] at hlen ⊢
  refine reads_listAfter (by decide) rfl (fun key hm rest hr => ?_) (fun key hm rest => ?_) hn hafter ht
  · have hkey : key.render.length ≤ _ := length_le_listClause " ORDER BY " (List.mem_map_of_mem hm)
    exact reads_orderKey hi (h key hm) (Nat.le_trans hkey hlen) (unreserved_of_mem_keys ha hm) hr
  · rw [render_orderKey_append]
    exact Starts.trimStart_append (.inr (h key hm).startsOperand) _

theorem mapLiterals_select (f : Literal → Literal) (query : Select) :
    query.mapLiterals f =
      ⟨query.distinct, query.items.map (SelectItem.mapLiterals f), query.source.mapLiterals f,
        mapLiteralsOfJoins f query.joins, mapLiteralsOfOption f query.condition, query.groupBy,
        mapLiteralsOfOption f query.having, query.orderBy.map (OrderKey.mapLiterals f),
        query.limit, query.offset⟩ := by
  rw [← mapLiteralsOfItems_eq_map, ← mapLiteralsOfKeys_eq_map]
  cases query
  rfl

theorem sourceAliases_select (query : Select) :
    query.sourceAliases = aliasesOfItems query.items ++ (query.source.sourceAliases ++
      (aliasesOfJoins query.joins ++ (aliasesOfOption query.condition ++
        (aliasesOfOption query.having ++ aliasesOfKeys query.orderBy)))) := by
  cases query
  rfl

theorem reads_select (hi : inner.Rereads bound) {query : Select} (hq : IsSelect query)
    (hlen : (Statement.select query).render.length ≤ bound + 1)
    (ha : Unreserved query.sourceAliases) (ht : Continues [] tail) :
    Reads (select inner)
      ((if query.distinct then "DISTINCT " else "").toList ++
        ((commaSeparated (itemTexts query.items)).toList ++ ' ' :: ("FROM".toList ++
        ' ' :: (query.source.render.toList ++ ((joinsText query.joins).toList ++
        ((conditionClause " WHERE " query.condition).toList ++
        ((listClause " GROUP BY " (query.groupBy.map Column.path)).toList ++
        ((conditionClause " HAVING " query.having).toList ++
        ((listClause " ORDER BY " (orderTexts query.orderBy)).toList ++
        ((countClause " LIMIT " query.limit).toList ++
        ((countClause " OFFSET " query.offset).toList ++ tail)))))))))))
      (query.mapLiterals Literal.reread) (trimStart tail) := by
  -- What follows each clause starts with the word of a later one.
  have h₁ := continues_clause (isClause_count (show " OFFSET ".toList = ' ' :: ("OFFSET".toList ++ [' '])
    from rfl) query.offset) ht
  have h₂ := continues_clause (isClause_count (show " LIMIT ".toList = ' ' :: ("LIMIT".toList ++ [' '])
    from rfl) query.limit) h₁
  have h₃ := continues_clause (isClause_list ⟨"BY ".toList, show " ORDER BY ".toList =
    ' ' :: ("ORDER".toList ++ ' ' :: "BY ".toList) from rfl⟩ (orderTexts query.orderBy)) h₂
  have h₄ := continues_clause (isClause_condition (show " HAVING ".toList =
    ' ' :: ("HAVING".toList ++ [' ']) from rfl) query.having) h₃
  have h₅ := continues_clause (isClause_list ⟨"BY ".toList, show " GROUP BY ".toList =
    ' ' :: ("GROUP".toList ++ ' ' :: "BY ".toList) from rfl⟩ (query.groupBy.map Column.path)) h₄
  have h₆ : Continues clauseWords _ := continues_clause (isClause_condition (show " WHERE ".toList =
    ' ' :: ("WHERE".toList ++ [' ']) from rfl) query.condition) h₅
  have h₇ := continues_joins query.joins h₆
  refine (reads_distinct hq (ends_space _)).bind ?_
  cases hq with
  | of hne hitems hfirst hsource hjoins hcondition hgroup hhaving horder hlimit hoffset =>
    rw [render_select] at hlen
    simp only [String.length_append, show "SELECT ".length = 7 from rfl] at hlen
    rw [sourceAliases_select] at ha
    simp only [Unreserved, List.forall_mem_append] at ha
    obtain ⟨haItems, haSource, haJoins, haCondition, haHaving, haOrder⟩ := ha
    rw [mapLiterals_select]
    refine (reads_selectItems hi hne hitems (by omega) haItems
      (continues_word List.mem_cons_self _)).bind ?_
    rw [trimStart_word (by decide)]
    refine (reads_expectWord _ (by decide) (ends_space _).delimited).bind ?_
    rw [trimStart_space, trimStart_render_source hsource]
    refine (reads_source hi hsource (by omega) haSource (h₇.mono (by decide))).bind ?_
    refine (reads_joins hi hjoins (by omega) haJoins h₆).bind ?_
    refine (reads_conditionAfter hi (by decide) rfl hcondition (by omega) haCondition (by decide)
      (by decide) h₅).bind ?_
    refine (reads_groupBy hi hgroup (by omega) (by decide) (by decide) h₄ _).bind ?_
    refine (reads_conditionAfter hi (by decide) rfl hhaving (by omega) haHaving (by decide)
      (by decide) h₃).bind ?_
    refine (reads_orderBy hi horder (by omega) haOrder (by decide) (by decide) h₂ _).bind ?_
    refine (reads_rowCountAfter hi (by decide) rfl hlimit (by omega) (by decide) (by decide)
      h₁).bind ?_
    exact (reads_rowCountAfter hi (by decide) rfl hoffset (by omega) (by decide) (by decide)
      ht).bind (reads_pure _ _)

/-- What stands after the word `SELECT` starts with no other blank. -/
theorem trimStart_select {query : Select} (hq : IsSelect query) (rest : List Char) :
    trimStart ((if query.distinct then "DISTINCT " else "").toList ++
        ((commaSeparated (itemTexts query.items)).toList ++ rest)) =
      (if query.distinct then "DISTINCT " else "").toList ++
        ((commaSeparated (itemTexts query.items)).toList ++ rest) := by
  cases hq with
  | of hne hitems =>
    obtain ⟨item, items, hcons⟩ := List.exists_cons_of_ne_nil hne
    have hitem := hitems item (by rw [hcons]; exact List.mem_cons_self)
    split
    · exact trimStart_cons (by decide) _
    · rw [hcons, itemTexts, toList_commaSeparated, List.append_assoc]
      exact trimStart_render_item hitem _

theorem reads_delete (hi : inner.Rereads bound) {table : String} {name : Option String}
    {condition : Option Expr} (hp : IsPath table) (hn : ∀ word ∈ name, IsName word)
    (hc : ∀ e ∈ condition, IsExpr e)
    (hlen : (Statement.delete table name condition).render.length ≤ bound + 1)
    (ha : Unreserved (Statement.delete table name condition).sourceAliases)
    (ht : Continues [] tail) :
    Reads (delete inner) ("FROM".toList ++ ' ' :: ((Source.table table name).render.toList ++
        ((conditionClause " WHERE " condition).toList ++ tail)))
      (Statement.delete table name condition).reread (trimStart tail) := by
  have hsource : IsSource (.table table name) := .table hp hn
  have hwhere := continues_clause (isClause_condition (show " WHERE ".toList =
    ' ' :: ("WHERE".toList ++ [' ']) from rfl) condition) ht
  rw [show (Statement.delete table name condition).render = "DELETE FROM " ++ table ++
    aliasSuffix name ++ conditionClause " WHERE " condition from rfl] at hlen
  simp only [String.length_append, show "DELETE FROM ".length = 12 from rfl] at hlen
  have hshort : (Source.table table name).render.length ≤ bound + 1 := by
    rw [Source.render, String.length_append]
    omega
  rw [show (Statement.delete table name condition).sourceAliases =
    name.toList ++ aliasesOfOption condition from rfl, Unreserved, List.forall_mem_append] at ha
  refine (reads_expectWord _ (by decide) (ends_space _).delimited).bind ?_
  rw [trimStart_space, trimStart_render_source hsource]
  refine (reads_source hi hsource hshort ha.1 (hwhere.mono (by decide))).bind ?_
  exact (reads_conditionAfter hi (by decide) rfl hc (by omega) ha.2 (by decide) (by decide)
    ht).bind (reads_pure _ _)

/-- **A statement is read back** if what is nested in it is. -/
theorem reads_statement (hi : inner.Rereads bound) {s : Statement} (hs : IsStatement s)
    (hlen : s.render.length ≤ bound + 1) (ha : Unreserved s.sourceAliases)
    (ht : Continues [] tail) :
    Reads (statement inner) (s.render.toList ++ tail) s.reread (trimStart tail) := by
  refine (reads_skipBlank _).bind ?_
  rw [trimStart_render_statement]
  cases hs with
  | @select query hq =>
    have hselect := reads_select hi hq hlen ha ht
    have hdelete : startsWith "DELETE" ((Statement.select query).render.toList ++ tail) = false := by
      rw [render_select_append]
      exact startsWith_other (by decide) (by decide) (by decide) (ends_space _).delimited
    refine (reads_consumeWord_of_not hdelete).bind ?_
    rw [render_select_append]
    refine (reads_expectWord _ (by decide) (ends_space _).delimited).bind ?_
    rw [trimStart_space, trimStart_select hq]
    exact hselect.bind (reads_pure _ _)
  | delete hp hn hc =>
    rw [render_delete_append]
    refine (reads_consumeWord (by decide) (ends_space _).delimited).bind ?_
    rw [trimStart_word (by decide)]
    exact reads_delete hi hp hn hc hlen ha ht

/-! ## All levels -/

/-- **What the level below reads back is all that a level needs to know of it.** -/
theorem rereads_next (hi : inner.Rereads bound) :
    (⟨expr inner, operand inner, statement inner⟩ : Nested).Rereads (bound + 1) where
  expr he hlen ha _ ht := reads_expr hi _ he hlen ha _ ht
  operand he hlen ha _ ht := reads_operand hi he hlen ha ht
  statement hs hlen ha _ ht := reads_statement hi hs hlen ha ht

/-- **A text is read back** by as many levels as it has characters. -/
theorem nested_rereads (depth : Nat) : (nested depth).Rereads depth := by
  induction depth with
  | zero =>
    refine ⟨fun he hlen => ?_, fun he hlen => ?_, fun _ hlen => ?_⟩
    · exact absurd he.starts.length_pos (Nat.not_lt.2 hlen)
    · exact absurd (Starts.length_pos (.inr he.startsOperand)) (Nat.not_lt.2 hlen)
    · exact absurd (length_render_statement_pos _) (Nat.not_lt.2 hlen)
  | succ depth ih => exact rereads_next ih

end Grammar

end DocQuery.Syntax
