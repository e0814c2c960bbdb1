import DocQuery.Proofs.Syntax.Paths
import DocQuery.Proofs.Syntax.Shape

/-!
# The texts of trees

The text of a tree that the grammar reads starts with no blank and with no closing parenthesis, and
starts with a keyword only where the grammar looks for none (`Starts.startsWith_eq_false`). The texts
are taken apart word by word, in the order in which they are read: `render_compare_append`,
`render_select_append` and the like say what stands in front of any further text.
-/

namespace DocQuery.Syntax

/-! ## Lists of texts -/

theorem exprTexts_eq_map (es : List Expr) : exprTexts es = es.map Expr.render := by
  induction es with
  | nil => rfl
  | cons e es ih => rw [exprTexts, ih, List.map_cons]

theorem itemTexts_eq_map (items : List SelectItem) :
    itemTexts items = items.map SelectItem.render := by
  induction items with
  | nil => rfl
  | cons item items ih => rw [itemTexts, ih, List.map_cons]

theorem orderTexts_eq_map (keys : List OrderKey) : orderTexts keys = keys.map OrderKey.render := by
  induction keys with
  | nil => rfl
  | cons key keys ih => rw [orderTexts, ih, List.map_cons]

/-- The characters of texts, each after a comma and a blank. -/
def commas (texts : List String) : List Char := texts.flatMap fun text => ',' :: ' ' :: text.toList

/-- The characters of a list. -/
theorem toList_commaSeparated (first : String) (others : List String) :
    (commaSeparated (first :: others)).toList = first.toList ++ commas others := by
  induction others generalizing first with
  | nil => simp [commaSeparated, commas]
  | cons second others ih =>
    rw [commaSeparated, String.intercalate_cons_cons, ← commaSeparated]
    simp only [String.toList_append, ih, commas, List.flatMap_cons, List.append_assoc]
    rfl

theorem length_le_commas (texts : List String) : texts.length ≤ (commas texts).length := by
  induction texts with
  | nil => exact Nat.le_refl _
  | cons text texts ih =>
    simp only [commas, List.flatMap_cons, List.length_append, List.length_cons] at ih ⊢
    omega

/-- A text is no longer than a list in which it stands. -/
theorem length_le_of_mem_commaSeparated {text : String} {texts : List String} (h : text ∈ texts) :
    text.length ≤ (commaSeparated texts).length := by
  obtain ⟨first, others, rfl⟩ := List.exists_cons_of_ne_nil (List.ne_nil_of_mem h)
  rw [← String.length_toList (s := commaSeparated _), toList_commaSeparated, List.length_append,
    String.length_toList]
  rcases List.mem_cons.1 h with rfl | h
  · omega
  · have hsub : (',' :: ' ' :: text.toList).length ≤ (commas others).length := by
      rw [commas, List.flatMap_def]
      refine (List.sublist_flatten_of_mem ?_).length_le
      exact List.mem_map.2 ⟨text, h, rfl⟩
    simp only [List.length_cons, String.length_toList] at hsub
    omega

/-! ## Texts of expressions -/

section

variable (tail : List Char)

theorem render_call_append (name : String) (args : List Expr) :
    (Expr.call name args).render.toList ++ tail =
      name.toList ++ '(' :: ((commaSeparated (exprTexts args)).toList ++ ')' :: tail) := by
  simp [Expr.render_call]

theorem render_parens_append (e : Expr) :
    (Expr.parens e false).render.toList ++ tail = '(' :: (e.render.toList ++ ')' :: tail) := by
  simp [Expr.render_parens, negation]

theorem render_subquery_append (s : Statement) :
    (Expr.subquery s).render.toList ++ tail = '(' :: (s.render.toList ++ ')' :: tail) := by
  simp [Expr.render_subquery]

theorem render_compare_append (left right : Expr) (op : Comparison) :
    (Expr.compare left op right).render.toList ++ tail =
      left.render.toList ++ ' ' :: (op.render.toList ++ ' ' :: (right.render.toList ++ tail)) := by
  simp [Expr.render_compare]

theorem render_like_append (operand pattern : Expr) (negated : Bool) :
    (Expr.like operand pattern negated).render.toList ++ tail =
      operand.render.toList ++ ' ' :: ((negation negated).toList ++
        ("LIKE".toList ++ ' ' :: (pattern.render.toList ++ tail))) := by
  simp [Expr.render_like]

theorem render_isNull_append (operand : Expr) (negated : Bool) :
    (Expr.isNull operand negated).render.toList ++ tail =
      operand.render.toList ++ ' ' :: ("IS".toList ++ ' ' :: ((negation negated).toList ++
        ("NULL".toList ++ tail))) := by
  simp [Expr.render_isNull]

theorem render_inList_append (operand : Expr) (list : List Expr) (negated : Bool) :
    (Expr.inList operand list negated).render.toList ++ tail =
      operand.render.toList ++ ' ' :: ((negation negated).toList ++ ("IN".toList ++
        ' ' :: '(' :: ((commaSeparated (exprTexts list)).toList ++ ')' :: tail))) := by
  simp [Expr.render_inList]

theorem render_logic_append (op : Connective) (left right : Expr) :
    (Expr.logic op left right).render.toList ++ tail =
      left.render.toList ++ ' ' :: (op.render.toList ++ ' ' :: (right.render.toList ++ tail)) := by
  simp [Expr.render_logic]

/-- A negation is written as `NOT` in front. -/
theorem render_negate_append (e : Expr) :
    (Grammar.negate e).render.toList ++ tail =
      "NOT".toList ++ ' ' :: (e.render.toList ++ tail) := by
  unfold Grammar.negate
  split <;> simp [Expr.render_parens, Expr.render_not, negation]

end

/-! ## How a text starts -/

/-- A text whose first character is no letter starts with no keyword. -/
theorem startsWith_cons_eq_false {word : String} (hw : word ∈ reservedWords) {ch : Char}
    (h : (Text.asciiUpper ch).isUpper = false) (cs : List Char) :
    startsWith word (ch :: cs) = false := by
  obtain ⟨letter, letters, hl⟩ := (isName_of_mem word hw).exists_cons
  rw [← Bool.not_eq_true]
  intro hs
  have hup := isUpperWord_of_mem word hw letter (by rw [hl]; exact List.mem_cons_self)
  rw [← asciiUpper_of_startsWith hl hs, List.head?_cons, Option.getD_some, h] at hup
  cases hup

theorem ascii_of_isDigit {ch : Char} (h : Number.isDigit ch = true) :
    (Text.asciiUpper ch).isUpper = false ∧ Text.isBlank ch = false ∧ ch ≠ ')' ∧ ch ≠ '*' ∧
      isNameStart ch = false := by
  have hall : ∀ n : Fin 0x80, Number.isDigit (Char.ofNat n) = true →
      (Text.asciiUpper (Char.ofNat n)).isUpper = false ∧ Text.isBlank (Char.ofNat n) = false ∧
        Char.ofNat n ≠ ')' ∧ Char.ofNat n ≠ '*' ∧ isNameStart (Char.ofNat n) = false := by
    decide +kernel
  have hlt : ch.toNat < 0x80 := by
    rw [Number.isDigit, Bool.and_eq_true, decide_eq_true_eq, decide_eq_true_eq] at h
    exact Nat.lt_of_le_of_lt h.2 (by decide)
  have hch := hall ⟨ch.toNat, hlt⟩
  simp only [Char.ofNat_toNat] at hch
  exact hch h

/-- The path of a column that can be read starts with no keyword. -/
theorem IsColumn.startsWith_eq_false {c : Column} (h : IsColumn c) {word : String}
    (hw : word ∈ reservedWords) {tail : List Char} (ht : Delimited tail) :
    startsWith word (c.path.toList ++ tail) = false := by
  obtain ⟨segments, hne, hn, hres, rfl⟩ := h
  have hp : IsPath (".".intercalate segments) := ⟨segments, hne, hn, rfl⟩
  have hup := isUpperWord_of_mem word hw
  rw [path_ofSegments hne, ← Bool.not_eq_true, startsWith_append_iff hup hp.not_delimiter ht]
  intro hspelled
  obtain ⟨first, others, rfl⟩ := List.exists_cons_of_ne_nil hne
  rw [toList_intercalate_dot] at hspelled
  cases others with
  | nil =>
    rw [dotted, List.flatMap_nil, List.append_nil] at hspelled
    have hreserved := isReserved_of_map_asciiUpper hw hspelled
    rw [String.ofList_toList, hres first rfl] at hreserved
    cases hreserved
  | cons second others =>
    -- A keyword has no dot.
    have hdot : '.' ∈ word.toList := by
      rw [← hspelled]
      exact List.mem_map.2 ⟨'.', by simp [dotted], by decide⟩
    exact absurd (hup '.' hdot) (by decide)

theorem IsOperand.first_eq {e : Expr} (h : IsOperand e) : e.first = e := by
  cases h <;> rfl

theorem IsPath.exists_cons {text : String} (h : IsPath text) :
    ∃ ch cs, text.toList = ch :: cs ∧ isNameStart ch = true := by
  obtain ⟨segments, hne, hn, rfl⟩ := h
  obtain ⟨s, names, rfl⟩ := List.exists_cons_of_ne_nil hne
  obtain ⟨hs, -⟩ := List.forall_mem_cons.1 hn
  obtain ⟨ch, cs, hl⟩ := hs.exists_cons
  have hstart := hs.1
  rw [hl, List.head?_cons, Option.getD_some] at hstart
  exact ⟨ch, cs ++ dotted names, by rw [toList_intercalate_dot, hl, List.cons_append], hstart⟩

theorem IsColumn.isPath {c : Column} (h : IsColumn c) : IsPath c.path := by
  obtain ⟨segments, hne, hn, -, rfl⟩ := h
  exact ⟨segments, hne, hn, (path_ofSegments hne).symm⟩

/-- A name starts with no sign that means something else. -/
theorem ne_of_isNameStart {ch : Char} (h : isNameStart ch = true) :
    Text.isBlank ch = false ∧ ch ≠ '(' ∧ ch ≠ ')' ∧ ch ≠ '*' ∧ isQuote ch = false ∧ ch ≠ '-' ∧
      ch ≠ '.' ∧ Number.isDigit ch = false := by
  have hd := isDelimiter_of_isNameChar (isNameChar_of_isNameStart h)
  rw [isDelimiter, Bool.or_eq_false_iff] at hd
  have hne : ∀ other : Char, isNameStart other = false → ch ≠ other := by
    rintro other ho rfl
    rw [h] at ho
    cases ho
  have hquote : isQuote ch = false := by
    rw [isQuote, Bool.or_eq_false_iff, decide_eq_false_iff_not, decide_eq_false_iff_not]
    exact ⟨hne _ (by decide), hne _ (by decide)⟩
  have hdigit : Number.isDigit ch = false := by
    rw [← Bool.not_eq_true]
    intro hdig
    rw [(ascii_of_isDigit hdig).2.2.2.2] at h
    cases h
  exact ⟨hd.2, hne _ (by decide), hne _ (by decide), hne _ (by decide), hquote, hne _ (by decide),
    hne _ (by decide), hdigit⟩

/-- The text of a number starts with a digit or a minus sign. -/
theorem IsNumeral.exists_cons {cs : List Char} (h : IsNumeral cs) :
    ∃ ch cs', cs = ch :: cs' ∧ (Text.asciiUpper ch).isUpper = false ∧ Text.isBlank ch = false ∧
      ch ≠ ')' ∧ ch ≠ '*' := by
  obtain ⟨negative, d, body, rfl, hd, -⟩ := h.exists_body
  cases negative with
  | true => exact ⟨'-', d :: body, rfl, by decide⟩
  | false =>
    obtain ⟨hup, hblank, hclose, hstar, -⟩ := ascii_of_isDigit hd
    exact ⟨d, body, rfl, hup, hblank, hclose, hstar⟩

/-- The text of a literal starts with no keyword but the literal itself. -/
theorem Literal.Readable.startsWith_eq_false {value : Literal} (h : value.Readable) {word : String}
    (hw : word ∈ reservedWords) (hl : word ∉ ["TRUE", "FALSE", "NULL"]) {tail : List Char}
    (ht : Delimited tail) : startsWith word (value.render.toList ++ tail) = false := by
  have hword : ∀ other ∈ ["TRUE", "FALSE", "NULL"],
      Syntax.startsWith word (other.toList ++ tail) = false := by
    intro other ho
    have hup : ∀ word ∈ ["TRUE", "FALSE", "NULL"], IsUpperWord word := by decide
    rw [← Bool.not_eq_true,
      startsWith_word_iff (isUpperWord_of_mem word hw) (hup other ho) ht]
    rintro rfl
    exact hl ho
  have hnumber : ∀ cs, IsNumeral cs → Syntax.startsWith word (cs ++ tail) = false := by
    intro cs hcs
    obtain ⟨ch, cs', rfl, hup, -⟩ := hcs.exists_cons
    exact startsWith_cons_eq_false hw hup _
  cases value with
  | string s =>
    rw [Literal.render, toList_quote]
    exact startsWith_cons_eq_false hw (by decide) _
  | int n => exact hnumber _ (numberLiteral?_render_int h).1
  | float x => exact hnumber _ (numberLiteral?_render_float h).1
  | bool b =>
    cases b with
    | true => exact hword "TRUE" (by decide)
    | false => exact hword "FALSE" (by decide)
  | null => exact hword "NULL" (by decide)

/-- **The text of an operand starts with a keyword only as a call does.** -/
theorem IsOperand.startsWith_eq_false {e : Expr} (h : IsOperand e) {word : String}
    (hw : word ∈ reservedWords) (hl : word ∉ ["TRUE", "FALSE", "NULL"]) (hc : ¬ e.Calls word)
    {tail : List Char} (ht : Delimited tail) :
    startsWith word (e.render.toList ++ tail) = false := by
  cases h with
  | literal hv => exact hv.startsWith_eq_false hw hl ht
  | column hcol => exact hcol.startsWith_eq_false hw ht
  | @call name args hn hwords _ =>
    rw [render_call_append, ← Bool.not_eq_true, startsWith_append_iff (isUpperWord_of_mem word hw)
      hn.not_delimiter (delimited_cons (by decide) _)]
    exact fun hname => hc ⟨name, args, rfl, hname⟩
  | wildcard => exact startsWith_cons_eq_false hw (by decide) tail
  | parens _ _ =>
    rw [render_parens_append]
    exact startsWith_cons_eq_false hw (by decide) _
  | subquery _ =>
    rw [render_subquery_append]
    exact startsWith_cons_eq_false hw (by decide) _

theorem Literal.Readable.exists_cons {value : Literal} (h : value.Readable) :
    ∃ ch cs, value.render.toList = ch :: cs ∧ Text.isBlank ch = false ∧ ch ≠ ')' ∧ ch ≠ '*' := by
  have hnumber : ∀ {cs}, IsNumeral cs → ∃ ch cs', cs = ch :: cs' ∧
      Text.isBlank ch = false ∧ ch ≠ ')' ∧ ch ≠ '*' := by
    intro cs hcs
    obtain ⟨ch, cs', rfl, -, h⟩ := hcs.exists_cons
    exact ⟨ch, cs', rfl, h⟩
  cases value with
  | string s => exact ⟨_, _, toList_quote s, by decide⟩
  | int n => exact hnumber (numberLiteral?_render_int h).1
  | float x => exact hnumber (numberLiteral?_render_float h).1
  | bool b =>
    cases b with
    | true => exact ⟨'T', "RUE".toList, rfl, by decide⟩
    | false => exact ⟨'F', "ALSE".toList, rfl, by decide⟩
  | null => exact ⟨'N', "ULL".toList, rfl, by decide⟩

/-- The text of an operand starts with no blank, closes nothing, and starts with the wildcard only if
the operand is the wildcard. -/
theorem IsOperand.exists_cons {e : Expr} (h : IsOperand e) :
    ∃ ch cs, e.render.toList = ch :: cs ∧ Text.isBlank ch = false ∧ ch ≠ ')' ∧
      (ch = '*' → e = .wildcard) := by
  have hpath : ∀ {text : String}, IsPath text → ∃ ch cs, text.toList = ch :: cs ∧
      Text.isBlank ch = false ∧ ch ≠ ')' ∧ ch ≠ '*' := by
    intro text ht
    obtain ⟨ch, cs, hcs, hstart⟩ := ht.exists_cons
    obtain ⟨hblank, -, hclose, hstar, -⟩ := ne_of_isNameStart hstart
    exact ⟨ch, cs, hcs, hblank, hclose, hstar⟩
  cases h with
  | literal hv =>
    obtain ⟨ch, cs, hcs, hblank, hclose, hstar⟩ := hv.exists_cons
    exact ⟨ch, cs, hcs, hblank, hclose, fun h => absurd h hstar⟩
  | column hc =>
    obtain ⟨ch, cs, hcs, hblank, hclose, hstar⟩ := hpath hc.isPath
    exact ⟨ch, cs, hcs, hblank, hclose, fun h => absurd h hstar⟩
  | @call name args hn _ _ =>
    obtain ⟨ch, cs, hcs, hblank, hclose, hstar⟩ := hpath hn
    have htext := render_call_append [] name args
    rw [List.append_nil, hcs, List.cons_append] at htext
    exact ⟨ch, _, htext, hblank, hclose, fun h => absurd h hstar⟩
  | wildcard => exact ⟨'*', [], rfl, by decide, by decide, fun _ => rfl⟩
  | @parens e _ _ =>
    have htext := render_parens_append [] e
    rw [List.append_nil] at htext
    exact ⟨'(', _, htext, by decide, by decide, fun h => absurd h (by decide)⟩
  | @subquery query _ =>
    have htext := render_subquery_append [] (.select query)
    rw [List.append_nil] at htext
    exact ⟨'(', _, htext, by decide, by decide, fun h => absurd h (by decide)⟩

/-- Whether the text of an expression starts with the text of its first operand and what may follow
that. -/
def StartsOperand (e : Expr) : Prop :=
  IsOperand e.first ∧ ∃ cs, e.render.toList = e.first.render.toList ++ cs ∧ Ends cs

/-- Whether the text of an expression starts with `NOT` or with its first operand. -/
def Starts (e : Expr) : Prop :=
  (∃ cs, e.render.toList = "NOT".toList ++ ' ' :: cs) ∨ StartsOperand e

theorem IsOperand.startsOperand {e : Expr} (h : IsOperand e) : StartsOperand e := by
  refine ⟨h.first_eq.symm ▸ h, [], ?_, ends_nil⟩
  rw [h.first_eq, List.append_nil]

/-- An expression whose text goes on after a blank starts as its left side does. -/
theorem StartsOperand.of_left {left e : Expr} (h : StartsOperand left)
    (hf : e.first = left.first)
    (ht : ∃ cs, e.render.toList ++ [] = left.render.toList ++ ' ' :: cs) : StartsOperand e := by
  obtain ⟨cs, ht⟩ := ht
  obtain ⟨ho, cs', hl, he⟩ := h
  rw [List.append_nil] at ht
  exact ⟨hf ▸ ho, cs' ++ ' ' :: cs, by rw [ht, hl, hf, List.append_assoc],
    he.append (ends_space cs)⟩

theorem Starts.of_left {left e : Expr} (h : Starts left) (hf : e.first = left.first)
    (ht : ∃ cs, e.render.toList ++ [] = left.render.toList ++ ' ' :: cs) : Starts e := by
  obtain ⟨cs', hn⟩ | h := h
  · obtain ⟨cs, ht⟩ := ht
    rw [List.append_nil] at ht
    exact .inl ⟨cs' ++ ' ' :: cs, by rw [ht, hn, List.append_assoc, List.cons_append]⟩
  · exact .inr (h.of_left hf ht)

theorem IsPredicate.startsOperand {e : Expr} (h : IsPredicate e) : StartsOperand e := by
  cases h with
  | operand ho => exact ho.startsOperand
  | compare op hl hr => exact hl.startsOperand.of_left rfl ⟨_, render_compare_append [] _ _ _⟩
  | like negated hl hr => exact hl.startsOperand.of_left rfl ⟨_, render_like_append [] _ _ _⟩
  | isNull negated hl => exact hl.startsOperand.of_left rfl ⟨_, render_isNull_append [] _ _⟩
  | inList negated hl _ _ _ =>
    exact hl.startsOperand.of_left rfl ⟨_, render_inList_append [] _ _ _⟩

theorem Negated.starts {p : Expr → Prop} (hp : ∀ e, p e → Starts e) {e : Expr}
    (h : Negated p e) : Starts e := by
  cases h with
  | base h hn => exact hp _ h
  | @negate e h =>
    have htext := render_negate_append [] e
    rw [List.append_nil] at htext
    exact .inl ⟨_, htext⟩

theorem Chained.starts {op : Connective} {p : Expr → Prop} (hp : ∀ e, p e → Starts e) {e : Expr}
    (h : Chained op p e) : Starts e := by
  induction h with
  | single h => exact hp _ h
  | logic hl hr ih => exact ih.of_left rfl ⟨_, render_logic_append [] _ _ _⟩

theorem IsExpr.starts {e : Expr} (h : IsExpr e) : Starts e := by
  cases h with
  | of h => exact h.starts fun _ h => h.starts fun _ h => h.starts fun _ h => .inr h.startsOperand

/-- **The text of a predicate starts with a keyword only as a call does.** -/
theorem StartsOperand.startsWith_eq_false {e : Expr} (h : StartsOperand e) {word : String}
    (hw : word ∈ reservedWords) (hl : word ∉ ["TRUE", "FALSE", "NULL"]) (hc : ¬ e.Calls word)
    {tail : List Char} (ht : Ends tail) : startsWith word (e.render.toList ++ tail) = false := by
  obtain ⟨ho, cs, htext, he⟩ := h
  have hcalls : ¬ e.first.Calls word := by
    rintro ⟨name, args, hf, hname⟩
    rw [ho.first_eq] at hf
    exact hc ⟨name, args, hf, hname⟩
  rw [htext, List.append_assoc]
  exact ho.startsWith_eq_false hw hl hcalls (he.append ht).delimited

/-- **The text of an expression starts with a keyword only as a call or a negation does.** -/
theorem Starts.startsWith_eq_false {e : Expr} (h : Starts e) {word : String}
    (hw : word ∈ reservedWords) (hl : word ∉ ["NOT", "TRUE", "FALSE", "NULL"])
    (hc : ¬ e.Calls word) {tail : List Char} (ht : Ends tail) :
    startsWith word (e.render.toList ++ tail) = false := by
  obtain ⟨cs, hn⟩ | h := h
  · rw [hn, List.append_assoc, List.cons_append, ← Bool.not_eq_true, startsWith_word_iff
      (isUpperWord_of_mem word hw) (by decide) (delimited_cons (by decide) _)]
    exact fun h => List.ne_of_not_mem_cons hl h.symm
  · exact h.startsWith_eq_false hw (List.not_mem_of_not_mem_cons hl) hc ht

theorem Starts.exists_cons {e : Expr} (h : Starts e) :
    ∃ ch cs, e.render.toList = ch :: cs ∧ Text.isBlank ch = false ∧ ch ≠ ')' ∧
      (ch = '*' → e.first = .wildcard) := by
  obtain ⟨cs, hn⟩ | ⟨ho, cs, htext, he⟩ := h
  · exact ⟨'N', _, hn, by decide, by decide, fun h => absurd h (by decide)⟩
  · obtain ⟨ch, cs', hcs, hblank, hclose, hstar⟩ := ho.exists_cons
    exact ⟨ch, cs' ++ cs, by rw [htext, hcs, List.cons_append], hblank, hclose, hstar⟩

/-- The text of an expression starts with no blank. -/
theorem Starts.trimStart_append {e : Expr} (h : Starts e) (tail : List Char) :
    trimStart (e.render.toList ++ tail) = e.render.toList ++ tail := by
  obtain ⟨ch, cs, hcs, hblank, -, -⟩ := h.exists_cons
  rw [hcs, List.cons_append, trimStart_cons hblank]

theorem Starts.length_pos {e : Expr} (h : Starts e) : 0 < e.render.length := by
  obtain ⟨ch, cs, hcs, -⟩ := h.exists_cons
  rw [← String.length_toList, hcs]
  exact Nat.succ_pos _

/-! ## Texts of statements -/

theorem render_select (query : Select) :
    (Statement.select query).render =
      "SELECT " ++ (if query.distinct then "DISTINCT " else "") ++
        commaSeparated (itemTexts query.items) ++ " FROM " ++ query.source.render ++
        joinsText query.joins ++ conditionClause " WHERE " query.condition ++
        listClause " GROUP BY " (query.groupBy.map Column.path) ++
        conditionClause " HAVING " query.having ++
        listClause " ORDER BY " (orderTexts query.orderBy) ++ countClause " LIMIT " query.limit ++
        countClause " OFFSET " query.offset := by
  cases query
  rfl

/-- The text of a `SELECT` statement, word by word. -/
theorem render_select_append (query : Select) (tail : List Char) :
    (Statement.select query).render.toList ++ tail =
      "SELECT".toList ++ ' ' :: ((if query.distinct then "DISTINCT " else "").toList ++
        ((commaSeparated (itemTexts query.items)).toList ++ ' ' :: ("FROM".toList ++
        ' ' :: (query.source.render.toList ++ ((joinsText query.joins).toList ++
        ((conditionClause " WHERE " query.condition).toList ++
        ((listClause " GROUP BY " (query.groupBy.map Column.path)).toList ++
        ((conditionClause " HAVING " query.having).toList ++
        ((listClause " ORDER BY " (orderTexts query.orderBy)).toList ++
        ((countClause " LIMIT " query.limit).toList ++
        ((countClause " OFFSET " query.offset).toList ++ tail))))))))))) := by
  rw [render_select]
  simp only [String.toList_append]
  rw [show "SELECT ".toList = "SELECT".toList ++ [' '] from rfl,
    show " FROM ".toList = ' ' :: ("FROM".toList ++ [' ']) from rfl]
  simp only [List.append_assoc, List.cons_append, List.nil_append]

theorem render_delete_append (table : String) (name : Option String) (condition : Option Expr)
    (tail : List Char) :
    (Statement.delete table name condition).render.toList ++ tail =
      "DELETE".toList ++ ' ' :: ("FROM".toList ++ ' ' :: ((Source.table table name).render.toList ++
        ((conditionClause " WHERE " condition).toList ++ tail))) := by
  rw [show (Statement.delete table name condition).render = "DELETE FROM " ++ table ++
      aliasSuffix name ++ conditionClause " WHERE " condition from rfl,
    show (Source.table table name).render = table ++ aliasSuffix name from rfl]
  simp only [String.toList_append, List.append_assoc]
  rfl

/-- The text of a statement starts with no blank. -/
theorem trimStart_render_statement (s : Statement) (tail : List Char) :
    trimStart (s.render.toList ++ tail) = s.render.toList ++ tail := by
  cases s with
  | select query =>
    rw [render_select_append]
    exact (isName_of_mem "SELECT" (by decide)).trimStart_append _
  | delete table name condition =>
    rw [render_delete_append]
    exact (isName_of_mem "DELETE" (by decide)).trimStart_append _

theorem length_render_statement_pos (s : Statement) : 0 < s.render.length := by
  cases s with
  | select query =>
    rw [render_select]
    simp only [String.length_append, show "SELECT ".length = 7 from rfl]
    omega
  | delete table name condition =>
    rw [show (Statement.delete table name condition).render = "DELETE FROM " ++ table ++
      aliasSuffix name ++ conditionClause " WHERE " condition from rfl]
    simp only [String.length_append, show "DELETE FROM ".length = 12 from rfl]
    omega

end DocQuery.Syntax
