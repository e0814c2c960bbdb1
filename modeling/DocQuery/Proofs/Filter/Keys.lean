import DocQuery.Proofs.Filter.Forms
import DocQuery.Proofs.Syntax.Parts

/-!
# The keys of a filter

Which fields a filter speaks of. `AllKeys` asks a property of the keys of its clauses, also of those
under connectives, and `valueOf_keys` bounds the keys of a compiled condition by the length of its
text: a field is named by a part of the text, and the operators have names without blanks and
parentheses. So no clause of a condition other than a bare column is about the field that has the
whole text for its name.
-/

namespace DocQuery

open Syntax

namespace Value

mutual

/-- Whether the keys of the clauses of a filter, or of the filters of an array, have a property. -/
def AllKeys (P : String → Prop) : Value → Prop
  | .document clauses => AllClauseKeys P clauses
  | .array filters => AllElementKeys P filters
  | _ => True

/-- Whether the keys of clauses and of the filters in their arrays have a property. -/
def AllClauseKeys (P : String → Prop) : List (String × Value) → Prop
  | [] => True
  | (key, value) :: rest =>
    P key ∧ (match value with
      | .array filters => AllElementKeys P filters
      | _ => True) ∧ AllClauseKeys P rest

/-- Whether the keys of several filters have a property. -/
def AllElementKeys (P : String → Prop) : List Value → Prop
  | [] => True
  | filter :: filters => AllKeys P filter ∧ AllElementKeys P filters

end

variable {P Q : String → Prop}

theorem allElementKeys_iff {filters : List Value} :
    AllElementKeys P filters ↔ ∀ filter ∈ filters, AllKeys P filter := by
  induction filters with
  | nil => simp [AllElementKeys]
  | cons filter filters ih => simp [AllElementKeys, ih]

theorem allClauseKeys_cons {key : String} {value : Value} {rest : List (String × Value)} :
    AllClauseKeys P ((key, value) :: rest) ↔
      P key ∧ (∀ filters, value = .array filters → AllElementKeys P filters) ∧
        AllClauseKeys P rest := by
  cases value <;> simp [AllClauseKeys]

theorem allKeys_single {key : String} {value : Value} :
    AllKeys P (.single key value) ↔
      P key ∧ ∀ filters, value = .array filters → ∀ filter ∈ filters, AllKeys P filter := by
  rw [single, AllKeys, allClauseKeys_cons]
  simp [allElementKeys_iff, AllClauseKeys]

theorem allKeys_single_document {key : String} {fields : List (String × Value)} :
    AllKeys P (.single key (.document fields)) ↔ P key := by
  simp [allKeys_single]

mutual

theorem AllKeys.mono (h : ∀ key, P key → Q key) : ∀ {v : Value}, AllKeys P v → AllKeys Q v
  | .document _, hv => AllClauseKeys.mono h hv
  | .array _, hv => AllElementKeys.mono h hv
  | .null, _ | .bool _, _ | .int _, _ | .float _, _ | .string _, _ => trivial

theorem AllClauseKeys.mono (h : ∀ key, P key → Q key) :
    ∀ {clauses : List (String × Value)}, AllClauseKeys P clauses → AllClauseKeys Q clauses
  | [], _ => trivial
  | (_, value) :: _, hv => by
    obtain ⟨hk, he, hr⟩ := allClauseKeys_cons.1 hv
    refine allClauseKeys_cons.2 ⟨h _ hk, ?_, AllClauseKeys.mono h hr⟩
    rintro filters rfl
    exact AllElementKeys.mono h (he filters rfl)

theorem AllElementKeys.mono (h : ∀ key, P key → Q key) :
    ∀ {filters : List Value}, AllElementKeys P filters → AllElementKeys Q filters
  | [], _ => trivial
  | _ :: _, hv => ⟨AllKeys.mono h hv.1, AllElementKeys.mono h hv.2⟩

end

end Value

namespace Filter

/-! ## Lengths of texts -/

theorem length_commaSeparated_tail (e : Expr) (es : List Expr) :
    (commaSeparated (exprTexts es)).length ≤ (commaSeparated (exprTexts (e :: es))).length := by
  cases es with
  | nil => simp [exprTexts, commaSeparated]
  | cons e' es =>
    simp only [exprTexts, commaSeparated, String.intercalate_cons_cons, String.length_append]
    omega

theorem length_commaSeparated_head (e : Expr) (es : List Expr) :
    e.render.length ≤ (commaSeparated (exprTexts (e :: es))).length := by
  cases es with
  | nil => simp [exprTexts, commaSeparated]
  | cons e' es =>
    simp only [exprTexts, commaSeparated, String.intercalate_cons_cons, String.length_append]
    omega

/-- A text is no longer than a list of texts with commas in which it stands. -/
theorem length_le_commaSeparated {e : Expr} {es : List Expr} (h : e ∈ es) :
    e.render.length ≤ (commaSeparated (exprTexts es)).length := by
  induction es with
  | nil => cases h
  | cons e' es ih =>
    rcases List.mem_cons.1 h with rfl | h
    · exact length_commaSeparated_head _ _
    · exact Nat.le_trans (ih h) (length_commaSeparated_tail _ _)

/-- A part of an expression has a shorter text. -/
theorem length_render_lt {e part : Expr} (h : part ∈ e.parts) :
    part.render.length < e.render.length := by
  have hblank : " ".length = 1 := rfl
  have hopen : "(".length = 1 := rfl
  cases e with
  | literal | column | wildcard | subquery => cases h
  | call name args =>
    have hle := length_le_commaSeparated (show part ∈ args from h)
    simp only [Expr.render_call, String.length_append]
    omega
  | inList operand list negated =>
    simp only [Expr.render_inList, String.length_append]
    rcases List.mem_cons.1 h with rfl | h
    · omega
    · have hle := length_le_commaSeparated h
      omega
  | compare | like | logic =>
    simp only [Expr.render_compare, Expr.render_like, Expr.render_logic, String.length_append]
    rcases List.mem_pair.1 h with rfl | rfl <;> omega
  | isNull operand negated =>
    have his : " IS ".length = 4 := rfl
    rw [List.mem_singleton.1 h, Expr.render_isNull]
    simp only [String.length_append]
    omega
  | parens inner negated =>
    rw [List.mem_singleton.1 h, Expr.render_parens]
    simp only [String.length_append]
    omega
  | not inner =>
    have hnot : "NOT ".length = 4 := rfl
    rw [List.mem_singleton.1 h, Expr.render_not]
    simp only [String.length_append]
    omega

/-- Quoting does not shorten a text. -/
theorem length_le_quote (s : String) : s.length + 2 ≤ (Literal.quote s).length := by
  have h : ∀ cs : List Char, cs.length ≤ (cs.flatMap Literal.quoteChar).length := by
    intro cs
    induction cs with
    | nil => simp
    | cons c cs ih =>
      have hc : 1 ≤ (Literal.quoteChar c).length := by
        unfold Literal.quoteChar
        split <;> simp
      rw [List.flatMap_cons, List.length_append, List.length_cons]
      omega
  have hs := h s.toList
  rw [String.length_toList] at hs
  simp only [Literal.quote, String.length_append, String.length_ofList]
  have : "'".length = 1 := rfl
  omega

theorem length_lt_of_namedBy {f : Call} {name : String} (h : NamedBy f name) :
    name.length < f.render.length := by
  obtain ⟨e, he, hn⟩ := h
  have hle : name.length ≤ e.render.length := by
    rcases hn with ht | ⟨c, rfl, rfl⟩
    · unfold text? at ht
      split at ht
      · cases ht
        rw [Expr.render_literal, Literal.render]
        have hquote := length_le_quote name
        omega
      · cases ht
    · exact Nat.le_refl _
  exact Nat.lt_of_le_of_lt hle (length_render_lt (e := f.toExpr) he)

theorem render_of_call? {e : Expr} {f : Call} (h : e.call? = some f) : e.render = f.render := by
  cases e with
  | call name args =>
    cases h
    rfl
  | _ => cases h

theorem length_le_of_isSide {f : Call} {e : Expr} (h : IsSide f e) :
    f.render.length ≤ e.render.length := by
  have hpart : ∀ part ∈ e.parts, part.call? = some f → f.render.length ≤ e.render.length := by
    intro part hp hf
    rw [← render_of_call? hf]
    exact Nat.le_of_lt (length_render_lt hp)
  cases e with
  | call name args =>
    cases h
    exact Nat.le_refl _
  | compare left op right =>
    rcases h with h | h
    · exact hpart left List.mem_cons_self h
    · exact hpart right (List.mem_cons_of_mem _ (List.mem_singleton_self _)) h
  | inList operand list negated => exact hpart operand List.mem_cons_self h
  | _ => cases h

/-! ## Keys of compiled conditions -/

/-- Whether a key is short, or plain as the names of operators are. -/
def Bounded (n : Nat) (key : String) : Prop :=
  key.length < n ∨ ' ' ∉ key.toList ∧ '(' ∉ key.toList

theorem Bounded.mono {n m : Nat} (h : n ≤ m) {key : String} (hk : Bounded n key) :
    Bounded m key :=
  hk.imp_left fun hn => Nat.lt_of_lt_of_le hn h

/-- One more than the length of the longest key that the text of an expression makes room for: a bare
column is its own key, and all else has shorter ones. -/
def keyBound (e : Expr) : Nat := e.render.length + e.column?.toList.length

theorem bounded_of_lt {e : Expr} {key : String} (h : key.length < e.render.length) :
    Bounded (keyBound e) key :=
  .inl (Nat.lt_of_lt_of_le h (Nat.le_add_right _ _))

/-- The text of a part is a key that there is room for. -/
theorem bounded_render {e part : Expr} (h : part ∈ e.parts) :
    Bounded (keyBound e) part.render :=
  bounded_of_lt (length_render_lt h)

/-- A part that is a column names a key that there is room for. -/
theorem bounded_path {e : Expr} {c : Column} (h : .column c ∈ e.parts) :
    Bounded (keyBound e) c.path := by
  have hrender := bounded_render h
  rwa [Expr.render_column] at hrender

theorem keyBound_le {e part : Expr} (h : part ∈ e.parts) : keyBound part ≤ keyBound e := by
  have hlt := length_render_lt h
  have hcolumn : part.column?.toList.length ≤ 1 := by cases part.column? <;> simp
  unfold keyBound
  omega

/-- A literal is stored as a plain value or as an instant. -/
theorem coerce_cases (type : FieldType) (value : Literal) :
    (∃ x : Literal, coerce type value = x.toValue) ∨
      ∃ t : Calendar.Instant, coerce type value = t.toValue := by
  unfold coerce
  cases hc : coerced? type value with
  | none => exact .inl ⟨value, rfl⟩
  | some v =>
    rw [Option.getD_some]
    unfold coerced? at hc
    split at hc
    · unfold numberOfText? at hc
      dsimp only at hc
      split at hc
      · next n _ => exact .inl ⟨.int n, (Option.some.inj hc).symm⟩
      · obtain ⟨x, -, hx⟩ := Option.map_eq_some_iff.1 hc
        exact .inl ⟨.float x, hx.symm⟩
    · unfold boolOfText? at hc
      dsimp only at hc
      split at hc
      · exact .inl ⟨.bool true, (Option.some.inj hc).symm⟩
      · split at hc
        · exact .inl ⟨.bool false, (Option.some.inj hc).symm⟩
        · cases hc
    · obtain ⟨t, -, ht⟩ := Option.map_eq_some_iff.1 hc
      exact .inr ⟨t, ht.symm⟩
    · cases hc
    · cases hc
    · exact .inl ⟨.string _, (Option.some.inj hc).symm⟩
    · cases hc

theorem literalValue_cases {s : Settings} {role : Role} {x : Literal} {v : Value}
    (h : literalValue s role x = .ok v) :
    (∃ y : Literal, v = y.toValue) ∨ ∃ t : Calendar.Instant, v = t.toValue := by
  have beside : ∀ other, (∃ y : Literal, literalBeside s other x = y.toValue) ∨
      ∃ t : Calendar.Instant, literalBeside s other x = t.toValue := by
    intro other
    unfold literalBeside
    split
    · exact coerce_cases _ _
    · exact coerce_cases _ _
  cases role with
  | condition => cases h
  | comparand other =>
    cases h
    exact beside other
  | operand other =>
    cases h
    exact beside other
  | argument f =>
    cases h
    exact .inl ⟨x, rfl⟩

/-- No expression compiles to an array. -/
theorem valueOf_ne_array {s : Settings} {role : Role} {e : Expr} {v : Value}
    (h : valueOf s role e = .ok v) (vs : List Value) : v ≠ .array vs := by
  by_cases hx : (∀ x, e ≠ .literal x) ∧ ∀ c, e ≠ .column c
  · obtain ⟨key, value, rfl⟩ := valueOf_single s h (.inr hx)
    simp [Value.single]
  · cases e with
    | literal x =>
      obtain ⟨y, rfl⟩ | ⟨t, rfl⟩ := literalValue_cases h
      · cases y <;> simp [Literal.toValue]
      · unfold Calendar.Instant.toValue
        split <;> simp [Value.single]
    | column c =>
      cases h
      cases role <;> simp [columnValue, Value.single]
    | _ => simp at hx

theorem bounded_operator (n : Nat) {key : String}
    (h : key ∈ ["$fin", "$fnin", "$expr", "$date", "$and", "$or", "$nor"]) : Bounded n key := by
  right
  simp only [List.mem_cons, List.not_mem_nil, or_false] at h
  rcases h with rfl | rfl | rfl | rfl | rfl | rfl | rfl <;> decide

theorem bounded_connectiveKey (n : Nat) (op : Connective) : Bounded n (connectiveKey op) := by
  cases op <;> exact bounded_operator n (by simp [connectiveKey])

theorem bounded_of_isSide {f : Call} {e : Expr} {key : String} (hs : IsSide f e)
    (hn : NamedBy f key) : Bounded (keyBound e) key :=
  bounded_of_lt (Nat.lt_of_lt_of_le (length_lt_of_namedBy hn) (length_le_of_isSide hs))

theorem allKeys_comparisonValue {P : String → Prop} {c : Column} (op : Comparison) {w : Value}
    (hc : P c.path) (hw : ∀ vs, w ≠ .array vs) : (comparisonValue c op w).AllKeys P := by
  obtain hv | ⟨fields, hv⟩ := comparisonValue_single c op w
  · rw [hv, Value.allKeys_single]
    exact ⟨hc, fun vs h => absurd h (hw vs)⟩
  · rw [hv, Value.allKeys_single_document]
    exact hc

theorem allKeys_callValue {P : String → Prop} {name : String} {values : List Value}
    (hk : P ("$" ++ name)) (hv : ∀ v ∈ values, (∀ vs, v ≠ .array vs) ∧ v.AllKeys P) :
    (callValue name values).AllKeys P := by
  refine Value.allKeys_single.2 ⟨hk, fun filters h filter hm => ?_⟩
  split at h
  · next arg => exact absurd h ((hv arg (List.mem_singleton_self _)).1 filters)
  · cases h
    exact (hv filter hm).2

/-- The keys of a connective are its own and those of the filters that it joins. -/
theorem allKeys_connective {n : Nat} (op : Connective) {filters : List Value}
    (h : ∀ filter ∈ filters, filter.AllKeys (Bounded n)) :
    (Value.single (connectiveKey op) (.array filters)).AllKeys (Bounded n) := by
  refine Value.allKeys_single.2 ⟨bounded_connectiveKey n op, ?_⟩
  rintro _ ⟨⟩
  exact h

/-! ### One form of expression after the other -/

section

variable {s : Settings} {role : Role} {v : Value}

theorem literalValue_keys (n : Nat) {x : Literal} (h : literalValue s role x = .ok v) :
    v.AllKeys (Bounded n) := by
  obtain ⟨y, rfl⟩ | ⟨t, rfl⟩ := literalValue_cases h
  · cases y <;> exact trivial
  · unfold Calendar.Instant.toValue
    split
    · exact Value.allKeys_single.2 ⟨bounded_operator n (by simp), fun _ h => nomatch h⟩
    · exact Value.allKeys_single.2 ⟨bounded_operator n (by simp), fun _ h => nomatch h⟩

theorem columnValue_keys (role : Role) (c : Column) :
    (columnValue role c).AllKeys (Bounded (keyBound (.column c))) := by
  cases role with
  | condition =>
    refine Value.allKeys_single.2 ⟨.inl ?_, fun _ h => nomatch h⟩
    simp [keyBound, Expr.render_column, Expr.column?]
  | comparand | operand | argument => exact trivial

theorem call_keys {name : String} {args : List Expr}
    (hargs : ∀ arg ∈ args, ∀ role v, valueOf s role arg = .ok v →
      v.AllKeys (Bounded (keyBound (.call name args))))
    (h : valueOf s role (.call name args) = .ok v) :
    v.AllKeys (Bounded (keyBound (.call name args))) := by
  obtain ⟨d, hd, rfl⟩ | ⟨values, hv, rfl⟩ := valueOf_call_ok h
  · obtain ⟨f, key, fields, hf, rfl, hn⟩ := regexMatch_single hd
    exact Value.allKeys_single_document.2 (bounded_of_isSide (isSide_of_regexCall? hf) hn)
  · have hname : Bounded (keyBound (.call name args)) ("$" ++ name) := by
      have hone : "$".length = 1 ∧ "(".length = 1 ∧ ")".length = 1 := ⟨rfl, rfl, rfl⟩
      refine bounded_of_lt ?_
      simp only [Expr.render_call, String.length_append]
      omega
    refine allKeys_callValue hname fun v hm => ?_
    rw [argumentValues_eq_mapM] at hv
    obtain ⟨arg, ha, hv⟩ := exists_of_mem_mapM hv hm
    exact ⟨valueOf_ne_array hv, hargs arg ha _ v hv⟩

theorem compare_keys {left right : Expr} {op : Comparison}
    (h : valueOf s role (.compare left op right) = .ok v) :
    v.AllKeys (Bounded (keyBound (.compare left op right))) := by
  obtain ⟨d, hd, rfl⟩ | ⟨fields, rfl⟩ | ⟨c, op', w, rfl, hw, rfl⟩ | ⟨c, op', w, rfl, hw, rfl⟩ :=
    valueOf_compare_ok h
  · obtain ⟨f, key, fields, hs, rfl, hn⟩ := specialMatch_single hd
    exact Value.allKeys_single_document.2 (bounded_of_isSide hs hn)
  · exact Value.allKeys_single_document.2 (bounded_operator _ (by simp))
  · exact allKeys_comparisonValue op' (bounded_path List.mem_cons_self) (valueOf_ne_array hw)
  · have hpart : .column c ∈ (Expr.compare left op (.column c)).parts :=
      List.mem_cons_of_mem _ (List.mem_singleton_self _)
    exact allKeys_comparisonValue op' (bounded_path hpart) (valueOf_ne_array hw)

theorem inList_keys {operand : Expr} {list : List Expr} {negated : Bool}
    (h : valueOf s role (.inList operand list negated) = .ok v) :
    v.AllKeys (Bounded (keyBound (.inList operand list negated))) := by
  obtain ⟨d, hd, rfl⟩ | ⟨key, fields, hk, rfl⟩ := valueOf_inList_ok h
  · obtain ⟨f, key, fields, hs, rfl, hn⟩ := objectIdMatch_single hd
    exact Value.allKeys_single_document.2 (bounded_of_isSide hs hn)
  · exact Value.allKeys_single_document.2
      (bounded_operator _ (List.mem_append_left ["$date", "$and", "$or", "$nor"] hk))

theorem logic_keys {n : Nat} {left right : Expr} {op : Connective}
    (hl : ∀ role v, valueOf s role left = .ok v → v.AllKeys (Bounded n))
    (hr : ∀ role v, valueOf s role right = .ok v → v.AllKeys (Bounded n))
    (h : valueOf s role (.logic op left right) = .ok v) : v.AllKeys (Bounded n) := by
  obtain ⟨u, w, hu, hw, hv⟩ := valueOf_logic_ok h
  have hleft := hl _ u hu
  have hright := hr _ w hw
  obtain rfl | ⟨vs, rfl, rfl⟩ := hv
  · refine allKeys_connective op (List.forall_mem_cons.2 ⟨hleft, ?_⟩)
    exact List.forall_mem_singleton.2 hright
  · refine allKeys_connective op (List.forall_mem_append.2 ⟨?_, ?_⟩)
    · exact (Value.allKeys_single.1 hleft).2 vs rfl
    · exact List.forall_mem_singleton.2 hright

theorem parens_keys {n : Nat} {inner : Expr} {negated : Bool}
    (hi : ∀ role v, valueOf s role inner = .ok v → v.AllKeys (Bounded n))
    (h : valueOf s role (.parens inner negated) = .ok v) : v.AllKeys (Bounded n) := by
  obtain ⟨u, hu, h⟩ := bind_eq_ok.1 h
  have hinner := hi _ u hu
  cases negated with
  | false =>
    cases h
    exact hinner
  | true =>
    cases h
    refine Value.allKeys_single.2 ⟨bounded_operator n (by simp), ?_⟩
    rintro _ ⟨⟩
    exact List.forall_mem_singleton.2 hinner

end

/-- **The keys of a compiled expression are short or plain.** Every field that the filter speaks of is
named by a proper part of the text, except that a bare column names itself. -/
theorem valueOf_keys {s : Settings} {e : Expr} : ∀ {role : Role} {v : Value},
    valueOf s role e = .ok v → v.AllKeys (Bounded (keyBound e)) := by
  induction e using Expr.induction_parts with
  | step e ih =>
    intro role v h
    have hparts : ∀ part ∈ e.parts, ∀ role v, valueOf s role part = .ok v →
        v.AllKeys (Bounded (keyBound e)) :=
      fun part hp role v hv => (ih part hp hv).mono fun _ => Bounded.mono (keyBound_le hp)
    cases e with
    | literal x => exact literalValue_keys _ h
    | column c =>
      cases h
      exact columnValue_keys role c
    | wildcard => cases role <;> cases h
    | subquery statement => cases h
    | call name args => exact call_keys hparts h
    | compare left op right => exact compare_keys h
    | like operand pattern negated =>
      obtain ⟨c, fields, rfl, rfl⟩ := likeFilter_single h
      exact Value.allKeys_single_document.2 (bounded_path List.mem_cons_self)
    | isNull operand negated =>
      cases h
      refine Value.allKeys_single_document.2 ?_
      have hfield := bounded_render (e := .isNull operand negated) (List.mem_singleton_self operand)
      cases operand <;> exact hfield
    | inList operand list negated => exact inList_keys h
    | logic op left right =>
      exact logic_keys (hparts left List.mem_cons_self)
        (hparts right (List.mem_cons_of_mem _ (List.mem_singleton_self _))) h
    | parens inner negated => exact parens_keys (hparts inner (List.mem_singleton_self _)) h
    | not inner =>
      rw [valueOf_not_ok h]
      exact Value.allKeys_single_document.2 (bounded_render (List.mem_singleton_self inner))

/-- The text of a condition that compiles, and is no column, has a blank or a parenthesis. -/
theorem mem_render_of_valueOf {s : Settings} {e : Expr} {v : Value}
    (h : valueOf s .condition e = .ok v) (hc : e.column? = none) :
    ' ' ∈ e.render.toList ∨ '(' ∈ e.render.toList := by
  cases e with
  | literal x => cases h
  | column c => cases hc
  | wildcard => cases h
  | subquery statement => cases h
  | call name args =>
    right
    simp [Expr.render_call]
  | parens inner negated =>
    right
    simp [Expr.render_parens]
  | _ =>
    left
    simp [Expr.render_compare, Expr.render_like, Expr.render_isNull, Expr.render_inList,
      Expr.render_logic, Expr.render_not]

/-- No clause of a condition that is no column is about the field that has its text for a name. -/
theorem not_bounded_render {s : Settings} {e : Expr} {v : Value}
    (h : valueOf s .condition e = .ok v) (hc : e.column? = none) :
    ¬ Bounded (keyBound e) e.render := by
  rintro (hlt | ⟨hb, hp⟩)
  · simp [keyBound, hc] at hlt
  · rcases mem_render_of_valueOf h hc with hm | hm
    · exact hb hm
    · exact hp hm

end Filter

end DocQuery
