import DocQuery.Proofs.Filter.Forms

/-!
# Texts that are read as fields

An aggregation expression refers to a field by a text, its path after a dollar sign, and a text
literal stands in it as it is. `Replaced c x e e'` says that `e'` is `e` with a column `c` replaced by
the literal `x` at a place where operands become values of an aggregation expression: an argument of
a call, an operand of a comparison with a call, what an `IN` test looks up or an element of its list,
at any depth. Both compile to the same filter only if the literal is the very text that refers to the
field (`Replaced.eq_reference`), and then they do, unless the type of the field changes the literals
beside it (`Replaced.valueOf_reference`).
-/

namespace DocQuery

open Syntax

/-! ## The texts of references -/

theorem head?_fieldReference (path : String) : (fieldReference path).toList.head? = some '$' := by
  unfold fieldReference
  split
  · next h => exact h
  · rw [String.toList_append]
    rfl

namespace Filter

/-- A literal that is made a value of another type is no text any more. -/
theorem eq_of_coerce_eq_string {type : FieldType} {x y : String}
    (h : coerce type (.string x) = .string y) : x = y := by
  have hcoerced : ∀ v, coerced? type (.string x) = some v → v ≠ .string y := by
    intro v hv
    cases type with
    | number =>
      simp only [coerced?, numberOfText?] at hv
      split at hv
      · cases hv
        simp
      · obtain ⟨f, -, rfl⟩ := Option.map_eq_some_iff.1 hv
        simp
    | boolean =>
      simp only [coerced?, boolOfText?] at hv
      split at hv
      · cases hv
        simp
      · split at hv
        · cases hv
          simp
        · cases hv
    | date =>
      obtain ⟨t, -, rfl⟩ := Option.map_eq_some_iff.1 hv
      unfold Calendar.Instant.toValue
      split <;> simp [Value.single]
    | string | unknown => cases hv
  unfold coerce at h
  cases hc : coerced? type (.string x) with
  | none =>
    rw [hc] at h
    exact Value.string.inj h
  | some v =>
    rw [hc] at h
    exact absurd h (hcoerced v hc)

theorem exists_trimChars_cons {ch : Char} (h : Text.isBlank ch = false) (cs : List Char) :
    ∃ rest, Text.trimChars (ch :: cs) = ch :: rest := by
  have hlast : ∀ l : List Char, ∃ rest, (l ++ [ch]).dropWhile Text.isBlank = rest ++ [ch] := by
    intro l
    induction l with
    | nil => exact ⟨[], by simp [h]⟩
    | cons first l ih =>
      cases hb : Text.isBlank first with
      | true =>
        obtain ⟨rest, hrest⟩ := ih
        exact ⟨rest, by rw [List.cons_append, List.dropWhile_cons_of_pos hb, hrest]⟩
      | false => exact ⟨first :: l, by simp [hb]⟩
  obtain ⟨rest, hrest⟩ := hlast cs.reverse
  refine ⟨rest.reverse, ?_⟩
  rw [Text.trimChars, List.dropWhile_cons_of_neg (by simp [h]), List.reverse_cons, hrest,
    List.reverse_append]
  rfl

theorem numberOfText?_dollar {x : String} (h : x.toList.head? = some '$') :
    numberOfText? x = none := by
  obtain ⟨cs, hx⟩ := List.head?_eq_some_iff.1 h
  have hblank : Text.isBlank '$' = false := by decide
  obtain ⟨rest, hrest⟩ := exists_trimChars_cons hblank cs
  unfold numberOfText?
  rw [hx, hrest]
  rfl

theorem boolOfText?_dollar {x : String} (h : x.toList.head? = some '$') :
    boolOfText? x = none := by
  obtain ⟨cs, hx⟩ := List.head?_eq_some_iff.1 h
  have hlower : (Text.lower x).toList.head? = some '$' := by
    rw [Text.lower, hx, String.toList_ofList]
    rfl
  have hne : ∀ word : String, word.toList.head? ≠ some '$' → Text.lower x ≠ word := by
    rintro _ hword rfl
    exact hword hlower
  unfold boolOfText?
  rw [if_neg (hne "true" (by decide)), if_neg (hne "false" (by decide))]

theorem dateOfText?_dollar {x : String} (h : x.toList.head? = some '$') :
    dateOfText? x = none := by
  obtain ⟨cs, hx⟩ := List.head?_eq_some_iff.1 h
  have hinternet : Calendar.readInternet x = none := by
    unfold Calendar.readInternet
    rw [hx]
    rfl
  have hformat : ∀ format ∈ Calendar.naturalFormats, Calendar.readFormat format x = none := by
    intro format hf
    simp only [Calendar.naturalFormats, List.mem_cons, List.not_mem_nil, or_false] at hf
    unfold Calendar.readFormat
    rw [hx]
    rcases hf with rfl | rfl | rfl <;> rfl
  have hnatural : Calendar.readNatural x = none := by
    rw [Calendar.readNatural, hinternet, List.findSome?_eq_none_iff.2 hformat]
    rfl
  have hword : Text.sameIgnoringCase "natural" "natural" = true := by decide
  rw [dateOfText?, Calendar.parseDate?, if_pos hword, hnatural]
  rfl

/-- A text that starts with a dollar sign is left as it is. -/
theorem coerce_dollar (type : FieldType) {x : String} (h : x.toList.head? = some '$') :
    coerce type (.string x) = .string x := by
  have hcoerced : coerced? type (.string x) = none := by
    cases type with
    | number => exact numberOfText?_dollar h
    | boolean => exact boolOfText?_dollar h
    | date => exact dateOfText?_dollar h
    | string | unknown => rfl
  rw [coerce, hcoerced]
  rfl

/-! ## Columns replaced by literals -/

variable {s : Settings}

/-- The second expression is the first one with a column replaced by a text literal, at a place where
operands become values of an aggregation expression. The flag tells whether the expressions stand as
conditions. Calls of special functions give filters of their own and are not entered. -/
inductive Replaced (c : Column) (x : String) : Bool → Expr → Expr → Prop where
  /-- The column itself, where an operand is asked for. -/
  | here : Replaced c x false (.column c) (.literal (.string x))
  /-- In an argument of a call. -/
  | argument {condition : Bool} {e e' : Expr} (h : Replaced c x false e e') (name : String)
    (before after : List Expr)
    (hn : condition = true → Text.sameIgnoringCase name "regexMatch" = false) :
    Replaced c x condition (.call name (before ++ e :: after)) (.call name (before ++ e' :: after))
  /-- On the left of a comparison, with a call if it is the column itself. -/
  | left {condition : Bool} {e e' : Expr} (h : Replaced c x false e e') (op : Comparison)
    (other : Expr) (hc : e = .column c → other.call?.isSome = true)
    (hs : specialMatch (.compare e op other) = .ok none) :
    Replaced c x condition (.compare e op other) (.compare e' op other)
  /-- On the right of a comparison, with a call if it is the column itself. -/
  | right {condition : Bool} {e e' : Expr} (h : Replaced c x false e e') (op : Comparison)
    (other : Expr) (hc : e = .column c → other.call?.isSome = true)
    (hs : specialMatch (.compare other op e) = .ok none) :
    Replaced c x condition (.compare other op e) (.compare other op e')
  /-- In what an `IN` test looks up. -/
  | lookedUp {condition : Bool} {e e' : Expr} (h : Replaced c x false e e') (list : List Expr)
    (negated : Bool) (hs : callOf? "objectid" e = none) :
    Replaced c x condition (.inList e list negated) (.inList e' list negated)
  /-- In an element of the list of an `IN` test. -/
  | element {condition : Bool} {e e' : Expr} (h : Replaced c x false e e') (operand : Expr)
    (before after : List Expr) (negated : Bool) (hs : callOf? "objectid" operand = none) :
    Replaced c x condition (.inList operand (before ++ e :: after) negated)
      (.inList operand (before ++ e' :: after) negated)
  /-- On the left of a connective. -/
  | logicLeft {condition : Bool} {e e' : Expr} (h : Replaced c x true e e') (op : Connective)
    (other : Expr) : Replaced c x condition (.logic op e other) (.logic op e' other)
  /-- On the right of a connective. -/
  | logicRight {condition : Bool} {e e' : Expr} (h : Replaced c x true e e') (op : Connective)
    (other : Expr) : Replaced c x condition (.logic op other e) (.logic op other e')
  /-- In parentheses. -/
  | parens {condition : Bool} {e e' : Expr} (h : Replaced c x true e e') (negated : Bool) :
    Replaced c x condition (.parens e negated) (.parens e' negated)

namespace Replaced

variable {c : Column} {x : String} {condition : Bool} {e e' : Expr}

theorem isSome_call? (h : Replaced c x condition e e') : e'.call?.isSome = e.call?.isSome := by
  cases h <;> rfl

theorem callOf?_eq_none (h : Replaced c x condition e e') {name : String}
    (hn : callOf? name e = none) : callOf? name e' = none := by
  cases h with
  | argument h name' before after =>
    rw [callOf?_call] at hn ⊢
    split at hn
    · cases hn
    · next hne => rw [if_neg hne]
  | _ => rfl

theorem connective?_eq (h : Replaced c x condition e e') : e'.connective? = e.connective? := by
  cases h <;> rfl

theorem column?_eq_none (h : Replaced c x condition e e') : e'.column? = none := by
  cases h <;> rfl

/-- Only the column itself is a column. -/
theorem eq_column (h : Replaced c x condition e e') (hc : e.column? ≠ none) :
    e = .column c ∧ e' = .literal (.string x) := by
  cases h with
  | here => exact ⟨rfl, rfl⟩
  | _ => exact absurd rfl hc

theorem isChain_eq (h : Replaced c x condition e e') (op : Connective) :
    e'.isChain op = e.isChain op := by
  induction h with
  | logicLeft h op' other ih => rw [Expr.isChain, Expr.isChain, h.connective?_eq, ih]
  | logicRight h op' other ih => rw [Expr.isChain, Expr.isChain, h.connective?_eq]
  | _ => rfl

/-- The sides of a comparison become operands of an aggregation expression as before. -/
theorem comparesTerms_left (h : Replaced c x condition e e') {other : Expr}
    (hc : e = .column c → other.call?.isSome = true) :
    comparesTerms e' other = comparesTerms e other := by
  unfold comparesTerms
  rw [h.isSome_call?, h.column?_eq_none]
  cases hcolumn : e.column? with
  | none => rfl
  | some c' =>
    obtain ⟨he, -⟩ := h.eq_column (by rw [hcolumn]; simp)
    simp [hc he]

theorem comparesTerms_right (h : Replaced c x condition e e') {other : Expr}
    (hc : e = .column c → other.call?.isSome = true) :
    comparesTerms other e' = comparesTerms other e := by
  rw [comparesTerms_comm, h.comparesTerms_left hc, comparesTerms_comm]

/-- The column itself is compared as an operand of an aggregation expression. -/
theorem column?_eq_none_left (h : Replaced c x condition e e') {other : Expr}
    (hc : e = .column c → other.call?.isSome = true) (hterms : comparesTerms e other = false) :
    e.column? = none := by
  by_contra hcolumn
  obtain ⟨he, -⟩ := h.eq_column hcolumn
  simp [comparesTerms, hc he] at hterms

theorem canBeLookedUp_eq (h : Replaced c x condition e e') :
    canBeLookedUp e' = canBeLookedUp e := by
  cases h <;> rfl

theorem subquery?_eq_none (h : Replaced c x condition e e') {before after : List Expr}
    (hl : subquery? (before ++ e :: after) = none) : subquery? (before ++ e' :: after) = none := by
  rw [subquery?_eq_none_iff, List.forall_mem_append, List.forall_mem_cons] at hl ⊢
  refine ⟨hl.1, ?_, hl.2.2⟩
  cases h <;> simp

/-- The literals beside the column are those beside the literal if its type is the default. -/
theorem literalBeside_eq (h : Replaced c x condition e e')
    (htype : s.fieldType c.path = s.defaultType) (value : Literal) :
    literalBeside s e value = literalBeside s e' value := by
  unfold literalBeside
  rw [h.column?_eq_none]
  cases hcolumn : e.column? with
  | none => rfl
  | some c' =>
    obtain ⟨rfl, -⟩ := h.eq_column (by rw [hcolumn]; simp)
    cases hcolumn
    dsimp only
    rw [htype]

theorem ne_bool (h : Replaced c x condition e e') (b : Bool) :
    e ≠ .literal (.bool b) ∧ e' ≠ .literal (.bool b) := by
  cases h <;> simp

theorem specialMatch_left (h : Replaced c x condition e e') {op : Comparison} {other : Expr}
    (hs : specialMatch (.compare e op other) = .ok none) :
    specialMatch (.compare e' op other) = .ok none := by
  rw [specialMatch_eq_none_iff] at hs ⊢
  obtain ⟨hregex, ⟨hdl, hdr⟩, hol, hor⟩ := hs
  refine ⟨?_, ⟨h.callOf?_eq_none hdl, hdr⟩, h.callOf?_eq_none hol, hor⟩
  unfold regexCall?
  split
  · next heq => cases heq
  · next heq =>
    cases heq
    exact h.callOf?_eq_none hregex
  · next heq =>
    cases heq
    exact absurd rfl (h.ne_bool true).2
  · rfl

theorem specialMatch_right (h : Replaced c x condition e e') {op : Comparison} {other : Expr}
    (hs : specialMatch (.compare other op e) = .ok none) :
    specialMatch (.compare other op e') = .ok none := by
  rw [specialMatch_eq_none_iff] at hs ⊢
  obtain ⟨hregex, ⟨hdl, hdr⟩, hol, hor⟩ := hs
  refine ⟨?_, ⟨hdl, h.callOf?_eq_none hdr⟩, hol, h.callOf?_eq_none hor⟩
  unfold regexCall?
  split
  · next heq => cases heq
  · next heq =>
    cases heq
    exact absurd rfl (h.ne_bool true).2
  · next heq =>
    cases heq
    refine h.callOf?_eq_none ?_
    rw [regexCall?] at hregex
    · exact hregex
    · exact (h.ne_bool true).1
  · rfl

/-- Where an expression may stand: a condition in the role of one, the column itself only where its
reference is asked for, and all else in any other role. -/
def Fits (condition : Bool) (e : Expr) : Role → Prop
  | .condition => condition = true
  | .comparand _ => condition = false ∧ e.column? = none
  | .operand _ => condition = false
  | .argument _ => condition = false

theorem ne_regexMatch {role : Role} {name : String} (hf : Fits condition e role)
    (hn : condition = true → Text.sameIgnoringCase name "regexMatch" = false) :
    role = .condition → Text.sameIgnoringCase name "regexMatch" = false := by
  rintro rfl
  exact hn hf

/-- The value of a column where its reference is asked for. -/
theorem eq_string_of_column {role : Role} {v : Value} (h : valueOf s role (.column c) = .ok v)
    (hf : Fits false (.column c) role) : v = .string (fieldReference c.path) := by
  cases role with
  | condition => cases hf
  | comparand other => cases hf.2
  | operand other => exact (Except.ok.inj h).symm
  | argument f => exact (Except.ok.inj h).symm

/-! ### Comparisons

A side of a comparison is an operand of an aggregation expression, or what the field on the other
side is compared with. Which of the two it is does not change when the column in it is replaced. -/

section

variable {role role' : Role} {op : Comparison} {other : Expr} {v : Value}

/-- Comparisons that compile alike have left sides that compile alike. -/
theorem exists_left (h : Replaced c x false e e') (hc : e = .column c → other.call?.isSome = true)
    (hs : specialMatch (.compare e op other) = .ok none)
    (he : valueOf s role (.compare e op other) = .ok v)
    (he' : valueOf s role' (.compare e' op other) = .ok v) :
    ∃ place u, Fits false e place ∧ valueOf s place e = .ok u ∧ valueOf s place e' = .ok u := by
  have hs' := h.specialMatch_left hs
  cases hterms : comparesTerms e other with
  | true =>
    obtain ⟨u, w, hu, -, rfl⟩ := (valueOf_compare_terms hs hterms).1 he
    rw [← h.comparesTerms_left hc] at hterms
    obtain ⟨u', w', hu', -, heq⟩ := (valueOf_compare_terms hs' hterms).1 he'
    obtain ⟨rfl, -⟩ : u = u' ∧ w = w' := by simpa [Value.single] using heq
    exact ⟨.operand other, u, rfl, hu, hu'⟩
  | false =>
    have hcolumn := h.column?_eq_none_left hc hterms
    obtain ⟨c₁, w, hc₁, -⟩ | ⟨-, c₁, u, hc₁, hu, rfl⟩ := (valueOf_compare_field hs hterms).1 he
    · cases hcolumn.symm.trans hc₁
    · rw [← h.comparesTerms_left hc] at hterms
      obtain ⟨c₂, w', hc₂, -⟩ | ⟨-, c₂, u', hc₂, hu', heq⟩ :=
        (valueOf_compare_field hs' hterms).1 he'
      · cases h.column?_eq_none.symm.trans hc₂
      · cases hc₁.symm.trans hc₂
        obtain rfl := comparisonValue_inj heq
        exact ⟨.comparand other, u, ⟨rfl, hcolumn⟩, hu, hu'⟩

/-- Comparisons that compile alike have right sides that compile alike. -/
theorem exists_right (h : Replaced c x false e e') (hc : e = .column c → other.call?.isSome = true)
    (hs : specialMatch (.compare other op e) = .ok none)
    (he : valueOf s role (.compare other op e) = .ok v)
    (he' : valueOf s role' (.compare other op e') = .ok v) :
    ∃ place u, Fits false e place ∧ valueOf s place e = .ok u ∧ valueOf s place e' = .ok u := by
  have hs' := h.specialMatch_right hs
  cases hterms : comparesTerms other e with
  | true =>
    obtain ⟨u, w, -, hw, rfl⟩ := (valueOf_compare_terms hs hterms).1 he
    rw [← h.comparesTerms_right hc] at hterms
    obtain ⟨u', w', -, hw', heq⟩ := (valueOf_compare_terms hs' hterms).1 he'
    obtain ⟨-, rfl⟩ : u = u' ∧ w = w' := by simpa [Value.single] using heq
    exact ⟨.operand other, w, rfl, hw, hw'⟩
  | false =>
    have hcolumn := h.column?_eq_none_left hc (comparesTerms_comm _ _ ▸ hterms)
    obtain ⟨c₁, w, hc₁, hw, rfl⟩ | ⟨-, c₁, u, hc₁, -⟩ := (valueOf_compare_field hs hterms).1 he
    · rw [← h.comparesTerms_right hc] at hterms
      obtain ⟨c₂, w', hc₂, hw', heq⟩ | ⟨hc₂, -⟩ := (valueOf_compare_field hs' hterms).1 he'
      · cases hc₁.symm.trans hc₂
        obtain rfl := comparisonValue_inj heq
        exact ⟨.comparand other, w, ⟨rfl, hcolumn⟩, hw, hw'⟩
      · cases hc₁.symm.trans hc₂
    · cases hcolumn.symm.trans hc₁

/-- A comparison compiles as before if its left side does. -/
theorem valueOf_left (h : Replaced c x false e e') (hc : e = .column c → other.call?.isSome = true)
    (hs : specialMatch (.compare e op other) = .ok none)
    (htype : s.fieldType c.path = s.defaultType)
    (hside : ∀ place u, Fits false e place → valueOf s place e = .ok u → valueOf s place e' = .ok u)
    (he : valueOf s role (.compare e op other) = .ok v) :
    valueOf s role' (.compare e' op other) = .ok v := by
  have hs' := h.specialMatch_left hs
  cases hterms : comparesTerms e other with
  | true =>
    obtain ⟨u, w, hu, hw, rfl⟩ := (valueOf_compare_terms hs hterms).1 he
    rw [← h.comparesTerms_left hc] at hterms
    rw [valueOf_operand_congr (h.literalBeside_eq htype)] at hw
    exact (valueOf_compare_terms hs' hterms).2 ⟨u, w, hside _ u rfl hu, hw, rfl⟩
  | false =>
    have hcolumn := h.column?_eq_none_left hc hterms
    obtain ⟨c₁, w, hc₁, -⟩ | ⟨-, c₁, u, hc₁, hu, rfl⟩ := (valueOf_compare_field hs hterms).1 he
    · cases hcolumn.symm.trans hc₁
    · rw [← h.comparesTerms_left hc] at hterms
      exact (valueOf_compare_field hs' hterms).2
        (.inr ⟨h.column?_eq_none, c₁, u, hc₁, hside _ u ⟨rfl, hcolumn⟩ hu, rfl⟩)

/-- A comparison compiles as before if its right side does. -/
theorem valueOf_right (h : Replaced c x false e e') (hc : e = .column c → other.call?.isSome = true)
    (hs : specialMatch (.compare other op e) = .ok none)
    (htype : s.fieldType c.path = s.defaultType)
    (hside : ∀ place u, Fits false e place → valueOf s place e = .ok u → valueOf s place e' = .ok u)
    (he : valueOf s role (.compare other op e) = .ok v) :
    valueOf s role' (.compare other op e') = .ok v := by
  have hs' := h.specialMatch_right hs
  cases hterms : comparesTerms other e with
  | true =>
    obtain ⟨u, w, hu, hw, rfl⟩ := (valueOf_compare_terms hs hterms).1 he
    rw [← h.comparesTerms_right hc] at hterms
    rw [valueOf_operand_congr (h.literalBeside_eq htype)] at hu
    exact (valueOf_compare_terms hs' hterms).2 ⟨u, w, hu, hside _ w rfl hw, rfl⟩
  | false =>
    have hcolumn := h.column?_eq_none_left hc (comparesTerms_comm _ _ ▸ hterms)
    obtain ⟨c₁, w, hc₁, hw, rfl⟩ | ⟨-, c₁, u, hc₁, -⟩ := (valueOf_compare_field hs hterms).1 he
    · rw [← h.comparesTerms_right hc] at hterms
      exact (valueOf_compare_field hs' hterms).2
        (.inl ⟨c₁, w, hc₁, hside _ w ⟨rfl, hcolumn⟩ hw, rfl⟩)
    · cases hcolumn.symm.trans hc₁

end

/-! ### All places -/

/-- **A literal that compiles like a column is the text of its reference.** -/
theorem eq_reference (h : Replaced c x condition e e') : ∀ {role role' : Role} {v : Value},
    valueOf s role e = .ok v → valueOf s role' e' = .ok v → Fits condition e role →
    Fits condition e role' → x = fieldReference c.path := by
  induction h with
  | here =>
    intro role role' v h h' hf hf'
    have hv : v = .string (fieldReference c.path) := eq_string_of_column h hf
    subst hv
    cases role' with
    | condition => cases hf'
    | comparand other => cases hf'.2
    | operand other =>
      have hbeside : literalBeside s other (.string x) = .string (fieldReference c.path) :=
        Except.ok.inj h'
      unfold literalBeside at hbeside
      split at hbeside <;> exact eq_of_coerce_eq_string hbeside
    | argument f => exact Value.string.inj (Except.ok.inj h')
  | argument h name before after hn ih =>
    intro role role' v h h' hf hf'
    rw [valueOf_call_eq _ (ne_regexMatch hf hn)] at h
    rw [valueOf_call_eq _ (ne_regexMatch hf' hn)] at h'
    obtain ⟨values, hv, h⟩ := bind_eq_ok.1 h
    obtain ⟨values', hv', h'⟩ := bind_eq_ok.1 h'
    have hlength : values.length = values'.length := by
      rw [← (mapM_eq_ok.1 hv).length_eq, ← (mapM_eq_ok.1 hv').length_eq]
      simp
    have hvalues := callValue_inj hlength ((Except.ok.inj h).trans (Except.ok.inj h').symm)
    subst hvalues
    obtain ⟨u, hu, hu'⟩ := exists_of_mapM_append_cons hv hv'
    exact ih hu hu' rfl rfl
  | left h op other hc hs ih =>
    intro role role' v he he' hf hf'
    obtain ⟨place, u, hfits, hu, hu'⟩ := h.exists_left hc hs he he'
    exact ih hu hu' hfits hfits
  | right h op other hc hs ih =>
    intro role role' v he he' hf hf'
    obtain ⟨place, u, hfits, hu, hu'⟩ := h.exists_right hc hs he he'
    exact ih hu hu' hfits hfits
  | lookedUp h list negated hs ih =>
    intro role role' v he he' hf hf'
    obtain ⟨-, -, u, values, hu, -, rfl⟩ := (valueOf_inList_eq_ok ⟨"", []⟩ hs).1 he
    obtain ⟨-, -, u', values', hu', -, heq⟩ :=
      (valueOf_inList_eq_ok ⟨"", []⟩ (h.callOf?_eq_none hs)).1 he'
    rw [h.isSome_call?] at heq
    obtain ⟨rfl, -⟩ := lookupValue_inj heq
    exact ih hu hu' rfl rfl
  | element h operand before after negated hs ih =>
    intro role role' v he he' hf hf'
    obtain ⟨-, -, u, values, -, hv, rfl⟩ := (valueOf_inList_eq_ok ⟨"", []⟩ hs).1 he
    obtain ⟨-, -, u', values', -, hv', heq⟩ := (valueOf_inList_eq_ok ⟨"", []⟩ hs).1 he'
    obtain ⟨-, rfl⟩ := lookupValue_inj heq
    obtain ⟨w, hw, hw'⟩ := exists_of_mapM_append_cons hv hv'
    exact ih hw hw' rfl rfl
  | logicLeft h op other ih =>
    intro role role' v he he' hf hf'
    obtain ⟨u, w, hu, hw, rfl⟩ := valueOf_logic_eq_ok.1 he
    obtain ⟨u', w', hu', hw', heq⟩ := valueOf_logic_eq_ok.1 he'
    cases hw.symm.trans hw'
    obtain ⟨hleft, -⟩ := logicValue_inj heq
    obtain rfl := leftFilters_inj (h.isChain_eq op).symm hu hu' hleft
    exact ih hu hu' rfl rfl
  | logicRight h op other ih =>
    intro role role' v he he' hf hf'
    obtain ⟨u, w, hu, hw, rfl⟩ := valueOf_logic_eq_ok.1 he
    obtain ⟨u', w', hu', hw', heq⟩ := valueOf_logic_eq_ok.1 he'
    obtain ⟨-, rfl⟩ := logicValue_inj heq
    exact ih hw hw' rfl rfl
  | parens h negated ih =>
    intro role role' v he he' hf hf'
    obtain ⟨u, hu, he⟩ := bind_eq_ok.1 he
    obtain ⟨u', hu', he'⟩ := bind_eq_ok.1 he'
    have heq := (Except.ok.inj he).trans (Except.ok.inj he').symm
    have hsame : u = u' := by cases negated <;> simpa [Value.single] using heq
    subst hsame
    exact ih hu hu' rfl rfl

/-- **A literal that is the text of a reference compiles like the column**, unless the type of the
field changes the literals beside it. -/
theorem valueOf_reference (h : Replaced c (fieldReference c.path) condition e e')
    (htype : s.fieldType c.path = s.defaultType) : ∀ {role role' : Role} {v : Value},
    valueOf s role e = .ok v → Fits condition e role → Fits condition e role' →
    valueOf s role' e' = .ok v := by
  induction h with
  | here =>
    intro role role' v h hf hf'
    have hv : v = .string (fieldReference c.path) := eq_string_of_column h hf
    subst hv
    cases role' with
    | condition => cases hf'
    | comparand other => cases hf'.2
    | operand other =>
      refine congrArg Except.ok ?_
      unfold literalBeside
      split <;> exact coerce_dollar _ (head?_fieldReference _)
    | argument f => rfl
  | argument h name before after hn ih =>
    intro role role' v h hf hf'
    rw [valueOf_call_eq _ (ne_regexMatch hf hn)] at h
    rw [valueOf_call_eq _ (ne_regexMatch hf' hn)]
    obtain ⟨values, hv, h⟩ := bind_eq_ok.1 h
    refine bind_eq_ok.2 ⟨values, ?_, h⟩
    exact mapM_append_cons_of_eq_ok (fun _ _ => valueOf_argument_congr) (fun _ hu => ih hu rfl rfl) hv
  | left h op other hc hs ih =>
    intro role role' v he hf hf'
    exact h.valueOf_left hc hs htype (fun place u hfits hu => ih hu hfits hfits) he
  | right h op other hc hs ih =>
    intro role role' v he hf hf'
    exact h.valueOf_right hc hs htype (fun place u hfits hu => ih hu hfits hfits) he
  | lookedUp h list negated hs ih =>
    intro role role' v he hf hf'
    obtain ⟨hl, ho, u, values, hu, hv, rfl⟩ := (valueOf_inList_eq_ok ⟨"", []⟩ hs).1 he
    rw [funext (valueOf_operand_congr (h.literalBeside_eq htype))] at hv
    refine (valueOf_inList_eq_ok ⟨"", []⟩ (h.callOf?_eq_none hs)).2 ⟨hl, ?_, u, values, ?_, hv, ?_⟩
    · rw [h.canBeLookedUp_eq, ho]
    · exact ih hu rfl rfl
    · rw [h.isSome_call?]
  | element h operand before after negated hs ih =>
    intro role role' v he hf hf'
    obtain ⟨hl, ho, u, values, hu, hv, rfl⟩ := (valueOf_inList_eq_ok ⟨"", []⟩ hs).1 he
    refine (valueOf_inList_eq_ok ⟨"", []⟩ hs).2 ⟨?_, ho, u, values, hu, ?_, rfl⟩
    · exact h.subquery?_eq_none hl
    · exact mapM_append_cons_of_eq_ok (fun _ _ hw => hw) (fun _ hw => ih hw rfl rfl) hv
  | logicLeft h op other ih =>
    intro role role' v he hf hf'
    obtain ⟨u, w, hu, hw, rfl⟩ := valueOf_logic_eq_ok.1 he
    refine valueOf_logic_eq_ok.2 ⟨u, w, ih hu rfl rfl, hw, ?_⟩
    rw [leftFilters, leftFilters, h.isChain_eq]
  | logicRight h op other ih =>
    intro role role' v he hf hf'
    obtain ⟨u, w, hu, hw, rfl⟩ := valueOf_logic_eq_ok.1 he
    refine valueOf_logic_eq_ok.2 ⟨u, w, hu, ih hw rfl rfl, ?_⟩
    rw [leftFilters, leftFilters, h.connective?_eq]
  | parens h negated ih =>
    intro role role' v he hf hf'
    obtain ⟨u, hu, he⟩ := bind_eq_ok.1 he
    exact bind_eq_ok.2 ⟨u, ih hu rfl rfl, he⟩

end Replaced

end Filter

end DocQuery
