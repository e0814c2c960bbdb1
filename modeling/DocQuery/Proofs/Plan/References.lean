import DocQuery.Proofs.Filter.References
import DocQuery.Proofs.Plan.Variables

/-!
# Texts that are read as fields in the condition of a join

In the condition of a join a field of the joined collection is referred to by its name after a dollar
sign, and a field of the base by the name of its variable after two. A text literal stands beside
them as it is, so it may be such a text itself. `Replaced c x e e'` says that `e'` is `e` with a column
`c` replaced by the literal `x` where an operand is asked for, at any depth. Both compile to the same
lookup only if the literal refers to the column (`Replaced.isReference`), and a literal that refers to
a field of the joined collection is compiled as the field is (`Replaced.term_eq`).
-/

namespace DocQuery

open Syntax Plan

namespace Plan

variable {joined : String}

/-! ## Chains -/

/-- The number of conditions that an expression adds to the array of a connective. -/
def chainLength (op : Connective) : Expr → Nat
  | .logic op' left right => if op' = op then chainLength op left + chainLength op right else 1
  | _ => 1

theorem chained_of_connective? {op : Connective} {e : Expr} (h : e.connective? ≠ some op)
    (v : Value) : chained op e v = [v] := by
  unfold chained
  split
  · next he =>
    refine if_neg ?_
    rintro rfl
    exact h he
  · rfl

theorem chained_logic (op : Connective) (left right : Expr) (key : String) (values : List Value) :
    chained op (.logic op left right) (.single key (.array values)) = values :=
  if_pos rfl

theorem length_chained {op : Connective} : ∀ {e : Expr} {vars vars₁ : Variables} {v : Value},
    term joined .condition e vars = .ok (v, vars₁) → (chained op e v).length = chainLength op e
  | .logic op' left right, vars, vars₁, v, h => by
    obtain ⟨u, w, vars₂, hu, hw, rfl⟩ := term_logic_ok h
    by_cases ho : op' = op
    · subst ho
      rw [chained_logic, List.length_append, length_chained hu, length_chained hw, chainLength,
        if_pos rfl]
    · have hc : (Expr.logic op' left right).connective? ≠ some op := fun heq =>
        ho (Option.some.inj heq)
      rw [chained_of_connective? hc, chainLength, if_neg ho]
      rfl
  | .literal _, vars, vars₁, v, h | .column _, vars, vars₁, v, h | .call _ _, vars, vars₁, v, h
  | .wildcard, vars, vars₁, v, h | .compare _ _ _, vars, vars₁, v, h | .like _ _ _, vars, vars₁, v, h
  | .isNull _ _, vars, vars₁, v, h | .inList _ _ _, vars, vars₁, v, h
  | .parens _ _, vars, vars₁, v, h | .not _, vars, vars₁, v, h | .subquery _, vars, vars₁, v, h => rfl

/-- What a side adds to the array of a connective determines its value. -/
theorem chained_inj {op : Connective} {e e' : Expr} {vars vars₁ vars' vars₁' : Variables}
    {v v' : Value} (hc : e'.connective? = e.connective?)
    (h : term joined .condition e vars = .ok (v, vars₁))
    (h' : term joined .condition e' vars' = .ok (v', vars₁'))
    (heq : chained op e v = chained op e' v') : v = v' := by
  by_cases ho : e.connective? = some op
  · cases e with
    | logic op₁ left right =>
      cases ho
      cases e' with
      | logic op₂ left' right' =>
        cases hc
        obtain ⟨u, w, vars₂, -, -, rfl⟩ := term_logic_ok h
        obtain ⟨u', w', vars₂', -, -, rfl⟩ := term_logic_ok h'
        rw [chained_logic, chained_logic] at heq
        rw [heq]
      | _ => cases hc
    | _ => cases ho
  · rw [chained_of_connective? ho, chained_of_connective? (hc ▸ ho)] at heq
    exact List.singleton_inj.1 heq

theorem single_array_inj {key : String} {values values' : List Value}
    (h : Value.single key (.array values) = .single key (.array values')) : values = values' := by
  simpa [Value.single] using h

theorem negateIf_inj {negated : Bool} {u v : Value} (h : negateIf negated u = negateIf negated v) :
    u = v := by
  cases negated <;> simpa [negateIf, Value.single] using h

/-! ## Columns replaced by literals -/

/-- Whether a text refers to a column in the condition of a join, given its variables. -/
def IsReference (joined : String) (vars : Variables) (c : Column) (x : String) : Prop :=
  c.qualifier = some joined ∧ x = fieldReference c.name ∨
    c.qualifier ≠ some joined ∧ ∃ name, (name, fieldReference c.path) ∈ vars ∧ x = "$$" ++ name

theorem IsReference.mono {vars vars₁ : Variables} {c : Column} {x : String} (hsub : vars ⊆ vars₁)
    (h : IsReference joined vars c x) : IsReference joined vars₁ c x := by
  obtain h | ⟨hq, name, hname, hx⟩ := h
  · exact .inl h
  · exact .inr ⟨hq, name, hsub hname, hx⟩

/-- The value of a column refers to it. -/
theorem isReference_columnTerm {vars vars₁ : Variables} {c : Column} {x : String}
    (h : columnTerm joined c vars = .ok (.string x, vars₁)) : IsReference joined vars₁ c x := by
  unfold columnTerm at h
  split at h
  · next hq =>
    cases h
    exact .inl ⟨hq, rfl⟩
  · next hq =>
    cases h
    exact .inr ⟨hq, _, mem_bindVariable vars c.path, rfl⟩

/-- The second expression is the first one with a column replaced by a text literal, where an operand
is asked for. -/
inductive Replaced (c : Column) (x : String) : Place → Expr → Expr → Prop where
  /-- The column itself. -/
  | here : Replaced c x .operand (.column c) (.literal (.string x))
  /-- In an argument of a call. -/
  | argument {place : Place} {e e' : Expr} (h : Replaced c x .operand e e') (name : String)
    (before after : List Expr) :
    Replaced c x place (.call name (before ++ e :: after)) (.call name (before ++ e' :: after))
  /-- On the left of a comparison. -/
  | left {place : Place} {e e' : Expr} (h : Replaced c x .operand e e') (op : Comparison)
    (other : Expr) : Replaced c x place (.compare e op other) (.compare e' op other)
  /-- On the right of a comparison. -/
  | right {place : Place} {e e' : Expr} (h : Replaced c x .operand e e') (op : Comparison)
    (other : Expr) : Replaced c x place (.compare other op e) (.compare other op e')
  /-- In the operand of `IS NULL`. -/
  | isNull {place : Place} {e e' : Expr} (h : Replaced c x .operand e e') (negated : Bool) :
    Replaced c x place (.isNull e negated) (.isNull e' negated)
  /-- In what an `IN` test looks up. -/
  | lookedUp {place : Place} {e e' : Expr} (h : Replaced c x .operand e e') (list : List Expr)
    (negated : Bool) : Replaced c x place (.inList e list negated) (.inList e' list negated)
  /-- In an element of the list of an `IN` test. -/
  | element {place : Place} {e e' : Expr} (h : Replaced c x .operand e e') (operand : Expr)
    (before after : List Expr) (negated : Bool) :
    Replaced c x place (.inList operand (before ++ e :: after) negated)
      (.inList operand (before ++ e' :: after) negated)
  /-- On the left of a connective. -/
  | logicLeft {place : Place} {e e' : Expr} (h : Replaced c x .condition e e') (op : Connective)
    (other : Expr) : Replaced c x place (.logic op e other) (.logic op e' other)
  /-- On the right of a connective. -/
  | logicRight {place : Place} {e e' : Expr} (h : Replaced c x .condition e e') (op : Connective)
    (other : Expr) : Replaced c x place (.logic op other e) (.logic op other e')
  /-- In parentheses. -/
  | parens {place : Place} {e e' : Expr} (h : Replaced c x .condition e e') (negated : Bool) :
    Replaced c x place (.parens e negated) (.parens e' negated)
  /-- Under `NOT`. -/
  | not {place : Place} {e e' : Expr} (h : Replaced c x .condition e e') :
    Replaced c x place (.not e) (.not e')

theorem length_terms {es : List Expr} {vars vars₁ : Variables} {values : List Value}
    (h : terms joined es vars = .ok (values, vars₁)) : values.length = es.length := by
  induction es generalizing vars values with
  | nil =>
    obtain ⟨rfl, -⟩ := pure_binding_eq_ok.1 h
    rfl
  | cons e es ih =>
    obtain ⟨u, us, vars₂, -, hus, rfl⟩ := terms_cons_ok h
    rw [List.length_cons, ih hus, List.length_cons]

/-- The operand in the middle of a list. -/
theorem terms_append_cons_ok {before after : List Expr} {e : Expr} {vars vars₁ : Variables}
    {values : List Value} (h : terms joined (before ++ e :: after) vars = .ok (values, vars₁)) :
    ∃ us u ws vars₂ vars₃, us.length = before.length ∧
      term joined .operand e vars₂ = .ok (u, vars₃) ∧ vars₃ ⊆ vars₁ ∧ values = us ++ u :: ws := by
  induction before generalizing vars values with
  | nil =>
    obtain ⟨u, ws, vars₂, hu, hws, rfl⟩ := terms_cons_ok h
    exact ⟨[], u, ws, vars, vars₂, rfl, hu, subset_terms hws, rfl⟩
  | cons first before ih =>
    obtain ⟨v, vs, vars₂, -, hvs, rfl⟩ := terms_cons_ok h
    obtain ⟨us, u, ws, vars₃, vars₄, hlength, hu, hsub, rfl⟩ := ih hvs
    exact ⟨v :: us, u, ws, vars₃, vars₄, congrArg (· + 1) hlength, hu, hsub, rfl⟩

/-- Two lists of operands that differ in one have the same values only if those of the operands are
the same. -/
theorem exists_of_terms_append_cons {before after : List Expr} {e e' : Expr}
    {vars vars₁ vars' vars₁' : Variables} {values : List Value}
    (h : terms joined (before ++ e :: after) vars = .ok (values, vars₁))
    (h' : terms joined (before ++ e' :: after) vars' = .ok (values, vars₁')) :
    ∃ u vars₂ vars₃ vars₂' vars₃', term joined .operand e vars₂ = .ok (u, vars₃) ∧
      term joined .operand e' vars₂' = .ok (u, vars₃') ∧ vars₃ ⊆ vars₁ := by
  obtain ⟨us, u, ws, vars₂, vars₃, hlength, hu, hsub, rfl⟩ := terms_append_cons_ok h
  obtain ⟨us', u', ws', vars₂', vars₃', hlength', hu', -, heq⟩ := terms_append_cons_ok h'
  obtain ⟨-, htail⟩ := List.append_inj heq (hlength.trans hlength'.symm)
  obtain ⟨rfl, -⟩ := List.cons.inj htail
  exact ⟨u, vars₂, vars₃, vars₂', vars₃', hu, hu', hsub⟩

namespace Replaced

variable {c : Column} {x : String} {place : Place} {e e' : Expr}

theorem connective?_eq (h : Replaced c x place e e') : e'.connective? = e.connective? := by
  cases h <;> rfl

theorem column?_eq_none (h : Replaced c x place e e') : e'.column? = none := by
  cases h <;> rfl

theorem chained_eq (h : Replaced c x place e e') (op : Connective) :
    chained op e' = chained op e := by
  unfold chained
  rw [h.connective?_eq]

theorem chainLength_eq (h : Replaced c x place e e') (op : Connective) :
    chainLength op e' = chainLength op e := by
  induction h with
  | logicLeft h op' other ih => rw [chainLength, chainLength, ih]
  | logicRight h op' other ih => rw [chainLength, chainLength, ih]
  | _ => rfl

/-- **A literal that compiles like a column in the condition of a join refers to it.** -/
theorem isReference (h : Replaced c x place e e') :
    ∀ {vars vars₁ vars' vars₁' : Variables} {v : Value},
    term joined place e vars = .ok (v, vars₁) → term joined place e' vars' = .ok (v, vars₁') →
    IsReference joined vars₁ c x := by
  induction h with
  | here =>
    intro vars vars₁ vars' vars₁' v h h'
    obtain ⟨rfl, -⟩ := pure_binding_eq_ok.1 h'
    exact isReference_columnTerm h
  | argument h name before after ih =>
    intro vars vars₁ vars' vars₁' v h h'
    obtain ⟨values, hv, rfl⟩ := term_call_ok h
    obtain ⟨values', hv', heq⟩ := term_call_ok h'
    have hlength : values.length = values'.length := by
      rw [length_terms hv, length_terms hv']
      simp
    obtain rfl := Filter.callValue_inj hlength heq
    obtain ⟨u, vars₂, vars₃, vars₂', vars₃', hu, hu', hsub⟩ := exists_of_terms_append_cons hv hv'
    exact (ih hu hu').mono hsub
  | left h op other ih =>
    intro vars vars₁ vars' vars₁' v h h'
    obtain ⟨u, w, vars₂, hu, hw, rfl⟩ := term_compare_ok h
    obtain ⟨u', w', vars₂', hu', -, heq⟩ := term_compare_ok h'
    obtain ⟨rfl, -⟩ := List.cons.inj (single_array_inj heq)
    exact (ih hu hu').mono (subset_term hw)
  | right h op other ih =>
    intro vars vars₁ vars' vars₁' v h h'
    obtain ⟨u, w, vars₂, -, hw, rfl⟩ := term_compare_ok h
    obtain ⟨u', w', vars₂', -, hw', heq⟩ := term_compare_ok h'
    obtain ⟨-, hright⟩ := List.cons.inj (single_array_inj heq)
    obtain rfl := List.singleton_inj.1 hright
    exact ih hw hw'
  | isNull h negated ih =>
    intro vars vars₁ vars' vars₁' v h h'
    obtain ⟨u, hu, rfl⟩ := term_isNull_ok h
    obtain ⟨u', hu', heq⟩ := term_isNull_ok h'
    obtain ⟨rfl, -⟩ := List.cons.inj (single_array_inj heq)
    exact ih hu hu'
  | lookedUp h list negated ih =>
    intro vars vars₁ vars' vars₁' v h h'
    obtain ⟨values, u, vars₂, -, hu, rfl⟩ := term_inList_ok h
    obtain ⟨values', u', vars₂', -, hu', heq⟩ := term_inList_ok h'
    obtain ⟨rfl, -⟩ := List.cons.inj (single_array_inj (negateIf_inj heq))
    exact ih hu hu'
  | element h operand before after negated ih =>
    intro vars vars₁ vars' vars₁' v h h'
    obtain ⟨values, u, vars₂, hv, hu, rfl⟩ := term_inList_ok h
    obtain ⟨values', u', vars₂', hv', -, heq⟩ := term_inList_ok h'
    obtain ⟨-, hlist⟩ := List.cons.inj (single_array_inj (negateIf_inj heq))
    obtain rfl := Value.array.inj (List.singleton_inj.1 hlist)
    obtain ⟨w, vars₃, vars₄, vars₃', vars₄', hw, hw', hsub⟩ := exists_of_terms_append_cons hv hv'
    exact (ih hw hw').mono (List.Subset.trans hsub (subset_term hu))
  | logicLeft hr op other ih =>
    intro vars vars₁ vars' vars₁' v h h'
    obtain ⟨u, w, vars₂, hu, hw, rfl⟩ := term_logic_ok h
    obtain ⟨u', w', vars₂', hu', hw', heq⟩ := term_logic_ok h'
    obtain ⟨hleft, -⟩ := List.append_inj (single_array_inj heq)
      (by rw [length_chained hu, length_chained hu', hr.chainLength_eq])
    obtain rfl := chained_inj hr.connective?_eq hu hu' hleft
    exact (ih hu hu').mono (subset_term hw)
  | logicRight hr op other ih =>
    intro vars vars₁ vars' vars₁' v h h'
    obtain ⟨u, w, vars₂, hu, hw, rfl⟩ := term_logic_ok h
    obtain ⟨u', w', vars₂', hu', hw', heq⟩ := term_logic_ok h'
    obtain ⟨-, hright⟩ := List.append_inj (single_array_inj heq)
      (by rw [length_chained hu, length_chained hu'])
    obtain rfl := chained_inj hr.connective?_eq hw hw' hright
    exact ih hw hw'
  | parens h negated ih =>
    intro vars vars₁ vars' vars₁' v h h'
    obtain ⟨u, hu, rfl⟩ := term_parens_ok h
    obtain ⟨u', hu', heq⟩ := term_parens_ok h'
    obtain rfl := negateIf_inj heq
    exact ih hu hu'
  | not h ih =>
    intro vars vars₁ vars' vars₁' v h h'
    obtain ⟨u, hu, rfl⟩ := term_not_ok h
    obtain ⟨u', hu', heq⟩ := term_not_ok h'
    obtain rfl := negateIf_inj heq
    exact ih hu hu'

/-- **A literal that refers to a field of the joined collection compiles like it.** -/
theorem term_eq (h : Replaced c (fieldReference c.name) place e e')
    (hq : c.qualifier = some joined) : term joined place e' = term joined place e := by
  have hterms : ∀ {e e' : Expr} (before after : List Expr),
      term joined .operand e' = term joined .operand e →
        terms joined (before ++ e' :: after) = terms joined (before ++ e :: after) := by
    intro e e' before after he
    induction before with
    | nil => rw [List.nil_append, List.nil_append, terms, terms, he]
    | cons first before ih => rw [List.cons_append, List.cons_append, terms, terms, ih]
  induction h with
  | here =>
    funext vars
    exact (if_pos hq).symm
  | argument h name before after ih => rw [term, term, hterms before after ih]
  | left h op other ih => rw [term, term, ih]
  | right h op other ih => rw [term, term, ih]
  | isNull h negated ih => rw [term, term, ih]
  | lookedUp h list negated ih => rw [term, term, ih]
  | element h operand before after negated ih => rw [term, term, hterms before after ih]
  | logicLeft h op other ih => rw [term, term, ih, h.chained_eq]
  | logicRight h op other ih => rw [term, term, ih, h.chained_eq]
  | parens h negated ih => rw [term, term, ih]
  | not h ih => rw [term, term, ih]

/-! ## Lookups -/

/-- A comparison with a literal does not equate two fields. -/
theorem equatedFields?_eq_none (h : Replaced c x place e e') : equatedFields? joined e' = none := by
  unfold equatedFields?
  split
  · cases h with
    | left h op other => cases h.column?_eq_none
    | right h op other => cases h.column?_eq_none
  · rfl

end Replaced

/-- The variables as a lookup binds them. -/
def bindings (vars : Variables) : Document := vars.map fun entry => (entry.1, .string entry.2)

/-- The body of a lookup with a condition on both collections. -/
def conditionalBody (collection joined : String) (value : Value) (vars : Variables) : Document :=
  [("from", .string collection), ("let", .document (bindings vars)),
    ("pipeline", .array [.single "$match" (.single "$expr" value)]), ("as", .string joined)]

theorem lookupBody_eq_ok {collection : String} {e : Expr} {d : Document}
    (h : equatedFields? joined e = none) :
    lookupBody collection joined e = .ok d ↔
      ∃ v vars, term joined .condition e [] = .ok (v, vars) ∧
        d = conditionalBody collection joined v vars := by
  unfold lookupBody
  rw [h]
  constructor
  · intro hd
    obtain ⟨⟨v, vars⟩, hv, hd⟩ := bind_eq_ok.1 hd
    exact ⟨v, vars, hv, (Except.ok.inj hd).symm⟩
  · rintro ⟨v, vars, hv, rfl⟩
    exact bind_eq_ok.2 ⟨(v, vars), hv, rfl⟩

namespace Replaced

variable {c : Column} {x : String} {e e' : Expr} {collection : String} {d : Document}

/-- A literal that gives the same lookup as a column refers to it, by a variable that the lookup
binds to the field if that is one of the base. -/
theorem isReference_of_lookupBody (h : Replaced c x .condition e e')
    (he : lookupBody collection joined e = .ok d)
    (he' : lookupBody collection joined e' = .ok d) :
    ∃ vars, ("let", .document (bindings vars)) ∈ d ∧ IsReference joined vars c x := by
  obtain ⟨v', vars', hv', hd'⟩ := (lookupBody_eq_ok h.equatedFields?_eq_none).1 he'
  cases hf : equatedFields? joined e with
  | some fields =>
    rw [lookupBody, hf] at he
    have hkeys := congrArg Keyed.keys ((Except.ok.inj he).trans hd')
    -- The lookup by two fields has no `let`.
    simp [conditionalBody, Keyed.keys] at hkeys
  | none =>
    obtain ⟨v, vars, hv, hd⟩ := (lookupBody_eq_ok hf).1 he
    subst hd
    obtain ⟨-, rfl⟩ : bindings vars = bindings vars' ∧ v = v' := by
      simpa [conditionalBody, Value.single] using hd'
    exact ⟨vars, by simp [conditionalBody], h.isReference hv hv'⟩

end Replaced

end Plan

/-! ## Literals that compile like columns -/

/-- **A text literal compiles like a column only if it is the text that refers to it.** In a filter that
is the reference to the field, and it does then compile like the column, unless the type of the field
changes the literals beside it. In the condition of a join it is the reference to a field of the joined
collection, which does then compile like the column, or to the variable that the lookup binds to a
field of the base. -/
theorem literal_compiles_like_column (c : Column) (x : String) (e e' : Expr) (d : Document) :
    (∀ s : Settings, Filter.Replaced c x true e e' → Filter.ofExpr s e = .ok d →
      (Filter.ofExpr s e' = .ok d → x = fieldReference c.path) ∧
      (s.fieldType c.path = s.defaultType → x = fieldReference c.path →
        Filter.ofExpr s e' = .ok d)) ∧
    ∀ collection joined : String, Plan.Replaced c x .condition e e' →
      lookupBody collection joined e = .ok d →
      (lookupBody collection joined e' = .ok d →
        ∃ vars, ("let", .document (bindings vars)) ∈ d ∧ IsReference joined vars c x) ∧
      (c.qualifier = some joined → x = fieldReference c.name → equatedFields? joined e = none →
        lookupBody collection joined e' = .ok d) := by
  constructor
  · intro s h hd
    rw [Filter.ofExpr_eq_ok] at hd
    refine ⟨fun hd' => ?_, fun htype hx => ?_⟩
    · rw [Filter.ofExpr_eq_ok] at hd'
      exact h.eq_reference hd hd' rfl rfl
    · subst hx
      rw [Filter.ofExpr_eq_ok]
      exact h.valueOf_reference htype hd rfl rfl
  · intro collection joined h hd
    refine ⟨h.isReference_of_lookupBody hd, fun hq hx hf => ?_⟩
    subst hx
    rw [lookupBody_eq_ok hf] at hd
    rw [lookupBody_eq_ok h.equatedFields?_eq_none, h.term_eq hq]
    exact hd

/-- A literal compared with a call, and one beside the column whose variable it names. -/
theorem literal_compiles_like_column_shared :
    Filter.ofExpr {} (.compare (.call "toLower" [.column ⟨none, "a"⟩]) .equal
        (.literal (.string "$b"))) =
      .ok [("$expr", .single "$eq" (.array [.single "$toLower" (.string "$a"), .string "$b"]))] ∧
    lookupBody "orders" "o" (.inList (.column ⟨some "o", "id"⟩)
        [.column ⟨none, "a"⟩, .literal (.string "$$a")] false) =
      .ok (conditionalBody "orders" "o"
        (.single "$in" (.array [.string "$id", .array [.string "$$a", .string "$$a"]]))
        [("a", "$a")]) ∧
    ∃ vars, ("let", .document (bindings vars)) ∈ conditionalBody "orders" "o"
        (.single "$in" (.array [.string "$id", .array [.string "$$a", .string "$$a"]]))
        [("a", "$a")] ∧ IsReference "o" vars ⟨none, "a"⟩ "$$a" := by
  refine ⟨?_, rfl, ?_⟩
  · have hfilter := (literal_compiles_like_column ⟨none, "b"⟩ "$b"
      (.compare (.call "toLower" [.column ⟨none, "a"⟩]) .equal (.column ⟨none, "b"⟩)) _ _).1 {}
        (.right .here _ _ (fun _ => rfl) rfl) rfl
    exact hfilter.2 rfl rfl
  · have hlookup := (literal_compiles_like_column ⟨none, "a"⟩ "$$a"
      (.inList (.column ⟨some "o", "id"⟩) [.column ⟨none, "a"⟩, .column ⟨none, "a"⟩] false) _ _).2
        "orders" "o" (.element .here _ [.column ⟨none, "a"⟩] [] false) rfl
    exact hlookup.1 rfl

/-- A literal of an `IN` list is read as a field. -/
theorem literal_read_as_field :
    Filter.Replaced ⟨none, "b"⟩ "$b" true
        (.inList (.column ⟨none, "a"⟩) [.column ⟨none, "b"⟩] false)
        (.inList (.column ⟨none, "a"⟩) [.literal (.string "$b")] false) ∧
      ∃ d, Filter.ofExpr {} (.inList (.column ⟨none, "a"⟩) [.column ⟨none, "b"⟩] false) = .ok d ∧
        Filter.ofExpr {} (.inList (.column ⟨none, "a"⟩) [.literal (.string "$b")] false) = .ok d :=
  ⟨.element .here _ [] [] false rfl, _, rfl, rfl⟩

end DocQuery
