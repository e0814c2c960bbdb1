import DocQuery.Filter.Compile
import DocQuery.Proofs.Outcome

/-!
# Filters have one key

A condition compiles to a document with exactly one field (`valueOf_condition_single`), so a filter
that comes from a condition is never empty (`ofExpr_single`). In other roles only literals and
columns give anything else (`valueOf_single`). The special functions give documents with one field,
too, which is named by one of their arguments (`specialMatch_single`).
-/

namespace DocQuery.Filter

open Syntax

/-! ## Special functions -/

/-- Whether a name is a text or the path of a column among the arguments of a call. -/
def NamedBy (f : Call) (name : String) : Prop :=
  ∃ e ∈ f.args, text? e = some name ∨ ∃ c, e = .column c ∧ c.path = name

theorem namedBy_of_columnArg? {f : Call} {index : Nat} {c : Column}
    (h : columnArg? f index = some c) : NamedBy f c.path := by
  obtain ⟨e, he, hc⟩ := Option.bind_eq_some_iff.1 h
  refine ⟨e, List.mem_of_getElem? he, .inr ⟨c, ?_, rfl⟩⟩
  cases e with
  | column c' => exact congrArg Expr.column (Option.some.inj hc)
  | _ => cases hc

theorem regexFilter_single {f : Call} {d : Document} (h : regexFilter f = .ok d) :
    ∃ key fields, d = [(key, .document fields)] ∧ NamedBy f key := by
  unfold regexFilter at h
  split at h
  · next hc _ =>
    split at h
    · cases h
      exact ⟨_, _, rfl, namedBy_of_columnArg? hc⟩
    · cases h
      exact ⟨_, _, rfl, namedBy_of_columnArg? hc⟩
    · cases h
  · cases h

theorem regexMatch_single {e : Expr} {d : Document} (h : regexMatch e = .ok (some d)) :
    ∃ f key fields, regexCall? e = some f ∧ d = [(key, .document fields)] ∧ NamedBy f key := by
  unfold regexMatch at h
  split at h
  · next f hf =>
    obtain ⟨d', hd', e'⟩ := map_eq_ok.1 h
    cases e'
    obtain ⟨key, fields, hd, hn⟩ := regexFilter_single hd'
    exact ⟨f, key, fields, hf, hd, hn⟩
  · cases h

theorem dateFilter_single {e : Expr} {f : Call} {op : Comparison} {operand : Expr} {d : Document}
    (h : dateFilter e f op operand = .ok d) :
    ∃ key fields, d = [(key, .document fields)] ∧ NamedBy f key := by
  unfold dateFilter at h
  split at h
  · next hc _ =>
    split at h
    · obtain ⟨t, -, ht⟩ := bind_eq_ok.1 h
      cases ht
      exact ⟨_, _, rfl, namedBy_of_columnArg? hc⟩
    · cases h
  · cases h

theorem objectIdField_namedBy {f : Call} {field : String} (h : objectIdField f = .ok field) :
    NamedBy f field := by
  unfold objectIdField at h
  split at h
  · next hf =>
    cases h
    exact ⟨_, by rw [hf]; exact List.mem_singleton_self _, .inl rfl⟩
  · next c hf =>
    cases h
    exact ⟨_, by rw [hf]; exact List.mem_singleton_self _, .inr ⟨c, rfl, rfl⟩⟩
  · cases h

theorem objectIdOperand_document {e : Expr} {id : Value} (h : objectIdOperand e = .ok id) :
    ∃ fields, id = .document fields := by
  unfold objectIdOperand at h
  split at h
  · unfold objectIdValue at h
    split at h
    · cases h
      exact ⟨_, rfl⟩
    · cases h
  · cases h

theorem objectIdFilter_single {f : Call} {op : Comparison} {operand : Expr} {d : Document}
    (h : objectIdFilter f op operand = .ok d) :
    ∃ key fields, d = [(key, .document fields)] ∧ NamedBy f key := by
  unfold objectIdFilter at h
  obtain ⟨field, hf, h⟩ := bind_eq_ok.1 h
  obtain ⟨id, hi, h⟩ := bind_eq_ok.1 h
  obtain ⟨fields, rfl⟩ := objectIdOperand_document hi
  split at h
  · cases h
    exact ⟨_, _, rfl, objectIdField_namedBy hf⟩
  · cases h
    exact ⟨_, _, rfl, objectIdField_namedBy hf⟩
  · cases h

/-- Whether a call is one of the sides of a comparison, or what an `IN` test looks up. -/
def IsSide (f : Call) : Expr → Prop
  | .call name args => f = ⟨name, args⟩
  | .compare left _ right => left.call? = some f ∨ right.call? = some f
  | .inList operand _ _ => operand.call? = some f
  | _ => False

theorem call?_of_callOf? {name : String} {e : Expr} {f : Call} (h : callOf? name e = some f) :
    e.call? = some f :=
  (Option.filter_eq_some_iff.1 h).1

theorem isSide_of_regexCall? {e : Expr} {f : Call} (h : regexCall? e = some f) : IsSide f e := by
  unfold regexCall? at h
  split at h
  · exact (Option.some.inj (call?_of_callOf? h)).symm
  · exact .inl (call?_of_callOf? h)
  · exact .inr (call?_of_callOf? h)
  · cases h

theorem dateMatch_single {e : Expr} {d : Document} (h : dateMatch e = .ok (some d)) :
    ∃ f key fields, IsSide f e ∧ d = [(key, .document fields)] ∧ NamedBy f key := by
  cases e with
  | compare left op right =>
    rw [dateMatch] at h
    cases hl : callOf? "date" left with
    | some f =>
      rw [hl] at h
      obtain ⟨d', hd', e'⟩ := map_eq_ok.1 h
      cases e'
      obtain ⟨key, fields, hd, hn⟩ := dateFilter_single hd'
      exact ⟨f, key, fields, .inl (call?_of_callOf? hl), hd, hn⟩
    | none =>
      rw [hl] at h
      cases hr : callOf? "date" right with
      | some f =>
        rw [hr] at h
        obtain ⟨d', hd', e'⟩ := map_eq_ok.1 h
        cases e'
        obtain ⟨key, fields, hd, hn⟩ := dateFilter_single hd'
        exact ⟨f, key, fields, .inr (call?_of_callOf? hr), hd, hn⟩
      | none => simp [hr] at h
  | _ => cases h

theorem objectIdMatch_single {e : Expr} {d : Document} (h : objectIdMatch e = .ok (some d)) :
    ∃ f key fields, IsSide f e ∧ d = [(key, .document fields)] ∧ NamedBy f key := by
  cases e with
  | compare left op right =>
    rw [objectIdMatch] at h
    cases hl : callOf? "objectid" left with
    | some f =>
      rw [hl] at h
      obtain ⟨d', hd', e'⟩ := map_eq_ok.1 h
      cases e'
      obtain ⟨key, fields, hd, hn⟩ := objectIdFilter_single hd'
      exact ⟨f, key, fields, .inl (call?_of_callOf? hl), hd, hn⟩
    | none =>
      rw [hl] at h
      cases hr : callOf? "objectid" right with
      | some f =>
        rw [hr] at h
        obtain ⟨d', hd', e'⟩ := map_eq_ok.1 h
        cases e'
        obtain ⟨key, fields, hd, hn⟩ := objectIdFilter_single hd'
        exact ⟨f, key, fields, .inr (call?_of_callOf? hr), hd, hn⟩
      | none => simp [hr] at h
  | inList operand list negated =>
    rw [objectIdMatch] at h
    cases ho : callOf? "objectid" operand with
    | some f =>
      rw [ho] at h
      obtain ⟨field, hn, h⟩ := bind_eq_ok.1 h
      obtain ⟨ids, -, h⟩ := bind_eq_ok.1 h
      cases h
      exact ⟨f, _, _, call?_of_callOf? ho, rfl, objectIdField_namedBy hn⟩
    | none => simp [ho] at h
  | _ => cases h

/-- A special function gives a document with one field, which an argument names. -/
theorem specialMatch_single {e : Expr} {d : Document} (h : specialMatch e = .ok (some d)) :
    ∃ f key fields, IsSide f e ∧ d = [(key, .document fields)] ∧ NamedBy f key := by
  unfold specialMatch at h
  obtain ⟨found, hr, h⟩ := bind_eq_ok.1 h
  cases found with
  | some d' =>
    cases h
    obtain ⟨f, key, fields, hf, hd, hn⟩ := regexMatch_single hr
    exact ⟨f, key, fields, isSide_of_regexCall? hf, hd, hn⟩
  | none =>
    obtain ⟨found, hd, h⟩ := bind_eq_ok.1 h
    cases found with
    | some d' =>
      cases h
      exact dateMatch_single hd
    | none => exact objectIdMatch_single h

/-! ## Conditions -/

theorem comparisonValue_single (c : Column) (op : Comparison) (value : Value) :
    comparisonValue c op value = .single c.path value ∨
      ∃ fields, comparisonValue c op value = .single c.path (.document fields) := by
  unfold comparisonValue
  split
  · exact .inl rfl
  · exact .inr ⟨_, rfl⟩

theorem likeFilter_single {operand pattern : Expr} {negated : Bool} {v : Value}
    (h : likeFilter operand pattern negated = .ok v) :
    ∃ c fields, operand = .column c ∧ v = .single c.path (.document fields) := by
  unfold likeFilter at h
  split at h
  · cases h
  · split at h
    · cases h
      exact ⟨_, _, rfl, rfl⟩
    · cases h
      exact ⟨_, _, rfl, rfl⟩
    · cases h
    · cases h

/-- The ways in which a comparison compiles: as a special function, as an aggregation expression, or
as a test of the field on one side. -/
theorem valueOf_compare_ok {s : Settings} {role : Role} {left right : Expr} {op : Comparison}
    {v : Value} (h : valueOf s role (.compare left op right) = .ok v) :
    (∃ d, specialMatch (.compare left op right) = .ok (some d) ∧ v = .document d) ∨
      (∃ fields, v = .single "$expr" (.document fields)) ∨
      (∃ c op' w, left = .column c ∧ valueOf s (.comparand left) right = .ok w ∧
        v = comparisonValue c op' w) ∨
      ∃ c op' w, right = .column c ∧ valueOf s (.comparand right) left = .ok w ∧
        v = comparisonValue c op' w := by
  obtain ⟨special, hs, h⟩ := bind_eq_ok.1 h
  cases special with
  | some d => exact .inl ⟨d, hs, (Except.ok.inj h).symm⟩
  | none =>
    dsimp only at h
    split at h
    · obtain ⟨u, -, h⟩ := bind_eq_ok.1 h
      obtain ⟨w, -, h⟩ := bind_eq_ok.1 h
      exact .inr (.inl ⟨_, (Except.ok.inj h).symm⟩)
    · cases hl : left.column? with
      | some c =>
        rw [hl] at h
        obtain ⟨w, hw, h⟩ := bind_eq_ok.1 h
        refine .inr (.inr (.inl ⟨c, op, w, ?_, hw, (Except.ok.inj h).symm⟩))
        cases left <;> cases hl
        rfl
      | none =>
        rw [hl] at h
        cases hr : right.column? with
        | some c =>
          rw [hr] at h
          obtain ⟨w, hw, h⟩ := bind_eq_ok.1 h
          refine .inr (.inr (.inr ⟨c, op.swap, w, ?_, hw, (Except.ok.inj h).symm⟩))
          cases right <;> cases hr
          rfl
        | none =>
          rw [hr] at h
          cases h

/-- The ways in which a call compiles: as a special condition, or with its arguments. -/
theorem valueOf_call_ok {s : Settings} {role : Role} {name : String} {args : List Expr} {v : Value}
    (h : valueOf s role (.call name args) = .ok v) :
    (∃ d, regexMatch (.call name args) = .ok (some d) ∧ v = .document d) ∨
      ∃ values, argumentValues s ⟨name, args⟩ args = .ok values ∧ v = callValue name values := by
  have hcall : argumentValues s ⟨name, args⟩ args >>= (fun values => .ok (callValue name values)) =
      .ok v → ∃ values, argumentValues s ⟨name, args⟩ args = .ok values ∧
        v = callValue name values := by
    intro h
    obtain ⟨values, hv, h⟩ := bind_eq_ok.1 h
    exact ⟨values, hv, (Except.ok.inj h).symm⟩
  cases role with
  | condition =>
    obtain ⟨special, hs, h⟩ := bind_eq_ok.1 h
    cases special with
    | some d => exact .inl ⟨d, hs, (Except.ok.inj h).symm⟩
    | none => exact .inr (hcall h)
  | comparand other =>
    exact .inr (hcall h)
  | operand other =>
    exact .inr (hcall h)
  | argument f =>
    exact .inr (hcall h)

/-- The ways in which an `IN` test compiles. -/
theorem valueOf_inList_ok {s : Settings} {role : Role} {operand : Expr} {list : List Expr}
    {negated : Bool} {v : Value} (h : valueOf s role (.inList operand list negated) = .ok v) :
    (∃ d, objectIdMatch (.inList operand list negated) = .ok (some d) ∧ v = .document d) ∨
      ∃ key fields, key ∈ ["$fin", "$fnin", "$expr"] ∧ v = .single key (.document fields) := by
  rw [valueOf] at h
  split at h
  · cases h
  · obtain ⟨found, hm, h⟩ := bind_eq_ok.1 h
    cases found with
    | some d => exact .inl ⟨d, hm, (Except.ok.inj h).symm⟩
    | none =>
      right
      obtain ⟨values, -, h⟩ := bind_eq_ok.1 h
      split at h
      · obtain ⟨args, -, h⟩ := bind_eq_ok.1 h
        cases h
        exact ⟨_, _, by cases negated <;> simp, rfl⟩
      · cases h
        exact ⟨_, _, by simp, rfl⟩
      · cases h
        exact ⟨_, _, by simp, rfl⟩
      · cases h

/-- A negation tests the field that is named by the text of what is negated. -/
theorem valueOf_not_ok {s : Settings} {role : Role} {inner : Expr} {v : Value}
    (h : valueOf s role (.not inner) = .ok v) :
    v = .single inner.render (.single "$ne" (.bool true)) := by
  cases role with
  | condition =>
    exact (Except.ok.inj h).symm
  | comparand other => cases h
  | operand other => cases h
  | argument f =>
    exact (Except.ok.inj h).symm

/-- **What an expression compiles to has exactly one field**, unless it is a literal or a column in
another role than that of a condition. Only parentheses hand on the document of another expression;
all other forms build their own. -/
theorem valueOf_single (s : Settings) : ∀ {role : Role} {e : Expr} {v : Value},
    valueOf s role e = .ok v → (role = .condition ∨ (∀ x, e ≠ .literal x) ∧ ∀ c, e ≠ .column c) →
    ∃ key value, v = .single key value
  | role, .literal x, v, h, hr => by
    obtain rfl | ⟨hx, -⟩ := hr
    · cases h
    · exact absurd rfl (hx x)
  | role, .column c, v, h, hr => by
    obtain rfl | ⟨-, hc⟩ := hr
    · exact ⟨_, _, (Except.ok.inj h).symm⟩
    · exact absurd rfl (hc c)
  | role, .wildcard, v, h, hr => by cases role <;> cases h
  | role, .subquery statement, v, h, hr => by cases h
  | role, .call name args, v, h, hr => by
    obtain ⟨d, hd, rfl⟩ | ⟨values, -, rfl⟩ := valueOf_call_ok h
    · obtain ⟨f, key, fields, -, rfl, -⟩ := regexMatch_single hd
      exact ⟨key, _, rfl⟩
    · exact ⟨_, _, rfl⟩
  | role, .compare left op right, v, h, hr => by
    obtain ⟨d, hd, rfl⟩ | ⟨fields, rfl⟩ | ⟨c, op', w, -, -, rfl⟩ | ⟨c, op', w, -, -, rfl⟩ :=
      valueOf_compare_ok h
    · obtain ⟨f, key, fields, -, rfl, -⟩ := specialMatch_single hd
      exact ⟨key, _, rfl⟩
    · exact ⟨_, _, rfl⟩
    · obtain hv | ⟨fields, hv⟩ := comparisonValue_single c op' w <;> exact ⟨_, _, hv⟩
    · obtain hv | ⟨fields, hv⟩ := comparisonValue_single c op' w <;> exact ⟨_, _, hv⟩
  | role, .like operand pattern negated, v, h, hr => by
    obtain ⟨c, fields, -, rfl⟩ := likeFilter_single h
    exact ⟨_, _, rfl⟩
  | role, .isNull operand negated, v, h, hr => by
    exact ⟨_, _, (Except.ok.inj h).symm⟩
  | role, .inList operand list negated, v, h, hr => by
    obtain ⟨d, hd, rfl⟩ | ⟨key, fields, -, rfl⟩ := valueOf_inList_ok h
    · obtain ⟨f, key, fields, -, rfl, -⟩ := objectIdMatch_single hd
      exact ⟨key, _, rfl⟩
    · exact ⟨_, _, rfl⟩
  | role, .logic op left right, v, h, hr => by
    obtain ⟨chain, -, h⟩ := bind_eq_ok.1 h
    cases chain with
    | some values =>
      cases h
      exact ⟨_, _, rfl⟩
    | none =>
      obtain ⟨u, -, h⟩ := bind_eq_ok.1 h
      obtain ⟨w, -, h⟩ := bind_eq_ok.1 h
      cases h
      exact ⟨_, _, rfl⟩
  | role, .parens inner negated, v, h, hr => by
    obtain ⟨u, hu, h⟩ := bind_eq_ok.1 h
    cases negated with
    | true =>
      cases h
      exact ⟨_, _, rfl⟩
    | false =>
      cases h
      exact valueOf_single s hu (.inl rfl)
  | role, .not inner, v, h, hr => ⟨_, _, valueOf_not_ok h⟩

theorem valueOf_condition_single (s : Settings) {e : Expr} {v : Value}
    (h : valueOf s .condition e = .ok v) : ∃ key value, v = .single key value :=
  valueOf_single s h (.inl rfl)

/-- **A filter that comes from a condition has exactly one field.** -/
theorem ofExpr_single {s : Settings} {e : Expr} {d : Document} (h : ofExpr s e = .ok d) :
    ∃ key value, d = [(key, value)] := by
  unfold ofExpr at h
  obtain ⟨v, hv, h⟩ := bind_eq_ok.1 h
  obtain ⟨key, value, rfl⟩ := valueOf_condition_single s hv
  cases h
  exact ⟨key, value, rfl⟩

/-- The filter of a condition is the document that it compiles to. -/
theorem ofExpr_eq_ok {s : Settings} {e : Expr} {d : Document} :
    ofExpr s e = .ok d ↔ valueOf s .condition e = .ok (.document d) := by
  unfold ofExpr
  rw [bind_eq_ok]
  constructor
  · rintro ⟨v, hv, h⟩
    obtain ⟨key, value, rfl⟩ := valueOf_condition_single s hv
    cases h
    exact hv
  · intro h
    exact ⟨_, h, rfl⟩

end DocQuery.Filter
