import DocQuery.Proofs.Filter.Parts

/-!
# What declared types change in a filter

The declared types of fields guide how literals are stored and nothing else. Two values are
`SameButLiterals` if they differ only in places where both hold the same literal, made a value of
two types. Under any two settings an expression fails with the same error or compiles to two such
values (`valueOf_agree`), and the same goes for the filter of a condition (`ofExpr_agree`).
-/

namespace DocQuery.Filter

open Syntax

/-- Two values that differ only in the types that their literals are made values of. -/
inductive SameButLiterals : Value → Value → Prop where
  /-- A value has no other literals than itself. -/
  | refl (v : Value) : SameButLiterals v v
  /-- A literal is made a value of two types. -/
  | literal (type type' : FieldType) (x : Literal) :
    SameButLiterals (coerce type x) (coerce type' x)
  /-- Arrays of the same length. -/
  | array {vs ws : List Value} (h : List.Forall₂ SameButLiterals vs ws) :
    SameButLiterals (.array vs) (.array ws)
  /-- Documents with the same keys in the same order. -/
  | document {fields fields' : List (String × Value)}
    (keys : fields.map Prod.fst = fields'.map Prod.fst)
    (values : List.Forall₂ SameButLiterals (fields.map Prod.snd) (fields'.map Prod.snd)) :
    SameButLiterals (.document fields) (.document fields')

namespace SameButLiterals

theorem single (key : String) {v w : Value} (h : SameButLiterals v w) :
    SameButLiterals (.single key v) (.single key w) :=
  .document rfl (.cons h .nil)

theorem pair {u u' v v' : Value} (hu : SameButLiterals u u') (hv : SameButLiterals v v') :
    SameButLiterals (.array [u, v]) (.array [u', v']) :=
  .array (.cons hu (.cons hv .nil))

theorem callValue (name : String) {args args' : List Value}
    (h : List.Forall₂ SameButLiterals args args') :
    SameButLiterals (callValue name args) (callValue name args') := by
  refine single _ ?_
  -- A single argument stands alone.
  cases h with
  | nil => exact .refl _
  | cons ha hs =>
    cases hs with
    | nil => exact ha
    | cons hb hs => exact .array (.cons ha (.cons hb hs))

theorem comparisonValue (c : Column) (op : Comparison) {v w : Value} (h : SameButLiterals v w) :
    SameButLiterals (comparisonValue c op v) (comparisonValue c op w) := by
  cases op with
  | equal => exact single _ h
  | notEqual | less | lessEqual | greater | greaterEqual => exact single _ (single _ h)

end SameButLiterals

/-! ## Expressions -/

variable (s t : Settings)

theorem literalBeside_same (other : Expr) (x : Literal) :
    SameButLiterals (literalBeside s other x) (literalBeside t other x) := by
  unfold literalBeside
  split
  · exact .literal _ _ x
  · exact .literal _ _ x

theorem literalValue_agree (role : Role) (x : Literal) :
    Agree SameButLiterals (literalValue s role x) (literalValue t role x) := by
  cases role with
  | condition => exact .error _
  | comparand other => exact .ok (literalBeside_same s t other x)
  | operand other => exact .ok (literalBeside_same s t other x)
  | argument f => exact .ok (.refl _)

/-- One step down a chain agrees if what it is made of does. -/
theorem chainStep_agree (op : Connective) (left right : Expr)
    {below below' : Unit → Result (Option (List Value))}
    {leftValue leftValue' rightValue rightValue' : Unit → Result Value}
    (hb : Agree (Option.Rel (List.Forall₂ SameButLiterals)) (below ()) (below' ()))
    (hl : Agree SameButLiterals (leftValue ()) (leftValue' ()))
    (hr : Agree SameButLiterals (rightValue ()) (rightValue' ())) :
    Agree (Option.Rel (List.Forall₂ SameButLiterals))
      (chainStep op left right below leftValue rightValue)
      (chainStep op left right below' leftValue' rightValue') := by
  unfold chainStep
  split
  · exact .ok .none
  · split
    · refine hr.bind fun v w _ _ hvw => hb.bind fun vs ws _ _ hvs => .ok ?_
      cases hvs with
      | none => exact .none
      | some hvs => exact .some (.cons hvw hvs)
    · exact .ok .none
  · refine hr.bind fun v w _ _ hvw => hl.bind fun u u' _ _ hu => .ok (.some ?_)
    exact .cons hvw (.cons hu .nil)

/-! ### One form of expression after the other -/

section

variable {s t} {role : Role}

theorem call_agree {name : String} {args : List Expr}
    (h : ∀ e ∈ args, ∀ role, Agree SameButLiterals (valueOf s role e) (valueOf t role e)) :
    Agree SameButLiterals (valueOf s role (.call name args)) (valueOf t role (.call name args)) := by
  have hcall : Agree SameButLiterals
      (argumentValues s ⟨name, args⟩ args >>= fun values => .ok (callValue name values))
      (argumentValues t ⟨name, args⟩ args >>= fun values => .ok (callValue name values)) := by
    rw [argumentValues_eq_mapM, argumentValues_eq_mapM]
    exact (Agree.mapM fun e he => h e he _).bind fun _ _ _ _ hargs => .ok (.callValue name hargs)
  cases role with
  | condition =>
    refine Agree.bind_same (regexMatch (.call name args)) fun special _ => ?_
    cases special with
    | some d => exact .ok (.refl _)
    | none => exact hcall
  | comparand | operand | argument => exact hcall

theorem compare_agree {left right : Expr} {op : Comparison}
    (hl : ∀ role, Agree SameButLiterals (valueOf s role left) (valueOf t role left))
    (hr : ∀ role, Agree SameButLiterals (valueOf s role right) (valueOf t role right)) :
    Agree SameButLiterals (valueOf s role (.compare left op right))
      (valueOf t role (.compare left op right)) := by
  rw [valueOf, valueOf]
  refine Agree.bind_same _ fun special _ => ?_
  cases special with
  | some d => exact .ok (.refl _)
  | none =>
    dsimp only
    split
    · refine (hl _).bind fun u u' _ _ hu => (hr _).bind fun v v' _ _ hv => .ok ?_
      exact .single _ (.single _ (.pair hu hv))
    · split
      · exact (hr _).bind fun v v' _ _ hv => .ok (.comparisonValue _ op hv)
      · exact (hl _).bind fun u u' _ _ hu => .ok (.comparisonValue _ op.swap hu)
      · exact .error _

/-- Where a call compiles to the same but for literals, the values of its arguments do. -/
theorem argumentValues_agree {name : String} {args : List Expr}
    (h : ∀ role,
      Agree SameButLiterals (valueOf s role (.call name args)) (valueOf t role (.call name args))) :
    Agree (fun vs ws => SameButLiterals (callValue name vs) (callValue name ws))
      (argumentValues s ⟨name, args⟩ args) (argumentValues t ⟨name, args⟩ args) := by
  have hcall : Agree SameButLiterals
      (argumentValues s ⟨name, args⟩ args >>= fun values => .ok (callValue name values))
      (argumentValues t ⟨name, args⟩ args >>= fun values => .ok (callValue name values)) :=
    h (.argument ⟨name, args⟩)
  exact hcall.of_bind_ok

theorem inList_agree {operand : Expr} {list : List Expr} {negated : Bool}
    (h : ∀ e ∈ operand :: list, ∀ role,
      Agree SameButLiterals (valueOf s role e) (valueOf t role e)) :
    Agree SameButLiterals (valueOf s role (.inList operand list negated))
      (valueOf t role (.inList operand list negated)) := by
  obtain ⟨hoperand, hlist⟩ := List.forall_mem_cons.1 h
  rw [valueOf, valueOf]
  split
  · exact .error _
  · refine Agree.bind_same _ fun found _ => ?_
    cases found with
    | some d => exact .ok (.refl _)
    | none =>
      simp only [listValues_eq_mapM]
      refine (Agree.mapM fun e he => hlist e he _).bind fun vs ws _ _ hvs => ?_
      cases operand with
      | call name args =>
        refine (argumentValues_agree hoperand).bind fun us us' _ _ hus => .ok ?_
        exact .single _ (.document rfl (.cons hus (.cons (.array hvs) .nil)))
      | column c => exact .ok (.single _ (.single _ (.pair (.refl _) (.array hvs))))
      | literal x => exact .ok (.single _ (.single _ (.pair (.refl _) (.array hvs))))
      | _ => exact .error _

theorem logic_agree {left right : Expr} {op : Connective}
    (hl : ∀ role, Agree SameButLiterals (valueOf s role left) (valueOf t role left))
    (hr : ∀ role, Agree SameButLiterals (valueOf s role right) (valueOf t role right))
    (hc : Agree (Option.Rel (List.Forall₂ SameButLiterals)) (chainValues s op left)
      (chainValues t op left)) :
    Agree SameButLiterals (valueOf s role (.logic op left right))
      (valueOf t role (.logic op left right)) := by
  rw [valueOf, valueOf]
  refine (chainStep_agree op left right hc (hl _) (hr _)).bind fun chain chain' _ _ hchain => ?_
  cases hchain with
  | some hvs => exact .ok (.single _ (.array (List.rel_reverse hvs)))
  | none =>
    exact (hl _).bind fun u u' _ _ hu => (hr _).bind fun v v' _ _ hv =>
      .ok (.single _ (.pair hu hv))

theorem parens_agree {inner : Expr} {negated : Bool}
    (h : ∀ role, Agree SameButLiterals (valueOf s role inner) (valueOf t role inner)) :
    Agree SameButLiterals (valueOf s role (.parens inner negated))
      (valueOf t role (.parens inner negated)) := by
  rw [valueOf, valueOf]
  refine (h _).bind fun v w _ _ hvw => .ok ?_
  cases negated with
  | true => exact .single _ (.array (.cons hvw .nil))
  | false => exact hvw

end

theorem valueOf_chainValues_agree (e : Expr) :
    (∀ role, Agree SameButLiterals (valueOf s role e) (valueOf t role e)) ∧
      ∀ op, Agree (Option.Rel (List.Forall₂ SameButLiterals)) (chainValues s op e)
        (chainValues t op e) := by
  induction e using Expr.induction_parts with
  | step e ih =>
    have hvalue : ∀ part ∈ e.parts, ∀ role,
        Agree SameButLiterals (valueOf s role part) (valueOf t role part) :=
      fun part hp => (ih part hp).1
    cases e with
    | literal x => exact ⟨fun role => literalValue_agree s t role x, fun op => .ok .none⟩
    | column c => exact ⟨fun role => .ok (.refl _), fun op => .ok .none⟩
    | wildcard =>
      refine ⟨fun role => ?_, fun op => .ok .none⟩
      cases role <;> exact .error _
    | subquery statement => exact ⟨fun role => .error _, fun op => .ok .none⟩
    | call name args => exact ⟨fun role => call_agree hvalue, fun op => .ok .none⟩
    | compare left op right =>
      exact ⟨fun role => compare_agree (hvalue left List.mem_cons_self)
        (hvalue right (List.mem_cons_of_mem _ (List.mem_singleton_self _))), fun op => .ok .none⟩
    | like operand pattern negated => exact ⟨fun role => .refl .refl _, fun op => .ok .none⟩
    | isNull operand negated => exact ⟨fun role => .ok (.refl _), fun op => .ok .none⟩
    | inList operand list negated =>
      exact ⟨fun role => inList_agree hvalue, fun op => .ok .none⟩
    | logic op left right =>
      obtain ⟨hl, hchain⟩ := ih left List.mem_cons_self
      have hr := hvalue right (List.mem_cons_of_mem _ (List.mem_singleton_self _))
      refine ⟨fun role => logic_agree hl hr (hchain op), fun op' => ?_⟩
      rw [chainValues, chainValues]
      split
      · exact chainStep_agree op' left right (hchain op') (hl _) (hr _)
      · exact .ok .none
    | parens inner negated =>
      exact ⟨fun role => parens_agree (hvalue inner (List.mem_singleton_self _)),
        fun op => .ok .none⟩
    | not inner =>
      refine ⟨fun role => ?_, fun op => .ok .none⟩
      cases role with
      | condition | argument => exact .ok (.refl _)
      | comparand | operand => exact .error _

/-- **Under any two settings an expression fails with the same error or compiles to values that
differ in literals only.** -/
theorem valueOf_agree (role : Role) (e : Expr) :
    Agree SameButLiterals (valueOf s role e) (valueOf t role e) :=
  (valueOf_chainValues_agree s t e).1 role

/-! ## Filters -/

/-- Two filters that differ in literals only, and of which both or none are empty. -/
structure SameFilters (d d' : Document) : Prop where
  isEmpty : d.isEmpty = d'.isEmpty
  same : SameButLiterals (.document d) (.document d')

theorem SameFilters.refl (d : Document) : SameFilters d d := ⟨rfl, .refl _⟩

/-- Under any two settings a condition fails with the same error or compiles to filters that differ
in literals only. -/
theorem ofExpr_agree (e : Expr) : Agree SameFilters (ofExpr s e) (ofExpr t e) := by
  unfold ofExpr
  refine (valueOf_agree s t .condition e).bind fun v w hv hw h => ?_
  -- Both values are documents with one field, so neither is refused for being a plain value.
  obtain ⟨key, value, rfl⟩ := valueOf_condition_single s hv
  obtain ⟨key', value', rfl⟩ := valueOf_condition_single t hw
  exact .ok ⟨rfl, h⟩

end DocQuery.Filter
