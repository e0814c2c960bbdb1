import DocQuery.Proofs.Filter.Forms
import DocQuery.Proofs.Syntax.Parts

/-!
# How the compilation of a condition fails

Compiling an expression fails only for the reasons of `CompileError.concernsExpr`
(`valueOf_failsOnly`): something in the expression has no counterpart in the document store. That a
condition compiles to a value which is no document is none of them, so it does not happen, and the
filter of a condition is the document with one field that the condition compiles to
(`ofExpr_one_field`).
-/

namespace DocQuery

open Syntax

/-! ## Failures -/

section

variable {ε α β : Type}

/-- Whether a computation fails only with errors of the given kind. -/
def FailsOnly (kind : ε → Prop) (x : Except ε α) : Prop := ∀ e, x = .error e → kind e

namespace FailsOnly

variable {kind : ε → Prop}

theorem ok (a : α) : FailsOnly kind (.ok a) := by
  intro e h
  cases h

theorem error {e : ε} (h : kind e) : FailsOnly kind (.error e : Except ε α) := by
  rintro _ ⟨⟩
  exact h

theorem bind {x : Except ε α} {f : α → Except ε β} (hx : FailsOnly kind x)
    (hf : ∀ a, FailsOnly kind (f a)) : FailsOnly kind (x >>= f) := by
  cases x with
  | error e => exact .error (hx e rfl)
  | ok a => exact hf a

theorem of_bind {x : Except ε α} {f : α → Except ε β} (h : FailsOnly kind (x >>= f)) :
    FailsOnly kind x := by
  rintro e rfl
  exact h e rfl

theorem map {x : Except ε α} (hx : FailsOnly kind x) (f : α → β) : FailsOnly kind (x.map f) :=
  hx.bind fun a => .ok (f a)

theorem mapM {f : α → Except ε β} {l : List α} (hf : ∀ a ∈ l, FailsOnly kind (f a)) :
    FailsOnly kind (l.mapM f) := by
  induction l with
  | nil => exact .ok []
  | cons a l ih =>
    obtain ⟨ha, hl⟩ := List.forall_mem_cons.1 hf
    rw [List.mapM_cons]
    exact ha.bind fun b => (ih hl).bind fun bs => .ok (b :: bs)

end FailsOnly

end

/-- The errors that say that an expression has no counterpart in the document store. -/
def CompileError.concernsExpr : CompileError → Bool
  | .listedSubquery _ | .nestedSubquery _ | .negatedLike | .objectIdComparison _
  | .comparisonWithoutField _ | .literalCondition _ | .strayWildcard | .negatedOperand _
  | .wildcardArgument _ | .likeOperand _ | .likePattern _ | .inOperand _ | .regexArguments _
  | .regexOptions _ | .dateArguments _ | .dateOperand _ | .dateText _ _ | .objectIdField _
  | .objectIdOperand _ | .objectIdText _ _ => true
  | _ => false

namespace Filter

/-! ## Special functions -/

/-- Whether a computation fails only because of an expression. -/
abbrev FailsOnExpr {α : Type} (x : Result α) : Prop :=
  FailsOnly (fun e => e.concernsExpr = true) x

theorem regexFilter_failsOnly (f : Call) : FailsOnExpr (regexFilter f) := by
  unfold regexFilter
  split
  · split
    · exact .ok _
    · exact .ok _
    · exact .error rfl
  · exact .error rfl

theorem regexMatch_failsOnly (e : Expr) : FailsOnExpr (regexMatch e) := by
  unfold regexMatch
  split
  · exact (regexFilter_failsOnly _).map _
  · exact .ok _

theorem dateFilter_failsOnly (e : Expr) (f : Call) (op : Comparison) (operand : Expr) :
    FailsOnExpr (dateFilter e f op operand) := by
  unfold dateFilter
  split
  · split
    · refine FailsOnly.bind ?_ fun t => .ok _
      unfold dateOfText
      split
      · exact .ok _
      · exact .error rfl
    · exact .error rfl
  · exact .error rfl

theorem dateMatch_failsOnly (e : Expr) : FailsOnExpr (dateMatch e) := by
  unfold dateMatch
  split
  · split
    · exact (dateFilter_failsOnly _ _ _ _).map _
    · exact (dateFilter_failsOnly _ _ _ _).map _
    · exact .ok _
  · exact .ok _

theorem objectIdField_failsOnly (f : Call) : FailsOnExpr (objectIdField f) := by
  unfold objectIdField
  split
  · exact .ok _
  · exact .ok _
  · exact .error rfl

theorem objectIdOperand_failsOnly (e : Expr) : FailsOnExpr (objectIdOperand e) := by
  unfold objectIdOperand
  split
  · unfold objectIdValue
    split
    · exact .ok _
    · exact .error rfl
  · exact .error rfl

theorem objectIdFilter_failsOnly (f : Call) (op : Comparison) (operand : Expr) :
    FailsOnExpr (objectIdFilter f op operand) := by
  unfold objectIdFilter
  refine (objectIdField_failsOnly f).bind fun field => ?_
  refine (objectIdOperand_failsOnly operand).bind fun id => ?_
  split
  · exact .ok _
  · exact .ok _
  · exact .error rfl

theorem objectIdMatch_failsOnly (e : Expr) : FailsOnExpr (objectIdMatch e) := by
  unfold objectIdMatch
  split
  · split
    · exact (objectIdFilter_failsOnly _ _ _).map _
    · exact (objectIdFilter_failsOnly _ _ _).map _
    · exact .ok _
  · split
    · exact (objectIdField_failsOnly _).bind fun field =>
        (FailsOnly.mapM fun e _ => objectIdOperand_failsOnly e).bind fun ids => .ok _
    · exact .ok _
  · exact .ok _

theorem specialMatch_failsOnly (e : Expr) : FailsOnExpr (specialMatch e) := by
  unfold specialMatch
  refine (regexMatch_failsOnly e).bind fun found => ?_
  cases found with
  | some filter => exact .ok _
  | none =>
    refine (dateMatch_failsOnly e).bind fun found => ?_
    cases found with
    | some filter => exact .ok _
    | none => exact objectIdMatch_failsOnly e

/-! ## Expressions -/

variable {s : Settings}

theorem likeFilter_failsOnly (operand pattern : Expr) (negated : Bool) :
    FailsOnExpr (likeFilter operand pattern negated) := by
  unfold likeFilter
  split
  · exact .error rfl
  · split
    · exact .ok _
    · exact .ok _
    · exact .error rfl
    · exact .error rfl

theorem chainStep_failsOnly (op : Connective) (left right : Expr)
    {below : Unit → Result (Option (List Value))} {leftValue rightValue : Unit → Result Value}
    (hb : FailsOnExpr (below ())) (hl : FailsOnExpr (leftValue ()))
    (hr : FailsOnExpr (rightValue ())) :
    FailsOnExpr (chainStep op left right below leftValue rightValue) := by
  unfold chainStep
  split
  · exact .ok _
  · split
    · exact hr.bind fun v => hb.bind fun vs => .ok _
    · exact .ok _
  · exact hr.bind fun v => hl.bind fun u => .ok _

theorem call_failsOnly {role : Role} {name : String} {args : List Expr}
    (h : ∀ e ∈ args, ∀ role, FailsOnExpr (valueOf s role e)) :
    FailsOnExpr (valueOf s role (.call name args)) := by
  have hcall : FailsOnExpr (argumentValues s ⟨name, args⟩ args >>= fun values =>
      .ok (callValue name values)) := by
    rw [argumentValues_eq_mapM]
    exact (FailsOnly.mapM fun e he => h e he _).bind fun values => .ok _
  cases role with
  | condition =>
    refine (regexMatch_failsOnly (.call name args)).bind fun special => ?_
    cases special with
    | some filter => exact .ok _
    | none => exact hcall
  | comparand | operand | argument => exact hcall

/-- Where a call compiles only with its arguments, it fails only with them. -/
theorem argumentValues_failsOnly {name : String} {args : List Expr}
    (h : ∀ role, FailsOnExpr (valueOf s role (.call name args))) :
    FailsOnExpr (argumentValues s ⟨name, args⟩ args) := by
  have hcall : FailsOnExpr (argumentValues s ⟨name, args⟩ args >>= fun values =>
      .ok (callValue name values)) := h (.argument ⟨name, args⟩)
  exact hcall.of_bind

theorem compare_failsOnly {role : Role} {left right : Expr} {op : Comparison}
    (hl : ∀ role, FailsOnExpr (valueOf s role left))
    (hr : ∀ role, FailsOnExpr (valueOf s role right)) :
    FailsOnExpr (valueOf s role (.compare left op right)) := by
  rw [valueOf]
  refine (specialMatch_failsOnly _).bind fun special => ?_
  cases special with
  | some filter => exact .ok _
  | none =>
    dsimp only
    split
    · exact (hl _).bind fun u => (hr _).bind fun v => .ok _
    · split
      · exact (hr _).bind fun v => .ok _
      · exact (hl _).bind fun v => .ok _
      · exact .error rfl

theorem inList_failsOnly {role : Role} {operand : Expr} {list : List Expr} {negated : Bool}
    (h : ∀ e ∈ operand :: list, ∀ role, FailsOnExpr (valueOf s role e)) :
    FailsOnExpr (valueOf s role (.inList operand list negated)) := by
  rw [valueOf]
  split
  · exact .error rfl
  · refine (objectIdMatch_failsOnly _).bind fun found => ?_
    cases found with
    | some filter => exact .ok _
    | none =>
      simp only [listValues_eq_mapM]
      refine (FailsOnly.mapM fun e he => h e (List.mem_cons_of_mem _ he) _).bind fun values => ?_
      cases operand with
      | call name args =>
        exact (argumentValues_failsOnly (h _ List.mem_cons_self)).bind fun values => .ok _
      | column c => exact .ok _
      | literal value => exact .ok _
      | _ => exact .error rfl

theorem logic_failsOnly {role : Role} {op : Connective} {left right : Expr}
    (hl : ∀ role, FailsOnExpr (valueOf s role left))
    (hr : ∀ role, FailsOnExpr (valueOf s role right))
    (hc : FailsOnExpr (chainValues s op left)) :
    FailsOnExpr (valueOf s role (.logic op left right)) := by
  rw [valueOf]
  refine (chainStep_failsOnly op left right hc (hl _) (hr _)).bind fun chain => ?_
  cases chain with
  | some values => exact .ok _
  | none => exact (hl _).bind fun u => (hr _).bind fun v => .ok _

theorem valueOf_chainValues_failsOnly (s : Settings) (e : Expr) :
    (∀ role, FailsOnExpr (valueOf s role e)) ∧ ∀ op, FailsOnExpr (chainValues s op e) := by
  induction e using Expr.induction_parts with
  | step e ih =>
    have hvalue : ∀ part ∈ e.parts, ∀ role, FailsOnExpr (valueOf s role part) :=
      fun part hp => (ih part hp).1
    cases e with
    | literal value =>
      refine ⟨fun role => ?_, fun op => .ok none⟩
      cases role with
      | condition => exact .error rfl
      | comparand | operand | argument => exact .ok _
    | column c => exact ⟨fun role => .ok _, fun op => .ok none⟩
    | wildcard =>
      refine ⟨fun role => ?_, fun op => .ok none⟩
      cases role <;> exact .error rfl
    | subquery statement => exact ⟨fun role => .error rfl, fun op => .ok none⟩
    | call name args => exact ⟨fun role => call_failsOnly hvalue, fun op => .ok none⟩
    | compare left op right =>
      exact ⟨fun role => compare_failsOnly (hvalue left List.mem_cons_self)
        (hvalue right (List.mem_cons_of_mem _ (List.mem_singleton_self _))), fun op => .ok none⟩
    | like operand pattern negated =>
      exact ⟨fun role => likeFilter_failsOnly _ _ _, fun op => .ok none⟩
    | isNull operand negated => exact ⟨fun role => .ok _, fun op => .ok none⟩
    | inList operand list negated =>
      exact ⟨fun role => inList_failsOnly hvalue, fun op => .ok none⟩
    | logic op left right =>
      obtain ⟨hl, hchain⟩ := ih left List.mem_cons_self
      have hr := hvalue right (List.mem_cons_of_mem _ (List.mem_singleton_self _))
      refine ⟨fun role => logic_failsOnly hl hr (hchain op), fun op' => ?_⟩
      rw [chainValues]
      split
      · exact chainStep_failsOnly op' left right (hchain op') (hl _) (hr _)
      · exact .ok none
    | parens inner negated =>
      refine ⟨fun role => ?_, fun op => .ok none⟩
      rw [valueOf]
      exact (hvalue inner (List.mem_singleton_self _) _).bind fun v => .ok _
    | not inner =>
      refine ⟨fun role => ?_, fun op => .ok none⟩
      cases role with
      | condition | argument => exact .ok _
      | comparand | operand => exact .error rfl

/-- **Compiling an expression fails only because of what stands in it.** -/
theorem valueOf_failsOnly (s : Settings) (role : Role) (e : Expr) :
    FailsOnExpr (valueOf s role e) :=
  (valueOf_chainValues_failsOnly s e).1 role

/-! ## Filters -/

/-- The filter of a condition is refused exactly when the condition does not compile. -/
theorem ofExpr_eq_error {s : Settings} {e : Expr} {err : CompileError} :
    ofExpr s e = .error err ↔ valueOf s .condition e = .error err := by
  unfold ofExpr
  cases h : valueOf s .condition e with
  | error err' =>
    constructor
    · rintro ⟨⟩
      rfl
    · rintro ⟨⟩
      rfl
  | ok v =>
    obtain ⟨key, value, rfl⟩ := valueOf_condition_single s h
    constructor
    · rintro ⟨⟩
    · rintro ⟨⟩

/-- **A condition compiles to a document with exactly one field, and that is its filter.** There is
no filter only if the condition does not compile, and never because it compiles to something else
than a document. -/
theorem ofExpr_one_field (s : Settings) (e : Expr) :
    (∀ v, valueOf s .condition e = .ok v →
      ∃ key value, v = .document [(key, value)] ∧ ofExpr s e = .ok [(key, value)]) ∧
    (∀ filter, ofExpr s e = .ok filter → filter.length = 1) ∧
    (∀ err, ofExpr s e = .error err → valueOf s .condition e = .error err) ∧
    ∀ e' v, ofExpr s e ≠ .error (.noFilter e' v) := by
  refine ⟨fun v hv => ?_, fun filter hf => ?_, fun err herr => ofExpr_eq_error.1 herr, ?_⟩
  · obtain ⟨key, value, rfl⟩ := valueOf_condition_single s hv
    exact ⟨key, value, rfl, ofExpr_eq_ok.2 hv⟩
  · obtain ⟨key, value, rfl⟩ := ofExpr_single hf
    rfl
  · intro e' v h
    have hexpr := valueOf_failsOnly s .condition e _ (ofExpr_eq_error.1 h)
    cases hexpr

/-- A special function in parentheses gives a filter with one field, and a literal gives none
because it does not compile. -/
theorem ofExpr_one_field_special :
    (∃ key value, ofExpr {} (.parens (.call "regexMatch" [.column ⟨none, "a"⟩,
        .literal (.string "x")]) false) = .ok [(key, value)]) ∧
    valueOf {} .condition (.literal (.int 1)) = .error (.literalCondition (.int 1)) ∧
    ofExpr {} (.literal (.int 1)) ≠ .error (.noFilter (.literal (.int 1)) (.int 1)) := by
  obtain ⟨hdocument, -, -, -⟩ := ofExpr_one_field {} (.parens (.call "regexMatch"
    [.column ⟨none, "a"⟩, .literal (.string "x")]) false)
  obtain ⟨-, -, herror, hfilter⟩ := ofExpr_one_field {} (.literal (.int 1))
  refine ⟨?_, herror _ rfl, hfilter _ _⟩
  obtain ⟨key, value, -, hf⟩ := hdocument _ rfl
  exact ⟨key, value, hf⟩

end Filter

end DocQuery
