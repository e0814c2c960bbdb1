import DocQuery.Proofs.Plan.References
import DocQuery.Proofs.Syntax.Parts

/-!
# The meaning of the condition of a join

The condition of a join is put together from tests by connectives, parentheses and negations. It
compiles exactly when the operands of its tests do, since nothing else can be refused (`isOk_term`).
The aggregation expression that it compiles to opens the chains of each connective into one array
(`termWith_logic`), which does not change its truth: `term_meaning` compares it with the truth of
the condition.
-/

namespace DocQuery

open Syntax

/-! ## Conditions -/

namespace Syntax

/-- The truth of two conditions under a connective. -/
def Connective.apply : Connective → Bool → Bool → Bool
  | .and, a, b => a && b
  | .or, a, b => a || b

/-- The truth of a chain of conditions under a connective. -/
def Connective.combine (op : Connective) (truths : List Bool) : Bool :=
  match op with
  | .and => truths.all id
  | .or => truths.any id

theorem Connective.combine_singleton (op : Connective) (a : Bool) : op.combine [a] = a := by
  cases op <;> simp [combine]

theorem Connective.combine_append (op : Connective) (as bs : List Bool) :
    op.combine (as ++ bs) = op.apply (op.combine as) (op.combine bs) := by
  cases op <;> simp [combine, apply]

namespace Expr

/-- A condition that is put together from comparisons, tests for `NULL` and `IN` tests. -/
inductive IsCondition : Expr → Prop where
  /-- A comparison. -/
  | compare (left : Expr) (op : Comparison) (right : Expr) : IsCondition (.compare left op right)
  /-- A test for `NULL`. -/
  | isNull (operand : Expr) (negated : Bool) : IsCondition (.isNull operand negated)
  /-- An `IN` test. -/
  | inList (operand : Expr) (list : List Expr) (negated : Bool) :
    IsCondition (.inList operand list negated)
  /-- Two conditions under a connective. -/
  | logic (op : Connective) {left right : Expr} (hl : IsCondition left) (hr : IsCondition right) :
    IsCondition (.logic op left right)
  /-- A condition in parentheses. -/
  | parens {inner : Expr} (h : IsCondition inner) (negated : Bool) :
    IsCondition (.parens inner negated)
  /-- A negated condition. -/
  | not {inner : Expr} (h : IsCondition inner) : IsCondition (.not inner)

/-- The tests that a condition is put together from, left to right. -/
def tests : Expr → List Expr
  | .logic _ left right => left.tests ++ right.tests
  | .parens inner _ => inner.tests
  | .not inner => inner.tests
  | e => [e]

/-- The truth of a condition, given that of its tests. `NOT IN` is the negation of `IN`. -/
def isTrue (test : Expr → Bool) : Expr → Bool
  | .logic op left right => op.apply (left.isTrue test) (right.isTrue test)
  | .parens inner negated => inner.isTrue test ^^ negated
  | .not inner => !inner.isTrue test
  | .inList operand list negated => test (.inList operand list false) ^^ negated
  | e => test e

/-- The conditions that a chain of one connective joins, left to right. -/
def chain (op : Connective) : Expr → List Expr
  | .logic op' left right =>
    if op' = op then left.chain op ++ right.chain op else [.logic op' left right]
  | e => [e]

theorem chain_logic (op : Connective) (left right : Expr) :
    (Expr.logic op left right).chain op = left.chain op ++ right.chain op :=
  if_pos rfl

theorem chain_of_connective? {op : Connective} {e : Expr} (h : e.connective? ≠ some op) :
    e.chain op = [e] := by
  cases e with
  | logic op' left right => exact if_neg fun ho => h (congrArg some ho)
  | _ => rfl

/-- A chain goes on as long as the connective does. -/
theorem connective?_of_mem_chain {op : Connective} {e operand : Expr} (h : operand ∈ e.chain op) :
    operand.connective? ≠ some op := by
  cases e with
  | logic op' left right =>
    by_cases ho : op' = op
    · subst ho
      rw [chain_logic, List.mem_append] at h
      exact h.elim connective?_of_mem_chain connective?_of_mem_chain
    · have hne : (Expr.logic op' left right).connective? ≠ some op := fun heq =>
        ho (Option.some.inj heq)
      rw [chain_of_connective? hne, List.mem_singleton] at h
      rwa [h]
  | _ =>
    rw [List.mem_singleton.1 h]
    intro heq
    cases heq

end Expr

end Syntax

/-! ## Aggregation expressions -/

namespace Value

mutual

/-- The truth value of an aggregation expression, given those of what is no connective. A negation
has one operand. -/
def exprTruth (assign : Value → Bool) : Value → Bool
  | .document [(key, .array operands)] =>
    if key = "$and" then allExprs assign operands
    else if key = "$or" then anyExpr assign operands
    else if key = "$not" then !allExprs assign operands
    else assign (.document [(key, .array operands)])
  | v => assign v

/-- Whether all of several aggregation expressions are true. -/
def allExprs (assign : Value → Bool) : List Value → Bool
  | [] => true
  | v :: vs => exprTruth assign v && allExprs assign vs

/-- Whether one of several aggregation expressions is true. -/
def anyExpr (assign : Value → Bool) : List Value → Bool
  | [] => false
  | v :: vs => exprTruth assign v || anyExpr assign vs

end

variable (assign : Value → Bool)

theorem allExprs_eq_all (vs : List Value) : allExprs assign vs = vs.all (exprTruth assign) := by
  induction vs with
  | nil => rfl
  | cons v vs ih => rw [allExprs, ih, List.all_cons]

theorem anyExpr_eq_any (vs : List Value) : anyExpr assign vs = vs.any (exprTruth assign) := by
  induction vs with
  | nil => rfl
  | cons v vs ih => rw [anyExpr, ih, List.any_cons]

theorem exprTruth_connective (op : Connective) (vs : List Value) :
    exprTruth assign (.single (Filter.connectiveKey op) (.array vs)) =
      op.combine (vs.map (exprTruth assign)) := by
  cases op with
  | and => simp [single, Filter.connectiveKey, exprTruth, allExprs_eq_all, Connective.combine]
  | or => simp [single, Filter.connectiveKey, exprTruth, anyExpr_eq_any, Connective.combine]

theorem exprTruth_negateIf (negated : Bool) (v : Value) :
    exprTruth assign (Plan.negateIf negated v) = (exprTruth assign v ^^ negated) := by
  cases negated with
  | true => simp [Plan.negateIf, single, exprTruth, allExprs]
  | false => simp [Plan.negateIf]

/-- An expression under another operator has the truth value that is assigned to it. -/
theorem exprTruth_single {key : String} (h : key ∉ ["$and", "$or", "$not"]) (vs : List Value) :
    exprTruth assign (.single key (.array vs)) = assign (.single key (.array vs)) := by
  simp only [List.mem_cons, List.not_mem_nil, or_false, not_or] at h
  simp [single, exprTruth, h]

end Value

namespace Plan

variable {joined : String} {vars vars₁ : Variables} {e : Expr}

/-! ## Success -/

section Success

variable {α β : Type} {x : Binding α} {b c : Bool}

theorem isOk_bind {f : α → Binding β} (hx : ∀ vars, (x vars).isOk = b)
    (hf : ∀ a vars, (f a vars).isOk = c) (vars : Variables) :
    ((x >>= f) vars).isOk = (b && c) := by
  change (x vars >>= fun p => f p.1 p.2).isOk = _
  have hok := hx vars
  cases hv : x vars with
  | error error =>
    rw [hv] at hok
    rw [← hok]
    rfl
  | ok p =>
    rw [hv] at hok
    rw [← hok]
    exact hf p.1 p.2

theorem isOk_map (hx : ∀ vars, (x vars).isOk = b) (f : α → β) (vars : Variables) :
    ((do return f (← x) : Binding β) vars).isOk = b := by
  rw [isOk_bind hx (fun _ _ => rfl : ∀ a vars, ((pure (f a) : Binding β) vars).isOk = true),
    Bool.and_true]

end Success

mutual

/-- Whether an expression can stand in a place of the condition of a join: a literal is no
condition, and `LIKE`, the wildcard and subqueries stand nowhere. -/
def Place.admits : Place → Expr → Bool
  | .condition, .literal _ => false
  | .operand, .literal _ => true
  | _, .column _ => true
  | _, .call _ args => admitsAll args
  | _, .compare left _ right => Place.operand.admits left && Place.operand.admits right
  | _, .isNull operand _ => Place.operand.admits operand
  | _, .inList operand list _ => admitsAll list && Place.operand.admits operand
  | _, .logic _ left right => Place.condition.admits left && Place.condition.admits right
  | _, .parens inner _ => Place.condition.admits inner
  | _, .not inner => Place.condition.admits inner
  | _, .like _ _ _ | _, .wildcard | _, .subquery _ => false

/-- Whether several expressions can stand as operands. -/
def admitsAll : List Expr → Bool
  | [] => true
  | e :: es => Place.operand.admits e && admitsAll es

end

theorem admitsAll_eq_all (es : List Expr) : admitsAll es = es.all Place.operand.admits := by
  induction es with
  | nil => rfl
  | cons e es ih => rw [admitsAll, ih, List.all_cons]

mutual

/-- **What can stand in the condition of a join compiles**, whatever the variables are, and nothing
else does. -/
theorem isOk_term : ∀ (place : Place) (e : Expr) (vars : Variables),
    (term joined place e vars).isOk = place.admits e
  | .condition, .literal value => fun vars => rfl
  | .operand, .literal value => fun vars => rfl
  | place, .column c => fun vars => by
    rw [term, columnTerm_eq]
    cases place <;> rfl
  | place, .call name args => by
    rw [term, Place.admits]
    exact isOk_map (isOk_terms args) _
  | place, .compare left op right => by
    rw [term, Place.admits]
    exact isOk_bind (isOk_term .operand left) fun u => isOk_map (isOk_term .operand right) _
  | place, .isNull operand negated => by
    rw [term, Place.admits]
    exact isOk_map (isOk_term .operand operand) _
  | place, .inList operand list negated => by
    rw [term, Place.admits]
    exact isOk_bind (isOk_terms list) fun values => isOk_map (isOk_term .operand operand) _
  | place, .logic op left right => by
    rw [term, Place.admits]
    exact isOk_bind (isOk_term .condition left) fun u => isOk_map (isOk_term .condition right) _
  | place, .parens inner negated => by
    rw [term, Place.admits]
    exact isOk_map (isOk_term .condition inner) _
  | place, .not inner => by
    rw [term, Place.admits]
    exact isOk_map (isOk_term .condition inner) _
  | place, .like _ _ _ | place, .wildcard | place, .subquery _ => fun vars => by
    cases place <;> rfl

theorem isOk_terms : ∀ (es : List Expr) (vars : Variables),
    (terms joined es vars).isOk = admitsAll es
  | [] => fun vars => rfl
  | e :: es => by
    rw [terms, admitsAll]
    exact isOk_bind (isOk_term .operand e) fun u => isOk_map (isOk_terms es) _

end

/-- A condition can stand in a join exactly if all operands of its tests can. -/
theorem admits_condition (h : e.IsCondition) :
    Place.condition.admits e = e.tests.all fun test => test.parts.all Place.operand.admits := by
  induction h with
  | compare left op right => simp [Place.admits, Expr.tests, Expr.parts]
  | isNull operand negated => simp [Place.admits, Expr.tests, Expr.parts]
  | inList operand list negated =>
    simp [Place.admits, Expr.tests, Expr.parts, admitsAll_eq_all, Bool.and_comm]
  | logic op hl hr ihl ihr => rw [Place.admits, ihl, ihr, Expr.tests, List.all_append]
  | parens h negated ih => rw [Place.admits, ih, Expr.tests]
  | not h ih => rw [Place.admits, ih, Expr.tests]

/-! ## Meaning -/

section Meaning

variable (column : Column → Value) (assign : Value → Bool)

/-- What a side adds to the array of a connective are the conditions of its chain. -/
theorem chained_termWith (op : Connective) (e : Expr) :
    chained op e (termWith column e) = (e.chain op).map (termWith column) := by
  cases e with
  | logic op' left right =>
    by_cases ho : op' = op
    · subst ho
      rw [termWith, chained_logic, Expr.chain_logic, List.map_append, chained_termWith op' left,
        chained_termWith op' right]
    · have hne : (Expr.logic op' left right).connective? ≠ some op := fun heq =>
        ho (Option.some.inj heq)
      rw [chained_of_connective? hne, Expr.chain_of_connective? hne, List.map_singleton]
  | _ => rfl

/-- **A chain of one connective becomes one array**, with the conditions in order. -/
theorem termWith_logic (op : Connective) (left right : Expr) :
    termWith column (.logic op left right) = .single (Filter.connectiveKey op)
      (.array (((Expr.logic op left right).chain op).map (termWith column))) := by
  rw [termWith, chained_termWith, chained_termWith, Expr.chain_logic, List.map_append]

/-- A condition has the truth value of the chain that it is. -/
theorem combine_chain (op : Connective) (e : Expr) :
    op.combine (((e.chain op).map (termWith column)).map (Value.exprTruth assign)) =
      Value.exprTruth assign (termWith column e) := by
  by_cases ho : e.connective? = some op
  · cases e with
    | logic op' left right =>
      cases ho
      rw [termWith_logic, Value.exprTruth_connective]
    | _ => cases ho
  · rw [Expr.chain_of_connective? ho, List.map_singleton, List.map_singleton,
      Connective.combine_singleton]

theorem operator_notMem (op : Comparison) : op.operator ∉ ["$and", "$or", "$not"] := by
  cases op <;> decide

/-- Opening chains keeps the truth value of a condition. -/
theorem exprTruth_termWith {e : Expr} (h : e.IsCondition) :
    Value.exprTruth assign (termWith column e) =
      e.isTrue fun test => assign (termWith column test) := by
  induction h with
  | compare left op right => exact Value.exprTruth_single assign (operator_notMem op) _
  | isNull operand negated =>
    have hkey : (if negated then "$ne" else "$eq") ∉ ["$and", "$or", "$not"] := by
      cases negated <;> decide
    exact Value.exprTruth_single assign hkey _
  | inList operand list negated =>
    have hkey : "$in" ∉ ["$and", "$or", "$not"] := by decide
    rw [termWith, Value.exprTruth_negateIf, Value.exprTruth_single assign hkey]
    rfl
  | @logic op left right hl hr ihl ihr =>
    rw [termWith_logic, Value.exprTruth_connective, Expr.chain_logic, List.map_append,
      List.map_append, Connective.combine_append, combine_chain, combine_chain, ihl, ihr]
    rfl
  | parens h negated ih => rw [termWith, Value.exprTruth_negateIf, ih, Expr.isTrue]
  | not h ih => rw [termWith, Value.exprTruth_negateIf, ih, Expr.isTrue, Bool.xor_true]

end Meaning

/-- **The condition of a join means what it says.** It compiles exactly when the operands of its
tests do. Whatever truth values are assigned to the expressions of the tests, the expression of the
condition then has the truth value of the condition. In it, and in every part of it, a chain of one
connective is one array, with the conditions in order. -/
theorem term_meaning (joined : String) (vars : Variables) {e : Expr} (h : e.IsCondition) :
    ((term joined .condition e vars).isOk = true ↔
      ∀ test ∈ e.tests, ∀ operand ∈ test.parts, (term joined .operand operand vars).isOk = true) ∧
    ∀ v vars₁, term joined .condition e vars = .ok (v, vars₁) →
      v = termWith (boundTerm joined vars₁) e ∧
      (∀ assign, v.exprTruth assign =
        e.isTrue fun test => assign (termWith (boundTerm joined vars₁) test)) ∧
      ∀ op left right, termWith (boundTerm joined vars₁) (.logic op left right) =
          .single (Filter.connectiveKey op) (.array
            (((Expr.logic op left right).chain op).map (termWith (boundTerm joined vars₁)))) ∧
        ∀ operand ∈ (Expr.logic op left right).chain op, operand.connective? ≠ some op := by
  refine ⟨?_, fun v vars₁ hterm => ?_⟩
  · simp only [isOk_term, admits_condition h, List.all_eq_true]
  · have hv := (binds_term hterm).result vars₁ (List.prefix_refl _)
    refine ⟨hv, fun assign => ?_, fun op left right =>
      ⟨termWith_logic _ op left right, fun operand => Expr.connective?_of_mem_chain⟩⟩
    rw [hv, exprTruth_termWith _ assign h]

/-- A chain with negated parentheses around `NOT IN` and `IS NOT NULL`. -/
theorem term_meaning_mixed : ∃ e v, e.IsCondition ∧
    term "o" .condition e [] = .ok (v, [("a", "$a"), ("b", "$b")]) ∧
    ∀ assign, v.exprTruth assign =
      (assign (.single "$eq" (.array [.string "$x", .string "$$a"])) &&
        !(!assign (.single "$in" (.array [.string "$y", .array [.int 1, .string "$$b"]])) ||
          assign (.single "$ne" (.array [.string "$$a", .null]))) &&
        assign (.single "$lt" (.array [.string "$z", .string "$$b"]))) := by
  have hcondition : (Expr.logic .and
      (.logic .and (.compare (.column ⟨some "o", "x"⟩) .equal (.column ⟨none, "a"⟩))
        (.parens (.logic .or
          (.inList (.column ⟨some "o", "y"⟩) [.literal (.int 1), .column ⟨none, "b"⟩] true)
          (.isNull (.column ⟨none, "a"⟩) true)) true))
      (.compare (.column ⟨some "o", "z"⟩) .less (.column ⟨none, "b"⟩))).IsCondition :=
    .logic _ (.logic _ (.compare _ _ _) (.parens (.logic _ (.inList _ _ _) (.isNull _ _)) _))
      (.compare _ _ _)
  obtain ⟨-, hmeaning⟩ := term_meaning "o" [] hcondition
  obtain ⟨-, htruth, -⟩ := hmeaning _ [("a", "$a"), ("b", "$b")] rfl
  refine ⟨_, _, hcondition, rfl, fun assign => ?_⟩
  rw [htruth assign]
  simp only [Expr.isTrue, Connective.apply, Bool.xor_true]
  rfl

end Plan

end DocQuery
