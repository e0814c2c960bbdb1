import DocQuery.Proofs.Filter.Negation
import DocQuery.Proofs.Filter.Parts
import DocQuery.Proofs.Plan.Level

/-!
# Unsupported expressions

A subquery or a negated `LIKE` that is compiled with the condition of a statement makes the statement
fail (`compile_unsupported`), at any depth of the condition and at any level of the statement. What
`NOT` is put to is not compiled: it gives the name of a field by its text, so it may hold anything
(`compile_unsupported_negated`).
-/

namespace DocQuery

open Syntax Plan

/-! ## The base alias -/

namespace Syntax.Expr

variable (f : Column → Column)

theorem isUnsupported_mapColumns (e : Expr) : (e.mapColumns f).isUnsupported = e.isUnsupported := by
  cases e <;> simp [mapColumns, transform, column?, isUnsupported]

theorem call?_mapColumns (e : Expr) :
    (e.mapColumns f).call? = e.call?.map fun g => ⟨g.name, g.args.map (mapColumns f)⟩ := by
  cases e <;> simp [mapColumns, transform, column?, call?, transformList_eq_map]

end Syntax.Expr

namespace Filter

variable (f : Column → Column)

theorem callOf?_mapColumns (name : String) (e : Expr) :
    callOf? name (e.mapColumns f) =
      (callOf? name e).map fun g => ⟨g.name, g.args.map (Expr.mapColumns f)⟩ := by
  unfold callOf?
  rw [Expr.call?_mapColumns]
  cases e.call? with
  | none => rfl
  | some g => cases h : Text.sameIgnoringCase g.name name <;> simp [Option.filter, h]

theorem sideParts_mapColumns (e : Expr) :
    sideParts (e.mapColumns f) = (sideParts e).map (Expr.mapColumns f) := by
  unfold sideParts
  rw [callOf?_mapColumns]
  cases callOf? "date" e with
  | none => rfl
  | some g => exact List.map_take.symm

/-- Replacing columns replaces them in the compiled parts. -/
theorem compiledParts_mapColumns (e : Expr) :
    compiledParts (e.mapColumns f) = (compiledParts e).map (Expr.mapColumns f) := by
  cases e with
  | compare left op right =>
    have hmap : (Expr.compare left op right).mapColumns f =
        .compare (left.mapColumns f) op (right.mapColumns f) := by
      simp [Expr.mapColumns, Expr.transform, Expr.column?]
    rw [hmap, compiledParts, compiledParts, sideParts_mapColumns, sideParts_mapColumns,
      List.map_append]
  | isNull operand negated => simp [Expr.mapColumns, Expr.transform, Expr.column?, compiledParts]
  | not inner => simp [Expr.mapColumns, Expr.transform, Expr.column?, compiledParts]
  | _ =>
    simp [Expr.mapColumns, Expr.transform, Expr.column?, compiledParts, Expr.parts,
      Expr.transformList_eq_map]

theorem Reaches.mapColumns {e part : Expr} (h : Reaches e part) :
    Reaches (e.mapColumns f) (part.mapColumns f) := by
  induction h with
  | refl => exact .refl
  | tail _ hp ih =>
    refine ih.tail ?_
    rw [compiledParts_mapColumns]
    exact List.mem_map_of_mem hp

end Filter

/-! ## Conditions that are split -/

variable {s : Settings}

theorem Translated.compiles {e : Option Expr} {d : Option Document} (h : Translated s e d) :
    ∀ w ∈ e, ∃ v, Filter.valueOf s .condition w = .ok v := by
  cases h with
  | none =>
    intro w hw
    cases hw
  | some h =>
    rintro w ⟨⟩
    exact ⟨_, Filter.ofExpr_eq_ok.1 h⟩

namespace Plan

/-- A chain of `AND` compiles exactly when all conditions that it joins do. -/
theorem valueOf_conjuncts_ok_iff : ∀ {e : Expr}, (∃ v, Filter.valueOf s .condition e = .ok v) ↔
    ∀ part ∈ conjuncts e, ∃ v, Filter.valueOf s .condition part = .ok v
  | .logic .and left right => by
    rw [Filter.valueOf_logic_ok_iff, valueOf_conjuncts_ok_iff, valueOf_conjuncts_ok_iff, conjuncts,
      List.forall_mem_append]
  | .logic .or _ _ | .literal _ | .column _ | .call _ _ | .wildcard | .compare _ _ _ | .like _ _ _
  | .isNull _ _ | .inList _ _ _ | .parens _ _ | .not _ | .subquery _ => by simp [conjuncts]

/-- Conditions that are joined again compile exactly when each of them does. -/
theorem valueOf_conjoin_ok_iff {es : List Expr} {e : Expr} (h : conjoin es = some e) :
    (∃ v, Filter.valueOf s .condition e = .ok v) ↔
      ∀ part ∈ es, ∃ v, Filter.valueOf s .condition part = .ok v := by
  cases es with
  | nil => cases h
  | cons first es =>
    cases h
    induction es generalizing first with
    | nil => simp
    | cons second es ih =>
      rw [List.foldl_cons, ih, List.forall_mem_cons, List.forall_mem_cons, List.forall_mem_cons,
        Filter.valueOf_logic_ok_iff, and_assoc]

/-- A condition compiles if its two parts do. -/
theorem splitCondition_compiles {joined : List String} {w : Expr}
    (hp : ∀ e ∈ (splitCondition joined w).pushed, ∃ v, Filter.valueOf s .condition e = .ok v)
    (hr : ∀ e ∈ (splitCondition joined w).residual, ∃ v, Filter.valueOf s .condition e = .ok v) :
    ∃ v, Filter.valueOf s .condition w = .ok v := by
  have hpart : ∀ {es : List Expr},
      (∀ e ∈ conjoin es, ∃ v, Filter.valueOf s .condition e = .ok v) →
      ∀ part ∈ es, ∃ v, Filter.valueOf s .condition part = .ok v := by
    intro es hes
    cases es with
    | nil => exact fun part hm => absurd hm List.not_mem_nil
    | cons first es => exact (valueOf_conjoin_ok_iff rfl).1 (hes _ rfl)
  unfold splitCondition at hp hr
  split at hp
  · next ho =>
    rw [if_pos ho] at hr
    exact hr w rfl
  · next ho =>
    rw [if_neg ho] at hr
    refine valueOf_conjuncts_ok_iff.2 fun part hm => ?_
    -- A conjunct is in one of the two parts.
    cases hj : readsJoined joined part with
    | true => exact hpart hr part (List.mem_filter.2 ⟨hm, hj⟩)
    | false => exact hpart hp part (List.mem_filter.2 ⟨hm, by rw [hj]; rfl⟩)

end Plan

/-- The condition of a level is compiled as a whole or in two parts. -/
theorem LevelOf.condition_compiles {query : Select} {l : Level} (h : LevelOf s query l) {w : Expr}
    (hw : query.rowCondition = some w) : ∃ v, Filter.valueOf s .condition w = .ok v := by
  by_cases hj : query.joins = []
  · exact (h.rows.whole hj).1.compiles w hw
  · obtain ⟨joined, -, hp, hr⟩ := h.rows.split hj
    rw [hw] at hp hr
    exact splitCondition_compiles hp.compiles hr.compiles

/-! ## Statements -/

/-- The conditions on rows of a statement: that of a `DELETE` statement, or those of all levels of a
`SELECT` statement. -/
def Syntax.Statement.conditions : Statement → List Expr
  | .select query => query.levels.filterMap (·.condition)
  | .delete _ _ condition => condition.toList

/-- All conditions of a statement that compiles do so, without the base alias. -/
theorem compileStatement_conditions {statement : Statement} {q : Query}
    (h : compileStatement s statement = .ok q) {e : Expr} (he : e ∈ statement.conditions) :
    ∃ base v, Filter.valueOf s .condition (Model.stripExpr base e) = .ok v := by
  cases statement with
  | select query =>
    rw [compileStatement] at h
    obtain ⟨blocks, hblocks, -⟩ := compileSelect_levels h
    obtain ⟨level, hlevel, hcondition⟩ := List.mem_filterMap.1 he
    obtain ⟨l, hl⟩ := exists_of_forall₂ hblocks level hlevel
    exact ⟨_, hl.condition_compiles (congrArg (Option.map _) hcondition)⟩
  | delete table aliasName condition =>
    obtain ⟨-, -, hf⟩ := compileDelete_ok h
    cases Option.mem_toList.1 he
    exact ⟨_, _, Filter.ofExpr_eq_ok.1 hf⟩

/-- **A subquery or a negated `LIKE` that is compiled with a condition makes its statement fail**, at
any depth of the condition and at any level of the statement. What `NOT` is put to is not compiled
with the condition, and any expression may stand there. -/
theorem compile_unsupported (s : Settings) :
    (∀ {text : String} {statement : Statement} {e part : Expr},
      parseStatement text = .ok statement → e ∈ statement.conditions → Filter.Reaches e part →
        part.isUnsupported = true → ∃ error, compile s text = .error error) ∧
    ∀ inner : Expr, Filter.ofExpr s (.not inner) =
      .ok [(inner.render, .single "$ne" (.bool true))] := by
  refine ⟨?_, Filter.ofExpr_not s⟩
  intro text statement e part h he hr hu
  cases hc : compile s text with
  | error error => exact ⟨error, rfl⟩
  | ok c =>
    obtain ⟨hp, hq, -⟩ := compile_ok hc
    cases h.symm.trans hp
    obtain ⟨base, v, hv⟩ := compileStatement_conditions hq he
    have hcompiles : Filter.Compiles s (Model.stripExpr base e) := ⟨_, v, hv⟩
    have hsupported := (hcompiles.reached (hr.mapColumns _)).supported
    rw [Expr.isUnsupported_mapColumns, hu] at hsupported
    cases hsupported

/-- Whether a statement has a subquery in an argument of a call in the list of an `IN` test, in
parentheses. -/
def Syntax.Statement.nestsSubquery : Statement → Bool
  | .delete _ _ (some (.logic _ _ (.parens (.inList _ [_, .call _ [.subquery _]] _) _))) => true
  | _ => false

/-- A subquery in an argument of a call in the list of an `IN` test, under a negated parenthesis. -/
theorem compile_unsupported_nested : ∃ statement e part,
    parseStatement "DELETE FROM t WHERE b = 1 OR NOT (a IN (1, f((SELECT c FROM u))))" =
      .ok statement ∧ e ∈ statement.conditions ∧ Filter.Reaches e part ∧
    part.isUnsupported = true ∧ ∃ error,
      compile {} "DELETE FROM t WHERE b = 1 OR NOT (a IN (1, f((SELECT c FROM u))))" =
        .error error := by
  obtain ⟨statement, hp, hs⟩ := exists_parseStatement
    "DELETE FROM t WHERE b = 1 OR NOT (a IN (1, f((SELECT c FROM u))))"
    Statement.nestsSubquery true (by decide +kernel)
  unfold Statement.nestsSubquery at hs
  split at hs
  · next op left a one name query negated negated' =>
    have hr : Filter.Reaches (.logic op left
        (.parens (.inList a [one, .call name [.subquery query]] negated) negated'))
        (.subquery query) :=
      .head (List.mem_cons_of_mem left (List.mem_singleton_self _)) <|
        .head (List.mem_singleton_self _) <|
        .head (List.mem_cons_of_mem a (List.mem_cons_of_mem one (List.mem_singleton_self _))) <|
        .single (List.mem_singleton_self _)
    exact ⟨_, _, _, hp, List.mem_singleton_self _, hr, rfl,
      (compile_unsupported {}).1 hp (List.mem_singleton_self _) hr rfl⟩
  · cases hs

/-- Whether an expression is a negated `LIKE` under a `NOT`. -/
def Syntax.Expr.isNegatedLikeNegated : Expr → Bool
  | .not (.like _ _ negated) => negated
  | _ => false

/-- A negated `LIKE` under a `NOT` compiles. -/
theorem compile_unsupported_negated : ∃ c query e part,
    compile {} "SELECT a FROM t WHERE NOT a NOT LIKE 'x'" = .ok c ∧
    c.statement = .select query ∧ query.condition = some e ∧ e.Contains part ∧
    part.isUnsupported = true := by
  obtain ⟨c, query, hc, hs, he⟩ := exists_compile_select {}
    "SELECT a FROM t WHERE NOT a NOT LIKE 'x'"
    (fun query _ => query.condition.any Expr.isNegatedLikeNegated) true (by decide +kernel)
  obtain ⟨e, hcondition, he⟩ := (Option.any_eq_true _ _).1 he
  unfold Expr.isNegatedLikeNegated at he
  split at he
  · next operand pattern negated =>
    exact ⟨c, query, _, .like operand pattern negated, hc, hs, hcondition,
      .single (List.mem_singleton_self _), he⟩
  · cases he

end DocQuery
