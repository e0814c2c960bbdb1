import DocQuery.Proofs.Syntax.Parts
import Mathlib.Data.List.Forall2

/-!
# Expressions with other columns

`mapColumns` replaces the columns of an expression and leaves all else as it is. `Renamed` says so
form by form, and `renamed_mapColumns` that it is what happens. In particular the columns are replaced
in order (`columns_mapColumns`), subqueries stay the same (`subqueries_mapColumns`), and an expression
whose columns are replaced by themselves is the same expression (`mapColumns_eq_self`).
-/

namespace DocQuery.Syntax.Expr

/-- Two expressions that differ in their columns only, where those of the second are what `f` makes
of those of the first. -/
inductive Renamed (f : Column → Column) : Expr → Expr → Prop where
  | literal (value : Literal) : Renamed f (.literal value) (.literal value)
  | column (c : Column) : Renamed f (.column c) (.column (f c))
  | call (name : String) {args args' : List Expr} (h : List.Forall₂ (Renamed f) args args') :
    Renamed f (.call name args) (.call name args')
  | wildcard : Renamed f .wildcard .wildcard
  | compare (op : Comparison) {left left' right right' : Expr} (hl : Renamed f left left')
    (hr : Renamed f right right') : Renamed f (.compare left op right) (.compare left' op right')
  | like (negated : Bool) {operand operand' pattern pattern' : Expr}
    (ho : Renamed f operand operand') (hp : Renamed f pattern pattern') :
    Renamed f (.like operand pattern negated) (.like operand' pattern' negated)
  | isNull (negated : Bool) {operand operand' : Expr} (h : Renamed f operand operand') :
    Renamed f (.isNull operand negated) (.isNull operand' negated)
  | inList (negated : Bool) {operand operand' : Expr} {list list' : List Expr}
    (ho : Renamed f operand operand') (hl : List.Forall₂ (Renamed f) list list') :
    Renamed f (.inList operand list negated) (.inList operand' list' negated)
  | logic (op : Connective) {left left' right right' : Expr} (hl : Renamed f left left')
    (hr : Renamed f right right') : Renamed f (.logic op left right) (.logic op left' right')
  | parens (negated : Bool) {inner inner' : Expr} (h : Renamed f inner inner') :
    Renamed f (.parens inner negated) (.parens inner' negated)
  | not {inner inner' : Expr} (h : Renamed f inner inner') : Renamed f (.not inner) (.not inner')
  | subquery (statement : Statement) : Renamed f (.subquery statement) (.subquery statement)

/-- Whether an expression is a subquery. -/
def isSubquery : Expr → Bool
  | .subquery _ => true
  | _ => false

/-- The subqueries of an expression, left to right. -/
def subqueries (e : Expr) : List Expr := e.outermost isSubquery

variable {f : Column → Column} {e : Expr}

/-! ## Form by form -/

theorem mapColumns_call (name : String) (args : List Expr) :
    (Expr.call name args).mapColumns f = .call name (args.map (mapColumns f)) :=
  congrArg (Expr.call name) (transformList_eq_map _ args)

theorem mapColumns_inList (operand : Expr) (list : List Expr) (negated : Bool) :
    (Expr.inList operand list negated).mapColumns f =
      .inList (operand.mapColumns f) (list.map (mapColumns f)) negated :=
  congrArg (Expr.inList (operand.mapColumns f) · negated) (transformList_eq_map _ list)

theorem forall₂_renamed {es : List Expr} (h : ∀ e ∈ es, Renamed f e (e.mapColumns f)) :
    List.Forall₂ (Renamed f) es (es.map (mapColumns f)) := by
  rw [List.forall₂_map_right_iff, List.forall₂_same]
  exact h

/-- **Replacing columns leaves all else as it is.** -/
theorem renamed_mapColumns (f : Column → Column) (e : Expr) : Renamed f e (e.mapColumns f) := by
  induction e using induction_parts with
  | step e ih =>
    cases e with
    | literal value => exact .literal value
    | column c => exact .column c
    | call name args =>
      rw [mapColumns_call]
      exact .call name (forall₂_renamed ih)
    | wildcard => exact .wildcard
    | compare left op right =>
      exact .compare op (ih left List.mem_cons_self)
        (ih right (List.mem_cons_of_mem _ List.mem_cons_self))
    | like operand pattern negated =>
      exact .like negated (ih operand List.mem_cons_self)
        (ih pattern (List.mem_cons_of_mem _ List.mem_cons_self))
    | isNull operand negated => exact .isNull negated (ih operand List.mem_cons_self)
    | inList operand list negated =>
      rw [mapColumns_inList]
      exact .inList negated (ih operand List.mem_cons_self)
        (forall₂_renamed fun e he => ih e (List.mem_cons_of_mem _ he))
    | logic op left right =>
      exact .logic op (ih left List.mem_cons_self)
        (ih right (List.mem_cons_of_mem _ List.mem_cons_self))
    | parens inner negated => exact .parens negated (ih inner List.mem_cons_self)
    | not inner => exact .not (ih inner List.mem_cons_self)
    | subquery statement => exact .subquery statement

/-! ## By parts -/

theorem column?_mapColumns (e : Expr) : (e.mapColumns f).column? = e.column?.map f := by
  cases e <;> rfl

theorem parts_mapColumns (e : Expr) : (e.mapColumns f).parts = e.parts.map (mapColumns f) := by
  cases hc : e.column? with
  | none => exact parts_transform (by rw [hc, Option.map_none])
  | some c =>
    have hc' : (e.mapColumns f).column? = some (f c) := by
      rw [column?_mapColumns, hc, Option.map_some]
    rw [parts_of_column? hc, parts_of_column? hc', List.map_nil]

theorem connective?_mapColumns (e : Expr) : (e.mapColumns f).connective? = e.connective? := by
  cases e <;> rfl

theorem isSubquery_mapColumns (e : Expr) : (e.mapColumns f).isSubquery = e.isSubquery := by
  cases e <;> rfl

theorem mapColumns_of_isSubquery (h : e.isSubquery = true) : e.mapColumns f = e := by
  cases e with
  | subquery statement => rfl
  | _ => cases h

/-- **The columns are replaced in order.** -/
theorem columns_mapColumns (e : Expr) : (e.mapColumns f).columns = e.columns.map f := by
  induction e using induction_parts with
  | step e ih =>
    rw [columns_eq, columns_eq e, column?_mapColumns, parts_mapColumns, List.map_append,
      Option.toList_map, List.flatMap_map, List.map_flatMap]
    exact congrArg _ (List.flatMap_congr ih)

theorem containsOr_mapColumns (e : Expr) : (e.mapColumns f).containsOr = e.containsOr := by
  induction e using induction_parts with
  | step e ih =>
    rw [containsOr_eq, containsOr_eq e, connective?_mapColumns, parts_mapColumns, List.any_map]
    refine congrArg _ ?_
    rw [Bool.eq_iff_iff, List.any_eq_true, List.any_eq_true]
    exact exists_congr fun part => and_congr_right fun hp => by rw [Function.comp_apply, ih part hp]

/-- **Subqueries are not entered.** -/
theorem subqueries_mapColumns (e : Expr) : (e.mapColumns f).subqueries = e.subqueries := by
  unfold subqueries
  induction e using induction_parts with
  | step e ih =>
    cases hs : e.isSubquery with
    | true => rw [mapColumns_of_isSubquery hs]
    | false =>
      have hs' : (e.mapColumns f).isSubquery = false := by rw [isSubquery_mapColumns, hs]
      rw [outermost_of_not_wanted hs, outermost_of_not_wanted hs', parts_mapColumns,
        List.flatMap_map]
      exact List.flatMap_congr ih

/-- **An expression stays the same when each of its columns does.** -/
theorem mapColumns_eq_self (h : ∀ c ∈ e.columns, f c = c) : e.mapColumns f = e := by
  induction e using induction_parts with
  | step e ih =>
    have hparts : ∀ part ∈ e.parts, part.mapColumns f = part := by
      intro part hp
      refine ih part hp fun c hc => h c ?_
      rw [columns_eq]
      exact List.mem_append_right _ (List.mem_flatMap.2 ⟨part, hp, hc⟩)
    have hlist : ∀ {es : List Expr}, es ⊆ e.parts → es.map (mapColumns f) = es := fun hes =>
      (List.map_congr_left fun part hp => hparts part (hes hp)).trans (List.map_id _)
    cases e with
    | literal | wildcard | subquery => rfl
    | column c => exact congrArg Expr.column (h c List.mem_cons_self)
    | call name args => rw [mapColumns_call, hlist (List.Subset.refl args)]
    | inList operand list negated =>
      rw [mapColumns_inList, hparts operand List.mem_cons_self, hlist (List.subset_cons_self _ _)]
    | compare left op right =>
      exact congrArg₂ (Expr.compare · op ·) (hparts left List.mem_cons_self)
        (hparts right (List.mem_cons_of_mem _ List.mem_cons_self))
    | like operand pattern negated =>
      exact congrArg₂ (Expr.like · · negated) (hparts operand List.mem_cons_self)
        (hparts pattern (List.mem_cons_of_mem _ List.mem_cons_self))
    | logic op left right =>
      exact congrArg₂ (Expr.logic op) (hparts left List.mem_cons_self)
        (hparts right (List.mem_cons_of_mem _ List.mem_cons_self))
    | isNull operand negated => exact congrArg (Expr.isNull · negated) (hparts _ List.mem_cons_self)
    | parens inner negated => exact congrArg (Expr.parens · negated) (hparts _ List.mem_cons_self)
    | not inner => exact congrArg Expr.not (hparts _ List.mem_cons_self)

end DocQuery.Syntax.Expr
