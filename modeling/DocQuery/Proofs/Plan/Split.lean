import DocQuery.Plan.Join
import DocQuery.Proofs.Syntax.Within

/-!
# Splitting the condition on rows

A condition with joins is applied in two parts, before and after them. `splitCondition_splits` says
that nothing is lost or applied twice: the conditions that the `AND` of the tree joins are divided
by whether they read a joined collection, in their order, and both parts are true together exactly
when the whole is. A condition with an `OR` is not divided.

Subqueries are not entered: an `OR` inside one does not keep a condition from being divided
(`splitCondition_nested_or`).
-/

namespace DocQuery

open Syntax

namespace Plan

/-! ## Trees of `AND` -/

/-- A tree of `AND`, with the conditions that are its leaves from left to right. -/
inductive AndTree : Expr → List Expr → Prop where
  /-- Anything but an `AND` is a leaf. -/
  | leaf {e : Expr} (h : e.connective? ≠ some .and) : AndTree e [e]
  /-- An `AND` has the leaves of its two sides. -/
  | node {left right : Expr} {ls rs : List Expr} (hl : AndTree left ls) (hr : AndTree right rs) :
    AndTree (.logic .and left right) (ls ++ rs)

/-- Conditions that `AND` joins one after the other, so that it is grouped to the left. -/
inductive AndSpine : Expr → List Expr → Prop where
  /-- A single condition stands for itself. -/
  | single (e : Expr) : AndSpine e [e]
  /-- A further condition goes to the right. -/
  | snoc {e : Expr} {es : List Expr} (h : AndSpine e es) (last : Expr) :
    AndSpine (.logic .and e last) (es ++ [last])

/-- Conditions joined again, with nothing left if there are none. -/
inductive Recombined : Option Expr → List Expr → Prop where
  /-- No conditions. -/
  | none : Recombined none []
  /-- Some conditions. -/
  | some {e : Expr} {es : List Expr} (h : AndSpine e es) : Recombined (some e) es

/-- The truth of a tree of `AND`, given that of its leaves. -/
def conjunction (leaf : Expr → Bool) : Expr → Bool
  | .logic .and left right => conjunction leaf left && conjunction leaf right
  | e => leaf e

theorem andTree_conjuncts (e : Expr) : AndTree e (conjuncts e) := by
  cases e with
  | logic op left right =>
    cases op with
    | and => exact .node (andTree_conjuncts left) (andTree_conjuncts right)
    | or => exact .leaf (by simp [Expr.connective?])
  | _ => exact .leaf (by simp [Expr.connective?])

theorem andSpine_foldl {e : Expr} {es : List Expr} (h : AndSpine e es) (more : List Expr) :
    AndSpine (more.foldl (fun left right => .logic .and left right) e) (es ++ more) := by
  induction more generalizing e es with
  | nil => rwa [List.append_nil]
  | cons last more ih =>
    have hmore := ih (h.snoc last)
    rwa [List.append_assoc, List.singleton_append] at hmore

theorem recombined_conjoin (es : List Expr) : Recombined (conjoin es) es := by
  cases es with
  | nil => exact .none
  | cons e es => exact .some (andSpine_foldl (.single e) es)

/-! ## Truth -/

variable {leaf : Expr → Bool}

theorem AndTree.conjunction_eq {e : Expr} {es : List Expr} (h : AndTree e es) :
    conjunction leaf e = es.all (conjunction leaf) := by
  induction h with
  | leaf h => rw [List.all_cons, List.all_nil, Bool.and_true]
  | node hl hr ihl ihr => rw [conjunction, ihl, ihr, List.all_append]

theorem AndSpine.conjunction_eq {e : Expr} {es : List Expr} (h : AndSpine e es) :
    conjunction leaf e = es.all (conjunction leaf) := by
  induction h with
  | single e => rw [List.all_cons, List.all_nil, Bool.and_true]
  | snoc h last ih =>
    rw [conjunction, ih, List.all_append, List.all_cons, List.all_nil, Bool.and_true]

theorem Recombined.forall_iff {e : Option Expr} {es : List Expr} (h : Recombined e es) :
    (∀ part ∈ e, conjunction leaf part = true) ↔ ∀ part ∈ es, conjunction leaf part = true := by
  cases h with
  | none => exact iff_of_true (fun _ h => absurd h (Option.not_mem_none _)) fun _ h =>
      absurd h List.not_mem_nil
  | some h =>
    rw [← List.all_eq_true, ← h.conjunction_eq]
    exact ⟨fun hall => hall _ rfl, fun he part hpart => Option.some.inj hpart ▸ he⟩

/-! ## The split -/

/-- A condition reads a joined collection if it contains a column that is qualified by its name. -/
theorem readsJoined_iff {aliases : List String} {e : Expr} :
    readsJoined aliases e = true ↔
      ∃ c q, e.Contains (.column c) ∧ c.qualifier = some q ∧ q ∈ aliases := by
  have hjoined : ∀ c, isJoined aliases c = true ↔ ∃ q, c.qualifier = some q ∧ q ∈ aliases := by
    intro c
    unfold isJoined
    cases c.qualifier <;> simp
  simp only [readsJoined, List.any_eq_true, Expr.mem_columns_iff, hjoined]
  exact ⟨fun ⟨c, hc, q, hq⟩ => ⟨c, q, hc, hq⟩, fun ⟨c, q, hc, hq⟩ => ⟨c, hc, q, hq⟩⟩

theorem splitCondition_of_or (aliases : List String) {w : Expr} (h : w.containsOr = true) :
    splitCondition aliases w = ⟨none, some w⟩ :=
  if_pos h

theorem splitCondition_of_not_or (aliases : List String) {w : Expr} (h : w.containsOr = false) :
    Recombined (splitCondition aliases w).pushed
        ((conjuncts w).filter fun part => !readsJoined aliases part) ∧
      Recombined (splitCondition aliases w).residual
        ((conjuncts w).filter (readsJoined aliases)) := by
  rw [splitCondition, if_neg (Bool.eq_false_iff.1 h)]
  exact ⟨recombined_conjoin _, recombined_conjoin _⟩

/-- Both parts of a condition are true exactly when the condition is. -/
theorem conjunction_splitCondition (aliases : List String) (w : Expr) (leaf : Expr → Bool) :
    conjunction leaf w = true ↔
      (∀ e ∈ (splitCondition aliases w).pushed, conjunction leaf e = true) ∧
        ∀ e ∈ (splitCondition aliases w).residual, conjunction leaf e = true := by
  cases ho : w.containsOr with
  | true =>
    rw [splitCondition_of_or aliases ho]
    exact ⟨fun hw => ⟨fun e he => absurd he (Option.not_mem_none e),
      fun e he => Option.some.inj he ▸ hw⟩, fun h => h.2 w rfl⟩
  | false =>
    obtain ⟨hpushed, hresidual⟩ := splitCondition_of_not_or aliases ho
    rw [hpushed.forall_iff, hresidual.forall_iff, (andTree_conjuncts w).conjunction_eq,
      List.all_eq_true]
    simp only [List.mem_filter, Bool.not_eq_true']
    constructor
    · exact fun h => ⟨fun part hpart => h part hpart.1, fun part hpart => h part hpart.1⟩
    · intro h part hpart
      cases hj : readsJoined aliases part with
      | true => exact h.2 part ⟨hpart, hj⟩
      | false => exact h.1 part ⟨hpart, hj⟩

/-- **Splitting a condition loses and repeats nothing.** With an `OR` outside subqueries the whole
condition is applied after the joins. Without one the leaves of its tree of `AND` are divided: those
that contain no column of a joined collection are applied before the joins and the others after
them, both in their order and with `AND` grouped to the left. Either way the condition is true
exactly when both parts are. -/
theorem splitCondition_splits (aliases : List String) (w : Expr) :
    ((∃ left right, w.Contains (.logic .or left right)) →
      splitCondition aliases w = ⟨none, some w⟩) ∧
    ((¬∃ left right, w.Contains (.logic .or left right)) → ∃ parts, AndTree w parts ∧
      Recombined (splitCondition aliases w).pushed
        (parts.filter fun part => !readsJoined aliases part) ∧
      Recombined (splitCondition aliases w).residual (parts.filter (readsJoined aliases))) ∧
    (∀ part, readsJoined aliases part = true ↔
      ∃ c q, part.Contains (.column c) ∧ c.qualifier = some q ∧ q ∈ aliases) ∧
    ∀ leaf, conjunction leaf w = true ↔
      (∀ e ∈ (splitCondition aliases w).pushed, conjunction leaf e = true) ∧
        ∀ e ∈ (splitCondition aliases w).residual, conjunction leaf e = true := by
  rw [← Expr.containsOr_iff, Bool.not_eq_true]
  exact ⟨splitCondition_of_or aliases,
    fun ho => ⟨conjuncts w, andTree_conjuncts w, splitCondition_of_not_or aliases ho⟩,
    fun _ => readsJoined_iff, conjunction_splitCondition aliases w⟩

/-! ## Subqueries -/

/-- `d = 1 OR e = 2`. -/
def eitherTest : Expr :=
  .logic .or (.compare (.column ⟨none, "d"⟩) .equal (.literal (.int 1)))
    (.compare (.column ⟨none, "e"⟩) .equal (.literal (.int 2)))

/-- `SELECT c FROM u WHERE d = 1 OR e = 2`. -/
def eitherQuery : Select where
  distinct := false
  items := [.expr (.column ⟨none, "c"⟩) none]
  source := .table "u" none
  joins := []
  condition := some eitherTest
  groupBy := []
  having := none
  orderBy := []
  limit := none
  offset := none

/-- `b IN (SELECT c FROM u WHERE d = 1 OR e = 2)`. -/
def nestedEither : Expr :=
  .inList (.column ⟨none, "b"⟩) [.subquery (.select eitherQuery)] false

/-- An `OR` inside a subquery does not keep a condition from being applied before the joins. -/
theorem splitCondition_nested_or : (∃ left right, nestedEither.Reaches (.logic .or left right)) ∧
    splitCondition ["o"] nestedEither = ⟨some nestedEither, none⟩ := by
  have hsubquery : Expr.subquery (.select eitherQuery) ∈ nestedEither.parts :=
    List.mem_cons_of_mem _ (List.mem_singleton_self _)
  have hclause : eitherTest ∈ (Statement.select eitherQuery).clauseExprs :=
    List.mem_cons_of_mem _ (List.mem_singleton_self _)
  exact ⟨⟨_, _, .head (.part hsubquery) (.single (.clause rfl .refl hclause))⟩, rfl⟩

end Plan

end DocQuery
