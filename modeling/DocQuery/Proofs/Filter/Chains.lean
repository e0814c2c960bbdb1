import DocQuery.Proofs.Filter.Forms
import DocQuery.Proofs.Syntax.Chains

/-!
# The shape of compiled chains

The operands of a connective along the left side of a tree (`Expr.spine`) give one flat array of
filters, in the order of the text, if none of them is a connective itself. Otherwise the connective
gives an array of two, the filters of its sides. `valueOf_logic_shape` says so, and that a text of
conditions joined by `AND` always falls under the first case.
-/

namespace DocQuery.Filter

open Syntax

variable {s : Settings} {op : Connective}

/-- No operand along the left side is a connective exactly if the tree is a chain, or has none. -/
theorem forall_spine_iff (op : Connective) (e : Expr) :
    (∀ part ∈ e.spine op, part.connective? = none) ↔
      e.connective? = none ∨ e.isChain op = true := by
  cases e with
  | logic op' left right =>
    by_cases ho : op' = op
    · subst ho
      rw [Expr.spine_logic, List.forall_mem_append, List.forall_mem_singleton,
        forall_spine_iff op' left]
      simp [Expr.isChain, Expr.connective?, and_comm]
    · have hne : (Expr.logic op' left right).connective? ≠ some op :=
        fun heq => ho (Option.some.inj heq)
      rw [Expr.spine_of_connective? hne, List.forall_mem_singleton, isChain_of_connective? hne]
      simp
  | _ => simp [Expr.spine, Expr.connective?]

/-- What the left side of a chain adds to the array are the filters of its own operands. -/
theorem mapM_spine_left {left right : Expr} (hr : right.connective? = none)
    (hl : left.connective? = none ∨ left.isChain op = true)
    (ih : left.isChain op = true → ∀ u, valueOf s .condition left = .ok u ↔
      ∃ vs, (left.spine op).mapM (valueOf s .condition) = .ok vs ∧
        u = .single (connectiveKey op) (.array vs)) (filters : List Value) :
    (left.spine op).mapM (valueOf s .condition) = .ok filters ↔
      ∃ u, valueOf s .condition left = .ok u ∧ filters = leftFilters op left right u := by
  unfold leftFilters
  rw [hr]
  cases hc : left.isChain op with
  | true =>
    constructor
    · intro h
      exact ⟨_, (ih hc _).2 ⟨filters, h, rfl⟩, rfl⟩
    · rintro ⟨u, hu, rfl⟩
      obtain ⟨vs, hvs, rfl⟩ := (ih hc u).1 hu
      exact hvs
  | false =>
    have hnone : left.connective? = none := hl.resolve_right (by rw [hc]; exact Bool.false_ne_true)
    have hspine : left.spine op = [left] :=
      Expr.spine_of_connective? (by rw [hnone]; exact (Option.some_ne_none op).symm)
    rw [hspine, mapM_eq_ok]
    simp [List.forall₂_cons_left_iff]

/-- A chain compiles with its operands, to one array of their filters. -/
theorem valueOf_chain_eq_ok (role : Role) {e : Expr} (he : e.isChain op = true) {v : Value} :
    valueOf s role e = .ok v ↔ ∃ vs, (e.spine op).mapM (valueOf s .condition) = .ok vs ∧
      v = .single (connectiveKey op) (.array vs) := by
  cases e with
  | logic op' left right =>
    have ih := fun (hc : left.isChain op = true) u =>
      valueOf_chain_eq_ok .condition hc (v := u)
    simp only [Expr.isChain, Bool.and_eq_true, Bool.or_eq_true, decide_eq_true_eq,
      Option.isNone_iff_eq_none] at he
    obtain ⟨⟨rfl, hr⟩, hl⟩ := he
    have hleft := mapM_spine_left hr hl ih
    rw [valueOf_logic_eq_ok, Expr.spine_logic]
    constructor
    · rintro ⟨u, w, hu, hw, rfl⟩
      refine ⟨_, mapM_append_cons_eq_ok.2 ⟨_, w, [], (hleft _).2 ⟨u, hu, rfl⟩, hw, rfl, rfl⟩, rfl⟩
    · rintro ⟨vs, hvs, rfl⟩
      obtain ⟨filters, w, ws, hf, hw, hnil, rfl⟩ := mapM_append_cons_eq_ok.1 hvs
      obtain ⟨u, hu, rfl⟩ := (hleft _).1 hf
      cases hnil
      exact ⟨u, w, hu, hw, rfl⟩
  | _ => cases he

/-- A connective that is no chain compiles with its two sides, to an array of their filters. -/
theorem valueOf_mixed_eq_ok (role : Role) {left right : Expr}
    (h : (Expr.logic op left right).isChain op = false) {v : Value} :
    valueOf s role (.logic op left right) = .ok v ↔ ∃ u w, valueOf s .condition left = .ok u ∧
      valueOf s .condition right = .ok w ∧
        v = .single (connectiveKey op) (.array [u, w]) := by
  have hfilters : ∀ u, leftFilters op left right u = [u] := by
    intro u
    refine if_neg fun hc => ?_
    obtain ⟨hr, hl⟩ := Bool.and_eq_true_iff.1 hc
    simp [Expr.isChain, hr, hl] at h
  rw [valueOf_logic_eq_ok]
  simp only [hfilters]
  rfl

/-- **What a connective compiles to.** If none of its operands along the left side is a connective,
it compiles exactly when all of them do, to one array of their filters in the order of the text.
Otherwise it compiles exactly when its two sides do, to the array of their two filters.

A text of two or more conditions joined by `AND` is read as an `AND` that falls under the first
case, and there are no other texts that are read as an `AND`. -/
theorem valueOf_logic_shape (s : Settings) (role : Role) (op : Connective) (left right : Expr) :
    ((∀ e ∈ (Expr.logic op left right).spine op, e.connective? = none) →
      ∀ v, valueOf s role (.logic op left right) = .ok v ↔
        ∃ vs, ((Expr.logic op left right).spine op).mapM (valueOf s .condition) = .ok vs ∧
          v = .single (connectiveKey op) (.array vs)) ∧
    ((∃ e ∈ (Expr.logic op left right).spine op, e.connective? ≠ none) →
      ∀ v, valueOf s role (.logic op left right) = .ok v ↔
        ∃ u w, valueOf s .condition left = .ok u ∧ valueOf s .condition right = .ok w ∧
          v = .single (connectiveKey op) (.array [u, w])) ∧
    (∀ text es, Conjoined text es → 2 ≤ es.length → ∃ e, parseExpr text = .ok e ∧
      ∀ v, valueOf s role e = .ok v ↔ ∃ vs, es.mapM (valueOf s .condition) = .ok vs ∧
        v = .single "$and" (.array vs)) ∧
    ∀ text left right, parseExpr text = .ok (.logic .and left right) →
      Conjoined text ((Expr.logic .and left right).spine .and) := by
  refine ⟨fun h v => ?_, fun h v => ?_, fun text es hes hlength => ?_,
    fun text left right => conjoined_of_parseExpr⟩
  · have hc := ((forall_spine_iff op _).1 h).resolve_left (Option.some_ne_none op)
    exact valueOf_chain_eq_ok role hc
  · obtain ⟨e, he, hne⟩ := h
    have hc : (Expr.logic op left right).isChain op = false := by
      rw [← Bool.not_eq_true]
      exact fun hc => hne ((forall_spine_iff op _).2 (.inr hc) e he)
    exact valueOf_mixed_eq_ok role hc
  · obtain ⟨left, right, hread, hspine⟩ := parseExpr_of_conjoined hes hlength
    have hparts := hes.connective?
    rw [← hspine] at hparts
    have hc := ((forall_spine_iff .and _).1 hparts).resolve_left (Option.some_ne_none _)
    exact ⟨_, hread, fun v => hspine ▸ valueOf_chain_eq_ok role hc⟩

/-- Three conditions, the last one a negated alternative in parentheses, and a condition beside a
connective. -/
theorem valueOf_logic_shape_mixed :
    (∃ es e vs, Conjoined "a = 1 AND b > 2 AND NOT (c = 3 OR d = 4)" es ∧ es.length = 3 ∧
      parseExpr "a = 1 AND b > 2 AND NOT (c = 3 OR d = 4)" = .ok e ∧
      es.mapM (valueOf {} .condition) = .ok vs ∧
      valueOf {} .condition e = .ok (.single "$and" (.array vs))) ∧
    ∃ u w, valueOf {} .condition (.isNull (.column ⟨none, "a"⟩) false) = .ok u ∧
      valueOf {} .condition (.logic .and (.isNull (.column ⟨none, "b"⟩) true)
        (.isNull (.column ⟨none, "c"⟩) true)) = .ok w ∧
      valueOf {} .condition (.logic .or (.isNull (.column ⟨none, "a"⟩) false)
        (.logic .and (.isNull (.column ⟨none, "b"⟩) true)
          (.isNull (.column ⟨none, "c"⟩) true))) = .ok (.single "$or" (.array [u, w])) := by
  constructor
  · obtain ⟨e, he, hfacts⟩ := toOption_map_eq_some.1
      (show (parseExpr "a = 1 AND b > 2 AND NOT (c = 3 OR d = 4)").toOption.map (fun e =>
        (e.connective?, (e.spine .and).length,
          (valueOf {} .condition e).toOption.map fun _ => ())) = some (some .and, 3, some ())
        by decide +kernel)
    obtain ⟨hroot, hfacts⟩ := Prod.mk.inj hfacts
    obtain ⟨hlength, hvalue⟩ := Prod.mk.inj hfacts
    cases e with
    | logic op left right =>
      cases hroot
      obtain ⟨-, -, hflat, hread⟩ := valueOf_logic_shape {} .condition .and left right
      have hes := hread _ _ _ he
      obtain ⟨e', he', hiff⟩ := hflat _ _ hes (hlength ▸ by decide)
      obtain rfl := Except.ok.inj (he.symm.trans he')
      obtain ⟨v, hv, -⟩ := toOption_map_eq_some.1 hvalue
      obtain ⟨vs, hvs, rfl⟩ := (hiff v).1 hv
      exact ⟨_, _, vs, hes, hlength, he, hvs, hv⟩
    | _ => cases hroot
  · obtain ⟨-, hmixed, -, -⟩ := valueOf_logic_shape {} .condition .or
      (.isNull (.column ⟨none, "a"⟩) false)
      (.logic .and (.isNull (.column ⟨none, "b"⟩) true) (.isNull (.column ⟨none, "c"⟩) true))
    have hconnective := List.mem_append_right ((Expr.isNull (.column ⟨none, "a"⟩) false).spine .or)
      (List.mem_singleton_self (Expr.logic .and (.isNull (.column ⟨none, "b"⟩) true)
        (.isNull (.column ⟨none, "c"⟩) true)))
    exact ⟨_, _, rfl, rfl, (hmixed ⟨_, hconnective, by decide⟩ _).2
      ⟨_, _, rfl, rfl, rfl⟩⟩

end DocQuery.Filter
