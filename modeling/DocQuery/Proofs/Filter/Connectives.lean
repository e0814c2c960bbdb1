import DocQuery.Proofs.Filter.Matching
import DocQuery.Proofs.Filter.OneKey

/-!
# The meaning of connectives

A condition is a tree of connectives and parentheses over leaves. Its filter flattens chains of one
connective, and `valueOf_logic_ok` says what that amounts to: the filter of a connective holds the
filters of its two sides, or the one of its right side after those of a left side with the same
connective. So flattening does not change the meaning of a condition, and neither does it change
whether the condition compiles: `valueOf_meaning` compares the filter with the truth of the tree and
with the filter that keeps every connective binary.
-/

namespace DocQuery

open Syntax

namespace Syntax.Expr

/-- The leaves of a condition: what its connectives and parentheses are put around. -/
def leaves : Expr → List Expr
  | .logic _ left right => left.leaves ++ right.leaves
  | .parens inner _ => inner.leaves
  | e => [e]

theorem leaves_logic (op : Connective) (left right : Expr) :
    (logic op left right).leaves = left.leaves ++ right.leaves := rfl

theorem leaves_parens (inner : Expr) (negated : Bool) :
    (parens inner negated).leaves = inner.leaves := rfl

/-- The truth of a condition, given that of its leaves. -/
def holds (leaf : Expr → Bool) : Expr → Bool
  | .logic .and left right => left.holds leaf && right.holds leaf
  | .logic .or left right => left.holds leaf || right.holds leaf
  | .parens inner negated => inner.holds leaf ^^ negated
  | e => leaf e

end Syntax.Expr

namespace Filter

/-- The filter of a condition in which every connective has its two sides in its array. -/
def binaryValue (s : Settings) : Expr → Result Value
  | .logic op left right => do
    let u ← binaryValue s left
    let v ← binaryValue s right
    return .single (connectiveKey op) (.array [u, v])
  | .parens inner negated => do
    let v ← binaryValue s inner
    return if negated then .single "$nor" (.array [v]) else v
  | e => valueOf s .condition e

/-- The truth value that an assignment gives to a leaf, by way of its filter. -/
def leafTruth (s : Settings) (assign : String → Value → Bool) (leaf : Expr) : Bool :=
  match valueOf s .condition leaf with
  | .ok (.document [(key, value)]) => assign key value
  | _ => false

variable {s : Settings}

/-! ## Chains -/

/-- A chain compiles with its operands, or is left to be compiled side by side. -/
theorem valueOf_logic (op : Connective) (left right : Expr) :
    valueOf s .condition (.logic op left right) =
      chainValues s op (.logic op left right) >>= fun chain =>
        match chain with
        | some values => .ok (.single (connectiveKey op) (.array values.reverse))
        | none => do
          let u ← valueOf s .condition left
          let v ← valueOf s .condition right
          return .single (connectiveKey op) (.array [u, v]) := by
  cases op <;> rfl

/-- The operands of a chain are those of the chain on its left and its right side, or its two sides
if neither is a connective. -/
theorem chainValues_logic_some {op : Connective} {left right : Expr} {values : List Value}
    (h : chainValues s op (.logic op left right) = .ok (some values)) :
    ∃ v, valueOf s .condition right = .ok v ∧
      ((∃ u, valueOf s .condition left = .ok u ∧ values = [v, u]) ∨
        ∃ l r vs, left = .logic op l r ∧ chainValues s op left = .ok (some vs) ∧
          values = v :: vs) := by
  rw [chainValues, if_pos rfl, chainStep] at h
  split at h
  · cases h
  · next hl =>
    split at h
    · next ho =>
      obtain ⟨v, hv, h⟩ := bind_eq_ok.1 h
      obtain ⟨vs?, hvs, h⟩ := bind_eq_ok.1 h
      obtain ⟨vs, rfl, rfl⟩ := Option.map_eq_some_iff.1 (Except.ok.inj h)
      refine ⟨v, hv, .inr ?_⟩
      cases left with
      | logic op' l r =>
        cases hl
        subst ho
        exact ⟨l, r, vs, rfl, hvs, rfl⟩
      | _ => cases hl
    · cases h
  · obtain ⟨v, hv, h⟩ := bind_eq_ok.1 h
    obtain ⟨u, hu, h⟩ := bind_eq_ok.1 h
    cases h
    exact ⟨v, hv, .inl ⟨u, hu, rfl⟩⟩

/-- A chain is refused only if one of its sides is. -/
theorem chainValues_logic_ok (op : Connective) {left right : Expr} {u v : Value}
    (hl : valueOf s .condition left = .ok u) (hr : valueOf s .condition right = .ok v) :
    ∃ chain, chainValues s op (.logic op left right) = .ok chain := by
  rw [chainValues, if_pos rfl, chainStep]
  split
  · exact ⟨_, rfl⟩
  · next hc =>
    split
    · next ho =>
      cases left with
      | logic op' l r =>
        cases hc
        subst ho
        rw [valueOf_logic] at hl
        obtain ⟨chain, hch, -⟩ := bind_eq_ok.1 hl
        exact ⟨_, by rw [hr, hch]; rfl⟩
      | _ => cases hc
    · exact ⟨_, rfl⟩
  · exact ⟨_, by rw [hr, hl]; rfl⟩

/-- **What a connective compiles to.** Its filter holds the filters of both sides, the one of a left
side with the same connective being opened if the chain goes on there. -/
theorem valueOf_logic_ok {op : Connective} {left right : Expr} {v : Value}
    (h : valueOf s .condition (.logic op left right) = .ok v) :
    ∃ u w, valueOf s .condition left = .ok u ∧ valueOf s .condition right = .ok w ∧
      (v = .single (connectiveKey op) (.array [u, w]) ∨
        ∃ vs, u = .single (connectiveKey op) (.array vs) ∧
          v = .single (connectiveKey op) (.array (vs ++ [w]))) := by
  rw [valueOf_logic] at h
  obtain ⟨chain, hc, h⟩ := bind_eq_ok.1 h
  cases chain with
  | none =>
    obtain ⟨u, hu, h⟩ := bind_eq_ok.1 h
    obtain ⟨w, hw, h⟩ := bind_eq_ok.1 h
    exact ⟨u, w, hu, hw, .inl (Except.ok.inj h).symm⟩
  | some values =>
    cases h
    obtain ⟨w, hw, ⟨u, hu, rfl⟩ | ⟨l, r, vs, rfl, hvs, rfl⟩⟩ := chainValues_logic_some hc
    · exact ⟨u, w, hu, hw, .inl rfl⟩
    · refine ⟨.single (connectiveKey op) (.array vs.reverse), w, ?_, hw, .inr ⟨_, rfl, ?_⟩⟩
      · rw [valueOf_logic, hvs]
        rfl
      · rw [List.reverse_cons]

/-- A connective compiles exactly when both sides do. -/
theorem valueOf_logic_ok_iff {op : Connective} {left right : Expr} :
    (∃ v, valueOf s .condition (.logic op left right) = .ok v) ↔
      (∃ u, valueOf s .condition left = .ok u) ∧ ∃ w, valueOf s .condition right = .ok w := by
  constructor
  · rintro ⟨v, h⟩
    obtain ⟨u, w, hu, hw, -⟩ := valueOf_logic_ok h
    exact ⟨⟨u, hu⟩, w, hw⟩
  · rintro ⟨⟨u, hu⟩, w, hw⟩
    rw [valueOf_logic]
    obtain ⟨chain, hc⟩ := chainValues_logic_ok op hu hw
    cases chain with
    | some values => exact ⟨_, by rw [hc]; rfl⟩
    | none => exact ⟨_, by rw [hc, hu, hw]; rfl⟩

theorem valueOf_parens (inner : Expr) (negated : Bool) :
    valueOf s .condition (.parens inner negated) =
      valueOf s .condition inner >>= fun v =>
        .ok (if negated then .single "$nor" (.array [v]) else v) := by
  rfl

/-! ## Meaning -/

section Truth

variable (assign : String → Value → Bool)

/-- The truth value of a connective over an array of filters. -/
theorem truth_connective_append (op : Connective) (vs : List Value) (w : Value) :
    Value.truth assign (.single (connectiveKey op) (.array (vs ++ [w]))) =
      match op with
      | .and => Value.truth assign (.single (connectiveKey op) (.array vs)) &&
          Value.truth assign w
      | .or => Value.truth assign (.single (connectiveKey op) (.array vs)) ||
          Value.truth assign w := by
  cases op with
  | and => simp [connectiveKey]
  | or => simp [connectiveKey]

theorem truth_connective_pair (op : Connective) (u w : Value) :
    Value.truth assign (.single (connectiveKey op) (.array [u, w])) =
      match op with
      | .and => Value.truth assign u && Value.truth assign w
      | .or => Value.truth assign u || Value.truth assign w := by
  cases op with
  | and => simp [connectiveKey]
  | or => simp [connectiveKey]

theorem truth_negated (v : Value) (negated : Bool) :
    Value.truth assign (if negated then .single "$nor" (.array [v]) else v) =
      (Value.truth assign v ^^ negated) := by
  cases negated with
  | true => simp
  | false => simp

/-- The filter of a leaf has the truth value that the assignment gives to the leaf. -/
theorem truth_leaf {leaf : Expr} {v : Value} (h : valueOf s .condition leaf = .ok v)
    (hk : ∀ key value, valueOf s .condition leaf = .ok (.single key value) →
      key ∉ Value.connectiveKeys) :
    Value.truth assign v = leafTruth s assign leaf := by
  obtain ⟨key, value, rfl⟩ := valueOf_condition_single s h
  rw [Value.truth_single assign (hk key value h), leafTruth, h]
  rfl

/-- Flattening keeps the truth value of a condition. -/
theorem truth_valueOf : ∀ {e : Expr} {v : Value}, valueOf s .condition e = .ok v →
    (∀ leaf ∈ e.leaves, ∀ key value, valueOf s .condition leaf = .ok (.single key value) →
      key ∉ Value.connectiveKeys) →
    Value.truth assign v = e.holds (leafTruth s assign)
  | .logic op left right, v, h, hk => by
    simp only [Expr.leaves_logic, List.mem_append] at hk
    obtain ⟨u, w, hu, hw, hv⟩ := valueOf_logic_ok h
    have ihl := truth_valueOf hu fun leaf hm => hk leaf (.inl hm)
    have ihr := truth_valueOf hw fun leaf hm => hk leaf (.inr hm)
    obtain rfl | ⟨vs, rfl, rfl⟩ := hv
    · rw [truth_connective_pair, ihl, ihr]
      cases op <;> rfl
    · rw [truth_connective_append, ihl, ihr]
      cases op <;> rfl
  | .parens inner negated, v, h, hk => by
    rw [valueOf_parens] at h
    obtain ⟨u, hu, h⟩ := bind_eq_ok.1 h
    cases h
    rw [truth_negated, truth_valueOf hu hk]
    rfl
  | .literal _, v, h, hk | .column _, v, h, hk | .call _ _, v, h, hk | .wildcard, v, h, hk
  | .compare _ _ _, v, h, hk | .like _ _ _, v, h, hk | .isNull _ _, v, h, hk
  | .inList _ _ _, v, h, hk | .not _, v, h, hk | .subquery _, v, h, hk =>
    truth_leaf assign h (hk _ (List.mem_singleton_self _))

theorem truth_binaryValue : ∀ {e : Expr} {b : Value}, binaryValue s e = .ok b →
    (∀ leaf ∈ e.leaves, ∀ key value, valueOf s .condition leaf = .ok (.single key value) →
      key ∉ Value.connectiveKeys) →
    Value.truth assign b = e.holds (leafTruth s assign)
  | .logic op left right, b, h, hk => by
    simp only [Expr.leaves_logic, List.mem_append] at hk
    rw [binaryValue] at h
    obtain ⟨u, hu, h⟩ := bind_eq_ok.1 h
    obtain ⟨w, hw, h⟩ := bind_eq_ok.1 h
    cases h
    rw [truth_connective_pair, truth_binaryValue hu fun leaf hm => hk leaf (.inl hm),
      truth_binaryValue hw fun leaf hm => hk leaf (.inr hm)]
    cases op <;> rfl
  | .parens inner negated, b, h, hk => by
    rw [binaryValue] at h
    obtain ⟨u, hu, h⟩ := bind_eq_ok.1 h
    cases h
    rw [truth_negated, truth_binaryValue hu hk]
    rfl
  | .literal _, b, h, hk | .column _, b, h, hk | .call _ _, b, h, hk | .wildcard, b, h, hk
  | .compare _ _ _, b, h, hk | .like _ _ _, b, h, hk | .isNull _ _, b, h, hk
  | .inList _ _ _, b, h, hk | .not _, b, h, hk | .subquery _, b, h, hk =>
    truth_leaf assign h (hk _ (List.mem_singleton_self _))

end Truth

/-! ## Success -/

/-- A condition compiles exactly when its leaves do. -/
theorem valueOf_ok_iff : ∀ {e : Expr}, (∃ v, valueOf s .condition e = .ok v) ↔
    ∀ leaf ∈ e.leaves, ∃ v, valueOf s .condition leaf = .ok v
  | .logic op left right => by
    rw [valueOf_logic_ok_iff, valueOf_ok_iff, valueOf_ok_iff, Expr.leaves_logic,
      List.forall_mem_append]
  | .parens inner negated => by
    rw [Expr.leaves_parens, ← valueOf_ok_iff, valueOf_parens]
    constructor
    · rintro ⟨v, h⟩
      obtain ⟨u, hu, -⟩ := bind_eq_ok.1 h
      exact ⟨u, hu⟩
    · rintro ⟨u, hu⟩
      exact ⟨_, bind_eq_ok.2 ⟨u, hu, rfl⟩⟩
  | .literal _ | .column _ | .call _ _ | .wildcard | .compare _ _ _ | .like _ _ _ | .isNull _ _
  | .inList _ _ _ | .not _ | .subquery _ => by simp [Expr.leaves]

theorem binaryValue_ok : ∀ {e : Expr},
    (∀ leaf ∈ e.leaves, ∃ v, valueOf s .condition leaf = .ok v) → ∃ b, binaryValue s e = .ok b
  | .logic op left right, h => by
    rw [Expr.leaves_logic, List.forall_mem_append] at h
    obtain ⟨u, hu⟩ := binaryValue_ok h.1
    obtain ⟨w, hw⟩ := binaryValue_ok h.2
    exact ⟨_, by rw [binaryValue, hu, hw]; rfl⟩
  | .parens inner negated, h => by
    rw [Expr.leaves_parens] at h
    obtain ⟨u, hu⟩ := binaryValue_ok h
    exact ⟨_, by rw [binaryValue, hu]; rfl⟩
  | .literal _, h | .column _, h | .call _ _, h | .wildcard, h | .compare _ _ _, h
  | .like _ _ _, h | .isNull _ _, h | .inList _ _ _, h | .not _, h | .subquery _, h =>
    h _ (List.mem_singleton_self _)

/-- **The filter of a condition means what the condition says.** Over leaves whose own filters are no
connectives, a condition compiles exactly when its leaves do. Whatever truth values are assigned to
the filters of the leaves, its filter then has the truth value of the condition, as has the filter
that keeps every connective binary. -/
theorem valueOf_meaning {e : Expr}
    (hk : ∀ leaf ∈ e.leaves, ∀ key value, valueOf s .condition leaf = .ok (.single key value) →
      key ∉ Value.connectiveKeys) :
    ((∃ v, valueOf s .condition e = .ok v) ↔
        ∀ leaf ∈ e.leaves, ∃ v, valueOf s .condition leaf = .ok v) ∧
      ∀ v, valueOf s .condition e = .ok v → ∃ b, binaryValue s e = .ok b ∧
        ∀ assign, Value.truth assign v = e.holds (leafTruth s assign) ∧
          Value.truth assign b = Value.truth assign v := by
  refine ⟨valueOf_ok_iff, fun v h => ?_⟩
  obtain ⟨b, hb⟩ := binaryValue_ok (valueOf_ok_iff.1 ⟨v, h⟩)
  refine ⟨b, hb, fun assign => ?_⟩
  rw [truth_valueOf assign h hk, truth_binaryValue assign hb hk]
  exact ⟨rfl, rfl⟩

/-- A mixed chain with negated parentheses. -/
theorem valueOf_meaning_mixed :
    ∃ v, valueOf {} .condition
        (.logic .and (.logic .or (.column ⟨none, "a"⟩)
          (.parens (.logic .and (.column ⟨none, "b"⟩) (.column ⟨none, "c"⟩)) true))
          (.column ⟨none, "d"⟩)) = .ok v ∧
      ∀ assign : String → Value → Bool, Value.truth assign v =
        ((assign "a" (.bool true) || !(assign "b" (.bool true) && assign "c" (.bool true))) &&
          assign "d" (.bool true)) := by
  obtain ⟨hok, hm⟩ := valueOf_meaning (s := {})
    (e := .logic .and (.logic .or (.column ⟨none, "a"⟩)
      (.parens (.logic .and (.column ⟨none, "b"⟩) (.column ⟨none, "c"⟩)) true))
      (.column ⟨none, "d"⟩)) (by
    intro leaf hm key value h
    simp only [Expr.leaves, List.cons_append, List.nil_append, List.mem_cons, List.not_mem_nil,
      or_false] at hm
    rcases hm with rfl | rfl | rfl | rfl <;>
      · cases h
        decide)
  obtain ⟨v, hv⟩ := hok.2 (by
    intro leaf hm
    simp only [Expr.leaves, List.cons_append, List.nil_append, List.mem_cons, List.not_mem_nil,
      or_false] at hm
    rcases hm with rfl | rfl | rfl | rfl <;> exact ⟨_, rfl⟩)
  obtain ⟨b, -, ht⟩ := hm v hv
  refine ⟨v, hv, fun assign => ?_⟩
  rw [(ht assign).1]
  simp only [Expr.holds, Bool.xor_true]
  rfl

end Filter

end DocQuery
