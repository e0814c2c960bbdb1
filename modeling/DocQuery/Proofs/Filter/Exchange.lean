import DocQuery.Proofs.Filter.Forms

/-!
# Exchanging the sides of a comparison

A comparison and the one with its sides and its sign exchanged say the same. `valueOf_compare_swap`
compares what they compile to: both are refused, or both give the same filter, except that a
comparison of two operands of an aggregation expression (`ComparesOperands`) keeps its operands in
the order of the text.

Each special function looks for its call on both sides, and finds the same one after the exchange
(`specialMatch_swap`): where a call is taken over, the other side is a literal, so there are never
two to choose from.
-/

namespace DocQuery

open Syntax

theorem Syntax.Comparison.swap_eq_equal {op : Comparison} : op.swap = .equal ↔ op = .equal := by
  cases op <;> decide

namespace Filter

variable {left right : Expr} {op : Comparison}

/-! ## Special functions -/

theorem text?_of_callOf? {name : String} {e : Expr} {f : Call} (h : callOf? name e = some f) :
    text? e = none := by
  cases e with
  | call name' args => rfl
  | _ => cases h

/-- A match with a regular expression is compared with `TRUE`, on either side. -/
theorem regexCall?_compare_eq_some {f : Call} :
    regexCall? (.compare left op right) = some f ↔ op = .equal ∧
      (right = .literal (.bool true) ∧ callOf? "regexMatch" left = some f ∨
        left = .literal (.bool true) ∧ callOf? "regexMatch" right = some f) := by
  constructor
  · intro h
    unfold regexCall? at h
    split at h
    · next heq => cases heq
    · next heq =>
      cases heq
      exact ⟨rfl, .inl ⟨rfl, h⟩⟩
    · next heq =>
      cases heq
      exact ⟨rfl, .inr ⟨rfl, h⟩⟩
    · cases h
  · rintro ⟨rfl, ⟨rfl, h⟩ | ⟨rfl, h⟩⟩
    · exact h
    · cases right with
      | call name args => exact h
      | _ => cases h

theorem regexCall?_swap (left right : Expr) (op : Comparison) :
    regexCall? (.compare right op.swap left) = regexCall? (.compare left op right) := by
  refine Option.ext fun f => ?_
  rw [regexCall?_compare_eq_some, regexCall?_compare_eq_some, Comparison.swap_eq_equal, or_comm]

/-- The comparison that a date belongs to shows in errors only. -/
theorem dateFilter_congr {e e' : Expr} {f : Call} {operand : Expr} {d : Document}
    (h : dateFilter e f op operand = .ok d) : dateFilter e' f op operand = .ok d := by
  unfold dateFilter at h ⊢
  split at h
  · split at h
    · exact h
    · cases h
  · cases h

theorem text?_of_dateFilter {e : Expr} {f : Call} {operand : Expr} {d : Document}
    (h : dateFilter e f op operand = .ok d) : text? operand ≠ none := by
  unfold dateFilter at h
  split at h
  · split at h
    · next ht =>
      rw [ht]
      exact Option.some_ne_none _
    · cases h
  · cases h

/-- Object ids are compared only by signs that are their own exchange. -/
theorem objectIdFilter_swap {f : Call} {operand : Expr} {d : Document}
    (h : objectIdFilter f op operand = .ok d) : objectIdFilter f op.swap operand = .ok d := by
  unfold objectIdFilter at h ⊢
  obtain ⟨field, hf, h⟩ := bind_eq_ok.1 h
  obtain ⟨id, hi, h⟩ := bind_eq_ok.1 h
  refine bind_eq_ok.2 ⟨field, hf, bind_eq_ok.2 ⟨id, hi, ?_⟩⟩
  cases op with
  | equal | notEqual => exact h
  | less | lessEqual | greater | greaterEqual => cases h

theorem text?_of_objectIdFilter {f : Call} {operand : Expr} {d : Document}
    (h : objectIdFilter f op operand = .ok d) : text? operand ≠ none := by
  unfold objectIdFilter at h
  obtain ⟨field, -, h⟩ := bind_eq_ok.1 h
  obtain ⟨id, hi, -⟩ := bind_eq_ok.1 h
  intro ht
  rw [objectIdOperand, ht] at hi
  cases hi

/-- The filter of two sides by a call on one of them, the left one first, given how the call and the
other side are compiled. -/
def sideMatch (name : String) (onLeft onRight : Call → Expr → Result Document)
    (left right : Expr) : Result (Option Document) :=
  match callOf? name left, callOf? name right with
  | some f, _ => (onLeft f right).map some
  | none, some f => (onRight f left).map some
  | none, none => .ok none

/-- Sides can be exchanged if the call is compiled as before, and only beside a text. -/
theorem sideMatch_swap {name : String}
    {onLeft onRight onLeft' onRight' : Call → Expr → Result Document}
    (htext : ∀ {f e d}, onLeft f e = .ok d → text? e ≠ none)
    (hl : ∀ {f e d}, onLeft f e = .ok d → onRight' f e = .ok d)
    (hr : ∀ {f e d}, onRight f e = .ok d → onLeft' f e = .ok d) {found : Option Document}
    (h : sideMatch name onLeft onRight left right = .ok found) :
    sideMatch name onLeft' onRight' right left = .ok found := by
  unfold sideMatch at h ⊢
  cases hcall : callOf? name left with
  | some f =>
    rw [hcall] at h
    obtain ⟨d, hd, rfl⟩ := map_eq_ok.1 h
    -- A call on the right, too, would be no text.
    cases hother : callOf? name right with
    | some g => exact absurd (text?_of_callOf? hother) (htext hd)
    | none => exact map_eq_ok.2 ⟨d, hl hd, rfl⟩
  | none =>
    rw [hcall] at h
    cases hother : callOf? name right with
    | some g =>
      rw [hother] at h
      obtain ⟨d, hd, rfl⟩ := map_eq_ok.1 h
      exact map_eq_ok.2 ⟨d, hr hd, rfl⟩
    | none =>
      rw [hother] at h
      exact h

theorem dateMatch_swap {found : Option Document}
    (h : dateMatch (.compare left op right) = .ok found) :
    dateMatch (.compare right op.swap left) = .ok found := by
  refine sideMatch_swap text?_of_dateFilter (fun hd => ?_) dateFilter_congr h
  rw [Comparison.swap_swap]
  exact dateFilter_congr hd

theorem objectIdMatch_swap {found : Option Document}
    (h : objectIdMatch (.compare left op right) = .ok found) :
    objectIdMatch (.compare right op.swap left) = .ok found :=
  sideMatch_swap text?_of_objectIdFilter objectIdFilter_swap objectIdFilter_swap h

/-- **A special function takes over a comparison from either side**, with the same filter. -/
theorem specialMatch_swap {found : Option Document}
    (h : specialMatch (.compare left op right) = .ok found) :
    specialMatch (.compare right op.swap left) = .ok found := by
  unfold specialMatch at h ⊢
  rw [regexMatch, regexCall?_swap]
  obtain ⟨regex, hregex, h⟩ := bind_eq_ok.1 h
  refine bind_eq_ok.2 ⟨regex, hregex, ?_⟩
  cases regex with
  | some d => exact h
  | none =>
    obtain ⟨date, hdate, h⟩ := bind_eq_ok.1 h
    refine bind_eq_ok.2 ⟨date, dateMatch_swap hdate, ?_⟩
    cases date with
    | some d => exact h
    | none => exact objectIdMatch_swap h

/-! ## The filter of a comparison -/

/-- Whether a comparison is one of two operands of an aggregation expression: no special function
takes it over, and one side is a call or both are columns. -/
def ComparesOperands (left : Expr) (op : Comparison) (right : Expr) : Prop :=
  specialMatch (.compare left op right) = .ok none ∧ comparesTerms left right = true

/-- What becomes of the value of a comparison when its sides are exchanged: the operands of an
aggregation expression change places, and any other value stays as it is. -/
inductive Exchanged (left : Expr) (op : Comparison) (right : Expr) : Value → Value → Prop where
  /-- Two operands. -/
  | operands (h : ComparesOperands left op right) (u w : Value) :
    Exchanged left op right (.single "$expr" (.single op.operator (.array [u, w])))
      (.single "$expr" (.single op.swap.operator (.array [w, u])))
  /-- Anything else. -/
  | same (h : ¬ ComparesOperands left op right) (v : Value) : Exchanged left op right v v

variable {s : Settings} {role : Role}

theorem valueOf_compare_special {d : Document}
    (h : specialMatch (.compare left op right) = .ok (some d)) :
    valueOf s role (.compare left op right) = .ok (.document d) := by
  rw [valueOf, h]
  rfl

/-- A field is on one side only, so that it is found after the exchange, too. -/
theorem valueOf_compare_field_swap (hs : specialMatch (.compare left op right) = .ok none)
    (hc : comparesTerms left right = false) {v : Value}
    (h : valueOf s role (.compare left op right) = .ok v) :
    valueOf s role (.compare right op.swap left) = .ok v := by
  have hc' : comparesTerms right left = false := comparesTerms_comm right left ▸ hc
  rw [valueOf_compare_field (specialMatch_swap hs) hc']
  rcases (valueOf_compare_field hs hc).1 h with ⟨c, w, hl, hw, rfl⟩ | ⟨-, c, u, hr, hu, rfl⟩
  · have hr : right.column? = none := by
      rw [comparesTerms, hl, Bool.or_eq_false_iff] at hc
      simpa using hc.2
    rw [Comparison.swap_swap]
    exact .inr ⟨hr, c, w, hl, hw, rfl⟩
  · exact .inl ⟨c, u, hr, hu, rfl⟩

theorem exists_exchanged {v : Value} (h : valueOf s role (.compare left op right) = .ok v) :
    ∃ w, valueOf s role (.compare right op.swap left) = .ok w ∧ Exchanged left op right v w := by
  have hspecial : ∃ found, specialMatch (.compare left op right) = .ok found := by
    rw [valueOf] at h
    obtain ⟨found, hs, -⟩ := bind_eq_ok.1 h
    exact ⟨found, hs⟩
  obtain ⟨found, hs⟩ := hspecial
  cases found with
  | some d =>
    obtain rfl := Except.ok.inj ((valueOf_compare_special hs).symm.trans h)
    refine ⟨_, valueOf_compare_special (specialMatch_swap hs), .same (fun hn => ?_) _⟩
    cases hs.symm.trans hn.1
  | none =>
    cases hc : comparesTerms left right with
    | true =>
      obtain ⟨u, w, hu, hw, rfl⟩ := (valueOf_compare_terms hs hc).1 h
      have hc' : comparesTerms right left = true := comparesTerms_comm right left ▸ hc
      exact ⟨_, (valueOf_compare_terms (specialMatch_swap hs) hc').2 ⟨w, u, hw, hu, rfl⟩,
        .operands ⟨hs, hc⟩ u w⟩
    | false =>
      refine ⟨v, valueOf_compare_field_swap hs hc h, .same (fun hn => ?_) v⟩
      cases hc.symm.trans hn.2

/-- **The sides of a comparison can be exchanged.** With the sign exchanged, too, the comparison
compiles exactly when it did before, to the same value. Only where it is a comparison of two
operands of an aggregation expression does the value show the exchange, in its sign and in the order
of the operands. -/
theorem valueOf_compare_swap (s : Settings) (role : Role) (left : Expr) (op : Comparison)
    (right : Expr) :
    ((∃ v, valueOf s role (.compare left op right) = .ok v) ↔
      ∃ w, valueOf s role (.compare right op.swap left) = .ok w) ∧
    ∀ v w, valueOf s role (.compare left op right) = .ok v →
      valueOf s role (.compare right op.swap left) = .ok w → Exchanged left op right v w := by
  refine ⟨⟨?_, ?_⟩, ?_⟩
  · rintro ⟨v, hv⟩
    obtain ⟨w, hw, -⟩ := exists_exchanged hv
    exact ⟨w, hw⟩
  · rintro ⟨w, hw⟩
    obtain ⟨v, hv, -⟩ := exists_exchanged hw
    rw [Comparison.swap_swap] at hv
    exact ⟨v, hv⟩
  · intro v w hv hw
    obtain ⟨w', hw', hvw⟩ := exists_exchanged hv
    obtain rfl := Except.ok.inj (hw.symm.trans hw')
    exact hvw

/-- A number and a call on either side. -/
theorem valueOf_compare_swap_call : ∃ v w,
    valueOf {} .condition (.compare (.literal (.int 3)) .less (.call "abs" [.column ⟨none, "a"⟩])) =
      .ok v ∧
    valueOf {} .condition
      (.compare (.call "abs" [.column ⟨none, "a"⟩]) .greater (.literal (.int 3))) = .ok w ∧
    v ≠ w ∧
    Exchanged (.literal (.int 3)) .less (.call "abs" [.column ⟨none, "a"⟩]) v w := by
  refine ⟨_, _, rfl, rfl, ?_, (valueOf_compare_swap {} .condition _ .less _).2 _ _ rfl rfl⟩
  simp [Value.single, Comparison.operator]

end Filter

end DocQuery
