import DocQuery.Syntax.Walk
import Mathlib.Logic.Relation

/-!
# Expressions by their parts

An expression is put together from its `parts`, and what is shown for an expression from its parts
holds of all expressions (`induction_parts`). The walks through expressions go through the parts, so
they can be described without the forms of expressions: `mem_columns_iff` and `containsOr_iff` say
what is found by looking everywhere, `mem_outermost_iff` says which parts a walk finds that stops at
what it looks for, and `mem_columns_transform` where the columns come from once parts are replaced.
-/

namespace DocQuery.Syntax.Expr

/-- The parts that an expression is put together from. Subqueries are not entered. -/
def parts : Expr → List Expr
  | .literal _ | .column _ | .wildcard | .subquery _ => []
  | .call _ args => args
  | .compare left _ right => [left, right]
  | .like operand pattern _ => [operand, pattern]
  | .isNull operand _ => [operand]
  | .inList operand list _ => operand :: list
  | .logic _ left right => [left, right]
  | .parens inner _ => [inner]
  | .not inner => [inner]

/-- Whether a part is contained in an expression, at any depth. -/
def Contains (e part : Expr) : Prop := Relation.ReflTransGen (fun e part => part ∈ e.parts) e part

theorem sizeOf_lt_of_mem_parts {e part : Expr} (h : part ∈ e.parts) : sizeOf part < sizeOf e := by
  cases e with
  | literal | column | wildcard | subquery => cases h
  | call name args =>
    have hlt := List.sizeOf_lt_of_mem (show part ∈ args from h)
    simp only [call.sizeOf_spec]
    omega
  | inList operand list negated =>
    simp only [inList.sizeOf_spec]
    rcases List.mem_cons.1 h with rfl | h
    · omega
    · have hlt := List.sizeOf_lt_of_mem h
      omega
  | compare | like | logic =>
    simp only [parts, List.mem_cons, List.not_mem_nil, or_false] at h
    simp only [compare.sizeOf_spec, like.sizeOf_spec, logic.sizeOf_spec]
    rcases h with rfl | rfl <;> omega
  | isNull | parens | not =>
    simp only [List.mem_singleton.1 h, isNull.sizeOf_spec, parens.sizeOf_spec, not.sizeOf_spec]
    omega

/-- What holds of an expression if it holds of its parts holds of every expression. -/
@[elab_as_elim]
theorem induction_parts {motive : Expr → Prop}
    (step : ∀ e, (∀ part ∈ e.parts, motive part) → motive e) (e : Expr) : motive e :=
  step e fun part _ => induction_parts step part
termination_by sizeOf e
decreasing_by exact sizeOf_lt_of_mem_parts ‹_›

/-! ## Walks through the parts -/

theorem columnsOfList_eq_flatMap (es : List Expr) : columnsOfList es = es.flatMap columns := by
  induction es with
  | nil => rfl
  | cons e es ih => rw [columnsOfList, List.flatMap_cons, ih]

theorem outermostOfList_eq_flatMap (wanted : Expr → Bool) (es : List Expr) :
    outermostOfList wanted es = es.flatMap (outermost wanted) := by
  induction es with
  | nil => rfl
  | cons e es ih => rw [outermostOfList, List.flatMap_cons, ih]

theorem transformList_eq_map (replace : Expr → Option Expr) (es : List Expr) :
    transformList replace es = es.map (transform replace) := by
  induction es with
  | nil => rfl
  | cons e es ih => rw [transformList, List.map_cons, ih]

/-- The columns of an expression are itself, if it is one, and those of its parts. -/
theorem columns_eq (e : Expr) : e.columns = e.column?.toList ++ e.parts.flatMap columns := by
  cases e <;> simp [columns, column?, parts, columnsOfList_eq_flatMap]

theorem anyContainsOr_eq_any (es : List Expr) : anyContainsOr es = es.any containsOr := by
  induction es with
  | nil => rfl
  | cons e es ih => rw [anyContainsOr, List.any_cons, ih]

/-- There is an `OR` in an expression if it is one or there is one in a part. -/
theorem containsOr_eq (e : Expr) :
    e.containsOr = (e.connective? == some .or || e.parts.any containsOr) := by
  cases e <;> simp [containsOr, connective?, parts, anyContainsOr_eq_any, Bool.or_assoc]

theorem contains_iff {e part : Expr} :
    e.Contains part ↔ e = part ∨ ∃ inner ∈ e.parts, inner.Contains part :=
  Relation.ReflTransGen.cases_head_iff

/-- The columns of an expression are those that it contains. -/
theorem mem_columns_iff {e : Expr} {c : Column} : c ∈ e.columns ↔ e.Contains (.column c) := by
  induction e using induction_parts with
  | step e ih =>
    have hcolumn : e.column? = some c ↔ e = .column c := by
      cases e <;> simp [column?]
    rw [columns_eq, List.mem_append, Option.mem_toList, hcolumn, List.mem_flatMap, contains_iff]
    exact or_congr_right (exists_congr fun inner => and_congr_right fun hi => ih inner hi)

/-- There is an `OR` in an expression if it contains one, at any depth. -/
theorem containsOr_iff {e : Expr} :
    e.containsOr = true ↔ ∃ left right, e.Contains (.logic .or left right) := by
  induction e using induction_parts with
  | step e ih =>
    have hroot : e.connective? = some .or ↔ ∃ left right, e = .logic .or left right := by
      cases e <;> simp [connective?]
    rw [containsOr_eq, Bool.or_eq_true, beq_iff_eq, hroot, List.any_eq_true]
    constructor
    · rintro (⟨left, right, he⟩ | ⟨inner, hi, ho⟩)
      · exact ⟨left, right, contains_iff.2 (.inl he)⟩
      · obtain ⟨left, right, hc⟩ := (ih inner hi).1 ho
        exact ⟨left, right, contains_iff.2 (.inr ⟨inner, hi, hc⟩)⟩
    · rintro ⟨left, right, hc⟩
      rcases contains_iff.1 hc with he | ⟨inner, hi, hc⟩
      · exact .inl ⟨left, right, he⟩
      · exact .inr ⟨inner, hi, (ih inner hi).2 ⟨left, right, hc⟩⟩

theorem parts_of_column? {e : Expr} {c : Column} (h : e.column? = some c) : e.parts = [] := by
  cases e with
  | column => rfl
  | _ => cases h

variable {wanted : Expr → Bool} {replace : Expr → Option Expr} {e : Expr}

theorem outermost_of_wanted (h : wanted e = true) : e.outermost wanted = [e] := by
  unfold outermost
  rw [if_pos h]

theorem outermost_of_not_wanted (h : wanted e = false) :
    e.outermost wanted = e.parts.flatMap (outermost wanted) := by
  cases e <;> simp [outermost, h, parts, outermostOfList_eq_flatMap]

theorem transform_of_some {e' : Expr} (h : replace e = some e') : e.transform replace = e' := by
  unfold transform
  rw [h]

/-- Where an expression is not replaced itself, its parts are transformed. -/
theorem parts_transform (h : replace e = none) :
    (e.transform replace).parts = e.parts.map (transform replace) := by
  cases e <;> simp [transform, h, parts, transformList_eq_map]

theorem column?_transform (h : replace e = none) : (e.transform replace).column? = e.column? := by
  cases e <;> simp [transform, h, column?]

/-! ## Walks that stop -/

/-- Whether a walk from an expression comes to a part, at any depth, if it goes no further where it
stops. -/
def Comes (stops : Expr → Bool) (e part : Expr) : Prop :=
  Relation.ReflTransGen (fun e part => stops e = false ∧ part ∈ e.parts) e part

theorem Comes.of_part {stops : Expr → Bool} {inner part : Expr} (hs : stops e = false)
    (hp : inner ∈ e.parts) (h : inner.Comes stops part) : e.Comes stops part :=
  .head ⟨hs, hp⟩ h

theorem Comes.mono {stops stops' : Expr → Bool} {part : Expr}
    (h : ∀ e part, part ∈ e.parts → stops e = false → stops' e = false)
    (hc : e.Comes stops part) : e.Comes stops' part :=
  Relation.ReflTransGen.mono (fun e part hstep => ⟨h e part hstep.2 hstep.1, hstep.2⟩) _ _ hc

/-- **The outermost parts that are wanted** are those that a walk comes to which stops at what is
wanted. -/
theorem mem_outermost_iff {part : Expr} :
    part ∈ e.outermost wanted ↔ e.Comes wanted part ∧ wanted part = true := by
  induction e using induction_parts with
  | step e ih =>
    cases hw : wanted e with
    | true =>
      rw [outermost_of_wanted hw, List.mem_singleton]
      constructor
      · rintro rfl
        exact ⟨.refl, hw⟩
      · rintro ⟨hc, -⟩
        obtain rfl | ⟨inner, ⟨hs, -⟩, -⟩ := Relation.ReflTransGen.cases_head_iff.1 hc
        · rfl
        · cases hw.symm.trans hs
    | false =>
      rw [outermost_of_not_wanted hw, List.mem_flatMap]
      constructor
      · rintro ⟨inner, hi, hp⟩
        obtain ⟨hc, hpart⟩ := (ih inner hi).1 hp
        exact ⟨.of_part hw hi hc, hpart⟩
      · rintro ⟨hc, hpart⟩
        obtain rfl | ⟨inner, ⟨-, hi⟩, hc⟩ := Relation.ReflTransGen.cases_head_iff.1 hc
        · cases hw.symm.trans hpart
        · exact ⟨inner, hi, (ih inner hi).2 ⟨hc, hpart⟩⟩

/-- **A column of a transformed expression** comes from a part that was replaced, or is one that was
not. -/
theorem mem_columns_transform {c : Column} (h : c ∈ (e.transform replace).columns) :
    ∃ part, e.Comes (fun part => (replace part).isSome) part ∧
      ((∃ e', replace part = some e' ∧ c ∈ e'.columns) ∨
        replace part = none ∧ part.column? = some c) := by
  induction e using induction_parts with
  | step e ih =>
    cases hr : replace e with
    | some e' =>
      rw [transform_of_some hr] at h
      exact ⟨e, .refl, .inl ⟨e', hr, h⟩⟩
    | none =>
      rw [columns_eq, column?_transform hr, parts_transform hr, List.mem_append,
        Option.mem_toList] at h
      rcases h with h | h
      · exact ⟨e, .refl, .inr ⟨hr, h⟩⟩
      · simp only [List.mem_flatMap, List.mem_map] at h
        obtain ⟨_, ⟨inner, hi, rfl⟩, h⟩ := h
        obtain ⟨part, hc, hpart⟩ := ih inner hi h
        exact ⟨part, .of_part (by rw [hr, Option.isSome_none]) hi hc, hpart⟩

end DocQuery.Syntax.Expr
