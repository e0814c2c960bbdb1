import DocQuery.Proofs.Filter.Forms
import DocQuery.Proofs.Syntax.Parts

/-!
# The parts that a filter is compiled from

An expression is put together from parts, and most of them are compiled with it (`compiledParts`).
The exceptions are what `NOT` and `IS NULL` are put to, of which only the text is used, and the
arguments of a compared `date` other than its column and its pattern, which are not looked at.

If an expression compiles, so do its compiled parts (`Compiles.part`), and by induction everything
that is reached from it through such parts (`Compiles.reached`). A subquery and a negated `LIKE`
compile in no role, so neither is reached from an expression that compiles.
-/

namespace DocQuery

open Syntax

/-! ## Parts -/

namespace Syntax.Expr

/-- Whether an expression is one of those that no filter can express: a subquery or a negated
`LIKE`. -/
def isUnsupported : Expr → Bool
  | .subquery _ => true
  | .like _ _ negated => negated
  | _ => false

end Syntax.Expr

namespace Filter

/-- The parts of a side of a comparison that are compiled with it: of a `date` the column and the
pattern, and all else as it is. -/
def sideParts (e : Expr) : List Expr :=
  match callOf? "date" e with
  | some f => f.args.take 2
  | none => [e]

/-- The parts of an expression that are compiled with it. -/
def compiledParts : Expr → List Expr
  | .compare left _ right => sideParts left ++ sideParts right
  | .isNull _ _ | .not _ => []
  | e => e.parts

/-- Whether a part of an expression, at any depth, is compiled with it. -/
def Reaches (e part : Expr) : Prop :=
  Relation.ReflTransGen (fun e part => part ∈ compiledParts e) e part

variable {s : Settings}

/-- Whether an expression compiles in some role. -/
def Compiles (s : Settings) (e : Expr) : Prop := ∃ role v, valueOf s role e = .ok v

/-! ## Columns, literals and calls of them -/

/-- A column or a literal. -/
def IsPlain (e : Expr) : Prop := (∃ c, e = .column c) ∨ ∃ x, e = .literal x

theorem IsPlain.argument {e : Expr} (h : IsPlain e) (f : Call) :
    ∃ v, valueOf s (.argument f) e = .ok v := by
  obtain ⟨c, rfl⟩ | ⟨x, rfl⟩ := h
  · exact ⟨_, rfl⟩
  · exact ⟨_, rfl⟩

theorem IsPlain.compiles {e : Expr} (h : IsPlain e) : Compiles s e := by
  obtain ⟨v, hv⟩ := h.argument ⟨"", []⟩
  exact ⟨_, v, hv⟩

theorem isPlain_of_column? {e : Expr} {c : Column} (h : e.column? = some c) : IsPlain e := by
  cases e with
  | column c' => exact .inl ⟨c', rfl⟩
  | _ => cases h

theorem isPlain_of_text? {e : Expr} {x : String} (h : text? e = some x) : IsPlain e := by
  unfold text? at h
  split at h
  · exact .inr ⟨_, rfl⟩
  · cases h

/-- A call compiles with its arguments. -/
theorem compiles_call {name : String} {args : List Expr}
    (h : ∀ arg ∈ args, ∃ v, valueOf s (.argument ⟨name, args⟩) arg = .ok v) :
    Compiles s (.call name args) := by
  obtain ⟨values, hv⟩ := exists_mapM_eq_ok.2 h
  refine ⟨.argument ⟨name, args⟩, callValue name values, bind_eq_ok.2 ⟨none, rfl, ?_⟩⟩
  dsimp only
  rw [argumentValues_eq_mapM, hv]
  rfl

/-- A side of a comparison compiles with its parts if it is plain, or a call of what is plain. -/
theorem IsPlain.sideParts {e : Expr} (h : IsPlain e) :
    ∀ part ∈ sideParts e, Compiles s part := by
  intro part hp
  have hside : Filter.sideParts e = [e] := by
    obtain ⟨c, rfl⟩ | ⟨x, rfl⟩ := h <;> rfl
  rw [hside, List.mem_singleton] at hp
  subst hp
  exact h.compiles

theorem sideParts_of_call {e : Expr} {f : Call} (he : e.call? = some f)
    (h : ∀ arg ∈ f.args, IsPlain arg) : ∀ part ∈ sideParts e, Compiles s part := by
  intro part hp
  cases e with
  | call name args =>
    cases he
    unfold sideParts at hp
    split at hp
    · next f' hf =>
      cases call?_of_callOf? hf
      exact (h part (List.mem_of_mem_take hp)).compiles
    · rw [List.mem_singleton] at hp
      subst hp
      exact compiles_call fun arg ha => (h arg ha).argument _
  | _ => cases he

/-! ## Special functions -/

theorem isPlain_of_columnArg? {f : Call} {index : Nat} {c : Column}
    (h : columnArg? f index = some c) : ∃ e, f.args[index]? = some e ∧ IsPlain e := by
  obtain ⟨e, he, hc⟩ := Option.bind_eq_some_iff.1 h
  exact ⟨e, he, isPlain_of_column? hc⟩

theorem isPlain_of_textArg? {f : Call} {index : Nat} {x : String}
    (h : textArg? f index = some x) : ∃ e, f.args[index]? = some e ∧ IsPlain e := by
  obtain ⟨e, he, hx⟩ := Option.bind_eq_some_iff.1 h
  exact ⟨e, he, isPlain_of_text? hx⟩

/-- All arguments of a `regexMatch` that compiles are plain. -/
theorem isPlain_of_regexFilter {f : Call} {d : Document} (h : regexFilter f = .ok d) :
    ∀ arg ∈ f.args, IsPlain arg := by
  unfold regexFilter at h
  split at h
  · next hc ht =>
    obtain ⟨e₀, h₀, p₀⟩ := isPlain_of_columnArg? hc
    obtain ⟨e₁, h₁, p₁⟩ := isPlain_of_textArg? ht
    have hall : ∀ i e, f.args[i]? = some e → i < 3 →
        (i = 2 → IsPlain e) → IsPlain e := by
      intro i e he hi h₂
      obtain rfl | rfl | rfl : i = 0 ∨ i = 1 ∨ i = 2 := by omega
      · exact Option.some.inj (h₀.symm.trans he) ▸ p₀
      · exact Option.some.inj (h₁.symm.trans he) ▸ p₁
      · exact h₂ rfl
    intro arg harg
    obtain ⟨i, he⟩ := List.getElem?_of_mem harg
    have hi := (List.getElem?_eq_some_iff.1 he).1
    split at h
    · next hlen => exact hall i arg he (by omega) fun h2 => by omega
    · next hlen ho =>
      obtain ⟨e₂, h₂, p₂⟩ := isPlain_of_textArg? ho
      refine hall i arg he (by omega) fun h2 => ?_
      subst h2
      exact Option.some.inj (h₂.symm.trans he) ▸ p₂
    · cases h
  · cases h

theorem isPlain_of_objectIdField {f : Call} {field : String} (h : objectIdField f = .ok field) :
    ∀ arg ∈ f.args, IsPlain arg := by
  unfold objectIdField at h
  split at h
  · next hf =>
    rw [hf, List.forall_mem_singleton]
    exact .inr ⟨_, rfl⟩
  · next hf =>
    rw [hf, List.forall_mem_singleton]
    exact .inl ⟨_, rfl⟩
  · cases h

theorem isPlain_of_objectIdOperand {e : Expr} {id : Value} (h : objectIdOperand e = .ok id) :
    IsPlain e := by
  unfold objectIdOperand at h
  split at h
  · next ht => exact isPlain_of_text? ht
  · cases h

theorem regexMatch_parts {left right : Expr} {op : Comparison} {d : Document}
    (h : regexMatch (.compare left op right) = .ok (some d)) :
    ∀ part ∈ sideParts left ++ sideParts right, Compiles s part := by
  unfold regexMatch at h
  split at h
  · next f hf =>
    obtain ⟨d', hd', -⟩ := map_eq_ok.1 h
    have hplain := isPlain_of_regexFilter hd'
    unfold regexCall? at hf
    split at hf
    · cases ‹Expr.compare _ _ _ = _›
    · next he =>
      cases he
      exact List.forall_mem_append.2 ⟨sideParts_of_call (call?_of_callOf? hf) hplain,
        IsPlain.sideParts (.inr ⟨_, rfl⟩)⟩
    · next he =>
      cases he
      exact List.forall_mem_append.2 ⟨IsPlain.sideParts (.inr ⟨_, rfl⟩),
        sideParts_of_call (call?_of_callOf? hf) hplain⟩
    · cases hf
  · cases h

theorem dateFilter_parts {e side operand : Expr} {f : Call} {op : Comparison} {d : Document}
    (hf : callOf? "date" side = some f) (h : dateFilter e f op operand = .ok d) :
    (∀ part ∈ sideParts side, Compiles s part) ∧ ∀ part ∈ sideParts operand, Compiles s part := by
  unfold dateFilter at h
  split at h
  · next hc ht =>
    obtain ⟨e₀, h₀, p₀⟩ := isPlain_of_columnArg? hc
    obtain ⟨e₁, h₁, p₁⟩ := isPlain_of_textArg? ht
    split at h
    · next hx =>
      refine ⟨?_, IsPlain.sideParts (isPlain_of_text? hx)⟩
      -- Only the first two arguments are looked at.
      rw [sideParts, hf]
      intro part hp
      obtain ⟨i, hi⟩ := List.getElem?_of_mem hp
      rw [List.getElem?_take] at hi
      split at hi
      · obtain rfl | rfl : i = 0 ∨ i = 1 := by omega
        · exact Option.some.inj (h₀.symm.trans hi) ▸ p₀.compiles
        · exact Option.some.inj (h₁.symm.trans hi) ▸ p₁.compiles
      · cases hi
    · cases h
  · cases h

theorem dateMatch_parts {left right : Expr} {op : Comparison} {d : Document}
    (h : dateMatch (.compare left op right) = .ok (some d)) :
    ∀ part ∈ sideParts left ++ sideParts right, Compiles s part := by
  rw [dateMatch] at h
  rw [List.forall_mem_append]
  split at h
  · next hf =>
    obtain ⟨d', hd', -⟩ := map_eq_ok.1 h
    exact dateFilter_parts hf hd'
  · next hf =>
    obtain ⟨d', hd', -⟩ := map_eq_ok.1 h
    exact (dateFilter_parts hf hd').symm
  · cases h

theorem objectIdFilter_parts {side operand : Expr} {f : Call} {op : Comparison} {d : Document}
    (hf : callOf? "objectid" side = some f) (h : objectIdFilter f op operand = .ok d) :
    (∀ part ∈ sideParts side, Compiles s part) ∧ ∀ part ∈ sideParts operand, Compiles s part := by
  unfold objectIdFilter at h
  obtain ⟨field, hfield, h⟩ := bind_eq_ok.1 h
  obtain ⟨id, hid, -⟩ := bind_eq_ok.1 h
  exact ⟨sideParts_of_call (call?_of_callOf? hf) (isPlain_of_objectIdField hfield),
    IsPlain.sideParts (isPlain_of_objectIdOperand hid)⟩

theorem objectIdMatch_parts {left right : Expr} {op : Comparison} {d : Document}
    (h : objectIdMatch (.compare left op right) = .ok (some d)) :
    ∀ part ∈ sideParts left ++ sideParts right, Compiles s part := by
  rw [objectIdMatch] at h
  rw [List.forall_mem_append]
  split at h
  · next hf =>
    obtain ⟨d', hd', -⟩ := map_eq_ok.1 h
    exact objectIdFilter_parts hf hd'
  · next hf =>
    obtain ⟨d', hd', -⟩ := map_eq_ok.1 h
    exact (objectIdFilter_parts hf hd').symm
  · cases h

theorem specialMatch_parts {left right : Expr} {op : Comparison} {d : Document}
    (h : specialMatch (.compare left op right) = .ok (some d)) :
    ∀ part ∈ sideParts left ++ sideParts right, Compiles s part := by
  unfold specialMatch at h
  obtain ⟨found, hr, h⟩ := bind_eq_ok.1 h
  cases found with
  | some d' => exact regexMatch_parts hr
  | none =>
    obtain ⟨found, hd, h⟩ := bind_eq_ok.1 h
    cases found with
    | some d' => exact dateMatch_parts hd
    | none => exact objectIdMatch_parts h

/-- A comparison without a special function has no `date` on either side. -/
theorem sideParts_of_specialMatch {left right : Expr} {op : Comparison}
    (h : specialMatch (.compare left op right) = .ok none) :
    sideParts left = [left] ∧ sideParts right = [right] := by
  obtain ⟨-, ⟨hl, hr⟩, -⟩ := specialMatch_eq_none_iff.1 h
  exact ⟨by rw [sideParts, hl], by rw [sideParts, hr]⟩

/-! ## The parts of an expression that compiles -/

/-- Both sides of a comparison without a special function are compiled. -/
theorem compiles_sides {role : Role} {left right : Expr} {op : Comparison} {v : Value}
    (hs : specialMatch (.compare left op right) = .ok none)
    (h : valueOf s role (.compare left op right) = .ok v) : Compiles s left ∧ Compiles s right := by
  cases hc : comparesTerms left right with
  | true =>
    obtain ⟨u, w, hu, hw, -⟩ := (valueOf_compare_terms hs hc).1 h
    exact ⟨⟨_, u, hu⟩, _, w, hw⟩
  | false =>
    obtain ⟨c, w, hl, hw, -⟩ | ⟨-, c, u, hr, hu, -⟩ := (valueOf_compare_field hs hc).1 h
    · exact ⟨(isPlain_of_column? hl).compiles, _, w, hw⟩
    · exact ⟨⟨_, u, hu⟩, (isPlain_of_column? hr).compiles⟩

theorem likeFilter_parts {operand pattern : Expr} {negated : Bool} {v : Value}
    (h : likeFilter operand pattern negated = .ok v) :
    negated = false ∧ IsPlain operand ∧ IsPlain pattern := by
  unfold likeFilter at h
  split at h
  · cases h
  · next hn =>
    refine ⟨Bool.not_eq_true _ ▸ hn, ?_⟩
    split at h
    · exact ⟨.inl ⟨_, rfl⟩, .inr ⟨_, rfl⟩⟩
    · exact ⟨.inl ⟨_, rfl⟩, .inl ⟨_, rfl⟩⟩
    · cases h
    · cases h

/-- What an `IN` test looks up and the elements of its list are compiled. -/
theorem inList_parts {role : Role} {operand : Expr} {list : List Expr} {negated : Bool} {v : Value}
    (h : valueOf s role (.inList operand list negated) = .ok v) :
    Compiles s operand ∧ ∀ e ∈ list, Compiles s e := by
  cases ho : callOf? "objectid" operand with
  | none =>
    obtain ⟨-, -, u, values, hu, hv, -⟩ := (valueOf_inList_eq_ok ⟨"", []⟩ ho).1 h
    exact ⟨⟨_, u, hu⟩, fun e he => ⟨_, exists_mapM_eq_ok.1 ⟨values, hv⟩ e he⟩⟩
  | some f =>
    rw [valueOf] at h
    split at h
    · cases h
    · obtain ⟨found, hm, -⟩ := bind_eq_ok.1 h
      rw [objectIdMatch, ho] at hm
      obtain ⟨field, hfield, hm⟩ := bind_eq_ok.1 hm
      obtain ⟨ids, hids, -⟩ := bind_eq_ok.1 hm
      have hplain := isPlain_of_objectIdField hfield
      constructor
      · cases operand with
        | call name args =>
          cases call?_of_callOf? ho
          exact compiles_call fun arg ha => (hplain arg ha).argument _
        | _ => cases call?_of_callOf? ho
      · intro e he
        obtain ⟨id, hid⟩ := exists_mapM_eq_ok.1 ⟨ids, hids⟩ e he
        exact (isPlain_of_objectIdOperand hid).compiles

/-- **The compiled parts of an expression that compiles do so, too.** -/
theorem Compiles.part {e part : Expr} (h : Compiles s e) (hp : part ∈ compiledParts e) :
    Compiles s part := by
  obtain ⟨role, v, h⟩ := h
  cases e with
  | literal | column | wildcard | subquery | isNull | not => exact absurd hp List.not_mem_nil
  | call name args =>
    obtain ⟨d, hd, -⟩ | ⟨values, hv, -⟩ := valueOf_call_ok h
    · unfold regexMatch at hd
      split at hd
      · next f hf =>
        obtain ⟨d', hd', -⟩ := map_eq_ok.1 hd
        cases call?_of_callOf? hf
        exact (isPlain_of_regexFilter hd' part hp).compiles
      · cases hd
    · rw [argumentValues_eq_mapM] at hv
      exact ⟨_, exists_mapM_eq_ok.1 ⟨values, hv⟩ part hp⟩
  | compare left op right =>
    obtain ⟨special, hs, -⟩ := bind_eq_ok.1 h
    cases special with
    | some d => exact specialMatch_parts hs part hp
    | none =>
      obtain ⟨hl, hr⟩ := sideParts_of_specialMatch hs
      rw [compiledParts, hl, hr] at hp
      obtain ⟨hleft, hright⟩ := compiles_sides hs h
      simp only [List.cons_append, List.nil_append, List.mem_cons, List.not_mem_nil, or_false] at hp
      rcases hp with rfl | rfl
      · exact hleft
      · exact hright
  | like operand pattern negated =>
    obtain ⟨-, hoperand, hpattern⟩ := likeFilter_parts h
    rcases List.mem_pair.1 hp with rfl | rfl
    · exact hoperand.compiles
    · exact hpattern.compiles
  | inList operand list negated =>
    obtain ⟨hoperand, hlist⟩ := inList_parts h
    rcases List.mem_cons.1 hp with rfl | hp
    · exact hoperand
    · exact hlist part hp
  | logic op left right =>
    obtain ⟨⟨u, hu⟩, w, hw⟩ := valueOf_logic_ok_iff.1 ⟨v, h⟩
    rcases List.mem_pair.1 hp with rfl | rfl
    · exact ⟨_, u, hu⟩
    · exact ⟨_, w, hw⟩
  | parens inner negated =>
    obtain ⟨u, hu, -⟩ := bind_eq_ok.1 h
    cases List.mem_singleton.1 hp
    exact ⟨_, u, hu⟩

/-- Everything that is reached from an expression that compiles does so, too. -/
theorem Compiles.reached {e part : Expr} (h : Compiles s e) (hp : Reaches e part) :
    Compiles s part := by
  induction hp with
  | refl => exact h
  | tail _ hpart ih => exact ih.part hpart

/-- A subquery and a negated `LIKE` compile in no role. -/
theorem Compiles.supported {e : Expr} (h : Compiles s e) : e.isUnsupported = false := by
  obtain ⟨role, v, h⟩ := h
  cases e with
  | subquery => cases h
  | like operand pattern negated => exact (likeFilter_parts h).1
  | _ => rfl

end Filter

end DocQuery
