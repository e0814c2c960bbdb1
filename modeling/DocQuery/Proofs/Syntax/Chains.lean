import DocQuery.Proofs.Syntax.Blanks
import DocQuery.Proofs.Syntax.Shape

/-!
# How chains of connectives are read

Parts of a text that stand one after the other with a keyword between them (`Joined`) are read as
one chain, grouped to the left. The two directions are `joined_of_chainOf` and `chainOf_of_joined`. The
second one needs that the bound on the length of a chain is never reached, which is so because each
part leaves less of the text to read.

For whole texts, `conjoined_of_parseExpr` and `parseExpr_of_conjoined` say that the texts that are
read as an `AND` are those that consist of two or more negations joined by `AND`, and that these are
the operands along the left side of the tree (`Expr.spine`).
-/

namespace DocQuery.Syntax

open Reader Grammar

/-! ## Trees that are grouped to the left -/

namespace Expr

variable {op : Connective}

/-- The operands of a connective along the left side of a tree, from left to right. -/
def spine (op : Connective) : Expr → List Expr
  | .logic op' left right =>
    if op' = op then left.spine op ++ [right] else [.logic op' left right]
  | e => [e]

theorem spine_logic (op : Connective) (left right : Expr) :
    (Expr.logic op left right).spine op = left.spine op ++ [right] :=
  if_pos rfl

theorem spine_of_connective? {e : Expr} (h : e.connective? ≠ some op) : e.spine op = [e] := by
  cases e with
  | logic op' left right => exact if_neg fun heq => h (congrArg some heq)
  | _ => rfl

theorem spine_foldl (left : Expr) (others : List Expr) :
    (others.foldl (.logic op) left).spine op = left.spine op ++ others := by
  induction others generalizing left with
  | nil => rw [List.foldl_nil, List.append_nil]
  | cons e others ih =>
    rw [List.foldl_cons, ih, spine_logic, List.append_assoc, List.singleton_append]

theorem connective?_foldl (left : Expr) {others : List Expr} (h : others ≠ []) :
    (others.foldl (.logic op) left).connective? = some op := by
  induction others generalizing left with
  | nil => exact absurd rfl h
  | cons e others ih =>
    cases others with
    | nil => rfl
    | cons e' others => exact ih (.logic op left e) (List.cons_ne_nil e' others)

end Expr

namespace Grammar

/-! ## Parts of a text -/

/-- The parts that stand one after the other between two cursors, with a keyword between them. -/
inductive Joined (word : String) (part : Reader Expr) : Cursor → List Expr → Cursor → Prop where
  /-- A single part. -/
  | single {c c' : Cursor} {e : Expr} (h : part c = .ok (e, c')) : Joined word part c [e] c'
  /-- A part, the keyword and further parts. -/
  | cons {c c₁ c₂ c' : Cursor} {e : Expr} {es : List Expr} (h : part c = .ok (e, c₁))
    (hw : consumeWord word c₁ = .ok (true, c₂)) (ht : Joined word part c₂ es c') :
    Joined word part c (e :: es) c'

variable {op : Connective} {word : String} {part : Reader Expr} {c c' : Cursor}

theorem Joined.forall_mem {p : Expr → Prop} (hp : ∀ {c e c'}, part c = .ok (e, c') → p e)
    {es : List Expr} (h : Joined word part c es c') : ∀ e ∈ es, p e := by
  induction h with
  | single h => exact List.forall_mem_singleton.2 (hp h)
  | cons h _ _ ih => exact List.forall_mem_cons.2 ⟨hp h, ih⟩

/-- What a chain reads after its first part is the keyword and further parts, if there is
anything. -/
theorem joined_of_chain {bound : Nat} {left e : Expr}
    (h : chain op word part bound left c = .ok (e, c')) :
    e = left ∧ c' = c ∨ ∃ c₁ es, consumeWord word c = .ok (true, c₁) ∧
      Joined word part c₁ es c' ∧ e = es.foldl (.logic op) left := by
  induction bound generalizing left c with
  | zero =>
    obtain ⟨rfl, rfl⟩ := run_pure_eq_ok.1 h
    exact .inl ⟨rfl, rfl⟩
  | succ bound ih =>
    rw [chain] at h
    obtain ⟨found, c₁, hw, h⟩ := run_bind_eq_ok.1 h
    cases found with
    | true =>
      obtain ⟨right, c₂, hr, h⟩ := run_bind_eq_ok.1 h
      obtain ⟨rfl, rfl⟩ | ⟨c₃, es, hw', hj, rfl⟩ := ih h
      · exact .inr ⟨c₁, [right], hw, .single hr, rfl⟩
      · exact .inr ⟨c₁, right :: es, hw, .cons hr hw' hj, rfl⟩
    | false =>
      obtain ⟨-, hc⟩ := consumeWord_eq_ok hw
      obtain ⟨rfl, rfl⟩ := run_pure_eq_ok.1 h
      exact .inl ⟨rfl, hc⟩

/-- **A chain is read from parts that are joined by its keyword**, and groups them to the left. -/
theorem joined_of_chainOf {e : Expr} (h : chainOf op word part c = .ok (e, c')) :
    ∃ first others, Joined word part c (first :: others) c' ∧
      e = others.foldl (.logic op) first := by
  rw [chainOf] at h
  obtain ⟨first, c₁, hf, h⟩ := run_bind_eq_ok.1 h
  obtain ⟨rfl, rfl⟩ | ⟨c₂, es, hw, hj, rfl⟩ := joined_of_chain h
  · exact ⟨e, [], .single hf, rfl⟩
  · exact ⟨first, es, .cons hf hw hj, rfl⟩

/-! ## All parts are read -/

theorem chain_of_not (hstop : consumeWord word c = .ok (false, c)) (bound : Nat) (left : Expr) :
    chain op word part bound left c = .ok (left, c) := by
  cases bound with
  | zero => rfl
  | succ bound => exact run_bind_of_ok hstop

theorem chain_of_joined (hstop : consumeWord word c' = .ok (false, c')) {es : List Expr}
    (h : Joined word part c es c') {c₀ : Cursor} (hw : consumeWord word c₀ = .ok (true, c))
    {bound : Nat} (hb : es.length ≤ bound) (left : Expr) :
    chain op word part bound left c₀ = .ok (es.foldl (.logic op) left, c') := by
  induction h generalizing c₀ bound left with
  | single h =>
    obtain ⟨bound, rfl⟩ : ∃ k, bound = k + 1 := Nat.exists_eq_add_of_le' hb
    rw [chain, run_bind_of_ok hw, if_pos rfl, run_bind_of_ok h]
    exact chain_of_not hstop bound _
  | cons h hw' ht ih =>
    obtain ⟨bound, rfl⟩ : ∃ k, bound = k + 1 :=
      Nat.exists_eq_add_of_le' (Nat.le_trans (Nat.le_add_left 1 _) hb)
    rw [chain, run_bind_of_ok hw, if_pos rfl, run_bind_of_ok h]
    exact ih hstop hw' (Nat.le_of_succ_le_succ hb) _

/-- There are no more parts than characters, as long as no part moves the cursor back. -/
theorem Joined.length_le (hw : word ∈ reservedWords) {n : Nat}
    (hpart : ∀ {c e c'}, c.rest.length ≤ n → part c = .ok (e, c') → c'.rest.length ≤ c.rest.length)
    {es : List Expr} (h : Joined word part c es c') (hc : c.rest.length ≤ n) :
    es.length + c'.rest.length ≤ c.rest.length + 1 := by
  induction h with
  | single h =>
    have hle := hpart hc h
    rw [List.length_singleton]
    omega
  | cons h hword ht ih =>
    have hle := hpart hc h
    obtain ⟨hs, rfl⟩ := consumeWord_eq_ok hword
    have hlt := length_after_word hw hs.symm
    rw [if_pos rfl] at ih
    have hrest := ih (by omega)
    rw [List.length_cons]
    omega

/-- **Parts that are joined by a keyword are read as one chain**, if the keyword does not come
next. -/
theorem chainOf_of_joined (hw : word ∈ reservedWords) {n : Nat}
    (hpart : ∀ {c e c'}, c.rest.length ≤ n → part c = .ok (e, c') → c'.rest.length ≤ c.rest.length)
    (hstop : consumeWord word c' = .ok (false, c')) {first : Expr} {others : List Expr}
    (h : Joined word part c (first :: others) c') (hc : c.rest.length ≤ n) :
    chainOf op word part c = .ok (others.foldl (.logic op) first, c') := by
  rw [chainOf]
  cases h with
  | single h =>
    rw [run_bind_of_ok h]
    exact chain_of_not hstop _ _
  | cons h hword ht =>
    rw [run_bind_of_ok h]
    refine chain_of_joined hstop ht hword ?_ _
    have hle := hpart hc h
    obtain ⟨hs, rfl⟩ := consumeWord_eq_ok hword
    have hlt := length_after_word hw hs.symm
    rw [if_pos rfl] at ht
    have hlength := ht.length_le hw hpart (by omega)
    omega

/-! ## Negations -/

/-- A negation does not move the cursor back, if there are levels enough for what is nested. -/
theorem length_rest_negation {depth : Nat} {e : Expr} (hc : c.rest.length ≤ depth + 1)
    (h : negation (nested depth) c = .ok (e, c')) : c'.rest.length ≤ c.rest.length := by
  -- A text is read in step with its squeezed text, and no step goes back.
  have hstep := negation_inStep (nested_inStep depth (squeeze c.rest).length) c
    ⟨squeeze c.rest, 0, squeeze c.rest, rfl⟩ rfl hc (Nat.le_succ _)
  rw [h] at hstep
  generalize negation _ _ = outcome at hstep
  cases hstep with
  | read _ _ hle _ => exact hle

theorem connective?_of_negation {depth : Nat} {e : Expr}
    (h : negation (nested depth) c = .ok (e, c')) : e.connective? = none :=
  (negations_eq_ok (nested_sound depth) (Nat.le_refl _) h).1.connective?

end Grammar

/-! ## Whole texts -/

/-- Whether a text consists of the given negations, joined by `AND`. -/
def Conjoined (text : String) (es : List Expr) : Prop :=
  ∃ c, Joined "AND" (Grammar.negation (nested text.toList.length)) (Cursor.ofString text) es c ∧
    c.atEnd = true

theorem Conjoined.connective? {text : String} {es : List Expr} (h : Conjoined text es) :
    ∀ e ∈ es, e.connective? = none := by
  obtain ⟨c, hj, -⟩ := h
  exact hj.forall_mem connective?_of_negation

/-- **A text of two or more negations that are joined by `AND` is read as one `AND` of them.** -/
theorem parseExpr_of_conjoined {text : String} {es : List Expr} (h : Conjoined text es)
    (hes : 2 ≤ es.length) : ∃ left right, parseExpr text = .ok (.logic .and left right) ∧
      (Expr.logic .and left right).spine .and = es := by
  have hparts := h.connective?
  obtain ⟨c, hj, hend⟩ := h
  obtain ⟨first, others, rfl⟩ :=
    List.exists_cons_of_ne_nil (List.ne_nil_of_length_pos (Nat.lt_of_lt_of_le Nat.zero_lt_two hes))
  have hrest : c.rest = [] := List.isEmpty_iff.1 hend
  have hand : conjunction (nested text.toList.length) (Cursor.ofString text) =
      .ok (others.foldl (.logic .and) first, c) :=
    chainOf_of_joined (by decide) length_rest_negation (consumeWord_nil (by decide) hrest) hj
      (Nat.le_succ _)
  -- There is no `OR` after the last part, either.
  have hor : withNested expr (Cursor.ofString text) =
      .ok (others.foldl (.logic .and) first, c) := by
    change chainOf .or "OR" (conjunction (nested text.toList.length)) (Cursor.ofString text) = _
    rw [chainOf, run_bind_of_ok hand]
    exact chain_of_not (consumeWord_nil (by decide) hrest) _ _
  have hread : parseExpr text = .ok (others.foldl (.logic .and) first) := by
    refine map_eq_ok.2 ⟨(_, c), ?_, rfl⟩
    rw [exprText, run_bind_of_ok hor]
    refine run_bind_eq_ok.2 ⟨c, c, rfl, ?_⟩
    rw [if_pos hend]
    rfl
  have hne : others ≠ [] := List.ne_nil_of_length_pos (Nat.lt_of_succ_lt_succ hes)
  have hspine : (others.foldl (.logic .and) first).spine .and = first :: others := by
    rw [Expr.spine_foldl, Expr.spine_of_connective?, List.singleton_append]
    rw [hparts first List.mem_cons_self]
    exact (Option.some_ne_none _).symm
  have hroot : (others.foldl (.logic .and) first).connective? = some .and :=
    Expr.connective?_foldl first hne
  generalize others.foldl (.logic .and) first = e at hread hspine hroot
  cases e with
  | logic op left right =>
    cases hroot
    exact ⟨left, right, hread, hspine⟩
  | _ => cases hroot

/-- **A text that is read as an `AND` consists of its operands along the left side, joined by
`AND`.** -/
theorem conjoined_of_parseExpr {text : String} {left right : Expr}
    (h : parseExpr text = .ok (.logic .and left right)) :
    Conjoined text ((Expr.logic .and left right).spine .and) := by
  obtain ⟨⟨e, c⟩, hr, he⟩ := map_eq_ok.1 h
  subst he
  rw [exprText] at hr
  obtain ⟨e, c₁, hexpr, hr⟩ := run_bind_eq_ok.1 hr
  obtain ⟨c₂, c₃, hget, hr⟩ := run_bind_eq_ok.1 hr
  obtain ⟨rfl, rfl⟩ := run_get_eq_ok.1 hget
  split at hr
  · next hend =>
    obtain ⟨rfl, -⟩ := run_pure_eq_ok.1 hr
    obtain ⟨whole, others, hor, heq⟩ := joined_of_chainOf hexpr
    -- With an `OR` the tree would have one at its root.
    obtain rfl : others = [] := by
      by_contra hne
      have hroot : (others.foldl (.logic .or) whole).connective? = some .or :=
        Expr.connective?_foldl whole hne
      rw [← heq] at hroot
      cases hroot
    cases hor with
    | single hand =>
      cases heq
      obtain ⟨first, others, hj, heq⟩ := joined_of_chainOf hand
      have hfirst : first.connective? = none :=
        hj.forall_mem connective?_of_negation first List.mem_cons_self
      refine ⟨c₁, ?_, hend⟩
      rw [heq, Expr.spine_foldl, Expr.spine_of_connective?, List.singleton_append]
      · exact hj
      · rw [hfirst]
        exact (Option.some_ne_none _).symm
    | cons _ _ ht => cases ht
  · cases hr

end DocQuery.Syntax
