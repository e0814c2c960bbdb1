import DocQuery.Proofs.Filter.Connectives

/-!
# What each form of expression compiles to

One lemma for each form of expression that is compiled with its parts: `valueOf_logic_eq_ok`,
`valueOf_call_eq`, `valueOf_compare_terms`, `valueOf_compare_field` and `valueOf_inList_eq_ok` say when
it compiles, given how its parts do, and to what. That value determines those of the parts
(`logicValue_inj`, `leftFilters_inj`, `callValue_inj`, `comparisonValue_inj`, `lookupValue_inj`).

The filter of a connective holds the filters of its two sides, or the filters of its left side one by
one if that is a chain of the same connective (`Expr.isChain`).
-/

namespace DocQuery

open Syntax

/-! ## Chains -/

/-- Whether an expression is a chain of a connective: the connective repeats on the left, and there
are no connectives on the right. -/
def Syntax.Expr.isChain (op : Connective) : Expr → Bool
  | .logic op' left right =>
    decide (op' = op) && right.connective?.isNone && (left.connective?.isNone || left.isChain op)
  | _ => false

namespace Filter

variable {s : Settings}

theorem isChain_of_connective? {op : Connective} {e : Expr} (h : e.connective? ≠ some op) :
    e.isChain op = false := by
  cases e with
  | logic op' left right =>
    have hne : op' ≠ op := fun heq => h (congrArg some heq)
    simp [Expr.isChain, hne]
  | _ => rfl

/-- The operands of a chain are collected exactly when it is one of its connective alone. -/
theorem isSome_chainValues {op : Connective} : ∀ {e : Expr} {chain : Option (List Value)},
    chainValues s op e = .ok chain → chain.isSome = e.isChain op
  | .logic op' left right, chain, h => by
    rw [chainValues] at h
    split at h
    · next ho =>
      subst ho
      rw [chainStep] at h
      split at h
      · next hr =>
        cases h
        simp [Expr.isChain, hr]
      · next hr hl =>
        split at h
        · next ho =>
          obtain ⟨v, -, h⟩ := bind_eq_ok.1 h
          obtain ⟨vs?, hvs, h⟩ := bind_eq_ok.1 h
          cases h
          rw [Option.isSome_map, isSome_chainValues hvs]
          simp [Expr.isChain, hr, hl]
        · next ho =>
          cases h
          have hleft : left.isChain op' = false := by
            refine isChain_of_connective? fun heq => ho ?_
            exact Option.some.inj (hl.symm.trans heq)
          simp [Expr.isChain, hl, hleft]
      · next hr hl =>
        obtain ⟨v, -, h⟩ := bind_eq_ok.1 h
        obtain ⟨u, -, h⟩ := bind_eq_ok.1 h
        cases h
        simp [Expr.isChain, hr, hl]
    · next ho =>
      cases h
      simp [Expr.isChain, ho]
  | .literal _, chain, h | .column _, chain, h | .call _ _, chain, h | .wildcard, chain, h
  | .compare _ _ _, chain, h | .like _ _ _, chain, h | .isNull _ _, chain, h
  | .inList _ _ _, chain, h | .parens _ _, chain, h | .not _, chain, h
  | .subquery _, chain, h => by
    cases h
    rfl

/-- The elements of the array that a value holds under its only key. -/
def heldArray : Value → List Value
  | .document [(_, .array values)] => values
  | v => [v]

/-- The filters that the left side of a connective gives to the array: those of its own array if the
chain goes on there. -/
def leftFilters (op : Connective) (left right : Expr) (u : Value) : List Value :=
  if right.connective?.isNone && left.isChain op then heldArray u else [u]

/-- The filter of a connective, given those that its left side adds and the one of its right side. -/
def logicValue (op : Connective) (filters : List Value) (w : Value) : Value :=
  .single (connectiveKey op) (.array (filters ++ [w]))

theorem logicValue_inj {op : Connective} {filters filters' : List Value} {w w' : Value}
    (h : logicValue op filters w = logicValue op filters' w') : filters = filters' ∧ w = w' := by
  have happend : filters ++ [w] = filters' ++ [w'] := by simpa [logicValue, Value.single] using h
  obtain ⟨hfilters, hw⟩ := List.append_inj' happend rfl
  exact ⟨hfilters, List.singleton_inj.1 hw⟩

/-- What a connective compiles to, given the filters of its sides. -/
theorem valueOf_logic_eq {op : Connective} {left right : Expr} {u w : Value} (role : Role)
    (hu : valueOf s .condition left = .ok u) (hw : valueOf s .condition right = .ok w) :
    valueOf s role (.logic op left right) = .ok (logicValue op (leftFilters op left right u) w) := by
  have hpair : (valueOf s .condition left >>= fun u => valueOf s .condition right >>= fun w =>
      Except.ok (Value.single (connectiveKey op) (.array [u, w]))) =
        (.ok (.single (connectiveKey op) (.array ([u] ++ [w]))) : Result Value) := by
    rw [hu, hw]
    rfl
  rw [valueOf, chainStep]
  unfold leftFilters
  split
  · next hr =>
    rw [hr]
    exact hpair
  · next hr hl =>
    rw [hr]
    split
    · next ho =>
      subst ho
      cases left with
      | logic op' l r =>
        cases hl
        rw [valueOf_logic] at hu
        obtain ⟨chain, hc, hu⟩ := bind_eq_ok.1 hu
        have hchain := isSome_chainValues hc
        rw [hw, hc, ← hchain]
        cases chain with
        | none =>
          rw [hw] at hpair
          exact hpair
        | some values =>
          cases hu
          change Except.ok (Value.single (connectiveKey _) (.array (w :: values).reverse)) = _
          rw [List.reverse_cons]
          rfl
      | _ => cases hl
    · next ho =>
      rw [isChain_of_connective? fun heq => ho (Option.some.inj (hl.symm.trans heq))]
      exact hpair
  · next hr hl =>
    rw [hu, hw, isChain_of_connective? (by rw [hl]; simp), Bool.and_false]
    rfl

/-- A connective compiles with its sides. -/
theorem valueOf_logic_eq_ok {role : Role} {op : Connective} {left right : Expr} {v : Value} :
    valueOf s role (.logic op left right) = .ok v ↔
      ∃ u w, valueOf s .condition left = .ok u ∧ valueOf s .condition right = .ok w ∧
        v = logicValue op (leftFilters op left right u) w := by
  constructor
  · intro h
    obtain ⟨u, w, hu, hw, -⟩ := valueOf_logic_ok h
    rw [valueOf_logic_eq role hu hw] at h
    exact ⟨u, w, hu, hw, (Except.ok.inj h).symm⟩
  · rintro ⟨u, w, hu, hw, rfl⟩
    exact valueOf_logic_eq role hu hw

/-- The filter of a chain holds the array of its operands. -/
theorem eq_heldArray {op : Connective} {e : Expr} {u : Value} (he : e.isChain op = true)
    (h : valueOf s .condition e = .ok u) :
    u = .single (connectiveKey op) (.array (heldArray u)) := by
  cases e with
  | logic op' left right =>
    obtain ⟨u₁, w, -, -, rfl⟩ := valueOf_logic_eq_ok.1 h
    simp only [Expr.isChain, Bool.and_eq_true, decide_eq_true_eq] at he
    obtain ⟨⟨rfl, -⟩, -⟩ := he
    rfl
  | _ => cases he

theorem leftFilters_inj {op : Connective} {left left' right : Expr} {u u' : Value}
    (hchain : left.isChain op = left'.isChain op) (hu : valueOf s .condition left = .ok u)
    (hu' : valueOf s .condition left' = .ok u')
    (h : leftFilters op left right u = leftFilters op left' right u') : u = u' := by
  unfold leftFilters at h
  rw [← hchain] at h
  split at h
  · next hc =>
    have he := (Bool.and_eq_true_iff.1 hc).2
    rw [eq_heldArray he hu, eq_heldArray (hchain ▸ he) hu', h]
  · exact List.singleton_inj.1 h

/-! ## Special functions -/

/-- No special function takes over a comparison exactly when none is called on either side. -/
theorem specialMatch_eq_none_iff {left right : Expr} {op : Comparison} :
    specialMatch (.compare left op right) = .ok none ↔
      regexCall? (.compare left op right) = none ∧
        (callOf? "date" left = none ∧ callOf? "date" right = none) ∧
        callOf? "objectid" left = none ∧ callOf? "objectid" right = none := by
  have hmap : ∀ r : Result Document, r.map some ≠ .ok none := by
    intro r h
    obtain ⟨d, -, hd⟩ := map_eq_ok.1 h
    cases hd
  constructor
  · intro h
    unfold specialMatch at h
    obtain ⟨found, hregex, h⟩ := bind_eq_ok.1 h
    cases found with
    | some d => cases h
    | none =>
      obtain ⟨found, hdate, h⟩ := bind_eq_ok.1 h
      cases found with
      | some d => cases h
      | none =>
        rw [regexMatch] at hregex
        rw [dateMatch] at hdate
        change objectIdMatch _ = _ at h
        rw [objectIdMatch] at h
        refine ⟨?_, ?_, ?_⟩
        · split at hregex
          · exact absurd hregex (hmap _)
          · next hr => exact hr
        · split at hdate
          · exact absurd hdate (hmap _)
          · exact absurd hdate (hmap _)
          · next hl hr => exact ⟨hl, hr⟩
        · split at h
          · exact absurd h (hmap _)
          · exact absurd h (hmap _)
          · next hl hr => exact ⟨hl, hr⟩
  · rintro ⟨hregex, ⟨hdl, hdr⟩, hol, hor⟩
    simp only [specialMatch, regexMatch, dateMatch, objectIdMatch, hregex, hdl, hdr, hol, hor]
    rfl

theorem callOf?_call (name name' : String) (args : List Expr) :
    callOf? name (.call name' args) =
      if Text.sameIgnoringCase name' name then some ⟨name', args⟩ else none := rfl

/-! ## Calls, comparisons and lookups -/

theorem argumentValues_eq_mapM (f : Call) (args : List Expr) :
    argumentValues s f args = args.mapM (valueOf s (.argument f)) := by
  induction args with
  | nil => rfl
  | cons e args ih => rw [argumentValues, ih, List.mapM_cons]

theorem listValues_eq_mapM (operand : Expr) (list : List Expr) :
    listValues s operand list = list.mapM (valueOf s (.operand operand)) := by
  induction list with
  | nil => rfl
  | cons e list ih => rw [listValues, ih, List.mapM_cons]

/-- A call that is not special compiles with its arguments. -/
theorem valueOf_call_eq {role : Role} {name : String} (args : List Expr)
    (hn : role = .condition → Text.sameIgnoringCase name "regexMatch" = false) :
    valueOf s role (.call name args) =
      args.mapM (valueOf s (.argument ⟨name, args⟩)) >>= fun values =>
        .ok (callValue name values) := by
  rw [← argumentValues_eq_mapM]
  cases role with
  | condition =>
    have hregex : regexMatch (.call name args) = .ok none := by
      rw [regexMatch, regexCall?, callOf?_call, hn rfl]
      rfl
    rw [valueOf, hregex]
    rfl
  | comparand | operand | argument => rfl

/-- Whether the sides of a comparison become operands of an aggregation expression. -/
def comparesTerms (left right : Expr) : Bool :=
  left.call?.isSome || right.call?.isSome || (left.column?.isSome && right.column?.isSome)

theorem comparesTerms_comm (left right : Expr) :
    comparesTerms left right = comparesTerms right left := by
  unfold comparesTerms
  rw [Bool.or_comm left.call?.isSome, Bool.and_comm]

/-- A comparison with a call compiles with both sides. -/
theorem valueOf_compare_terms {role : Role} {left right : Expr} {op : Comparison} {v : Value}
    (hs : specialMatch (.compare left op right) = .ok none) (hc : comparesTerms left right = true) :
    valueOf s role (.compare left op right) = .ok v ↔
      ∃ u w, valueOf s (.operand right) left = .ok u ∧ valueOf s (.operand left) right = .ok w ∧
        v = .single "$expr" (.single op.operator (.array [u, w])) := by
  rw [valueOf, hs]
  change (if comparesTerms left right then _ else _) = Except.ok v ↔ _
  rw [if_pos hc]
  constructor
  · intro h
    obtain ⟨u, hu, h⟩ := bind_eq_ok.1 h
    obtain ⟨w, hw, h⟩ := bind_eq_ok.1 h
    exact ⟨u, w, hu, hw, (Except.ok.inj h).symm⟩
  · rintro ⟨u, w, hu, hw, rfl⟩
    exact bind_eq_ok.2 ⟨u, hu, bind_eq_ok.2 ⟨w, hw, rfl⟩⟩

/-- Another comparison has a field on one side, and compiles with the other one. -/
theorem valueOf_compare_field {role : Role} {left right : Expr} {op : Comparison} {v : Value}
    (hs : specialMatch (.compare left op right) = .ok none)
    (hc : comparesTerms left right = false) :
    valueOf s role (.compare left op right) = .ok v ↔
      (∃ c w, left.column? = some c ∧ valueOf s (.comparand left) right = .ok w ∧
        v = comparisonValue c op w) ∨
      (left.column? = none ∧ ∃ c u, right.column? = some c ∧
        valueOf s (.comparand right) left = .ok u ∧ v = comparisonValue c op.swap u) := by
  rw [valueOf, hs]
  change (if comparesTerms left right then _ else _) = Except.ok v ↔ _
  rw [if_neg (by rw [hc]; exact Bool.false_ne_true)]
  cases hl : left.column? with
  | some c =>
    constructor
    · intro h
      obtain ⟨w, hw, h⟩ := bind_eq_ok.1 h
      exact .inl ⟨c, w, rfl, hw, (Except.ok.inj h).symm⟩
    · rintro (⟨_, w, ⟨⟩, hw, rfl⟩ | ⟨⟨⟩, -⟩)
      exact bind_eq_ok.2 ⟨w, hw, rfl⟩
  | none =>
    cases hr : right.column? with
    | some c =>
      constructor
      · intro h
        obtain ⟨u, hu, h⟩ := bind_eq_ok.1 h
        exact .inr ⟨rfl, c, u, rfl, hu, (Except.ok.inj h).symm⟩
      · rintro (⟨_, w, ⟨⟩, -⟩ | ⟨-, _, u, ⟨⟩, hu, rfl⟩)
        exact bind_eq_ok.2 ⟨u, hu, rfl⟩
    | none =>
      constructor
      · intro h
        cases h
      · rintro (⟨_, w, ⟨⟩, -⟩ | ⟨-, _, u, ⟨⟩, -⟩)

/-- Whether an `IN` test can look up an expression. -/
def canBeLookedUp : Expr → Bool
  | .call _ _ | .column _ | .literal _ => true
  | _ => false

/-- The value of an `IN` test, given those of what it looks up and of the elements of its list. -/
def lookupValue (isCall negated : Bool) (u : Value) (values : List Value) : Value :=
  if isCall then
    .single (if negated then "$fnin" else "$fin")
      (.document [("function", u), ("list", .array values)])
  else .single "$expr" (.single (if negated then "$nin" else "$in") (.array [u, .array values]))

theorem lookupValue_inj {isCall negated : Bool} {u u' : Value} {values values' : List Value}
    (h : lookupValue isCall negated u values = lookupValue isCall negated u' values') :
    u = u' ∧ values = values' := by
  cases isCall <;> simpa [lookupValue, Value.single] using h

/-- An `IN` test that is not special compiles with what it looks up, which is compiled like an
argument, and the elements of its list. -/
theorem valueOf_inList_eq_ok {role : Role} {operand : Expr} {list : List Expr} {negated : Bool}
    {v : Value} (f : Call) (ho : callOf? "objectid" operand = none) :
    valueOf s role (.inList operand list negated) = .ok v ↔
      subquery? list = none ∧ canBeLookedUp operand = true ∧ ∃ u values,
        valueOf s (.argument f) operand = .ok u ∧
          list.mapM (valueOf s (.operand operand)) = .ok values ∧
            v = lookupValue operand.call?.isSome negated u values := by
  have hmatch : objectIdMatch (.inList operand list negated) = .ok none := by
    rw [objectIdMatch, ho]
  constructor
  · intro h
    rw [valueOf] at h
    split at h
    · cases h
    · next hl =>
      obtain ⟨special, hsp, h⟩ := bind_eq_ok.1 h
      cases hmatch.symm.trans hsp
      obtain ⟨values, hv, h⟩ := bind_eq_ok.1 h
      rw [listValues_eq_mapM] at hv
      refine ⟨hl, ?_⟩
      split at h
      · obtain ⟨args, ha, h⟩ := bind_eq_ok.1 h
        refine ⟨rfl, _, values, ?_, hv, (Except.ok.inj h).symm⟩
        exact bind_eq_ok.2 ⟨none, rfl, bind_eq_ok.2 ⟨args, ha, rfl⟩⟩
      · exact ⟨rfl, _, values, rfl, hv, (Except.ok.inj h).symm⟩
      · exact ⟨rfl, _, values, rfl, hv, (Except.ok.inj h).symm⟩
      · cases h
  · rintro ⟨hl, hop, u, values, hu, hv, rfl⟩
    rw [valueOf, hl]
    refine bind_eq_ok.2 ⟨none, hmatch, ?_⟩
    rw [← listValues_eq_mapM] at hv
    refine bind_eq_ok.2 ⟨values, hv, ?_⟩
    cases operand with
    | call name args =>
      obtain ⟨special, ⟨⟩, hu⟩ := bind_eq_ok.1 hu
      obtain ⟨args, ha, hu⟩ := bind_eq_ok.1 hu
      cases hu
      exact bind_eq_ok.2 ⟨args, ha, rfl⟩
    | column c =>
      cases hu
      rfl
    | literal value =>
      cases hu
      rfl
    | _ => cases hop

theorem callValue_inj {name : String} {args args' : List Value} (hl : args.length = args'.length)
    (h : callValue name args = callValue name args') : args = args' := by
  unfold callValue Value.single at h
  simp only [Value.document.injEq, List.cons.injEq, Prod.mk.injEq, true_and, and_true] at h
  -- Both lists have one element or neither has.
  split at h
  · split at h
    · rw [h]
    · next hne =>
      obtain ⟨arg', rfl⟩ := List.length_eq_one_iff.1 hl.symm
      exact absurd rfl (hne arg')
  · split at h
    · next hne _ arg' =>
      obtain ⟨arg, rfl⟩ := List.length_eq_one_iff.1 hl
      exact absurd rfl (hne arg)
    · exact Value.array.inj h

theorem comparisonValue_inj {c : Column} {op : Comparison} {v w : Value}
    (h : comparisonValue c op v = comparisonValue c op w) : v = w := by
  cases op <;> simpa [comparisonValue, Value.single] using h

/-- The operand beside it changes an operand only if that is a literal. -/
theorem valueOf_operand_congr {a b : Expr}
    (h : ∀ value, literalBeside s a value = literalBeside s b value) (e : Expr) :
    valueOf s (.operand a) e = valueOf s (.operand b) e := by
  cases e with
  | literal value => exact congrArg Except.ok (h value)
  | _ => rfl

/-- The call that an argument belongs to shows in errors only. -/
theorem valueOf_argument_congr {f g : Call} {e : Expr} {v : Value}
    (h : valueOf s (.argument f) e = .ok v) : valueOf s (.argument g) e = .ok v := by
  cases e with
  | wildcard => cases h
  | _ => exact h

theorem subquery?_eq_none_iff {list : List Expr} :
    subquery? list = none ↔ ∀ e ∈ list, ∀ statement, e ≠ .subquery statement := by
  induction list with
  | nil => simp [subquery?]
  | cons e list ih =>
    rw [List.forall_mem_cons, ← ih]
    cases e <;> simp [subquery?]

end Filter

end DocQuery
