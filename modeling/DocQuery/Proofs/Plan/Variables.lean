import DocQuery.Plan.Join
import DocQuery.Proofs.Outcome
import Mathlib.Data.List.Nodup

/-!
# The variables of a join

While the condition of a join is compiled, variables are bound to the fields of the base. A field
that is bound already keeps its variable. Another one gets a name that is not taken
(`freshName_notMem_keys`): the candidates differ from each other, and there is one more of them than
there are variables. So binding a field adds at the end of the variables that are there
(`prefix_bindVariable`).

Compiling an expression binds its columns one after the other. Its value is made of the variables
that they have got, and it is still the same once more variables are bound: `binds_term` says both,
by induction over the expression. What a condition compiles to can therefore be read off the
variables that are bound in the end (`termWith`).
-/

namespace DocQuery.Plan

open Syntax

/-! ## Names -/

theorem natText_injective : Function.Injective Number.natText := by
  intro m n h
  have hdigits : Nat.toDigits 10 m = Nat.toDigits 10 n := by
    rw [← Nat.toList_repr, ← Nat.toList_repr]
    exact congrArg String.toList h
  calc
    m = Nat.ofDigitChars 10 (Nat.toDigits 10 m) 0 := Nat.ofDigitChars_ten_toDigits.symm
    _ = Nat.ofDigitChars 10 (Nat.toDigits 10 n) 0 := by rw [hdigits]
    _ = n := Nat.ofDigitChars_ten_toDigits

theorem candidateName_injective (base : String) : Function.Injective (candidateName base) := by
  have hne : ∀ text : String, base ≠ base ++ "_" ++ text := by
    intro text h
    have hlength := congrArg String.length h
    simp only [String.length_append] at hlength
    have hone : "_".length = 1 := rfl
    omega
  intro i j h
  unfold candidateName at h
  split at h
  · next hi =>
    split at h
    · next hj => rw [hi, hj]
    · exact absurd h (hne _)
  · split at h
    · exact absurd h.symm (hne _)
    · have htext := (String.append_right_inj _).1 h
      exact Nat.succ.inj (natText_injective htext)

/-- The name of a new variable is not taken. -/
theorem freshName_notMem_keys (vars : Variables) (base : String) :
    freshName vars base ∉ Keyed.keys vars := by
  unfold freshName
  cases hfind : ((List.range (vars.length + 1)).map (candidateName base)).find? fun name =>
      !Keyed.hasKey vars name with
  | some name =>
    have hname := List.find?_some hfind
    rw [Bool.not_eq_true'] at hname
    rw [Option.getD_some, ← Keyed.hasKey_iff_mem_keys, hname]
    exact Bool.false_ne_true
  | none =>
    -- All candidates would be taken, and they are too many for that.
    have hsubset : (List.range (vars.length + 1)).map (candidateName base) ⊆ Keyed.keys vars := by
      intro name hname
      have htaken := List.find?_eq_none.1 hfind name hname
      rw [← Keyed.hasKey_iff_mem_keys]
      simpa using htaken
    have hnodup := (List.nodup_range (n := vars.length + 1)).map (candidateName_injective base)
    have hlength := hnodup.length_le_of_subset hsubset
    simp only [List.length_map, List.length_range, Keyed.keys] at hlength
    omega

/-! ## Binding a field -/

theorem mem_of_variableOf? {vars : Variables} {reference name : String}
    (h : variableOf? vars reference = some name) : (name, reference) ∈ vars := by
  obtain ⟨⟨name', bound⟩, hmem, hname⟩ := List.exists_of_findSome?_eq_some h
  dsimp only at hname
  split at hname
  · next hbound =>
    cases hname
    exact hbound ▸ hmem
  · cases hname

theorem variableOf?_eq_none_iff {vars : Variables} {reference : String} :
    variableOf? vars reference = none ↔ reference ∉ vars.map (·.2) := by
  simp only [variableOf?, List.findSome?_eq_none_iff, List.mem_map, not_exists, not_and]
  refine forall₂_congr fun entry _ => ?_
  split
  · next hbound => exact iff_of_false (Option.some_ne_none _) (not_not_intro hbound)
  · next hbound => exact iff_of_true rfl hbound

/-- The variables after a field has been bound: those that were there, or a new one at the end. -/
theorem bindVariable_cases (vars : Variables) (path : String) :
    (bindVariable vars path).2 = vars ∧
        ((bindVariable vars path).1, fieldReference path) ∈ vars ∨
      (bindVariable vars path).1 = freshName vars (variableName path) ∧
        fieldReference path ∉ vars.map (·.2) ∧
        (bindVariable vars path).2 =
          vars ++ [((bindVariable vars path).1, fieldReference path)] := by
  simp only [bindVariable]
  cases hv : variableOf? vars (fieldReference path) with
  | some name => exact .inl ⟨rfl, mem_of_variableOf? hv⟩
  | none =>
    exact .inr ⟨rfl, variableOf?_eq_none_iff.1 hv,
      Keyed.put_of_notMem_keys (freshName_notMem_keys vars _) _⟩

/-- The variable of a field holds its reference. -/
theorem mem_bindVariable (vars : Variables) (path : String) :
    ((bindVariable vars path).1, fieldReference path) ∈ (bindVariable vars path).2 := by
  obtain ⟨hvars, hmem⟩ | ⟨-, -, hvars⟩ := bindVariable_cases vars path
  · rw [hvars]
    exact hmem
  · rw [hvars]
    exact List.mem_append_right _ (List.mem_singleton_self _)

/-- Binding a field leaves the other variables as they are. -/
theorem prefix_bindVariable (vars : Variables) (path : String) :
    vars <+: (bindVariable vars path).2 := by
  obtain ⟨hvars, -⟩ | ⟨-, -, hvars⟩ := bindVariable_cases vars path
  · exact hvars.symm ▸ List.prefix_refl vars
  · exact hvars.symm ▸ List.prefix_append vars _

/-- The variable of a field is the one that is found for its reference. -/
theorem variableOf?_bindVariable (vars : Variables) (path : String) :
    variableOf? (bindVariable vars path).2 (fieldReference path) =
      some (bindVariable vars path).1 := by
  simp only [bindVariable]
  cases hv : variableOf? vars (fieldReference path) with
  | some name => exact hv
  | none =>
    dsimp only
    rw [Keyed.put_of_notMem_keys (freshName_notMem_keys vars _), variableOf?, List.findSome?_append,
      ← variableOf?, hv]
    simp

/-- The variable that holds a reference stays the same when more are bound. -/
theorem variableOf?_mono {vars final : Variables} (hp : vars <+: final)
    {reference name : String} (h : variableOf? vars reference = some name) :
    variableOf? final reference = some name := by
  obtain ⟨more, rfl⟩ := hp
  rw [variableOf?, List.findSome?_append, ← variableOf?, h, Option.some_or]

/-! ## Binding columns -/

/-- What a column stands for, given the variables. -/
def boundTerm (joined : String) (vars : Variables) (c : Column) : Value :=
  if c.qualifier = some joined then .string (fieldReference c.name)
  else .string ("$$" ++ (variableOf? vars (fieldReference c.path)).getD "")

/-- The variables with one for a column, unless it belongs to the joined collection. -/
def bindColumn (joined : String) (vars : Variables) (c : Column) : Variables :=
  if c.qualifier = some joined then vars else (bindVariable vars c.path).2

/-- The variables after columns have been bound one after the other. -/
def bindColumns (joined : String) (vars : Variables) (cs : List Column) : Variables :=
  cs.foldl (bindColumn joined) vars

theorem prefix_bindColumn (joined : String) (vars : Variables) (c : Column) :
    vars <+: bindColumn joined vars c := by
  unfold bindColumn
  split
  · exact List.prefix_refl _
  · exact prefix_bindVariable vars c.path

theorem prefix_bindColumns (joined : String) (vars : Variables) (cs : List Column) :
    vars <+: bindColumns joined vars cs := by
  induction cs generalizing vars with
  | nil => exact List.prefix_refl _
  | cons c cs ih => exact (prefix_bindColumn joined vars c).trans (ih _)

mutual

/-- The aggregation expression of a part of a condition, given what its columns stand for. What does
not compile counts as null. -/
def termWith (column : Column → Value) : Expr → Value
  | .literal value => value.toValue
  | .column c => column c
  | .call name args => Filter.callValue name (termsWith column args)
  | .compare left op right =>
    .single op.operator (.array [termWith column left, termWith column right])
  | .isNull operand negated =>
    .single (if negated then "$ne" else "$eq") (.array [termWith column operand, .null])
  | .inList operand list negated =>
    negateIf negated
      (.single "$in" (.array [termWith column operand, .array (termsWith column list)]))
  | .logic op left right =>
    .single (Filter.connectiveKey op)
      (.array (chained op left (termWith column left) ++ chained op right (termWith column right)))
  | .parens inner negated => negateIf negated (termWith column inner)
  | .not inner => negateIf true (termWith column inner)
  | .like _ _ _ | .wildcard | .subquery _ => .null

/-- The aggregation expressions of several operands. -/
def termsWith (column : Column → Value) : List Expr → List Value
  | [] => []
  | e :: es => termWith column e :: termsWith column es

end

/-! ## Compiling a condition, step by step -/

section Steps

variable {α β : Type} {joined : String} {place : Place} {vars vars₁ : Variables} {v : Value}

/-- A chain of two steps that bind variables. -/
theorem bind_binding_eq_ok {x : Binding α} {f : α → Binding β} {b : β} :
    (x >>= f) vars = .ok (b, vars₁) ↔
      ∃ a vars₂, x vars = .ok (a, vars₂) ∧ f a vars₂ = .ok (b, vars₁) := by
  change (x vars >>= fun p => f p.1 p.2) = _ ↔ _
  rw [bind_eq_ok]
  exact ⟨fun ⟨⟨a, vars₂⟩, hx, hf⟩ => ⟨a, vars₂, hx, hf⟩,
    fun ⟨a, vars₂, hx, hf⟩ => ⟨(a, vars₂), hx, hf⟩⟩

theorem pure_binding_eq_ok {a b : α} :
    (pure a : Binding α) vars = .ok (b, vars₁) ↔ a = b ∧ vars = vars₁ := by
  change Except.ok (a, vars) = _ ↔ _
  rw [Except.ok.injEq, Prod.mk.injEq]

theorem term_call_ok {name : String} {args : List Expr}
    (h : term joined place (.call name args) vars = .ok (v, vars₁)) :
    ∃ values, terms joined args vars = .ok (values, vars₁) ∧ v = Filter.callValue name values := by
  obtain ⟨values, vars₂, hv, h⟩ := bind_binding_eq_ok.1 h
  obtain ⟨rfl, rfl⟩ := pure_binding_eq_ok.1 h
  exact ⟨values, hv, rfl⟩

theorem term_compare_ok {left right : Expr} {op : Comparison}
    (h : term joined place (.compare left op right) vars = .ok (v, vars₁)) :
    ∃ u w vars₂, term joined .operand left vars = .ok (u, vars₂) ∧
      term joined .operand right vars₂ = .ok (w, vars₁) ∧
        v = .single op.operator (.array [u, w]) := by
  obtain ⟨u, vars₂, hu, h⟩ := bind_binding_eq_ok.1 h
  obtain ⟨w, vars₃, hw, h⟩ := bind_binding_eq_ok.1 h
  obtain ⟨rfl, rfl⟩ := pure_binding_eq_ok.1 h
  exact ⟨u, w, vars₂, hu, hw, rfl⟩

theorem term_isNull_ok {operand : Expr} {negated : Bool}
    (h : term joined place (.isNull operand negated) vars = .ok (v, vars₁)) :
    ∃ u, term joined .operand operand vars = .ok (u, vars₁) ∧
      v = .single (if negated then "$ne" else "$eq") (.array [u, .null]) := by
  obtain ⟨u, vars₂, hu, h⟩ := bind_binding_eq_ok.1 h
  obtain ⟨rfl, rfl⟩ := pure_binding_eq_ok.1 h
  exact ⟨u, hu, rfl⟩

theorem term_inList_ok {operand : Expr} {list : List Expr} {negated : Bool}
    (h : term joined place (.inList operand list negated) vars = .ok (v, vars₁)) :
    ∃ values u vars₂, terms joined list vars = .ok (values, vars₂) ∧
      term joined .operand operand vars₂ = .ok (u, vars₁) ∧
        v = negateIf negated (.single "$in" (.array [u, .array values])) := by
  obtain ⟨values, vars₂, hv, h⟩ := bind_binding_eq_ok.1 h
  obtain ⟨u, vars₃, hu, h⟩ := bind_binding_eq_ok.1 h
  obtain ⟨rfl, rfl⟩ := pure_binding_eq_ok.1 h
  exact ⟨values, u, vars₂, hv, hu, rfl⟩

theorem term_logic_ok {op : Connective} {left right : Expr}
    (h : term joined place (.logic op left right) vars = .ok (v, vars₁)) :
    ∃ u w vars₂, term joined .condition left vars = .ok (u, vars₂) ∧
      term joined .condition right vars₂ = .ok (w, vars₁) ∧
        v = .single (Filter.connectiveKey op)
          (.array (chained op left u ++ chained op right w)) := by
  obtain ⟨u, vars₂, hu, h⟩ := bind_binding_eq_ok.1 h
  obtain ⟨w, vars₃, hw, h⟩ := bind_binding_eq_ok.1 h
  obtain ⟨rfl, rfl⟩ := pure_binding_eq_ok.1 h
  exact ⟨u, w, vars₂, hu, hw, rfl⟩

theorem term_parens_ok {inner : Expr} {negated : Bool}
    (h : term joined place (.parens inner negated) vars = .ok (v, vars₁)) :
    ∃ u, term joined .condition inner vars = .ok (u, vars₁) ∧ v = negateIf negated u := by
  obtain ⟨u, vars₂, hu, h⟩ := bind_binding_eq_ok.1 h
  obtain ⟨rfl, rfl⟩ := pure_binding_eq_ok.1 h
  exact ⟨u, hu, rfl⟩

theorem term_not_ok {inner : Expr}
    (h : term joined place (.not inner) vars = .ok (v, vars₁)) :
    ∃ u, term joined .condition inner vars = .ok (u, vars₁) ∧ v = negateIf true u := by
  obtain ⟨u, vars₂, hu, h⟩ := bind_binding_eq_ok.1 h
  obtain ⟨rfl, rfl⟩ := pure_binding_eq_ok.1 h
  exact ⟨u, hu, rfl⟩

theorem terms_cons_ok {e : Expr} {es : List Expr} {values : List Value}
    (h : terms joined (e :: es) vars = .ok (values, vars₁)) :
    ∃ u us vars₂, term joined .operand e vars = .ok (u, vars₂) ∧
      terms joined es vars₂ = .ok (us, vars₁) ∧ values = u :: us := by
  obtain ⟨u, vars₂, hu, h⟩ := bind_binding_eq_ok.1 h
  obtain ⟨us, vars₃, hus, h⟩ := bind_binding_eq_ok.1 h
  obtain ⟨rfl, rfl⟩ := pure_binding_eq_ok.1 h
  exact ⟨u, us, vars₂, hu, hus, rfl⟩

end Steps

/-! ## What compiling a condition binds -/

/-- A part of a compilation binds columns, in some order, and its result is made of what they stand
for, now and when more are bound. -/
structure Binds {α : Type} (joined : String) (columns : List Column)
    (result : (Column → Value) → α) (vars : Variables) (a : α) (vars₁ : Variables) : Prop where
  order : ∃ cs, cs.Perm columns ∧ vars₁ = bindColumns joined vars cs
  result : ∀ final, vars₁ <+: final → a = result (boundTerm joined final)

namespace Binds

variable {α β γ : Type} {joined : String} {cs ds : List Column} {f : (Column → Value) → α}
  {g : (Column → Value) → β} {vars vars₁ vars₂ : Variables} {a : α} {b : β}

theorem pure (joined : String) (vars : Variables) (a : α) :
    Binds joined [] (fun _ => a) vars a vars :=
  ⟨⟨[], .nil, rfl⟩, fun _ _ => rfl⟩

theorem map (h : Binds joined cs f vars a vars₁) (k : α → γ) :
    Binds joined cs (fun column => k (f column)) vars (k a) vars₁ :=
  ⟨h.order, fun final hp => congrArg k (h.result final hp)⟩

theorem keeps (h : Binds joined cs f vars a vars₁) : vars <+: vars₁ := by
  obtain ⟨order, -, rfl⟩ := h.order
  exact prefix_bindColumns joined vars order

/-- Two parts one after the other. -/
theorem both (ha : Binds joined cs f vars a vars₂) (hb : Binds joined ds g vars₂ b vars₁)
    (k : α → β → γ) :
    Binds joined (cs ++ ds) (fun column => k (f column) (g column)) vars (k a b) vars₁ := by
  refine ⟨?_, fun final hp => ?_⟩
  · obtain ⟨first, hfirst, rfl⟩ := ha.order
    obtain ⟨second, hsecond, rfl⟩ := hb.order
    exact ⟨first ++ second, hfirst.append hsecond, List.foldl_append.symm⟩
  · rw [ha.result final (hb.keeps.trans hp), hb.result final hp]

theorem perm (h : Binds joined cs f vars a vars₁) (hp : cs.Perm ds) :
    Binds joined ds f vars a vars₁ := by
  obtain ⟨order, horder, hvars⟩ := h.order
  exact ⟨⟨order, horder.trans hp, hvars⟩, h.result⟩

end Binds

/-- The value of a column is what it stands for once it is bound. -/
theorem columnTerm_eq (joined : String) (c : Column) (vars : Variables) :
    columnTerm joined c vars =
      .ok (boundTerm joined (bindColumn joined vars c) c, bindColumn joined vars c) := by
  unfold columnTerm boundTerm bindColumn
  split
  · rfl
  · rw [variableOf?_bindVariable]
    rfl

/-- A column that is bound goes on standing for the same. -/
theorem boundTerm_mono {joined : String} {c : Column} {vars final : Variables}
    (hp : bindColumn joined vars c <+: final) :
    boundTerm joined final c = boundTerm joined (bindColumn joined vars c) c := by
  unfold bindColumn at hp ⊢
  unfold boundTerm
  split
  · rfl
  · next hq =>
    rw [if_neg hq] at hp
    have hbound := variableOf?_bindVariable vars c.path
    rw [variableOf?_mono hp hbound, hbound]

theorem binds_columnTerm {joined : String} {c : Column} {vars vars₁ : Variables} {v : Value}
    (h : columnTerm joined c vars = .ok (v, vars₁)) :
    Binds joined [c] (fun column => column c) vars v vars₁ := by
  rw [columnTerm_eq] at h
  cases h
  exact ⟨⟨[c], .refl _, rfl⟩, fun final hp => (boundTerm_mono hp).symm⟩

mutual

/-- **Compiling a part of a condition binds its columns**, and its value is the one that is made of
their variables. -/
theorem binds_term {joined : String} {place : Place} : ∀ {e : Expr} {vars vars₁ : Variables}
    {v : Value}, term joined place e vars = .ok (v, vars₁) →
    Binds joined e.columns (fun column => termWith column e) vars v vars₁
  | .literal value, vars, vars₁, v, h => by
    cases place with
    | condition => cases h
    | operand =>
      obtain ⟨rfl, rfl⟩ := pure_binding_eq_ok.1 h
      exact .pure joined vars _
  | .column c, vars, vars₁, v, h => binds_columnTerm h
  | .call name args, vars, vars₁, v, h => by
    obtain ⟨values, hv, rfl⟩ := term_call_ok h
    exact (binds_terms hv).map _
  | .compare left op right, vars, vars₁, v, h => by
    obtain ⟨u, w, vars₂, hu, hw, rfl⟩ := term_compare_ok h
    exact (binds_term hu).both (binds_term hw) fun u w =>
      Value.single op.operator (.array [u, w])
  | .isNull operand negated, vars, vars₁, v, h => by
    obtain ⟨u, hu, rfl⟩ := term_isNull_ok h
    exact (binds_term hu).map fun u =>
      Value.single (if negated then "$ne" else "$eq") (.array [u, .null])
  | .inList operand list negated, vars, vars₁, v, h => by
    obtain ⟨values, u, vars₂, hv, hu, rfl⟩ := term_inList_ok h
    -- The list is compiled before the operand.
    exact ((binds_terms hv).both (binds_term hu) fun values u =>
      negateIf negated (.single "$in" (.array [u, .array values]))).perm List.perm_append_comm
  | .logic op left right, vars, vars₁, v, h => by
    obtain ⟨u, w, vars₂, hu, hw, rfl⟩ := term_logic_ok h
    exact (binds_term hu).both (binds_term hw) fun u w =>
      Value.single (Filter.connectiveKey op) (.array (chained op left u ++ chained op right w))
  | .parens inner negated, vars, vars₁, v, h => by
    obtain ⟨u, hu, rfl⟩ := term_parens_ok h
    exact (binds_term hu).map (negateIf negated)
  | .not inner, vars, vars₁, v, h => by
    obtain ⟨u, hu, rfl⟩ := term_not_ok h
    exact (binds_term hu).map (negateIf true)
  | .like _ _ _, vars, vars₁, v, h | .wildcard, vars, vars₁, v, h
  | .subquery _, vars, vars₁, v, h => by
    cases h

theorem binds_terms {joined : String} : ∀ {es : List Expr} {vars vars₁ : Variables}
    {values : List Value}, terms joined es vars = .ok (values, vars₁) →
    Binds joined (Expr.columnsOfList es) (fun column => termsWith column es) vars values vars₁
  | [], vars, vars₁, values, h => by
    obtain ⟨rfl, rfl⟩ := pure_binding_eq_ok.1 h
    exact .pure joined vars _
  | e :: es, vars, vars₁, values, h => by
    obtain ⟨u, us, vars₂, hu, hus, rfl⟩ := terms_cons_ok h
    exact (binds_term hu).both (binds_terms hus) List.cons

end

/-- Compiling a part of a condition leaves the variables that are there. -/
theorem subset_term {joined : String} {place : Place} {e : Expr} {vars vars₁ : Variables}
    {v : Value} (h : term joined place e vars = .ok (v, vars₁)) : vars ⊆ vars₁ :=
  (binds_term h).keeps.subset

theorem subset_terms {joined : String} {es : List Expr} {vars vars₁ : Variables}
    {values : List Value} (h : terms joined es vars = .ok (values, vars₁)) : vars ⊆ vars₁ :=
  (binds_terms h).keeps.subset

end DocQuery.Plan
