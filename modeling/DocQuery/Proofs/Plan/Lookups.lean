import DocQuery.Proofs.Plan.References
import DocQuery.Proofs.Syntax.Parts

/-!
# The variables of a lookup

A lookup with a condition on both collections binds variables to fields of the base, and its
condition speaks of the fields by these variables. `lookupBody_variables` says that no variable is
mistaken for another one: the names differ and so do the fields, every variable stands for a column
of the condition, and the condition is the one in which every column is replaced by the variable
that holds it in the end.

The variables are those of the columns, bound one after the other (`binds_term`), so what binding a
field keeps holds of all of them (`WellNamed.bindColumns`). The parts of a condition are compiled on
the way, and what is bound for one of them stays as it is (`compiledWithin_of_contains`).
-/

namespace DocQuery.Plan

open Syntax

/-! ## Names -/

/-- Whether a name starts with one of the letters `a` to `z`. -/
def StartsLower (name : String) : Prop :=
  ∃ ch rest, name.toList = ch :: rest ∧ 'a' ≤ ch ∧ ch ≤ 'z'

theorem StartsLower.append {name : String} (h : StartsLower name) (more : String) :
    StartsLower (name ++ more) := by
  obtain ⟨ch, rest, hname, hch⟩ := h
  exact ⟨ch, rest ++ more.toList, by rw [String.toList_append, hname, List.cons_append], hch⟩

theorem startsLower_variableName (path : String) : StartsLower (variableName path) := by
  unfold variableName
  dsimp only
  split
  · next h =>
    obtain ⟨ch, hhead, hch⟩ := (Option.any_eq_true _ _).1 h
    obtain ⟨rest, hname⟩ := List.head?_eq_some_iff.1 hhead
    rw [isLowerLetter, Bool.and_eq_true, decide_eq_true_eq, decide_eq_true_eq] at hch
    exact ⟨ch, rest, hname, hch⟩
  · have hv : StartsLower "v_" := ⟨'v', ['_'], rfl, by decide⟩
    exact hv.append _

/-- The name of a new variable starts like the name it is made from. -/
theorem startsLower_freshName {base : String} (h : StartsLower base) (vars : Variables) :
    StartsLower (freshName vars base) := by
  have hcandidate : ∀ index, StartsLower (candidateName base index) := by
    intro index
    unfold candidateName
    split
    · exact h
    · rw [String.append_assoc]
      exact h.append _
  unfold freshName
  cases hfind : ((List.range (vars.length + 1)).map (candidateName base)).find? fun name =>
      !Keyed.hasKey vars name with
  | some name =>
    obtain ⟨index, -, rfl⟩ := List.mem_map.1 (List.mem_of_find?_eq_some hfind)
    exact hcandidate index
  | none => exact h

/-! ## Variables that are told apart -/

/-- Variables with names of their own, which start with a lower case letter, for fields that
differ. -/
structure WellNamed (vars : Variables) : Prop where
  names : (Keyed.keys vars).Nodup
  references : (vars.map (·.2)).Nodup
  letters : ∀ name ∈ Keyed.keys vars, StartsLower name

namespace WellNamed

variable {vars : Variables}

theorem nil : WellNamed [] :=
  ⟨List.nodup_nil, List.nodup_nil, fun _ h => absurd h List.not_mem_nil⟩

theorem concat (h : WellNamed vars) {name reference : String} (hname : name ∉ Keyed.keys vars)
    (href : reference ∉ vars.map (·.2)) (hletter : StartsLower name) :
    WellNamed (vars ++ [(name, reference)]) := by
  have hnodup : ∀ {f : String × String → String}, (vars.map f).Nodup →
      f (name, reference) ∉ vars.map f → ((vars ++ [(name, reference)]).map f).Nodup := by
    intro f hf hnew
    rw [List.map_append, List.map_singleton, ← List.concat_eq_append, List.nodup_concat]
    exact ⟨hnew, hf⟩
  refine ⟨hnodup h.names hname, hnodup h.references href, ?_⟩
  intro other hother
  rw [Keyed.keys, List.map_append, List.mem_append] at hother
  rcases hother with hother | hother
  · exact h.letters other hother
  · rw [List.mem_singleton.1 hother]
    exact hletter

theorem bindVariable (h : WellNamed vars) (path : String) :
    WellNamed (bindVariable vars path).2 := by
  obtain ⟨hvars, -⟩ | ⟨hname, href, hvars⟩ := bindVariable_cases vars path
  · rwa [hvars]
  · rw [hvars, hname]
    exact h.concat (freshName_notMem_keys vars _) href
      (startsLower_freshName (startsLower_variableName path) vars)

theorem bindColumns (h : WellNamed vars) (joined : String) (cs : List Column) :
    WellNamed (bindColumns joined vars cs) := by
  induction cs generalizing vars with
  | nil => exact h
  | cons c cs ih =>
    refine ih ?_
    unfold bindColumn
    split
    · exact h
    · exact h.bindVariable c.path

end WellNamed

/-! ## Variables and columns -/

section Columns

variable {joined : String} {vars : Variables}

/-- A variable that is bound holds the field of a column of the base. -/
theorem exists_of_mem_bindColumns {cs : List Column} {entry : String × String}
    (h : entry ∈ bindColumns joined vars cs) :
    entry ∈ vars ∨ ∃ c ∈ cs, c.qualifier ≠ some joined ∧ entry.2 = fieldReference c.path := by
  induction cs generalizing vars with
  | nil => exact .inl h
  | cons c cs ih =>
    rcases ih h with h | ⟨c', hc', hbound⟩
    · unfold bindColumn at h
      split at h
      · exact .inl h
      · next hq =>
        obtain ⟨hvars, -⟩ | ⟨-, -, hvars⟩ := bindVariable_cases vars c.path
        · exact .inl (hvars ▸ h)
        · rw [hvars, List.mem_append, List.mem_singleton] at h
          rcases h with h | rfl
          · exact .inl h
          · exact .inr ⟨c, List.mem_cons_self, hq, rfl⟩
    · exact .inr ⟨c', List.mem_cons_of_mem _ hc', hbound⟩

/-- Every column of the base that is bound has a variable. -/
theorem exists_variableOf?_bindColumns {cs : List Column} {c : Column} (hc : c ∈ cs)
    (hq : c.qualifier ≠ some joined) :
    ∃ name, variableOf? (bindColumns joined vars cs) (fieldReference c.path) = some name := by
  induction cs generalizing vars with
  | nil => cases hc
  | cons first cs ih =>
    rcases List.mem_cons.1 hc with rfl | hc
    · have hbound : variableOf? (bindColumn joined vars c) (fieldReference c.path) =
          some (bindVariable vars c.path).1 := by
        rw [bindColumn, if_neg hq]
        exact variableOf?_bindVariable vars c.path
      exact ⟨_, variableOf?_mono (prefix_bindColumns joined _ cs) hbound⟩
    · exact ih hc

end Columns

/-! ## Parts of a condition -/

/-- A part is compiled between two states of the variables, and what is bound before it and for it
stays as it is. -/
def CompiledWithin (joined : String) (part : Expr) (vars vars₁ : Variables) : Prop :=
  ∃ place before after u, vars <+: before ∧ term joined place part before = .ok (u, after) ∧
    before <+: after ∧ after <+: vars₁

section Parts

variable {joined : String} {place : Place} {e part : Expr} {vars vars₁ : Variables} {v : Value}

theorem CompiledWithin.of_term (h : term joined place e vars = .ok (v, vars₁)) :
    CompiledWithin joined e vars vars₁ :=
  ⟨place, vars, vars₁, v, List.prefix_refl _, h, (binds_term h).keeps, List.prefix_refl _⟩

theorem CompiledWithin.mono {vars' vars₁' : Variables} (h : CompiledWithin joined part vars vars₁)
    (hp : vars' <+: vars) (hp₁ : vars₁ <+: vars₁') : CompiledWithin joined part vars' vars₁' := by
  obtain ⟨place, before, after, u, hbefore, hu, hkeeps, hafter⟩ := h
  exact ⟨place, before, after, u, hp.trans hbefore, hu, hkeeps, hafter.trans hp₁⟩

theorem compiledWithin_of_terms {es : List Expr} {values : List Value}
    (h : terms joined es vars = .ok (values, vars₁)) (hp : part ∈ es) :
    CompiledWithin joined part vars vars₁ := by
  induction es generalizing vars values with
  | nil => cases hp
  | cons e es ih =>
    obtain ⟨u, us, vars₂, hu, hus, -⟩ := terms_cons_ok h
    rcases List.mem_cons.1 hp with rfl | hp
    · exact (CompiledWithin.of_term hu).mono (List.prefix_refl _) (binds_terms hus).keeps
    · exact (ih hus hp).mono (binds_term hu).keeps (List.prefix_refl _)

/-- The parts that an expression is put together from are compiled with it. -/
theorem compiledWithin_of_mem_parts (h : term joined place e vars = .ok (v, vars₁))
    (hp : part ∈ e.parts) : CompiledWithin joined part vars vars₁ := by
  cases e with
  | literal | column | wildcard | subquery => cases hp
  | like => cases h
  | call name args =>
    obtain ⟨values, hv, -⟩ := term_call_ok h
    exact compiledWithin_of_terms hv hp
  | compare left op right =>
    obtain ⟨u, w, vars₂, hu, hw, -⟩ := term_compare_ok h
    rcases List.mem_pair.1 hp with rfl | rfl
    · exact (CompiledWithin.of_term hu).mono (List.prefix_refl _) (binds_term hw).keeps
    · exact (CompiledWithin.of_term hw).mono (binds_term hu).keeps (List.prefix_refl _)
  | isNull operand negated =>
    obtain ⟨u, hu, -⟩ := term_isNull_ok h
    rw [List.mem_singleton.1 hp]
    exact .of_term hu
  | inList operand list negated =>
    obtain ⟨values, u, vars₂, hv, hu, -⟩ := term_inList_ok h
    rcases List.mem_cons.1 hp with rfl | hp
    · exact (CompiledWithin.of_term hu).mono (binds_terms hv).keeps (List.prefix_refl _)
    · exact (compiledWithin_of_terms hv hp).mono (List.prefix_refl _) (binds_term hu).keeps
  | logic op left right =>
    obtain ⟨u, w, vars₂, hu, hw, -⟩ := term_logic_ok h
    rcases List.mem_pair.1 hp with rfl | rfl
    · exact (CompiledWithin.of_term hu).mono (List.prefix_refl _) (binds_term hw).keeps
    · exact (CompiledWithin.of_term hw).mono (binds_term hu).keeps (List.prefix_refl _)
  | parens inner negated =>
    obtain ⟨u, hu, -⟩ := term_parens_ok h
    rw [List.mem_singleton.1 hp]
    exact .of_term hu
  | not inner =>
    obtain ⟨u, hu, -⟩ := term_not_ok h
    rw [List.mem_singleton.1 hp]
    exact .of_term hu

/-- **Every part of a condition is compiled on the way**, at any depth. -/
theorem compiledWithin_of_contains (h : term joined place e vars = .ok (v, vars₁))
    (hp : e.Contains part) : CompiledWithin joined part vars vars₁ := by
  induction hp with
  | refl => exact .of_term h
  | tail _ hpart ih =>
    obtain ⟨place', before, after, u, hbefore, hu, -, hafter⟩ := ih
    exact (compiledWithin_of_mem_parts hu hpart).mono hbefore hafter

end Parts

/-! ## Lookups -/

/-- The condition and the variables of a lookup that has them are found by compiling it. -/
theorem term_of_lookupBody {collection joined : String} {e : Expr} {value : Value}
    {vars : Variables}
    (h : lookupBody collection joined e = .ok (conditionalBody collection joined value vars)) :
    term joined .condition e [] = .ok (value, vars) := by
  cases hf : equatedFields? joined e with
  | some fields =>
    rw [lookupBody, hf] at h
    -- The lookup by two fields has other keys.
    have hkeys := congrArg Keyed.keys (Except.ok.inj h)
    simp [conditionalBody, Keyed.keys] at hkeys
  | none =>
    obtain ⟨value', vars', hterm, hbody⟩ := (lookupBody_eq_ok hf).1 h
    obtain ⟨hbindings, rfl⟩ : bindings vars = bindings vars' ∧ value = value' := by
      simpa [conditionalBody, Value.single] using hbody
    have hinj : Function.Injective fun entry : String × String =>
        (entry.1, Value.string entry.2) := by
      rintro ⟨name, reference⟩ ⟨name', reference'⟩ heq
      simpa using heq
    obtain rfl := hinj.list_map hbindings
    exact hterm

/-- **The variables of a lookup resolve to its columns.** Their names start with a lower case
letter, no two of them hold the same field, and each of them holds the field of a column of the
condition that does not belong to the joined collection. Every such column has a variable, and the
condition is the one in which the column is replaced by it. What is bound when a part of the
condition is compiled is never changed afterwards. -/
theorem lookupBody_variables {collection joined : String} {e : Expr} {value : Value}
    {vars : Variables}
    (h : lookupBody collection joined e = .ok (conditionalBody collection joined value vars)) :
    WellNamed vars ∧
    (∀ entry ∈ vars, ∃ c ∈ e.columns, c.qualifier ≠ some joined ∧
      entry.2 = fieldReference c.path) ∧
    (∀ c ∈ e.columns, c.qualifier ≠ some joined → ∃ name,
      variableOf? vars (fieldReference c.path) = some name ∧
        Keyed.get? vars name = some (fieldReference c.path)) ∧
    value = termWith (boundTerm joined vars) e ∧
    ∀ part, e.Contains part → CompiledWithin joined part [] vars := by
  have hterm := term_of_lookupBody h
  have hbinds := binds_term hterm
  obtain ⟨cs, hperm, hvars⟩ := hbinds.order
  have hnamed : WellNamed vars := hvars ▸ WellNamed.nil.bindColumns joined cs
  refine ⟨hnamed, ?_, ?_, hbinds.result vars (List.prefix_refl _),
    fun part hp => compiledWithin_of_contains hterm hp⟩
  · intro entry hentry
    rcases exists_of_mem_bindColumns (hvars ▸ hentry) with hnil | ⟨c, hc, hbound⟩
    · cases hnil
    · exact ⟨c, hperm.mem_iff.1 hc, hbound⟩
  · intro c hc hq
    have hfound : ∃ name,
        variableOf? (bindColumns joined [] cs) (fieldReference c.path) = some name :=
      exists_variableOf?_bindColumns (hperm.mem_iff.2 hc) hq
    obtain ⟨name, hname⟩ := hvars ▸ hfound
    exact ⟨name, hname, Keyed.get?_of_mem hnamed.names (mem_of_variableOf? hname)⟩

/-- Two fields whose names would clash, one of them used twice. -/
theorem lookupBody_variables_clashing : ∃ e value,
    lookupBody "orders" "o" e =
      .ok (conditionalBody "orders" "o" value [("a_b", "$a.b"), ("a_b_2", "$a_b")]) ∧
    value = .single "$and" (.array [.single "$eq" (.array [.string "$x", .string "$$a_b"]),
      .single "$eq" (.array [.string "$y", .string "$$a_b_2"]),
      .single "$eq" (.array [.string "$z", .string "$$a_b"])]) ∧
    WellNamed [("a_b", "$a.b"), ("a_b_2", "$a_b")] ∧
    value = termWith (boundTerm "o" [("a_b", "$a.b"), ("a_b_2", "$a_b")]) e := by
  have h : lookupBody "orders" "o" (.logic .and
      (.logic .and (.compare (.column ⟨some "o", "x"⟩) .equal (.column ⟨some "a", "b"⟩))
        (.compare (.column ⟨some "o", "y"⟩) .equal (.column ⟨none, "a_b"⟩)))
      (.compare (.column ⟨some "o", "z"⟩) .equal (.column ⟨some "a", "b"⟩))) =
    .ok (conditionalBody "orders" "o"
      (.single "$and" (.array [.single "$eq" (.array [.string "$x", .string "$$a_b"]),
        .single "$eq" (.array [.string "$y", .string "$$a_b_2"]),
        .single "$eq" (.array [.string "$z", .string "$$a_b"])]))
      [("a_b", "$a.b"), ("a_b_2", "$a_b")]) := rfl
  obtain ⟨hnamed, -, -, hvalue, -⟩ := lookupBody_variables h
  exact ⟨_, _, h, rfl, hnamed, hvalue⟩

end DocQuery.Plan
