import DocQuery.Proofs.Plan.GroupKey
import DocQuery.Proofs.Plan.Scope
import DocQuery.Proofs.Spans

/-!
# Where references to aggregates are read from

A condition on groups and an ordering refer to an aggregate by a call, which is looked up among the
selected aggregates by name: by the alias of one with the same text in any case, else by the name
that is made for it. `aggregates_readFrom` says which selected aggregate is read for a call, and
that it is the right one exactly if it computes the same function of the same field. Another
function is read only if an alias is spelled like the name made for the call.
-/

namespace DocQuery

open Syntax

/-! ## Texts up to the case of ASCII letters -/

namespace Text

/-- ASCII letters are not passed over in the search for cased neighbours. -/
theorem isCaseIgnorable_of_letter {c : Char}
    (h : 0x41 ≤ c.toNat ∧ c.toNat ≤ 0x5A ∨ 0x61 ≤ c.toNat ∧ c.toNat ≤ 0x7A) :
    isCaseIgnorable c = false := by
  have hapart : ∀ span ∈ ignorableSpans,
      (span.2 < 0x41 ∨ 0x5A < span.1) ∧ (span.2 < 0x61 ∨ 0x7A < span.1) := by decide +kernel
  rw [isCaseIgnorable, ← Bool.not_eq_true, Spans.contains_iff]
  rintro ⟨span, hs, hl, hu⟩
  have hs := hapart span hs
  omega

/-- A character is treated like its lower case as an ASCII letter when a text is put in lower
case. -/
theorem casing_asciiLower (c : Char) :
    lowerChar (asciiLower c) = lowerChar c ∧ isCased (asciiLower c) = isCased c ∧
      isCaseIgnorable (asciiLower c) = isCaseIgnorable c ∧
      ((asciiLower c).toNat = 0x3A3 ↔ c.toNat = 0x3A3) := by
  by_cases hc : 0x41 ≤ c.toNat ∧ c.toNat ≤ 0x5A
  · have hall : ∀ n : Fin 0x5B, 0x41 ≤ n.val →
        lowerChar (asciiLower (Char.ofNat n)) = lowerChar (Char.ofNat n) ∧
          isCased (asciiLower (Char.ofNat n)) = isCased (Char.ofNat n) ∧
          (asciiLower (Char.ofNat n)).toNat = n + 0x20 := by
      decide +kernel
    obtain ⟨hlower, hcased, hcode⟩ := hall ⟨c.toNat, Nat.lt_succ_of_le hc.2⟩ hc.1
    rw [Char.ofNat_toNat] at hlower hcased hcode
    dsimp only at hcode
    refine ⟨hlower, hcased, ?_, by omega⟩
    rw [isCaseIgnorable_of_letter (.inl hc), isCaseIgnorable_of_letter (.inr (by omega))]
  · rw [asciiLower, if_neg hc]
    exact ⟨rfl, rfl, rfl, .rfl⟩

theorem startsCased_map_asciiLower (cs : List Char) :
    startsCased (cs.map asciiLower) = startsCased cs := by
  induction cs with
  | nil => rfl
  | cons c cs ih =>
    obtain ⟨-, hcased, hignorable, -⟩ := casing_asciiLower c
    unfold startsCased at ih ⊢
    rw [List.map_cons, List.dropWhile_cons, List.dropWhile_cons, hignorable]
    by_cases hi : isCaseIgnorable c = true
    · rw [if_pos hi, if_pos hi, ih]
    · rw [if_neg hi, if_neg hi]
      exact hcased

theorem lowerFrom_map_asciiLower (before cs : List Char) :
    lowerFrom (before.map asciiLower) (cs.map asciiLower) = lowerFrom before cs := by
  induction cs generalizing before with
  | nil => rfl
  | cons c cs ih =>
    obtain ⟨hlower, -, -, hsigma⟩ := casing_asciiLower c
    have hrest := ih (c :: before)
    rw [List.map_cons] at hrest ⊢
    rw [lowerFrom, lowerFrom, hrest, hlower]
    by_cases hc : c.toNat = 0x3A3
    · rw [if_pos hc, if_pos (hsigma.2 hc), isFinalSigma, isFinalSigma, startsCased_map_asciiLower,
        startsCased_map_asciiLower]
    · rw [if_neg hc, if_neg (mt hsigma.1 hc)]

/-- Texts that are equal up to the case of ASCII letters have one lower case. -/
theorem lower_eq_of_sameIgnoringCase {s t : String}
    (h : s.toList.map asciiLower = t.toList.map asciiLower) : lower s = lower t := by
  unfold lower
  rw [← lowerFrom_map_asciiLower [] s.toList, ← lowerFrom_map_asciiLower [] t.toList, h]

/-- A character that is its own lower case stays in a text. -/
theorem mem_lowerFrom {c : Char} (h : lowerChar c = [c]) (hs : c.toNat ≠ 0x3A3) :
    ∀ {before cs : List Char}, c ∈ cs → c ∈ lowerFrom before cs := by
  intro before cs hc
  induction cs generalizing before with
  | nil => cases hc
  | cons d cs ih =>
    rw [lowerFrom, List.mem_append]
    rcases List.mem_cons.1 hc with rfl | hc
    · rw [if_neg hs, h]
      exact .inl (List.mem_singleton.2 rfl)
    · exact .inr (ih hc)

end Text

/-- What stands before the first mark of a text. -/
theorem takeWhile_append_mark {mark : Char} {cs ds : List Char} (h : mark ∉ cs)
    (hd : ∀ d ∈ ds.head?, d = mark) : (cs ++ ds).takeWhile (· != mark) = cs := by
  have hcs : ∀ c ∈ cs, (c != mark) = true := fun c hc => bne_iff_ne.2 fun he => h (he ▸ hc)
  exact (span_append hcs ds fun d hm => by rw [hd d hm, bne_self_eq_false]).1

namespace Plan

/-! ## What an aggregate computes -/

/-- The field that an aggregate works on: its first column. A count works on no field. -/
def operand? (f : Call) : Option String :=
  if f.lowerName = "count" then none else f.columnArgs.head?.map Column.path

/-- Whether two calls are aggregates that compute the same function of the same field. -/
def SameAggregate (f f' : Call) : Prop :=
  f.lowerName = f'.lowerName ∧ (operand? f).map fieldReference = (operand? f').map fieldReference

theorem operand?_of_count {f : Call} (h : f.lowerName = "count") : operand? f = none :=
  if_pos h

/-- An aggregate counts, or it applies its function to its field. -/
theorem accumulator_eq_ok_iff {f : Call} {value : Value} :
    accumulator f = .ok value ↔
      f.lowerName = "count" ∧ value = .single "$sum" (.int 1) ∨
      ∃ path, operand? f = some path ∧ f.lowerName ∈ aggregateNames ∧
        value = .single ("$" ++ f.lowerName) (.string (fieldReference path)) := by
  by_cases hc : f.lowerName = "count"
  · simp [accumulator, operand?, hc, eq_comm]
  · by_cases hn : f.lowerName ∈ aggregateNames
    · cases ha : f.columnArgs <;> simp [accumulator, operand?, hc, hn, ha, eq_comm]
    · simp [accumulator, operand?, hc, hn]

theorem mem_aggregateNames_of_accumulator {f : Call} {value : Value}
    (h : accumulator f = .ok value) : f.lowerName ∈ aggregateNames := by
  obtain ⟨hc, -⟩ | ⟨path, -, hn, -⟩ := accumulator_eq_ok_iff.1 h
  · rw [hc]
    decide
  · exact hn

/-- Two calls are computed alike exactly if they are the same aggregate. -/
theorem accumulator_eq_iff_same {f f' : Call} {value : Value} (h' : accumulator f' = .ok value) :
    accumulator f = .ok value ↔ SameAggregate f f' := by
  unfold SameAggregate
  rw [accumulator_eq_ok_iff]
  obtain ⟨hc', rfl⟩ | ⟨path', hp', hn', rfl⟩ := accumulator_eq_ok_iff.1 h'
  · rw [hc', operand?_of_count hc']
    constructor
    · rintro (⟨hc, -⟩ | ⟨path, -, -, hv⟩)
      · exact ⟨hc, by rw [operand?_of_count hc]⟩
      · simp [Value.single] at hv
    · rintro ⟨hc, -⟩
      exact .inl ⟨hc, rfl⟩
  · rw [hp']
    constructor
    · rintro (⟨hc, hv⟩ | ⟨path, hp, -, hv⟩)
      · simp [Value.single] at hv
      · simp only [Value.single, Value.document.injEq, List.cons.injEq, Prod.mk.injEq,
          Value.string.injEq, and_true] at hv
        obtain ⟨hname, hpath⟩ := hv
        exact ⟨(String.append_right_inj _).1 hname.symm, hp ▸ congrArg some hpath.symm⟩
    · rintro ⟨hname, hpath⟩
      obtain ⟨path, hp, hpath⟩ := Option.map_eq_some_iff.1 hpath
      exact .inr ⟨path, hp, hname ▸ hn', by rw [hname, hpath]⟩

/-! ## The names of aggregates -/

/-- What the name of an aggregate says of its field. -/
def fieldSuffix (field : Option String) : String := field.elim "" fun path => "_" ++ safeKey path

theorem fieldSuffix_inj {field field' : Option String} :
    fieldSuffix field = fieldSuffix field' ↔ field.map safeKey = field'.map safeKey := by
  cases field <;> cases field' <;> simp [fieldSuffix]

theorem head?_fieldSuffix (field : Option String) :
    ∀ d ∈ (fieldSuffix field).toList.head?, d = '_' := by
  cases field <;> simp [fieldSuffix]

/-- The name that is made for an aggregate: its function, and its field if it has one. -/
theorem accumulatorName_none (f : Call) :
    accumulatorName f none = f.lowerName ++ fieldSuffix (operand? f) := by
  unfold accumulatorName operand?
  dsimp only
  by_cases hc : f.lowerName = "count"
  · rw [if_pos hc, if_pos hc]
    exact String.append_empty.symm
  · rw [if_neg hc, if_neg hc]
    cases f.columnArgs with
    | nil => exact String.append_empty.symm
    | cons c _ => exact String.append_assoc

/-- One name is made for two aggregates exactly if their functions are the same and their fields
cannot be told apart in the keys of a group. -/
theorem accumulatorName_none_inj {f f' : Call} (h : f.lowerName ∈ aggregateNames)
    (h' : f'.lowerName ∈ aggregateNames) :
    accumulatorName f none = accumulatorName f' none ↔
      f.lowerName = f'.lowerName ∧ (operand? f).map safeKey = (operand? f').map safeKey := by
  -- No function has an underscore in its name, so the first one is that of the suffix.
  have hplain : ∀ name ∈ aggregateNames, '_' ∉ name.toList := by decide
  have hname : ∀ f : Call, f.lowerName ∈ aggregateNames →
      (accumulatorName f none).toList.takeWhile (· != '_') = f.lowerName.toList := by
    intro f hf
    rw [accumulatorName_none, String.toList_append,
      takeWhile_append_mark (hplain _ hf) (head?_fieldSuffix _)]
  constructor
  · intro heq
    have hfunction : f.lowerName = f'.lowerName := by
      apply String.toList_injective
      rw [← hname f h, ← hname f' h', heq]
    rw [accumulatorName_none, accumulatorName_none, hfunction, String.append_right_inj,
      fieldSuffix_inj] at heq
    exact ⟨hfunction, heq⟩
  · rintro ⟨hfunction, hfield⟩
    rw [accumulatorName_none, accumulatorName_none, hfunction, fieldSuffix_inj.2 hfield]

/-- Aggregates of one function whose fields have one key are the same if the fields are. -/
theorem sameAggregate_iff_of_safeKey {f f' : Call} (hname : f.lowerName = f'.lowerName)
    (hkey : (operand? f).map safeKey = (operand? f').map safeKey) :
    SameAggregate f f' ↔ operand? f = operand? f' := by
  refine ⟨fun h => ?_, fun h => ⟨hname, by rw [h]⟩⟩
  have href := h.2
  cases ho : operand? f with
  | none =>
    rw [ho] at hkey
    exact (Option.map_eq_none_iff.1 hkey.symm).symm
  | some path =>
    rw [ho] at hkey href
    obtain ⟨path', ho', hkey⟩ := Option.map_eq_some_iff.1 hkey.symm
    rw [ho'] at href
    rw [ho', eq_of_safeKey_eq hkey (Option.some.inj href).symm]

/-- The name of an aggregate has no parenthesis, in whatever case it is written. -/
theorem notMem_name {f : Call} (h : f.lowerName ∈ aggregateNames) :
    '(' ∉ f.name.toList.map Text.asciiLower := by
  intro hm
  have hplain : ∀ name ∈ aggregateNames, '(' ∉ name.toList := by decide
  refine hplain _ h ?_
  rw [Call.lowerName, Text.lower, String.toList_ofList, ← Text.lowerFrom_map_asciiLower]
  exact Text.mem_lowerFrom (by decide) (by decide) hm

/-- Aggregates with one text, in any case, have the same function. -/
theorem lowerName_eq_of_render {f f' : Call} (h : f.lowerName ∈ aggregateNames)
    (h' : f'.lowerName ∈ aggregateNames)
    (heq : Text.sameIgnoringCase f.render f'.render = true) : f.lowerName = f'.lowerName := by
  have hname : ∀ f : Call, f.lowerName ∈ aggregateNames →
      (f.render.toList.map Text.asciiLower).takeWhile (· != '(') =
        f.name.toList.map Text.asciiLower := by
    intro f hf
    obtain ⟨rest, hrest⟩ : ∃ rest, f.render.toList = f.name.toList ++ '(' :: rest := by
      simp [Call.render, Call.toExpr, Expr.render]
    rw [hrest, List.map_append, takeWhile_append_mark (notMem_name hf)]
    rintro d ⟨⟩
    rfl
  rw [Text.sameIgnoringCase, beq_iff_eq] at heq
  apply Text.lower_eq_of_sameIgnoringCase
  rw [← hname f h, ← hname f' h', heq]

/-! ## The aggregates that are read -/

/-- How a call finds a selected aggregate with a given alias. -/
inductive Finds (m : Model) (f selected : Call) : Option String → Prop where
  /-- The call has the text of the aggregate, in any case, and the alias is known. -/
  | text {name : String} (h : m.aliases.aliasOf? f.render = some name)
    (ht : Text.sameIgnoringCase selected.render f.render = true) : Finds m f selected (some name)
  /-- The alias is spelled like the name that is made for the call. -/
  | spelling (h : m.aliases.aliasOf? f.render = none) :
    Finds m f selected (some (accumulatorName f none))
  /-- One name is made for both. -/
  | name (h : m.aliases.aliasOf? f.render = none)
    (hn : accumulatorName selected none = accumulatorName f none) : Finds m f selected none

/-- Whether a call is read from an aggregate that computes what the call says. -/
def ReadRight (m : Model) (g : Grouping) (f : Call) : Prop :=
  ∃ value, accumulator f = .ok value ∧ Keyed.get? g.accumulators (outputName m f) = some value

/-- What is read for a call, and whether it is right. -/
structure ReadFrom (m : Model) (g : Grouping) (f selected : Call) (aliasName : Option String) :
    Prop where
  /-- The aggregate that is read is selected. -/
  item : .expr selected.toExpr aliasName ∈ m.items
  /-- It is found by the text of the call or by the name made for it. -/
  found : Finds m f selected aliasName
  /-- The field that the call is resolved to holds that aggregate. -/
  stored : ∃ value, accumulator selected = .ok value ∧
    Keyed.get? g.accumulators (outputName m f) = some value
  /-- It is the right one exactly if it is the same aggregate. -/
  right : ReadRight m g f ↔ SameAggregate f selected
  /-- The function is another one only if the alias is spelled like the name made for the call. -/
  function : f.lowerName ∈ aggregateNames → f.lowerName ≠ selected.lowerName →
    m.aliases.aliasOf? f.render = none ∧ aliasName = some (accumulatorName f none)
  /-- Of an aggregate without alias the function is right, and its field is another one only if both
  have the same key. -/
  field : f.lowerName ∈ aggregateNames → aliasName = none →
    f.lowerName = selected.lowerName ∧
      (operand? f).map safeKey = (operand? selected).map safeKey ∧
      (SameAggregate f selected ↔ operand? f = operand? selected)

variable {m : Model} {g : Grouping} {f selected : Call} {aliasName : Option String}

/-- The alias of an aggregate with a given text is that of a selected call with this text, in any
case. -/
theorem exists_call_of_aliasOf? {items : List SelectItem} {signature name : String}
    (h : (Model.AliasTable.ofItems items).aliasOf? signature = some name) :
    ∃ selected : Call, .expr selected.toExpr (some name) ∈ items ∧
      Text.sameIgnoringCase selected.render signature = true := by
  obtain ⟨⟨name', target⟩, hentry, h⟩ := List.exists_of_findSome?_eq_some h
  obtain ⟨c, -, rfl⟩ | ⟨selected, hi, rfl⟩ := Model.exists_item_of_mem_ofItems hentry
  · cases h
  · dsimp only at h
    split at h
    · next hsame =>
      cases h
      exact ⟨selected, hi, hsame⟩
    · cases h

/-- The function of a selected aggregate is that of the call, or the alias of the aggregate is
spelled like the name made for the call. -/
theorem Finds.function (h : Finds m f selected aliasName) (hf : f.lowerName ∈ aggregateNames)
    (hs : selected.lowerName ∈ aggregateNames) (hne : f.lowerName ≠ selected.lowerName) :
    m.aliases.aliasOf? f.render = none ∧ aliasName = some (accumulatorName f none) := by
  cases h with
  | text h ht => exact absurd (lowerName_eq_of_render hs hf ht).symm hne
  | spelling h => exact ⟨h, rfl⟩
  | name h hn => exact absurd ((accumulatorName_none_inj hs hf).1 hn).1.symm hne

/-- A call whose name is that of an aggregate finds it in the select list. -/
theorem GroupingOf.exists_finds (h : GroupingOf m g)
    (ha : m.aliases = Model.AliasTable.ofItems m.items)
    (hk : outputName m f ∈ Keyed.keys g.accumulators) :
    ∃ selected aliasName, .expr selected.toExpr aliasName ∈ m.items ∧
      Finds m f selected aliasName ∧ accumulatorName selected aliasName = outputName m f := by
  unfold outputName at hk ⊢
  cases hname : m.aliases.aliasOf? f.render with
  | some name =>
    obtain ⟨selected, hi, hsame⟩ := exists_call_of_aliasOf? (ha ▸ hname)
    exact ⟨selected, some name, hi, .text hname hsame, rfl⟩
  | none =>
    rw [hname] at hk
    obtain ⟨⟨_, value⟩, hentry, rfl⟩ := List.mem_map.1 hk
    obtain ⟨name, args, aliasName, hi, hname', -⟩ := h.of_mem_accumulators hentry
    refine ⟨⟨name, args⟩, aliasName, hi, ?_, hname'⟩
    cases aliasName with
    | some spelled =>
      cases hname'
      exact .spelling hname
    | none => exact .name hname hname'

theorem GroupingOf.exists_readFrom (h : GroupingOf m g)
    (ha : m.aliases = Model.AliasTable.ofItems m.items)
    (hk : outputName m f ∈ Keyed.keys g.accumulators) :
    ∃ selected aliasName, ReadFrom m g f selected aliasName := by
  obtain ⟨selected, aliasName, hi, hfound, hname⟩ := h.exists_finds ha hk
  obtain ⟨value, hv, hentry⟩ := h.mem_accumulators hi
  have hget : Keyed.get? g.accumulators (outputName m f) = some value := by
    rw [← hname]
    exact Keyed.get?_of_mem h.nodup hentry
  have hs : selected.lowerName ∈ aggregateNames := mem_aggregateNames_of_accumulator hv
  refine ⟨selected, aliasName, hi, hfound, ⟨value, hv, hget⟩, ?_, fun hf => hfound.function hf hs,
    fun hf hnone => ?_⟩
  · rw [← accumulator_eq_iff_same hv, ReadRight, hget]
    constructor
    · rintro ⟨value', hv', heq⟩
      cases heq
      exact hv'
    · exact fun hv' => ⟨value, hv', rfl⟩
  · subst hnone
    cases hfound with
    | name _ hn =>
      obtain ⟨hname, hkey⟩ := (accumulatorName_none_inj hf hs).1 hn.symm
      exact ⟨hname, hkey, sameAggregate_iff_of_safeKey hname hkey⟩

/-- A call in an ordering is accepted if there is an aggregate under its output name. -/
theorem addGroupedKey_call {o o' : RowOrder} {key : OrderKey} (hkey : key.expr.call? = some f)
    (h : addGroupedKey m g o key = .ok o') : outputName m f ∈ Keyed.keys g.accumulators ∧
      o' = { o with sort := Keyed.put o.sort (outputName m f) (direction key) } := by
  unfold addGroupedKey at h
  split at h
  · next c hc =>
    rw [hc] at hkey
    cases hkey
  · next name args hc =>
    rw [hc] at hkey
    cases hkey
    dsimp only at h
    split at h
    · next hk =>
      cases h
      exact ⟨Keyed.hasKey_iff_mem_keys.1 hk, rfl⟩
    · cases h
  · cases h

/-- The only aggregate of a condition on groups can be found by evaluation. -/
theorem exists_aggregate_of_having {β : Type} {p : Call → β} {b : β}
    (h : ((m.having.toList.flatMap groupParts).filterMap aggregate?).map p = [b]) :
    ∃ e part f, m.having = some e ∧ e.Comes isAggregate part ∧ aggregate? part = some f ∧
      p f = b := by
  have hb : b ∈ ((m.having.toList.flatMap groupParts).filterMap aggregate?).map p :=
    h ▸ List.mem_singleton.2 rfl
  obtain ⟨f, hf, rfl⟩ := List.mem_map.1 hb
  obtain ⟨part, hpart, hf⟩ := List.mem_filterMap.1 hf
  obtain ⟨e, he, hp⟩ := exists_comes_of_having hpart
  exact ⟨e, part, f, he, hp, hf, rfl⟩

end Plan

open Plan

/-- **A reference to an aggregate is read from a selected one, which is the right one if it is the
same aggregate.** In a condition on groups and in an ordering, a call that is accepted becomes the
field of its output name, and that field holds a selected aggregate that the call finds by its text
or by its name. It holds what the call computes exactly if both have the same function and the same
field. -/
theorem aggregates_readFrom {statement : Statement} {m : Model} {g : Grouping}
    (hm : Model.ofStatement statement = .ok m) (hg : Grouping.ofModel m = .ok g) :
    (∀ e e' part f, resolveHaving m g e = .ok e' → e.Comes isAggregate part →
      aggregate? part = some f →
      e' = e.transform (groupField? m g) ∧
      groupField? m g part = some (.column (Column.ofPath (outputName m f))) ∧
      ∃ selected aliasName, ReadFrom m g f selected aliasName) ∧
    ∀ o o' key f, key.expr.call? = some f → addGroupedKey m g o key = .ok o' →
      o' = { o with sort := Keyed.put o.sort (outputName m f) (direction key) } ∧
      ∃ selected aliasName, ReadFrom m g f selected aliasName := by
  have hof := groupingOf_ofModel hg
  have ha := Model.ofStatement_aliases hm
  constructor
  · intro e e' part f he hp hf
    obtain ⟨hr, rfl⟩ := resolveHaving_eq_ok_iff.1 he
    exact ⟨rfl, by simp only [groupField?, hf], hof.exists_readFrom ha (hr.aggregates part f hp hf)⟩
  · intro o o' key f hkey h
    obtain ⟨hk, ho⟩ := addGroupedKey_call hkey h
    exact ⟨ho, hof.exists_readFrom ha hk⟩

/-- A condition on an aggregate with an alias, in another case, and an ordering by one without. -/
theorem aggregates_readFrom_aliased : ∃ c query m g e e' part f key o f',
    compile {} ("SELECT a, SUM(b) AS total, MAX(c.d) FROM t GROUP BY a" ++
      " HAVING sum(b) > 1 ORDER BY MAX(c.d)") = .ok c ∧
    c.statement = .select query ∧ Model.ofStatement (.select query) = .ok m ∧
    Grouping.ofModel m = .ok g ∧ m.having = some e ∧ resolveHaving m g e = .ok e' ∧
    e.Comes isAggregate part ∧ aggregate? part = some f ∧ outputName m f = "total" ∧
    (∃ selected aliasName, ReadFrom m g f selected aliasName) ∧ key ∈ m.orderBy ∧
    key.expr.call? = some f' ∧ addGroupedKey m g {} key = .ok o ∧ Keyed.keys o.sort = ["max_c_d"] ∧
    ∃ selected aliasName, ReadFrom m g f' selected aliasName := by
  obtain ⟨c, query, m, g, hc, hs, hq, hm, hg, hfacts⟩ := exists_groups {}
    ("SELECT a, SUM(b) AS total, MAX(c.d) FROM t GROUP BY a" ++
      " HAVING sum(b) > 1 ORDER BY MAX(c.d)")
    (fun q m g => (q.grouping,
      ((m.having.toList.flatMap groupParts).filterMap aggregate?).map (outputName m),
      m.orderBy.map fun key => (key.expr.call?.isSome,
        (addGroupedKey m g {} key).toOption.map fun o => Keyed.keys o.sort)))
    (true, ["total"], [(true, some ["max_c_d"])]) (by decide +kernel)
  obtain ⟨hgroups, hfacts⟩ := Prod.mk.inj hfacts
  obtain ⟨hhaving, horder⟩ := Prod.mk.inj hfacts
  obtain ⟨e, part, f, he, hp, hf, hname⟩ := exists_aggregate_of_having hhaving
  obtain ⟨e', hresolved⟩ := exists_resolveHaving hq hgroups hm hg he
  obtain ⟨key, hk, hkey⟩ := List.mem_map.1 (horder.symm ▸ List.mem_singleton.2 rfl)
  obtain ⟨hcall, hkey⟩ := Prod.mk.inj hkey
  obtain ⟨f', hf'⟩ := Option.isSome_iff_exists.1 hcall
  obtain ⟨o, ho, hsort⟩ := toOption_map_eq_some.1 hkey
  have hst : Model.ofStatement (.select query) = .ok m := hm
  obtain ⟨hconditions, horders⟩ := aggregates_readFrom hst hg
  exact ⟨c, query, m, g, e, e', part, f, key, o, f', hc, hs, hst, hg, he, hresolved, hp, hf, hname,
    (hconditions e e' part f hresolved hp hf).2.2, hk, hf', ho, hsort,
    (horders {} o key f' hf' ho).2⟩

/-- The count of a condition is read from a sum whose alias is spelled like the name of a count. -/
theorem aggregates_readFrom_misnamed : ∃ c query m g e e' part f,
    compile {} "SELECT a, SUM(b) AS count FROM t GROUP BY a HAVING COUNT(*) > 1" = .ok c ∧
    c.statement = .select query ∧ Model.ofStatement (.select query) = .ok m ∧
    Grouping.ofModel m = .ok g ∧ m.having = some e ∧ resolveHaving m g e = .ok e' ∧
    e.Comes isAggregate part ∧ aggregate? part = some f ∧ f.lowerName = "count" ∧
    ¬ ReadRight m g f := by
  obtain ⟨c, query, m, g, hc, hs, hq, hm, hg, hfacts⟩ := exists_groups {}
    "SELECT a, SUM(b) AS count FROM t GROUP BY a HAVING COUNT(*) > 1"
    (fun q m _ => (q.grouping,
      ((m.having.toList.flatMap groupParts).filterMap aggregate?).map Call.lowerName,
      m.items.filterMap fun item => (item.expr?.bind Expr.call?).map Call.lowerName))
    (true, ["count"], ["sum"]) (by decide +kernel)
  obtain ⟨hgroups, hfacts⟩ := Prod.mk.inj hfacts
  obtain ⟨hhaving, hselected⟩ := Prod.mk.inj hfacts
  obtain ⟨e, part, f, he, hp, hf, hcount⟩ := exists_aggregate_of_having hhaving
  obtain ⟨e', hresolved⟩ := exists_resolveHaving hq hgroups hm hg he
  have hst : Model.ofStatement (.select query) = .ok m := hm
  refine ⟨c, query, m, g, e, e', part, f, hc, hs, hst, hg, he, hresolved, hp, hf, hcount, ?_⟩
  have hkey := (resolveHaving_eq_ok_iff.1 hresolved).1.aggregates part f hp hf
  obtain ⟨selected, aliasName, hread⟩ :=
    (groupingOf_ofModel hg).exists_readFrom (Model.ofStatement_aliases hst) hkey
  rw [hread.right]
  rintro ⟨hfunction, -⟩
  have hsum : selected.lowerName ∈ ["sum"] :=
    hselected ▸ List.mem_filterMap.2 ⟨_, hread.item, rfl⟩
  rw [← hfunction, hcount] at hsum
  exact absurd hsum (by decide)

end DocQuery
