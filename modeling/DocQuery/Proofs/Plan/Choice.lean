import DocQuery.Proofs.Plan.Level

/-!
# Which operation is chosen

A statement is sent as a pipeline unless something simpler answers it. Which operation that is can
be read off its clauses: `Select.BareDistinct` and `Select.BareCount` are the two shortcuts, and
`compileSelect_sent` says for every kind of operation when it is chosen and what it carries.

A nested source does not stand in the way of a shortcut if all its levels hand on what they read
(`Select.HandsOn`), since it then has no stages (`Stacked.eq_nil_iff`).
-/

namespace DocQuery

open Syntax Plan

namespace Syntax.Select

/-- A level that hands on the documents of its source as they are. -/
structure HandsOn (q : Select) : Prop where
  wildcard : q.isWildcard = true
  joins : q.joins = []
  condition : q.condition = none
  orderBy : q.orderBy = []
  limit : q.limit = none
  offset : q.offset = none

/-- A statement whose rows are found with a filter alone. -/
structure FiltersOnly (q : Select) : Prop where
  joins : q.joins = []
  source : ∀ level ∈ q.source.levels, level.HandsOn

/-- A statement that asks for the distinct values of one column. -/
structure BareDistinct (q : Select) : Prop extends FiltersOnly q where
  distinct : q.distinct = true
  column : ∃ c, q.items = [.expr (.column c) none]
  groupBy : q.groupBy = []
  orderBy : q.orderBy = []
  limit : q.limit = none
  offset : q.offset = none

/-- A statement that asks for the number of rows. -/
structure BareCount (q : Select) : Prop extends FiltersOnly q where
  count : ∃ name args, q.items = [.expr (.call name args) none] ∧
    Call.isCountAll ⟨name, args⟩ = true
  groupBy : q.groupBy = []
  having : q.having = none

theorem BareDistinct.not_bareCount {q : Select} (h : q.BareDistinct) : ¬q.BareCount := by
  intro hc
  obtain ⟨c, hcolumn⟩ := h.column
  obtain ⟨name, args, hcall, -⟩ := hc.count
  cases hcolumn.symm.trans hcall

end Syntax.Select

variable {s : Settings} {query : Select}

/-! ## Levels without stages -/

theorem Translated.eq_none_iff {e : Option Expr} {d : Option Document} (h : Translated s e d) :
    d = none ↔ e = none := by
  cases h <;> simp

/-- A level has no stages exactly if it has none of the parts. -/
theorem Plan.Level.stages_eq_nil_iff (l : Level) :
    l.stages = [] ↔ l.pushed = none ∧ l.joins = [] ∧ l.residual = none ∧ l.groups = none ∧
      l.sort = none ∧ l.skip = none ∧ l.limit = none ∧ l.project = none := by
  have hjoins : l.joins.flatMap JoinPart.stages = [] ↔ l.joins = [] := by
    cases l.joins <;> simp [JoinPart.stages]
  have hgroups : l.groups.elim [] GroupPart.stages = [] ↔ l.groups = none := by
    cases l.groups <;> simp [GroupPart.stages]
  simp only [Level.stages, Level.rowStages, Level.resultStages, Level.orderedStages,
    List.append_eq_nil_iff, hjoins, hgroups, Option.toList_eq_nil_iff, Option.map_eq_none_iff]
  tauto

/-- A level has no stages exactly if it hands on what it reads. -/
theorem LevelOf.stages_eq_nil_iff {l : Level} (h : LevelOf s query l) :
    l.stages = [] ↔ query.HandsOn := by
  have hjoins : l.joins = [] ↔ query.joins = [] := by
    rw [← List.length_eq_zero_iff, ← h.rows.joins.length_eq, List.length_eq_zero_iff]
  have hsort : l.sort = none ↔ query.orderBy = [] := by
    rw [← Option.isNone_iff_eq_none, ← Option.not_isSome, h.sort, Bool.not_not, List.isEmpty_iff]
  have hproject : l.project = none ↔ query.isWildcard = true := by
    rw [← Option.isNone_iff_eq_none, ← Option.not_isSome, h.project, Bool.not_not]
  rw [Level.stages_eq_nil_iff]
  constructor
  · rintro ⟨hp, hj, -, -, ho, hskip, hlimit, hw⟩
    rw [h.skip, Option.map_eq_none_iff] at hskip
    rw [h.limit, Option.map_eq_none_iff] at hlimit
    have hj := hjoins.1 hj
    have hc := (h.rows.whole hj).1.eq_none_iff.1 hp
    exact ⟨hproject.1 hw, hj, Option.map_eq_none_iff.1 hc, hsort.1 ho, hlimit, hskip⟩
  · intro hh
    obtain ⟨hp, hr⟩ := h.rows.whole hh.joins
    have hc : query.rowCondition = none := Option.map_eq_none_iff.2 hh.condition
    have hg : l.groups = none := by
      -- A level that groups does not select all fields.
      cases hl : l.groups with
      | none => rfl
      | some part =>
        obtain _ | ⟨hgroups, hm, -, -, -, -⟩ := hl ▸ h.groups
        have hw := Model.isWildcard_eq_false_of_groups hm hgroups
        cases hh.wildcard.symm.trans hw
    refine ⟨hp.eq_none_iff.2 hc, hjoins.2 hh.joins, hr, hg, hsort.2 hh.orderBy, ?_, ?_,
      hproject.2 hh.wildcard⟩
    · rw [h.skip, hh.offset, Option.map_none]
    · rw [h.limit, hh.limit, Option.map_none]

/-- A stack has no stages exactly if all levels hand on what they read. -/
theorem Stacked.eq_nil_iff {levels : List Select} {pipeline : List Document}
    (h : Stacked s levels pipeline) : pipeline = [] ↔ ∀ level ∈ levels, level.HandsOn := by
  obtain ⟨blocks, hblocks, rfl⟩ := h
  rw [List.map_eq_nil_iff]
  induction hblocks with
  | nil => simp
  | cons hl _ ih =>
    rw [List.flatMap_cons, List.append_eq_nil_iff, List.forall_mem_cons, ih, hl.stages_eq_nil_iff]

/-! ## The shortcuts -/

variable {prior : List Document}

/-- A field is found exactly if all tests for it succeed. -/
theorem isSome_distinctField (m : Model) :
    (distinctField m prior).isSome = true ↔
      m.distinct = true ∧ m.explicitGroups = false ∧ m.joins = [] ∧ prior = [] ∧ m.orderBy = [] ∧
        m.limit = none ∧ m.offset = none ∧ m.items.length = 1 ∧ m.aliases = [] ∧
          m.selectColumns ≠ [] := by
  simp only [distinctField, Bool.and_eq_true, Bool.not_eq_true', decide_eq_true_eq,
    List.isEmpty_iff, Option.isNone_iff_eq_none]
  split
  · next hc => simp [hc]
  · next hc =>
    simp only [Option.isSome_none, Bool.false_eq_true, false_iff]
    tauto

/-- A field is found for a query of distinct values exactly if nothing else is asked for. -/
theorem isSome_distinctField_iff_bareDistinct
    (hprior : prior = [] ↔ ∀ level ∈ query.source.levels, level.HandsOn) :
    (distinctField (.ofClauses query) prior).isSome = true ↔ query.BareDistinct := by
  rw [isSome_distinctField, Model.lone_column_iff, hprior]
  simp only [Model.ofClauses, Bool.not_eq_false', List.isEmpty_iff, List.map_eq_nil_iff]
  constructor
  · rintro ⟨hd, hg, hj, hp, ho, hl, hoff, hc⟩
    exact ⟨⟨hj, hp⟩, hd, hc, hg, ho, hl, hoff⟩
  · rintro ⟨⟨hj, hp⟩, hd, hc, hg, ho, hl, hoff⟩
    exact ⟨hd, hg, hj, hp, ho, hl, hoff, hc⟩

/-- No pipeline is needed exactly if there is nothing that needs one. -/
theorem needsPipeline_eq_false_iff (m : Model) :
    m.needsPipeline prior = false ↔ m.aliases = [] ∧ m.groupKeys = [] ∧ m.joins = [] ∧ prior = [] ∧
      m.having = none ∧ (m.totalGroup = true → m.countAll = true) := by
  simp only [Model.needsPipeline, Bool.or_eq_false_iff, Bool.not_eq_false', List.isEmpty_iff,
    Option.isSome_eq_false_iff, Option.isNone_iff_eq_none, Bool.and_eq_false_imp, and_assoc]

/-- All rows are counted without a pipeline exactly if nothing else is asked for. -/
theorem countAll_and_not_needsPipeline_iff_bareCount
    (hprior : prior = [] ↔ ∀ level ∈ query.source.levels, level.HandsOn) :
    (Model.ofClauses query).countAll = true ∧ (Model.ofClauses query).needsPipeline prior = false ↔
      query.BareCount := by
  rw [needsPipeline_eq_false_iff, hprior]
  constructor
  · rintro ⟨hcount, haliases, hg, hj, hp, hh, -⟩
    obtain ⟨name, args, hi, hcount⟩ := (Model.lone_count_iff query).1 ⟨hcount, haliases⟩
    rw [Model.groupKeys_of_lone_call hi] at hg
    exact ⟨⟨List.map_eq_nil_iff.1 hj, hp⟩, ⟨name, args, hi, hcount⟩, hg,
      Option.map_eq_none_iff.1 hh⟩
  · rintro ⟨⟨hj, hp⟩, ⟨name, args, hi, hcount⟩, hg, hh⟩
    obtain ⟨hcount, haliases⟩ := (Model.lone_count_iff query).2 ⟨name, args, hi, hcount⟩
    exact ⟨hcount, haliases, (Model.groupKeys_of_lone_call hi).2 hg, List.map_eq_nil_iff.2 hj, hp,
      Option.map_eq_none_iff.2 hh, fun _ => hcount⟩

/-! ## The choice -/

/-- The operation that a statement is sent as. -/
inductive Sent (s : Settings) (query : Select) (q : Query) : Operation → Prop where
  /-- Distinct values of a column. -/
  | distinct (field : String) (h : query.BareDistinct) :
    Sent s query q (.distinct q.collection field q.filter)
  /-- The number of rows. -/
  | count (h : query.BareCount) : Sent s query q (.count q.collection q.filter)
  /-- A plain read, where there is nothing that needs a pipeline. -/
  | find (hd : ¬query.BareDistinct) (hc : ¬query.BareCount) (hf : query.FiltersOnly)
    (hh : query.having = none) :
    Sent s query q (.find ⟨q.collection, q.filter, q.projection, q.sort,
      query.offset.map Int.ofNat, query.limit.map Int.ofNat⟩)
  /-- A pipeline. -/
  | aggregate (hd : ¬query.BareDistinct) (hc : ¬query.BareCount) :
    Sent s query q (.aggregate q.collection q.pipeline s.pipelineOptions)

/-- **The operation of a statement is chosen by its clauses.** -/
theorem compileSelect_sent {q : Query} (h : compileSelect s query = .ok q) :
    Sent s query q (Operation.ofQuery s q) := by
  obtain ⟨m, origin, hm, ho, hq⟩ := compileSelect_ok h
  obtain ⟨-, -, rfl⟩ := Model.ofSelect_ok hm
  obtain ⟨_, _, _, -, -, -, _, _, _, _, _, hq⟩ := compileModel_frame hq
  have hprior := (compileSource_levels ho).eq_nil_iff
  have hdistinct : q.distinctField.isSome = true ↔ query.BareDistinct :=
    hq ▸ isSome_distinctField_iff_bareDistinct hprior
  have hcount : q.countAll = true ∧ q.needsPipeline = false ↔ query.BareCount :=
    hq ▸ countAll_and_not_needsPipeline_iff_bareCount hprior
  have hneeds : q.needsPipeline = (Model.ofClauses query).needsPipeline origin.priorStages :=
    hq ▸ rfl
  have hoffset : q.offset = query.offset.map Int.ofNat := hq ▸ rfl
  have hlimit : q.limit = query.limit.map Int.ofNat := hq ▸ rfl
  unfold Operation.ofQuery
  rw [compileSelect_command h]
  cases hf : q.distinctField with
  | some field => exact .distinct field (hdistinct.1 (by rw [hf, Option.isSome_some]))
  | none =>
    have hd : ¬query.BareDistinct := by
      rw [← hdistinct, hf, Option.isSome_none]
      exact Bool.false_ne_true
    dsimp only
    split
    · next hn => exact .aggregate hd fun hc => Bool.eq_false_iff.1 (hcount.2 hc).2 hn
    · next hn =>
      have hn := Bool.eq_false_iff.2 hn
      split
      · next hall => exact .count (hcount.1 ⟨hall, hn⟩)
      · next hall =>
        obtain ⟨-, -, hj, hp, hh, -⟩ := (needsPipeline_eq_false_iff _).1 (hneeds ▸ hn)
        rw [hoffset, hlimit]
        exact .find hd (fun hc => hall (hcount.2 hc).1) ⟨List.map_eq_nil_iff.1 hj, hprior.1 hp⟩
          (Option.map_eq_none_iff.1 hh)

theorem compile_sent {text : String} {c : Compiled} (h : compile s text = .ok c)
    (hs : c.statement = .select query) : Sent s query c.query c.operation := by
  obtain ⟨hq, hop⟩ := compile_select_ok h hs
  rw [hop]
  exact compileSelect_sent hq

end DocQuery
