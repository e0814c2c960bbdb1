import DocQuery.Proofs.Plan.GroupKey

/-!
# What the group stage keeps

The body of the group stage is written in three layers: the key of the groups under `_id`, then the
aggregates under their output names, then the fields that the ordering carries through the groups.
A later layer replaces what an earlier one has under the same name, so that an alias or a key of an
ordering can take the place of an aggregate or of the key. `compileSelect_keepsGroups_iff` says that
the key and the aggregates are kept exactly if the names are apart.
-/

namespace DocQuery

open Syntax

namespace Plan

variable {m : Model} {g : Grouping} {order : RowOrder}

/-- The body of a group stage has the key of the groups and all aggregates of the select list. -/
structure KeepsGroups (m : Model) (g : Grouping) (body : Document) : Prop where
  /-- The key is the one of the grouping. -/
  key : Keyed.get? body "_id" = some g.id
  /-- An aggregate is computed under its output name. -/
  aggregates : ∀ name args aliasName, .expr (.call name args) aliasName ∈ m.items →
    ∃ value, accumulator ⟨name, args⟩ = .ok value ∧
      Keyed.get? body (accumulatorName ⟨name, args⟩ aliasName) = some value

/-- No name is used in two layers of the body of a group stage. -/
structure NamesApart (m : Model) (g : Grouping) : Prop where
  /-- No aggregate has the name of the key. -/
  aggregates : "_id" ∉ Keyed.keys g.accumulators
  /-- No field that the ordering carries has the name of the key or of an aggregate. -/
  carried : ∀ field ∈ carriedFields m g,
    safeKey field ≠ "_id" ∧ safeKey field ∉ Keyed.keys g.accumulators

/-! ## Layers differ in what they hold -/

/-- The key of a group is not computed by an operator. A key of several fields with a single entry
has an underscore for a dot in its name. -/
theorem groupId_ne_single {paths : List String} (h : paths.Nodup) {op : String}
    (hop : '_' ∉ op.toList) (operand : Value) : groupId paths ≠ .single op operand := by
  intro heq
  rcases paths with _ | ⟨first, _ | ⟨second, others⟩⟩
  · cases heq
  · cases heq
  · have hkey : ∀ path ∈ first :: second :: others, path = op := by
      intro path hp
      have hfields : keyFields (first :: second :: others) = [(op, operand)] :=
        Value.document.inj heq
      have hmem : safeKey path ∈ Keyed.keys (keyFields (first :: second :: others)) :=
        Keyed.mem_keys_putAll.2 (.inr (List.mem_map.2 ⟨_, List.mem_map_of_mem hp, rfl⟩))
      have hsafe : safeKey path = op := by
        rw [hfields] at hmem
        exact List.mem_singleton.1 hmem
      rw [← hsafe, safeKey_eq_self (hsafe ▸ hop)]
    have hsame : first = second := (hkey first (by simp)).trans (hkey second (by simp)).symm
    exact (List.nodup_cons.1 h).1 (hsame ▸ List.mem_cons_self)

theorem GroupingOf.id_ne_single (h : GroupingOf m g) {op : String} (hop : '_' ∉ op.toList)
    (operand : Value) : g.id ≠ .single op operand := by
  rw [h.id, h.fields]
  exact groupId_ne_single (nodup_distinctPaths _) hop operand

theorem GroupingOf.id_ne_accumulator (h : GroupingOf m g) {f : Call} {value : Value}
    (hv : accumulator f = .ok value) : g.id ≠ value := by
  obtain ⟨op, operand, hop, rfl⟩ := accumulator_ok hv
  have hplain : ∀ op ∈ ["$sum", "$min", "$max", "$avg"], '_' ∉ op.toList := by decide
  exact h.id_ne_single (hplain op hop) operand

theorem accumulator_ne_first {f : Call} {value : Value} (hv : accumulator f = .ok value)
    (field : String) : value ≠ (firstEntry field).2 := by
  obtain ⟨op, operand, hop, rfl⟩ := accumulator_ok hv
  intro heq
  cases heq
  exact absurd hop (by decide)

/-! ## Reading the body -/

theorem mem_keys_firsts (h : RowOrder.grouped m g = .ok order) {key : String} :
    key ∈ Keyed.keys order.firsts ↔ ∃ field ∈ carriedFields m g, safeKey field = key := by
  rw [firsts_grouped h, Keyed.mem_keys_putAll]
  simp [Keyed.keys, firstEntry]

/-- A name that the ordering carries a field under gives the field, whatever else has the name. -/
theorem get?_body_of_carried (h : RowOrder.grouped m g = .ok order) {field : String}
    (hf : field ∈ carriedFields m g) :
    ∃ field', Keyed.get? (g.body order.firsts) (safeKey field) = some (firstEntry field').2 := by
  obtain ⟨value, hmem, hget⟩ := Keyed.exists_get?_putAll ((mem_keys_firsts h).2 ⟨field, hf, rfl⟩)
  rw [firsts_grouped h] at hmem
  rcases Keyed.mem_of_mem_putAll hmem with hmem | hmem
  · cases hmem
  · obtain ⟨field', -, he⟩ := List.mem_map.1 hmem
    exact ⟨field', hget.trans (congrArg some (congrArg Prod.snd he).symm)⟩

/-- A name that the ordering does not use gives the aggregate of that name. -/
theorem GroupingOf.get?_body_of_mem (h : GroupingOf m g) {output : String} {value : Value}
    (hm : (output, value) ∈ g.accumulators) (hn : output ∉ Keyed.keys order.firsts) :
    Keyed.get? (g.body order.firsts) output = some value :=
  (Keyed.get?_putAll_of_notMem hn).trans (Keyed.get?_putAll_of_mem h.nodup hm)

theorem KeepsGroups.namesApart (h : GroupingOf m g) (ho : RowOrder.grouped m g = .ok order)
    (hk : KeepsGroups m g (g.body order.firsts)) : NamesApart m g := by
  have hcarried : ∀ field ∈ carriedFields m g, safeKey field ≠ "_id" := by
    intro field hf he
    obtain ⟨field', hget⟩ := get?_body_of_carried ho hf
    rw [he, hk.key] at hget
    exact h.id_ne_single (by decide) _ (Option.some.inj hget)
  refine ⟨fun hid => ?_, fun field hf => ⟨hcarried field hf, fun hmem => ?_⟩⟩
  · obtain ⟨⟨_, value⟩, hmem, rfl⟩ := List.mem_map.1 hid
    obtain ⟨name, args, aliasName, -, -, hv⟩ := h.of_mem_accumulators hmem
    have hfree : "_id" ∉ Keyed.keys order.firsts := by
      rw [mem_keys_firsts ho]
      rintro ⟨field, hf, he⟩
      exact hcarried field hf he
    have hget := h.get?_body_of_mem hmem hfree
    rw [hk.key] at hget
    exact h.id_ne_accumulator hv (Option.some.inj hget)
  · obtain ⟨⟨output, value⟩, hentry, hname⟩ := List.mem_map.1 hmem
    obtain ⟨name, args, aliasName, hi, he, -⟩ := h.of_mem_accumulators hentry
    obtain ⟨value', hv', hget'⟩ := hk.aggregates name args aliasName hi
    obtain ⟨field', hget⟩ := get?_body_of_carried ho hf
    rw [← hname, ← he, hget'] at hget
    exact accumulator_ne_first hv' field' (Option.some.inj hget)

theorem NamesApart.keepsGroups (h : GroupingOf m g) (ho : RowOrder.grouped m g = .ok order)
    (ha : NamesApart m g) : KeepsGroups m g (g.body order.firsts) := by
  have hfree : ∀ output, (∀ field ∈ carriedFields m g, safeKey field ≠ output) →
      output ∉ Keyed.keys order.firsts := by
    intro output hne hmem
    obtain ⟨field, hf, he⟩ := (mem_keys_firsts ho).1 hmem
    exact hne field hf he
  refine ⟨?_, fun name args aliasName hi => ?_⟩
  · have hid := hfree "_id" fun field hf => (ha.carried field hf).1
    exact (Keyed.get?_putAll_of_notMem hid).trans (Keyed.get?_putAll_of_notMem ha.aggregates)
  · obtain ⟨value, hv, hmem⟩ := h.mem_accumulators hi
    have hkey : accumulatorName ⟨name, args⟩ aliasName ∈ Keyed.keys g.accumulators :=
      List.mem_map.2 ⟨_, hmem, rfl⟩
    refine ⟨value, hv, h.get?_body_of_mem hmem (hfree _ fun field hf he => ?_)⟩
    exact (ha.carried field hf).2 (he ▸ hkey)

/-- **The body of a group stage has the key and the aggregates exactly if the names are apart.** -/
theorem GroupingOf.keepsGroups_iff (h : GroupingOf m g) (ho : RowOrder.grouped m g = .ok order) :
    KeepsGroups m g (g.body order.firsts) ↔ NamesApart m g :=
  ⟨KeepsGroups.namesApart h ho, NamesApart.keepsGroups h ho⟩

end Plan

open Plan

/-- **The group stage keeps the key of the groups and the aggregates, unless a name is used twice.**
The key is under `_id` and every aggregate of the select list is computed under its output name,
exactly if no aggregate has the output name `_id` and no field that the ordering carries through the
groups goes by `_id` or by the output name of an aggregate. -/
theorem compileSelect_keepsGroups_iff {s : Settings} {query : Select} {q : Query}
    (h : compileSelect s query = .ok q) (hg : q.grouping = true) :
    ∃ m g, Model.ofSelect query = .ok m ∧ Grouping.ofModel m = .ok g ∧
      .group q.projection ∈ q.stages ∧ (KeepsGroups m g q.projection ↔ NamesApart m g) := by
  obtain ⟨m, g, order, hm, -, hgrouping, ho, hbody, -⟩ := compileSelect_groups h hg
  refine ⟨m, g, hm, hgrouping, by simp [Query.stages, Query.groupStages, hg], ?_⟩
  rw [hbody]
  exact (groupingOf_ofModel hgrouping).keepsGroups_iff ho

/-- Two aggregates and an ordering by one of them and by a field that is carried through. -/
theorem compileSelect_keepsGroups_iff_carried : ∃ c query m g, compile {}
      "SELECT a, COUNT(*) AS n, SUM(b) FROM t GROUP BY a ORDER BY n DESC, b.c" = .ok c ∧
    c.statement = .select query ∧ c.query.grouping = true ∧ Model.ofSelect query = .ok m ∧
    Grouping.ofModel m = .ok g ∧ Keyed.keys g.accumulators = ["n", "sum_b"] ∧
    carriedFields m g = ["b.c"] ∧ KeepsGroups m g c.query.projection := by
  obtain ⟨c, query, m, g, hc, hs, hq, hm, hg, hfacts⟩ := exists_groups {}
    "SELECT a, COUNT(*) AS n, SUM(b) FROM t GROUP BY a ORDER BY n DESC, b.c"
    (fun q m g => (q.grouping, Keyed.keys g.accumulators, carriedFields m g))
    (true, ["n", "sum_b"], ["b.c"]) (by decide +kernel)
  obtain ⟨hgroups, hfacts⟩ := Prod.mk.inj hfacts
  obtain ⟨hkeys, hcarried⟩ := Prod.mk.inj hfacts
  have hapart : NamesApart m g := by
    refine ⟨hkeys ▸ by decide, fun field hf => ?_⟩
    rw [hcarried] at hf
    rw [List.mem_singleton.1 hf, hkeys]
    decide +kernel
  obtain ⟨m', g', hm', hg', -, hiff⟩ := compileSelect_keepsGroups_iff hq hgroups
  obtain rfl : m = m' := Except.ok.inj (hm.symm.trans hm')
  obtain rfl : g = g' := Except.ok.inj (hg.symm.trans hg')
  exact ⟨c, query, m, g, hc, hs, hgroups, hm, hg, hkeys, hcarried, hiff.2 hapart⟩

/-- An ordering by the output name of an aggregate replaces the aggregate by a field. -/
theorem compileSelect_loses_aggregate : ∃ c query m g, compile {}
      "SELECT a, COUNT(*) FROM t GROUP BY a ORDER BY count" = .ok c ∧
    c.statement = .select query ∧ c.query.grouping = true ∧ Model.ofSelect query = .ok m ∧
    Grouping.ofModel m = .ok g ∧ carriedFields m g = ["count"] ∧
    ¬ KeepsGroups m g c.query.projection := by
  obtain ⟨c, query, m, g, hc, hs, hq, hm, hg, hfacts⟩ := exists_groups {}
    "SELECT a, COUNT(*) FROM t GROUP BY a ORDER BY count"
    (fun q m g => (q.grouping, Keyed.keys g.accumulators, carriedFields m g))
    (true, ["count"], ["count"]) (by decide +kernel)
  obtain ⟨hgroups, hfacts⟩ := Prod.mk.inj hfacts
  obtain ⟨hkeys, hcarried⟩ := Prod.mk.inj hfacts
  have hclash : ¬ NamesApart m g := by
    intro ha
    have hfree := (ha.carried "count" (hcarried ▸ List.mem_cons_self)).2
    rw [hkeys] at hfree
    exact absurd hfree (by decide +kernel)
  obtain ⟨m', g', order, hm', -, hg', ho, hbody, -⟩ := compileSelect_groups hq hgroups
  obtain rfl : m = m' := Except.ok.inj (hm.symm.trans hm')
  obtain rfl : g = g' := Except.ok.inj (hg.symm.trans hg')
  refine ⟨c, query, m, g, hc, hs, hgroups, hm, hg, hcarried, ?_⟩
  rw [hbody, (groupingOf_ofModel hg).keepsGroups_iff ho]
  exact hclash

end DocQuery
