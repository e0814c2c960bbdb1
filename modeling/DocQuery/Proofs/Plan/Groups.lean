import DocQuery.Proofs.Model.SelectList
import DocQuery.Proofs.Plan.Compile
import Mathlib.Data.List.Induction

/-!
# What the groups of a statement are made of

The select list is gone through once to make the groups of a statement, and its `ORDER BY` once to
put them in order. `groupingOf_ofModel` says what each item of the select list contributes to the
aggregates and to the projection, and `addGroupedKey_ok` what each key of the ordering does. What is
said of groups elsewhere is derived from these two.
-/

namespace DocQuery

open Syntax

namespace Plan

/-! ## Paths without repetitions -/

theorem distinctPaths_concat (paths : List String) (path : String) :
    distinctPaths (paths ++ [path]) =
      if path ∈ distinctPaths paths then distinctPaths paths
      else distinctPaths paths ++ [path] := by
  simp [distinctPaths, List.foldl_append]

theorem mem_distinctPaths {paths : List String} {path : String} :
    path ∈ distinctPaths paths ↔ path ∈ paths := by
  induction paths using List.reverseRecOn with
  | nil => simp [distinctPaths]
  | append_singleton paths last ih =>
    rw [distinctPaths_concat, List.mem_append, List.mem_singleton, ← ih]
    split
    · next h => exact ⟨.inl, fun hp => hp.elim id fun e => e ▸ h⟩
    · rw [List.mem_append, List.mem_singleton]

theorem nodup_distinctPaths (paths : List String) : (distinctPaths paths).Nodup := by
  induction paths using List.reverseRecOn with
  | nil => simp [distinctPaths]
  | append_singleton paths last ih =>
    rw [distinctPaths_concat]
    split
    · exact ih
    · next h =>
      refine List.nodup_append.2 ⟨ih, by simp, ?_⟩
      rintro path hp _ hlast rfl
      exact h (List.mem_singleton.1 hlast ▸ hp)

theorem mem_groupedFields {m : Model} {path : String} :
    path ∈ groupedFields m ↔ path ∈ m.selectColumns.map (·.1) ∨ path ∈ m.groupKeys := by
  rw [groupedFields, mem_distinctPaths, List.mem_append]

theorem idReferenceIn_of_mem {fields : List String} {path : String} (h : path ∈ fields) :
    idReferenceIn fields path =
      some (if fields.length = 1 then "_id" else "_id." ++ safeKey path) := by
  rw [idReferenceIn, if_pos (List.contains_iff_mem.2 h)]

theorem idReferenceIn_eq_none {fields : List String} {path : String} :
    idReferenceIn fields path = none ↔ path ∉ fields := by
  unfold idReferenceIn
  split
  · next h => simpa using h
  · next h => simpa using h

theorem mem_of_idReferenceIn {fields : List String} {path place : String}
    (h : idReferenceIn fields path = some place) : path ∈ fields := by
  refine Decidable.of_not_not fun hn => ?_
  cases (idReferenceIn_eq_none.2 hn).symm.trans h

/-! ## Aggregates -/

/-- An aggregate is computed by one of a few operators, none of which is `$first`. -/
theorem accumulator_ok {f : Call} {value : Value} (h : accumulator f = .ok value) :
    ∃ op operand, op ∈ ["$sum", "$min", "$max", "$avg"] ∧ value = .single op operand := by
  unfold accumulator at h
  dsimp only at h
  split at h
  · cases h
    exact ⟨"$sum", .int 1, by decide, rfl⟩
  · next hcount =>
    split at h
    · next hname =>
      split at h
      · cases h
        refine ⟨"$" ++ f.lowerName, _, ?_, rfl⟩
        have hmem : f.lowerName ∈ aggregateNames := List.contains_iff_mem.1 hname
        simp only [aggregateNames, List.mem_cons, List.not_mem_nil, or_false] at hmem
        rcases hmem with h | h | h | h | h
        · exact absurd h hcount
        all_goals rw [h]; decide
      · cases h
    · cases h

/-- The aggregate that an item of the select list is: its output name and what computes it. -/
def aggregateOf? : SelectItem → Option (String × Value)
  | .expr (.call name args) aliasName =>
    (accumulator ⟨name, args⟩).toOption.map fun value =>
      (accumulatorName ⟨name, args⟩ aliasName, value)
  | _ => none

/-- The final name of an item of the select list, and where in a group its value is found. -/
def groupOutput? (fields : List String) : SelectItem → Option (String × Value)
  | .expr (.column c) aliasName =>
    (idReferenceIn fields c.path).map fun place =>
      (aliasName.getD c.path, .string (fieldReference place))
  | .expr (.call name args) aliasName => some (accumulatorName ⟨name, args⟩ aliasName, .int 1)
  | _ => none

/-- What an item adds to the aggregates and to the projection of a grouping. -/
structure Adds (fields : List String) (item : SelectItem) (acc acc' : Document × Document) :
    Prop where
  /-- A call adds an aggregate. -/
  aggregates : acc'.1 = acc.1 ++ (aggregateOf? item).toList
  /-- A call is one of an aggregate. -/
  computed : ∀ name args aliasName, item = .expr (.call name args) aliasName →
    ∃ value, accumulator ⟨name, args⟩ = .ok value
  /-- An aggregate is added under a new name. -/
  new : ∀ entry ∈ aggregateOf? item, entry.1 ∉ Keyed.keys acc.1
  /-- The entry of the item is written to the projection. -/
  projection : acc'.2 = Keyed.putAll acc.2 (groupOutput? fields item).toList

variable {fields : List String} {items : List SelectItem} {item : SelectItem}
  {acc acc' : Document × Document}

theorem addItem_ok (h : addItem fields acc item = .ok acc') : Adds fields item acc acc' := by
  unfold addItem at h
  split at h
  · next c aliasName =>
    split at h
    · next place hplace =>
      cases h
      exact ⟨by simp [aggregateOf?], by simp, by simp [aggregateOf?],
        by simp [groupOutput?, hplace, Keyed.putAll]⟩
    · next hplace =>
      cases h
      exact ⟨by simp [aggregateOf?], by simp, by simp [aggregateOf?],
        by simp [groupOutput?, hplace, Keyed.putAll]⟩
  · next name args aliasName =>
    dsimp only at h
    split at h
    · cases h
    · next hused =>
      obtain ⟨value, hv, h⟩ := bind_eq_ok.1 h
      cases h
      have hnew := mt Keyed.hasKey_iff_mem_keys.2 hused
      have hentry : aggregateOf? (.expr (.call name args) aliasName) =
          some (accumulatorName ⟨name, args⟩ aliasName, value) := by
        simp [aggregateOf?, hv, Except.toOption]
      refine ⟨?_, ?_, ?_, rfl⟩
      · rw [hentry]
        exact Keyed.put_of_notMem_keys hnew value
      · rintro _ _ _ ⟨⟩
        exact ⟨value, hv⟩
      · rw [hentry]
        rintro _ ⟨⟩
        exact hnew
  · next hcolumn hcall =>
    cases h
    have haggregate : aggregateOf? item = none := by
      unfold aggregateOf?
      split
      · next name args aliasName => exact absurd rfl (hcall name args aliasName)
      · rfl
    have hgrouped : groupOutput? fields item = none := by
      unfold groupOutput?
      split
      · next c aliasName => exact absurd rfl (hcolumn c aliasName)
      · next name args aliasName => exact absurd rfl (hcall name args aliasName)
      · rfl
    refine ⟨?_, fun name args aliasName hi => absurd hi (hcall name args aliasName), ?_, ?_⟩
    · simp [haggregate]
    · simp [haggregate]
    · simp [hgrouped, Keyed.putAll]

/-- What the aggregates and the projection of a grouping are once some items are done. -/
structure Collected (fields : List String) (items : List SelectItem) (acc : Document × Document) :
    Prop where
  /-- There is an aggregate for each call. -/
  aggregates : acc.1 = items.filterMap aggregateOf?
  /-- Each call is one of an aggregate. -/
  computed : ∀ name args aliasName, .expr (.call name args) aliasName ∈ items →
    ∃ value, accumulator ⟨name, args⟩ = .ok value
  /-- The aggregates have different names. -/
  nodup : (Keyed.keys acc.1).Nodup
  /-- The entries of the items are written to the projection one after the other. -/
  projection : acc.2 = Keyed.putAll [] (items.filterMap (groupOutput? fields))

theorem Collected.nil : Collected fields [] ([], []) :=
  ⟨rfl, by simp, .nil, rfl⟩

theorem Collected.concat (h : Collected fields items acc) (ha : Adds fields item acc acc') :
    Collected fields (items ++ [item]) acc' where
  aggregates := by
    rw [ha.aggregates, h.aggregates, List.filterMap_append]
    cases haggregate : aggregateOf? item <;> simp [haggregate]
  computed name args aliasName hi := by
    rcases List.mem_append.1 hi with hi | hi
    · exact h.computed name args aliasName hi
    · exact ha.computed name args aliasName (List.mem_singleton.1 hi).symm
  nodup := by
    rw [ha.aggregates]
    cases haggregate : aggregateOf? item with
    | none => simpa using h.nodup
    | some entry =>
      have hnew := ha.new entry haggregate
      rw [Option.toList_some, ← Keyed.put_of_notMem_keys hnew]
      exact Keyed.nodup_keys_put h.nodup _ _
  projection := by
    rw [ha.projection, h.projection, List.filterMap_append, Keyed.putAll_append]
    cases hgrouped : groupOutput? fields item <;> simp [hgrouped]

/-! ## The grouping of a model -/

/-- What the grouping of a model is made of. -/
structure GroupingOf (m : Model) (g : Grouping) : Prop where
  /-- The selected columns and the keys are grouped by. -/
  fields : g.fields = groupedFields m
  /-- The key of a group is made of the fields. -/
  id : g.id = groupId g.fields
  /-- There is an aggregate for each call. -/
  aggregates : g.accumulators = m.items.filterMap aggregateOf?
  /-- Each call is one of an aggregate. -/
  computed : ∀ name args aliasName, .expr (.call name args) aliasName ∈ m.items →
    ∃ value, accumulator ⟨name, args⟩ = .ok value
  /-- The aggregates have different names. -/
  nodup : (Keyed.keys g.accumulators).Nodup
  /-- The id of a group is left out of the projection after all items are written to it. -/
  projection : g.projection =
    Keyed.put (Keyed.putAll [] (m.items.filterMap (groupOutput? g.fields))) "_id" (.int 0)

/-- **The grouping of a model is made of its select list and its keys.** -/
theorem groupingOf_ofModel {m : Model} {g : Grouping} (h : Grouping.ofModel m = .ok g) :
    GroupingOf m g := by
  unfold Grouping.ofModel at h
  obtain ⟨acc, hacc, h⟩ := bind_eq_ok.1 h
  cases h
  have hall : Collected (groupedFields m) m.items acc :=
    foldlM_induction hacc .nil fun _ _ _ _ hdone hstep => hdone.concat (addItem_ok hstep)
  exact ⟨rfl, rfl, hall.aggregates, hall.computed, hall.nodup, by rw [← hall.projection]⟩

variable {m : Model} {g : Grouping}

/-- An aggregate of the select list is found under its output name. -/
theorem GroupingOf.mem_accumulators (h : GroupingOf m g) {name : String} {args : List Expr}
    {aliasName : Option String} (hi : .expr (.call name args) aliasName ∈ m.items) :
    ∃ value, accumulator ⟨name, args⟩ = .ok value ∧
      (accumulatorName ⟨name, args⟩ aliasName, value) ∈ g.accumulators := by
  obtain ⟨value, hv⟩ := h.computed name args aliasName hi
  refine ⟨value, hv, ?_⟩
  rw [h.aggregates, List.mem_filterMap]
  exact ⟨_, hi, by simp [aggregateOf?, hv, Except.toOption]⟩

/-- Every aggregate is one of the select list. -/
theorem GroupingOf.of_mem_accumulators (h : GroupingOf m g) {output : String} {value : Value}
    (hm : (output, value) ∈ g.accumulators) :
    ∃ name args aliasName, .expr (.call name args) aliasName ∈ m.items ∧
      accumulatorName ⟨name, args⟩ aliasName = output ∧ accumulator ⟨name, args⟩ = .ok value := by
  rw [h.aggregates] at hm
  obtain ⟨item, hi, hm⟩ := List.mem_filterMap.1 hm
  unfold aggregateOf? at hm
  split at hm
  · next name args aliasName =>
    obtain ⟨value', hv, he⟩ := toOption_map_eq_some.1 hm
    cases he
    exact ⟨name, args, aliasName, hi, rfl, hv⟩
  · cases hm

/-! ## The ordering of groups -/

/-- The field that a key of an ordering carries through the groups, because it is not found in
them. -/
def carriedField? (m : Model) (g : Grouping) (key : OrderKey) : Option String :=
  match key.expr with
  | .column c =>
    if m.aliases.isAggregate c.path || g.fields.contains (m.aliases.fieldOf c.path) then none
    else some (m.aliases.fieldOf c.path)
  | _ => none

/-- The fields that the ordering of a statement carries through its groups. -/
def carriedFields (m : Model) (g : Grouping) : List String :=
  m.orderBy.filterMap (carriedField? m g)

/-- The accumulator that carries a field through the groups. -/
def firstEntry (field : String) : String × Value :=
  (safeKey field, .single "$first" (.string (fieldReference field)))

/-- Whether a group has a field of a given name: an aggregate, or the place of a grouped field. -/
def Grouping.Has (g : Grouping) (name : String) : Prop :=
  name ∈ Keyed.keys g.accumulators ∨ ∃ path ∈ g.fields, g.idReference? path = some name

/-- **A key of an ordering of groups** orders them by what is found in them, or carries a field
through them. -/
theorem addGroupedKey_ok {o o' : RowOrder} {key : OrderKey} (h : addGroupedKey m g o key = .ok o') :
    (∃ name, carriedField? m g key = none ∧ (m.aliases.isAggregate name = true ∨ g.Has name) ∧
      o' = { o with sort := Keyed.put o.sort name (direction key) }) ∨
    ∃ field, carriedField? m g key = some field ∧ field ∉ g.fields ∧
      o' = {
        sort := Keyed.put o.sort (safeKey field) (direction key)
        beforeGroups := Keyed.put o.beforeGroups field (direction key)
        firsts := Keyed.put o.firsts (firstEntry field).1 (firstEntry field).2 } := by
  unfold addGroupedKey at h
  unfold carriedField?
  split at h
  · next c hc =>
    cases h
    rw [hc]
    unfold addGroupedColumn
    dsimp only
    cases haggregate : m.aliases.isAggregate c.path with
    | true =>
      exact .inl ⟨c.path, rfl, .inl haggregate, rfl⟩
    | false =>
      rw [if_neg Bool.false_ne_true, Bool.false_or]
      cases hplace : g.idReference? (m.aliases.fieldOf c.path) with
      | some place =>
        have hmem : m.aliases.fieldOf c.path ∈ g.fields := mem_of_idReferenceIn hplace
        rw [if_pos (List.contains_iff_mem.2 hmem)]
        exact .inl ⟨place, rfl, .inr (.inr ⟨_, hmem, hplace⟩), rfl⟩
      | none =>
        have hmem := idReferenceIn_eq_none.1 hplace
        rw [if_neg (mt List.contains_iff_mem.1 hmem)]
        exact .inr ⟨_, rfl, hmem, rfl⟩
  · next name args hc =>
    rw [hc]
    dsimp only at h ⊢
    split at h
    · next hkey =>
      cases h
      exact .inl ⟨_, rfl, .inr (.inl (Keyed.hasKey_iff_mem_keys.1 hkey)), rfl⟩
    · cases h
  · cases h

/-- The fields that the keys carry through the groups are kept by accumulators of their own, the
last one of several under the same name. -/
theorem firsts_grouped {order : RowOrder} (h : RowOrder.grouped m g = .ok order) :
    order.firsts = Keyed.putAll [] ((carriedFields m g).map firstEntry) := by
  unfold RowOrder.grouped at h
  unfold carriedFields
  refine foldlM_induction
    (P := fun done o =>
      o.firsts = Keyed.putAll [] ((done.filterMap (carriedField? m g)).map firstEntry))
    h rfl ?_
  intro done o key o' hdone hkey
  rw [List.filterMap_append, List.map_append, Keyed.putAll_append, ← hdone]
  obtain ⟨name, hcarried, -, rfl⟩ | ⟨field, hcarried, -, rfl⟩ := addGroupedKey_ok hkey
  · simp [hcarried, Keyed.putAll]
  · simp [hcarried, Keyed.putAll]

end Plan

open Plan

/-- A statement with groups compiles by way of its grouping and the ordering of its groups. -/
theorem compileSelect_groups {s : Settings} {query : Select} {q : Query}
    (h : compileSelect s query = .ok q) (hg : q.grouping = true) :
    ∃ m g order, Model.ofSelect query = .ok m ∧ m.hasGrouping = true ∧ Grouping.ofModel m = .ok g ∧
      RowOrder.grouped m g = .ok order ∧ q.projection = g.body order.firsts ∧
      q.groupProjection = g.projection ∧ q.sort = order.sort ∧
      ∀ e, m.having = some e → compileHaving s m g e = .ok q.having := by
  obtain ⟨m, origin, hm, -, h⟩ := compileSelect_ok h
  obtain ⟨joined, filter, stages, -, -, -, h⟩ := compileModel_ok h
  split at h
  · next hgroups =>
    obtain ⟨g, order, having, hgrouping, horder, hhaving, rfl⟩ := addGroups_ok h
    refine ⟨m, g, order, hm, hgroups, hgrouping, horder, rfl, rfl, rfl, ?_⟩
    intro e he
    rw [he] at hhaving
    exact hhaving
  · next hgroups =>
    obtain ⟨order, -, -, rfl⟩ := addPlain_ok h
    exact absurd hg hgroups

/-- The model and the grouping of a compiled statement. -/
def Compiled.groups? (c : Compiled) : Option (Model × Grouping) :=
  match c.statement with
  | .select query => do
    let m ← (Model.ofSelect query).toOption
    let g ← (Grouping.ofModel m).toOption
    return (m, g)
  | .delete _ _ _ => none

/-- What is true of the groups of a text can be found by evaluation. -/
theorem exists_groups {β : Type} (s : Settings) (text : String) (f : Query → Model → Grouping → β)
    (b : β) (h : ((compile s text).toOption.bind fun c => c.groups?.map fun groups =>
      f c.query groups.1 groups.2) = some b) :
    ∃ c query m g, compile s text = .ok c ∧ c.statement = .select query ∧
      compileSelect s query = .ok c.query ∧ Model.ofSelect query = .ok m ∧
      Grouping.ofModel m = .ok g ∧ f c.query m g = b := by
  obtain ⟨c, hc, h⟩ := toOption_bind_eq_some.1 h
  obtain ⟨⟨m, g⟩, hgroups, hf⟩ := Option.map_eq_some_iff.1 h
  unfold Compiled.groups? at hgroups
  split at hgroups
  · next query hs =>
    obtain ⟨m', hm, hgroups⟩ := toOption_bind_eq_some.1 hgroups
    obtain ⟨g', hg, hgroups⟩ := toOption_bind_eq_some.1 hgroups
    cases hgroups
    exact ⟨c, query, m, g, hc, hs, (compile_select_ok hc hs).1, hm, hg, hf⟩
  · cases hgroups

end DocQuery
