import DocQuery.Model.Basic
import DocQuery.Proofs.Outcome

/-!
# What the model of a statement makes of its select list

A select list is refused or taken over into the model, and `ofSelect_ok` says when and into which
model. Whether the statement groups and whether it selects all fields can then be read off its
clauses (`hasGrouping_eq`, `isWildcard_ofClauses`), and so can the select lists for which a
compilation has a shortcut: a lone column (`lone_column_iff`) and a lone count of all rows
(`lone_count_iff`), both without an alias.
-/

namespace DocQuery

open Syntax

/-! ## Clauses -/

namespace Syntax.Select

/-- Whether all fields are selected. -/
def isWildcard (q : Select) : Bool :=
  match q.items with
  | [.wildcard] => true
  | _ => false

theorem items_of_isWildcard {q : Select} (h : q.isWildcard = true) : q.items = [.wildcard] := by
  unfold isWildcard at h
  split at h
  · assumption
  · cases h

/-- Whether rows are grouped: by `GROUP BY`, to drop repeated ones, or because an aggregate is
selected. -/
def groups (q : Select) : Bool :=
  !q.groupBy.isEmpty || (q.distinct && !q.items.isEmpty) || q.items.any Model.isCallItem

/-- The condition on rows without the base alias. -/
def rowCondition (q : Select) : Option Expr :=
  q.condition.map (Model.stripExpr (Model.baseAliasOf q.source))

end Syntax.Select

namespace Model

variable {base : Option String}

/-! ## Stripped items -/

theorem stripExpr_column (c : Column) :
    stripExpr base (.column c) = .column (stripColumn base c) :=
  rfl

/-- The call without the base alias in its arguments. -/
theorem stripExpr_call (name : String) (args : List Expr) :
    stripExpr base (.call name args) =
      .call name (Expr.transformList
        (fun part => part.column?.map fun c => .column (stripColumn base c)) args) :=
  rfl

theorem isCallItem_stripItem (item : SelectItem) :
    isCallItem (stripItem base item) = isCallItem item := by
  cases item with
  | wildcard => rfl
  | expr e name =>
    cases e <;> rfl

theorem callCount_map_stripItem (items : List SelectItem) :
    callCount (items.map (stripItem base)) = callCount items := by
  simp [callCount, List.filter_map, Function.comp_def, isCallItem_stripItem]

/-- A call counts all rows by its name and by having no argument but the wildcard, so it may be
stripped. -/
theorem isCountAll_transformList (name : String) (f : Column → Column) (args : List Expr) :
    Call.isCountAll ⟨name, Expr.transformList (fun part => part.column?.map fun c => .column (f c))
      args⟩ = Call.isCountAll ⟨name, args⟩ := by
  refine congrArg (decide (Text.lower name = "count") && ·) ?_
  rcases args with _ | ⟨e, _ | ⟨e', es⟩⟩
  · rfl
  · cases e <;> rfl
  · cases e <;> rfl

/-! ## Select lists that are taken over -/

/-- The wildcard stands alone in a select list that is not refused, without `DISTINCT` and
`GROUP BY`, and the other items are columns and calls. -/
theorem checkItems_ok {distinct explicitGroups : Bool} {items : List SelectItem}
    (h : checkItems distinct explicitGroups items = .ok ()) :
    (items.any isWildcardItem = true →
      items.length ≤ 1 ∧ distinct = false ∧ explicitGroups = false) ∧
    ∀ item ∈ items, checkItem item = .ok () := by
  unfold checkItems at h
  split at h
  · next hw =>
    dsimp only at h
    split at h
    · cases h
    · next hlen =>
      split at h
      · cases h
      · next hd =>
        split at h
        · cases h
        · next hg =>
          simp only [Bool.not_eq_true] at hd hg
          exact ⟨fun _ => ⟨Nat.le_of_not_lt hlen, hd, hg⟩, forM_eq_ok.1 h⟩
  · next hw => exact ⟨fun hw' => absurd hw' hw, forM_eq_ok.1 h⟩

/-- The model of a `SELECT` statement whose select list is not refused. -/
def ofClauses (q : Select) : Model :=
  let base := baseAliasOf q.source
  let items := q.items.map (stripItem base)
  let aliases := AliasTable.ofItems items
  { command := .select
    items
    source := q.source
    baseAlias := base
    joins := q.joins.map (stripJoin base)
    condition := q.rowCondition
    having := q.having.map (stripExpr base)
    groupKeys :=
      if q.distinct && q.groupBy.isEmpty then (items.filterMap columnItem?).map (·.1)
      else q.groupBy.map fun c => aliases.fieldOf (stripKey base c.path)
    explicitGroups := !q.groupBy.isEmpty
    orderBy := q.orderBy.map (stripOrder base)
    limit := q.limit
    offset := q.offset
    distinct := q.distinct
    countAll := isCountAll items
    totalGroup := q.groupBy.isEmpty && q.items.any isCallItem && q.items.all isCallItem
    aliases }

theorem callCount_pos (items : List SelectItem) :
    decide (0 < callCount items) = items.any isCallItem := by
  rw [Bool.eq_iff_iff, decide_eq_true_eq, callCount, List.length_filter_pos_iff, List.any_eq_true]

theorem callCount_eq_length (items : List SelectItem) :
    decide (callCount items = items.length) = items.all isCallItem := by
  rw [Bool.eq_iff_iff, decide_eq_true_eq, callCount, List.length_filter_eq_length_iff,
    List.all_eq_true]

/-- A `SELECT` statement has a model when its select list is not refused and, without groups, no
column stands beside an aggregate. -/
theorem ofSelect_ok {q : Select} {m : Model} (h : ofSelect q = .ok m) :
    checkItems q.distinct (!q.groupBy.isEmpty)
      (q.items.map (stripItem (baseAliasOf q.source))) = .ok () ∧
    (q.groupBy = [] → q.distinct = false → q.items.any isCallItem = true →
      q.items.all isCallItem = true) ∧
    m = ofClauses q := by
  unfold ofSelect at h
  obtain ⟨_, hc, h⟩ := bind_eq_ok.1 h
  dsimp only at h
  rw [callCount_map_stripItem, List.length_map] at h
  simp only [callCount_pos, callCount_eq_length, Bool.not_not] at h
  split at h
  · cases h
  · next hn =>
    cases h
    refine ⟨hc, ?_, rfl⟩
    intro hg hd ha
    simpa [hg, hd, ha] using hn

theorem checkItem_ok {item : SelectItem} (h : checkItem item = .ok ()) :
    isWildcardItem item = true ∨ isCallItem item = true ∨ (columnItem? item).isSome = true := by
  unfold checkItem at h
  split at h
  · exact .inl rfl
  · exact .inr (.inr rfl)
  · exact .inr (.inl rfl)
  · cases h
  · cases h

/-- With `DISTINCT` all items are columns and calls. -/
theorem call_or_column_of_distinct {q : Select} {m : Model} (h : ofSelect q = .ok m)
    (hd : q.distinct = true) {item : SelectItem} (hi : item ∈ q.items) :
    isCallItem item = true ∨
      (columnItem? (stripItem (baseAliasOf q.source) item)).isSome = true := by
  obtain ⟨hwild, hitems⟩ := checkItems_ok (ofSelect_ok h).1
  have hmem := List.mem_map_of_mem (f := stripItem (baseAliasOf q.source)) hi
  obtain hw | hc | hc := checkItem_ok (hitems _ hmem)
  · have := (hwild (List.any_eq_true.2 ⟨_, hmem, hw⟩)).2.1
    rw [hd] at this
    cases this
  · exact .inl (isCallItem_stripItem item ▸ hc)
  · exact .inr hc

/-- **A statement groups as its clauses say.** -/
theorem hasGrouping_eq {q : Select} {m : Model} (h : ofSelect q = .ok m) :
    m.hasGrouping = q.groups := by
  obtain ⟨-, hcalls, rfl⟩ := ofSelect_ok h
  unfold hasGrouping Select.groups
  cases hg : q.groupBy.isEmpty with
  | false => simp [ofClauses, hg]
  | true =>
    cases hd : q.distinct with
    | false =>
      -- Without keys only aggregates group, and then all items are aggregates.
      cases ha : q.items.any isCallItem with
      | false => simp [ofClauses, hg, hd, ha]
      | true => simp [ofClauses, hg, hd, ha, hcalls (List.isEmpty_iff.1 hg) hd ha]
    | true =>
      cases hkeys : ((q.items.map (stripItem (baseAliasOf q.source))).filterMap
          columnItem?).isEmpty with
      | false =>
        have hne : q.items.isEmpty = false := by
          cases hi : q.items with
          | nil => simp [hi] at hkeys
          | cons item items => rfl
        simp only [ofClauses, hg, hd, hkeys, hne, Bool.and_self, if_true, List.isEmpty_map,
          Bool.not_false, Bool.true_or, Bool.or_true]
      | true =>
        -- Where no item gives a key all of them are aggregates.
        have hall : ∀ item ∈ q.items, isCallItem item = true := by
          intro item hi
          refine (call_or_column_of_distinct h hd hi).resolve_right ?_
          rw [List.filterMap_eq_nil_iff.1 (List.isEmpty_iff.1 hkeys) _ (List.mem_map_of_mem hi)]
          simp
        cases hi : q.items with
        | nil => simp [ofClauses, hg, hd, hi]
        | cons item items =>
          rw [hi] at hall
          have hitems : items.all isCallItem = true :=
            List.all_eq_true.2 fun item' hi' => hall item' (List.mem_cons_of_mem _ hi')
          simp [ofClauses, hg, hd, hi, hitems, hall item (List.mem_cons_self ..)]

theorem isWildcard_ofClauses (q : Select) : (ofClauses q).isWildcard = q.isWildcard := by
  obtain ⟨distinct, items, source, joins, condition, groupBy, having, orderBy, limit, offset⟩ := q
  rcases items with _ | ⟨_ | ⟨e, name⟩, _ | ⟨item', items⟩⟩ <;> rfl

theorem isWildcard_eq {q : Select} {m : Model} (h : ofSelect q = .ok m) :
    m.isWildcard = q.isWildcard := by
  obtain ⟨-, -, rfl⟩ := ofSelect_ok h
  exact isWildcard_ofClauses q

/-- A statement that groups does not select all fields. -/
theorem isWildcard_eq_false_of_groups {q : Select} {m : Model} (h : ofSelect q = .ok m)
    (hg : q.groups = true) : q.isWildcard = false := by
  cases hw : q.isWildcard with
  | false => rfl
  | true =>
    have hitems := Select.items_of_isWildcard hw
    have hcheck := (checkItems_ok (ofSelect_ok h).1).1
    rw [hitems] at hcheck
    obtain ⟨-, hd, hk⟩ := hcheck rfl
    simp [Select.groups, hitems, hd, hk, isCallItem, SelectItem.expr?] at hg

/-- A statement that selects an aggregate groups. -/
theorem hasGrouping_of_call {q : Select} {m : Model} (h : ofSelect q = .ok m) {item : SelectItem}
    (hi : item ∈ q.items) (hc : isCallItem item = true) : m.hasGrouping = true := by
  rw [hasGrouping_eq h, Select.groups, List.any_eq_true.2 ⟨item, hi, hc⟩, Bool.or_true]

/-- Without the wildcard the items are columns and, where rows are grouped, calls. -/
theorem column_or_call {q : Select} {m : Model} (h : ofSelect q = .ok m)
    (hw : q.isWildcard = false) {item : SelectItem} (hi : item ∈ m.items) :
    (∃ c aliasName, item = .expr (.column c) aliasName) ∨
      m.hasGrouping = true ∧ ∃ name args aliasName, item = .expr (.call name args) aliasName := by
  obtain ⟨hcheck, -, rfl⟩ := ofSelect_ok h
  obtain ⟨hwild, hitems⟩ := checkItems_ok hcheck
  have hok := hitems item hi
  unfold checkItem at hok
  split at hok
  · -- The wildcard stands alone.
    have hlone : (ofClauses q).items = [.wildcard] := by
      obtain ⟨hlen, -⟩ := hwild (List.any_eq_true.2 ⟨_, hi, rfl⟩)
      have hpos := List.length_pos_of_mem hi
      obtain ⟨item', hitem⟩ : ∃ item', (ofClauses q).items = [item'] :=
        List.length_eq_one_iff.1 (Nat.le_antisymm hlen hpos)
      rw [hitem] at hi ⊢
      rw [List.mem_singleton.1 hi]
    rw [← isWildcard_ofClauses, isWildcard, hlone] at hw
    cases hw
  · exact .inl ⟨_, _, rfl⟩
  · refine .inr ⟨?_, _, _, _, rfl⟩
    obtain ⟨item', hi', he⟩ := List.mem_map.1 hi
    have hcall : isCallItem item' = true := by
      rw [← isCallItem_stripItem, he]
      rfl
    exact hasGrouping_of_call h hi' hcall
  · cases hok
  · cases hok

/-! ## Select lists with a shortcut -/

theorem ofItems_singleton (item : SelectItem) :
    AliasTable.ofItems [item] = (AliasTable.entry? item).toList := by
  cases h : AliasTable.entry? item <;> simp [AliasTable.ofItems, h, Keyed.putAll, Keyed.put]

theorem entry?_expr_none (e : Expr) : AliasTable.entry? (.expr e none) = none := by
  cases e <;> rfl

/-- The only item is a column without an alias. -/
theorem lone_column_iff (q : Select) :
    (ofClauses q).items.length = 1 ∧ (ofClauses q).aliases = [] ∧
        (ofClauses q).selectColumns ≠ [] ↔
      ∃ c, q.items = [.expr (.column c) none] := by
  simp only [ofClauses, selectColumns, List.length_map]
  constructor
  · rintro ⟨hlen, haliases, hcolumns⟩
    obtain ⟨item, hi⟩ := List.length_eq_one_iff.1 hlen
    rw [hi, List.map_singleton] at haliases hcolumns
    rw [ofItems_singleton, Option.toList_eq_nil_iff] at haliases
    rcases item with _ | ⟨e, name⟩
    · exact absurd rfl hcolumns
    · cases e with
      | column c =>
        rw [stripItem, stripExpr_column] at haliases
        cases name with
        | none => exact ⟨c, hi⟩
        | some name => cases haliases
      | _ =>
        simp [stripItem, stripExpr, Expr.mapColumns, Expr.transform, Expr.column?, columnItem?]
          at hcolumns
  · rintro ⟨c, hi⟩
    rw [hi, List.map_singleton, ofItems_singleton, stripItem, stripExpr_column, entry?_expr_none]
    exact ⟨rfl, rfl, List.cons_ne_nil _ _⟩

/-- The only item counts all rows and has no alias. -/
theorem lone_count_iff (q : Select) :
    (ofClauses q).countAll = true ∧ (ofClauses q).aliases = [] ↔
      ∃ name args, q.items = [.expr (.call name args) none] ∧
        Call.isCountAll ⟨name, args⟩ = true := by
  simp only [ofClauses]
  constructor
  · rintro ⟨hcount, haliases⟩
    match hi : q.items with
    | [] => simp [hi, isCountAll] at hcount
    | _ :: _ :: _ => simp [hi, isCountAll] at hcount
    | [.wildcard] => simp [hi, stripItem, isCountAll] at hcount
    | [.expr e name] =>
      rw [hi, List.map_singleton] at hcount haliases
      rw [ofItems_singleton, Option.toList_eq_nil_iff] at haliases
      cases e with
      | call f args =>
        rw [stripItem, stripExpr_call] at hcount haliases
        rw [isCountAll, isCountAll_transformList] at hcount
        cases name with
        | none => exact ⟨f, args, rfl, hcount⟩
        | some name => cases haliases
      | _ =>
        simp [stripItem, stripExpr, Expr.mapColumns, Expr.transform, Expr.column?, isCountAll]
          at hcount
  · rintro ⟨name, args, hi, hcount⟩
    rw [hi, List.map_singleton, ofItems_singleton, stripItem, stripExpr_call, entry?_expr_none,
      isCountAll, isCountAll_transformList]
    exact ⟨hcount, rfl⟩

/-- A lone call groups by no keys of its own. -/
theorem groupKeys_of_lone_call {q : Select} {name : String} {args : List Expr}
    {aliasName : Option String} (h : q.items = [.expr (.call name args) aliasName]) :
    (ofClauses q).groupKeys = [] ↔ q.groupBy = [] := by
  cases hg : q.groupBy with
  | nil => simp [ofClauses, h, hg, stripItem, stripExpr_call, columnItem?]
  | cons c cs => simp [ofClauses, hg]

end Model

end DocQuery
