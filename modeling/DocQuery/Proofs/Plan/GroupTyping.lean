import DocQuery.Proofs.Filter.Forms
import DocQuery.Proofs.Plan.GroupNames

/-!
# Literals in conditions on groups

A literal that is compared with a column takes the declared type of the column. A condition on
groups is first moved to the fields of the groups, so that its literals take the types that are
declared for the places of the grouped fields. `having_types_iff` compares this with a condition on
rows: both give a literal the same value exactly if one type is declared for the field and for its
place.
-/

namespace DocQuery

open Syntax

namespace Filter

/-! ## Literals tell types apart -/

/-- Whether a value is a text. -/
def isText : Value → Bool
  | .string _ => true
  | _ => false

/-- Which of a few literals become texts for a field of a given type. -/
def textsFor (type : FieldType) : List Bool :=
  [.int 1, .string "1", .string "1970-01-01", .string "true"].map fun x => isText (coerce type x)

/-- Two types that give all literals the same values are one. -/
theorem coerce_inj {type type' : FieldType} (h : ∀ x, coerce type x = coerce type' x) :
    type = type' := by
  have htexts : textsFor type = textsFor type' := by simp only [textsFor, h]
  have htell : ∀ a ∈ FieldType.all, ∀ b ∈ FieldType.all, textsFor a = textsFor b → a = b := by
    decide +kernel
  exact htell type (by cases type <;> decide) type' (by cases type' <;> decide) htexts

/-! ## Comparisons with a literal -/

/-- The filter of a comparison of a field with a value. -/
def comparisonFilter (path : String) (op : Comparison) (value : Value) : Document :=
  .single path (if op = .equal then value else .single op.operator value)

theorem comparisonValue_eq (c : Column) (op : Comparison) (value : Value) :
    comparisonValue c op value = .document (comparisonFilter c.path op value) := by
  cases op <;> rfl

/-- A column is compared with a literal, on either side, as a field of a given path and type. -/
structure ComparesAs (filter : Expr → Result Document) (c : Column) (path : String)
    (type : FieldType) : Prop where
  left : ∀ op x, filter (.compare (.column c) op (.literal x)) =
    .ok (comparisonFilter path op (coerce type x))
  right : ∀ op x, filter (.compare (.literal x) op (.column c)) =
    .ok (comparisonFilter path op.swap (coerce type x))

/-- Without calls a comparison is not taken over by a special function. -/
theorem specialMatch_of_call? {left right : Expr} {op : Comparison} (hl : left.call? = none)
    (hr : right.call? = none) : specialMatch (.compare left op right) = .ok none := by
  have hcall : ∀ (name : String) (e : Expr), e.call? = none → callOf? name e = none := by
    intro name e he
    rw [callOf?, he, Option.filter_none]
  refine specialMatch_eq_none_iff.2 ⟨?_, ⟨hcall _ _ hl, hcall _ _ hr⟩, hcall _ _ hl, hcall _ _ hr⟩
  unfold regexCall?
  split
  · next h => cases h
  · next h =>
    cases h
    exact hcall _ _ hl
  · next h =>
    cases h
    exact hcall _ _ hr
  · rfl

/-- A condition on rows compares a column as the field of its path, with the type declared for
it. -/
theorem comparesAs_ofExpr (s : Settings) (c : Column) :
    ComparesAs (ofExpr s) c c.path (s.fieldType c.path) := by
  constructor
  · intro op x
    rw [ofExpr_eq_ok, valueOf_compare_field (specialMatch_of_call? rfl rfl) rfl]
    exact .inl ⟨c, _, rfl, rfl, (comparisonValue_eq c op _).symm⟩
  · intro op x
    rw [ofExpr_eq_ok, valueOf_compare_field (specialMatch_of_call? rfl rfl) rfl]
    exact .inr ⟨rfl, c, _, rfl, rfl, (comparisonValue_eq c op.swap _).symm⟩

end Filter

namespace Plan

open DocQuery.Filter

variable {m : Model} {g : Grouping}

/-- A name of a grouped field is accepted in a condition on groups. -/
theorem resolvable_column {c : Column} (h : m.aliases.fieldOf c.path ∈ g.fields) :
    Resolvable m g (.column c) := by
  have hself : ∀ part, (Expr.column c).Comes isAggregate part → part = .column c := by
    intro part hp
    rcases Relation.ReflTransGen.cases_head hp with rfl | ⟨inner, ⟨-, hinner⟩, -⟩
    · rfl
    · cases hinner
  constructor
  · intro part f hp hf
    rw [hself part hp] at hf
    cases hf
  · intro c' hp
    cases hself _ hp
    exact .inr (.inr h)

/-- A condition is accepted if it speaks of the same aggregates and columns as one that is. -/
theorem resolveHaving_of_groupParts {e e' : Expr} (h : groupParts e = groupParts e')
    (hr : Resolvable m g e') : resolveHaving m g e = .ok (e.transform (groupField? m g)) := by
  refine resolveHaving_eq_ok_iff.2 ⟨⟨missingAggregates_eq_nil_iff.1 ?_,
    unknownColumns_eq_nil_iff.1 ?_⟩, rfl⟩
  · rw [missingAggregates, h]
    exact missingAggregates_eq_nil_iff.2 hr.aggregates
  · rw [unknownColumns, h]
    exact unknownColumns_eq_nil_iff.2 hr.columns

/-- A condition on groups compares a column that it accepts as the field where the groups hold it,
with the type declared for that place. -/
theorem comparesAs_compileHaving (s : Settings) {c : Column} (h : Resolvable m g (.column c)) :
    ComparesAs (compileHaving s m g) c (havingPath m g c.path)
      (s.fieldType (havingPath m g c.path)) := by
  obtain ⟨c', htransform, hpath⟩ := transform_column (m := m) (g := g) c
  rw [← hpath]
  have hplace := comparesAs_ofExpr s c'
  constructor
  · intro op x
    have hparts : groupParts (.compare (.column c) op (.literal x)) = groupParts (.column c) := rfl
    rw [compileHaving, resolveHaving_of_groupParts hparts h, ← hplace.left]
    change ofExpr s (.compare ((Expr.column c).transform (groupField? m g)) op (.literal x)) = _
    rw [htransform]
  · intro op x
    have hparts : groupParts (.compare (.literal x) op (.column c)) = groupParts (.column c) := rfl
    rw [compileHaving, resolveHaving_of_groupParts hparts h, ← hplace.right]
    change ofExpr s (.compare (.literal x) op ((Expr.column c).transform (groupField? m g))) = _
    rw [htransform]

/-- A condition on groups reads a name of a grouped field from the place of the field, unless an
aggregate has this name. -/
theorem GroupingOf.havingPath_cases (h : GroupingOf m g)
    (ha : m.aliases = Model.AliasTable.ofItems m.items) {path : String}
    (hf : m.aliases.fieldOf path ∈ g.fields) :
    path ∈ Keyed.keys g.accumulators ∧ havingPath m g path = path ∨
    path ∉ Keyed.keys g.accumulators ∧
      g.idReference? (m.aliases.fieldOf path) = some (havingPath m g path) := by
  by_cases hkey : path ∈ Keyed.keys g.accumulators
  · exact .inl ⟨hkey, havingPath_of_names (.inr hkey)⟩
  · have halias : m.aliases.isAggregate path ≠ true :=
      fun hn => hkey (h.mem_keys_of_isAggregate ha hn)
    have hplace : g.idReference? (m.aliases.fieldOf path) = some _ := idReferenceIn_of_mem hf
    refine .inr ⟨hkey, ?_⟩
    rw [havingPath_of_grouped (not_or.2 ⟨halias, hkey⟩) hplace, hplace]

end Plan

open Plan DocQuery.Filter

/-- **Conditions on groups and on rows give a literal the same value exactly if one type is declared
for the grouped field and for its place.** A condition on groups compares a column that stands for a
grouped field at the place of the field, or at the aggregate of its name if there is one, with a
literal of the type declared for that place. A condition on rows compares the field with a literal
of the type declared for the field. -/
theorem having_types_iff {statement : Statement} {m : Model} {g : Grouping}
    (hm : Model.ofStatement statement = .ok m) (hg : Grouping.ofModel m = .ok g) (s : Settings)
    {c : Column} {field : String} (hf : m.aliases.fieldOf c.path = field)
    (hgrouped : field ∈ g.fields) :
    ∃ place, (c.path ∈ Keyed.keys g.accumulators ∧ place = c.path ∨
        c.path ∉ Keyed.keys g.accumulators ∧ g.idReference? field = some place) ∧
      ComparesAs (compileHaving s m g) c place (s.fieldType place) ∧
      (∀ c' : Column, c'.path = field → ComparesAs (ofExpr s) c' field (s.fieldType field)) ∧
      ((∀ x, coerce (s.fieldType place) x = coerce (s.fieldType field) x) ↔
        s.fieldType place = s.fieldType field) := by
  subst hf
  have hof := groupingOf_ofModel hg
  refine ⟨havingPath m g c.path, hof.havingPath_cases (Model.ofStatement_aliases hm) hgrouped,
    comparesAs_compileHaving s (resolvable_column hgrouped), ?_, coerce_inj, ?_⟩
  · intro c' hc'
    rw [← hc']
    exact comparesAs_ofExpr s c'
  · intro htypes x
    rw [htypes]

/-- One type is declared for a field and for its place, where the field has an alias. -/
theorem having_types_iff_alias : ∃ c query m g,
    compile (.ofTypes [("a", .number), ("_id.a", .number)] .unknown)
      "SELECT a AS x, b, COUNT(*) FROM t GROUP BY a, b HAVING x = '1'" = .ok c ∧
    c.statement = .select query ∧ Model.ofStatement (.select query) = .ok m ∧
    Grouping.ofModel m = .ok g ∧ m.aliases.fieldOf "x" = "a" ∧ "a" ∈ g.fields ∧
    g.idReference? "a" = some "_id.a" ∧
    ComparesAs (compileHaving (.ofTypes [("a", .number), ("_id.a", .number)] .unknown) m g)
      ⟨none, "x"⟩ "_id.a" .number ∧
    ComparesAs (ofExpr (.ofTypes [("a", .number), ("_id.a", .number)] .unknown))
      ⟨none, "a"⟩ "a" .number := by
  obtain ⟨c, query, m, g, hc, hs, -, hm, hg, hfacts⟩ := exists_groups
    (.ofTypes [("a", .number), ("_id.a", .number)] .unknown)
    "SELECT a AS x, b, COUNT(*) FROM t GROUP BY a, b HAVING x = '1'"
    (fun _ m g => (m.aliases.fieldOf "x", g.fields, Keyed.keys g.accumulators))
    ("a", ["a", "b"], ["count"]) (by decide +kernel)
  obtain ⟨hf, hfacts⟩ := Prod.mk.inj hfacts
  obtain ⟨hfields, hkeys⟩ := Prod.mk.inj hfacts
  have hst : Model.ofStatement (.select query) = .ok m := hm
  have hgrouped : "a" ∈ g.fields := hfields ▸ List.mem_cons_self
  have hid : g.idReference? "a" = some "_id.a" := by
    rw [Grouping.idReference?, hfields]
    decide +kernel
  have hx : m.aliases.fieldOf (Column.path ⟨none, "x"⟩) = "a" := hf
  obtain ⟨place, hplace, hgroups, hrows, -⟩ := having_types_iff hst hg
    (.ofTypes [("a", .number), ("_id.a", .number)] .unknown) hx hgrouped
  rcases hplace with ⟨hkey, -⟩ | ⟨-, hplace⟩
  · rw [hkeys] at hkey
    exact absurd hkey (by decide)
  · obtain rfl : "_id.a" = place := Option.some.inj (hid.symm.trans hplace)
    exact ⟨c, query, m, g, hc, hs, hst, hg, hf, hgrouped, hid, hgroups, hrows _ rfl⟩

/-- A type that is declared for a field alone makes a number of a literal in a condition on rows,
and leaves it a text in one on groups. -/
theorem having_types_differ : ∃ c, compile (.ofTypes [("a", .number)] .unknown)
      "SELECT a, COUNT(*) FROM t WHERE a = '1' GROUP BY a HAVING a = '1'" = .ok c ∧
    (c.query.filter.map fun entry => (entry.1, isText entry.2)) = [("a", false)] ∧
    (c.query.having.map fun entry => (entry.1, isText entry.2)) = [("_id", true)] := by
  obtain ⟨c, -, hc, -, hfacts⟩ := exists_compile_select (.ofTypes [("a", .number)] .unknown)
    "SELECT a, COUNT(*) FROM t WHERE a = '1' GROUP BY a HAVING a = '1'"
    (fun _ c => (c.query.filter.map fun entry => (entry.1, isText entry.2),
      c.query.having.map fun entry => (entry.1, isText entry.2)))
    ([("a", false)], [("_id", true)]) (by decide +kernel)
  obtain ⟨hfilter, hhaving⟩ := Prod.mk.inj hfacts
  exact ⟨c, hc, hfilter, hhaving⟩

end DocQuery
