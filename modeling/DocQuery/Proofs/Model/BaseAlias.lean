import DocQuery.Proofs.Model.SelectList
import DocQuery.Proofs.Syntax.Paths
import DocQuery.Proofs.Syntax.Renaming
import DocQuery.Proofs.Syntax.Within

/-!
# Without the base alias

The base alias is taken off the columns of expressions and off the keys of groups. Of a column it is
the qualifier (`stripColumn_eq`), and nothing else in an expression changes (`stripExpr_renames`). Of
a key it is the text in front of the dot after it.

The two agree as long as the base alias holds no dot (`stripKey_path`). The name of a table may hold
one, and no qualifier does: a column that starts with the name of such a table keeps it, though the
key loses it. For columns that are read this is the only difference (`stripKey_path_eq_iff`).
-/

namespace DocQuery

open Syntax

/-! ## Dots in what is read -/

namespace Syntax

theorem IsName.notMem_dot {s : String} (h : IsName s) : '.' ∉ s.toList := by
  intro hm
  exact absurd (h.2 '.' hm) (by decide)

/-- A qualifier ends at the first dot. -/
theorem IsColumn.notMem_dot_of_qualifier {c : Column} (h : IsColumn c) {q : String}
    (hq : c.qualifier = some q) : '.' ∉ q.toList := by
  obtain ⟨segments, -, hn, -, rfl⟩ := h
  rcases segments with _ | ⟨first, _ | ⟨second, others⟩⟩
  · cases hq
  · cases hq
  · obtain rfl := Option.some.inj hq
    exact (hn first List.mem_cons_self).notMem_dot

/-- Without a qualifier there is no dot. -/
theorem IsColumn.notMem_dot_of_path {c : Column} (h : IsColumn c) (hq : c.qualifier = none) :
    '.' ∉ c.path.toList := by
  obtain ⟨segments, hne, hn, -, rfl⟩ := h
  rcases segments with _ | ⟨name, _ | ⟨second, others⟩⟩
  · exact absurd rfl hne
  · exact (hn name List.mem_cons_self).notMem_dot
  · cases hq

namespace Column

/-- What stands in front of the first dot is the whole lead up to it. -/
theorem lead_isPrefix_iff {b q : List Char} (hb : '.' ∉ b) (hq : '.' ∉ q) (ds : List Char) :
    b ++ ['.'] <+: q ++ '.' :: ds ↔ b = q := by
  constructor
  · rintro ⟨rest, h⟩
    rw [List.append_assoc, List.singleton_append] at h
    have hsplit := congrArg splitDots h
    rw [splitDots_append_dot hb, splitDots_append_dot hq] at hsplit
    exact (List.cons.inj hsplit).1
  · rintro rfl
    exact ⟨ds, by rw [List.append_assoc, List.singleton_append]⟩

theorem toList_path_of_qualifier {c : Column} {q : String} (hq : c.qualifier = some q) :
    c.path.toList = q.toList ++ '.' :: c.name.toList := by
  simp [path, hq]

end Column

/-- What a statement reads from first. -/
def Statement.source : Statement → Source
  | .select q => q.source
  | .delete table aliasName _ => .table table aliasName

theorem Statement.source_mem_sources (s : Statement) : s.source ∈ s.sources := by
  cases s <;> exact List.mem_cons_self

/-- Whether a column starts with the name of the table, dots and all, where the table has no alias
and its name is dotted. What follows the name is `rest`. -/
def Statement.SpellsTable (s : Statement) (c : Column) (rest : String) : Prop :=
  ∃ table, s.source = .table table none ∧ '.' ∈ table.toList ∧ c.path = table ++ "." ++ rest

end Syntax

namespace Model

variable {base : Option String} {b : String} {c : Column}

/-! ## Columns -/

/-- **The base alias is taken off the columns that it qualifies, and off no others.** Without a base
alias there is nothing to take off. -/
theorem stripColumn_eq (base : Option String) (c : Column) :
    stripColumn base c = if c.qualifier = base then ⟨none, c.name⟩ else c := by
  obtain ⟨qualifier, name⟩ := c
  cases qualifier <;> cases base <;> simp [stripColumn]

theorem qualifier_stripColumn_ne (b : String) (c : Column) :
    (stripColumn (some b) c).qualifier ≠ some b := by
  rw [stripColumn_eq]
  split
  · exact (Option.some_ne_none b).symm
  · assumption

theorem stripColumn_of_ne (h : c.qualifier ≠ base) : stripColumn base c = c := by
  rw [stripColumn_eq, if_neg h]

theorem stripColumn_none (c : Column) : stripColumn none c = c := by
  simp [stripColumn]

theorem stripColumn_stripColumn (base : Option String) (c : Column) :
    stripColumn base (stripColumn base c) = stripColumn base c := by
  cases base with
  | none => rw [stripColumn_none]
  | some b => exact stripColumn_of_ne (qualifier_stripColumn_ne b c)

/-! ## Expressions -/

theorem columns_stripExpr (base : Option String) (e : Expr) :
    (stripExpr base e).columns = e.columns.map (stripColumn base) :=
  Expr.columns_mapColumns e

theorem stripExpr_stripExpr (base : Option String) (e : Expr) :
    stripExpr base (stripExpr base e) = stripExpr base e := by
  refine Expr.mapColumns_eq_self fun c hc => ?_
  rw [columns_stripExpr] at hc
  obtain ⟨c, -, rfl⟩ := List.mem_map.1 hc
  exact stripColumn_stripColumn base c

/-- **Stripping an expression twice is stripping it once, also as an item or as a key of an ordering,
and it replaces the columns that the base alias qualifies by their bare names and nothing else.** The
other columns, their order, the subqueries and the form of the expression stay. -/
theorem stripExpr_renames (base : Option String) (e : Expr) :
    let bare : Column → Column := fun c => if c.qualifier = base then ⟨none, c.name⟩ else c
    stripExpr base (stripExpr base e) = stripExpr base e ∧
    (∀ name, stripItem base (.expr (stripExpr base e) name) = .expr (stripExpr base e) name) ∧
    (∀ ascending, stripOrder base ⟨stripExpr base e, ascending⟩ = ⟨stripExpr base e, ascending⟩) ∧
    (stripExpr base e).columns = e.columns.map bare ∧
    (∀ b, base = some b → ∀ c ∈ (stripExpr base e).columns, c.qualifier ≠ some b) ∧
    (stripExpr base e).subqueries = e.subqueries ∧
    Expr.Renamed bare e (stripExpr base e) ∧
    (stripExpr base e).containsOr = e.containsOr := by
  intro bare
  have hbare : stripColumn base = bare := funext (stripColumn_eq base)
  have htwice := stripExpr_stripExpr base e
  refine ⟨htwice, fun name => ?_, fun ascending => ?_, ?_, ?_, Expr.subqueries_mapColumns e, ?_,
    Expr.containsOr_mapColumns e⟩
  · exact congrArg (SelectItem.expr · name) htwice
  · exact congrArg (OrderKey.mk · ascending) htwice
  · rw [columns_stripExpr, hbare]
  · rintro b rfl c hc
    rw [columns_stripExpr] at hc
    obtain ⟨c, -, rfl⟩ := List.mem_map.1 hc
    exact qualifier_stripColumn_ne b c
  · rw [← hbare]
    exact Expr.renamed_mapColumns _ e

/-! ## Keys of groups -/

theorem stripKey_append (b rest : String) : stripKey (some b) (b ++ "." ++ rest) = rest := by
  have hlead : (b ++ "." ++ rest).toList = (b.toList ++ ['.']) ++ rest.toList := by simp
  have hprefix : (b.toList ++ ['.']).isPrefixOf (b ++ "." ++ rest).toList = true := by
    rw [hlead, List.isPrefixOf_iff_prefix]
    exact List.prefix_append _ _
  simp only [stripKey, hprefix, if_true]
  rw [hlead, List.drop_left, String.ofList_toList]

theorem stripKey_of_not_isPrefix {key : String} (h : ¬ b.toList ++ ['.'] <+: key.toList) :
    stripKey (some b) key = key := by
  rw [stripKey, if_neg (mt List.isPrefixOf_iff_prefix.1 h)]

/-- A text that starts with the base alias and a dot is made of the two and what follows. -/
theorem eq_append_of_isPrefix {key : String} (h : b.toList ++ ['.'] <+: key.toList) :
    ∃ rest, key = b ++ "." ++ rest := by
  obtain ⟨rest, hrest⟩ := h
  refine ⟨String.ofList rest, String.toList_injective ?_⟩
  simp [← hrest]

theorem append_ne (b rest : String) : rest ≠ b ++ "." ++ rest := by
  intro h
  have hlength := congrArg (fun s => s.toList.length) h
  simp only [String.toList_append, List.length_append] at hlength
  have hdot : ".".toList.length = 1 := rfl
  omega

/-- **A base alias without a dot is taken off a column and off the key with its path alike.** -/
theorem stripKey_path (hb : '.' ∉ b.toList) (hc : IsColumn c) :
    stripKey (some b) c.path = (stripColumn (some b) c).path := by
  cases hq : c.qualifier with
  | none =>
    -- The path is a single name: it has no dot for the lead to end in.
    have hdot := hc.notMem_dot_of_path hq
    rw [stripColumn_of_ne (by rw [hq]; exact (Option.some_ne_none b).symm)]
    refine stripKey_of_not_isPrefix fun h => hdot (h.subset ?_)
    exact List.mem_append_right _ List.mem_cons_self
  | some q =>
    have hdot := hc.notMem_dot_of_qualifier hq
    by_cases hqb : q = b
    · subst hqb
      rw [stripColumn_eq, if_pos hq]
      have hpath : c.path = q ++ "." ++ c.name := by rw [Column.path, hq]
      rw [hpath, stripKey_append]
      rfl
    · rw [stripColumn_of_ne (by rw [hq]; exact fun h => hqb (Option.some.inj h))]
      refine stripKey_of_not_isPrefix fun h => hqb ?_
      rw [Column.toList_path_of_qualifier hq, Column.lead_isPrefix_iff hb hdot] at h
      exact (String.toList_injective h).symm

/-- A base alias with a dot qualifies no column that is read. -/
theorem stripColumn_of_dotted (hb : '.' ∈ b.toList) (hc : IsColumn c) :
    stripColumn (some b) c = c := by
  refine stripColumn_of_ne fun hq => ?_
  exact hc.notMem_dot_of_qualifier hq hb

/-- The base alias of a statement that is read holds a dot only if it is the name of a table. -/
theorem source_of_dotted {s : Source} (hs : IsSource s) (hb : baseAliasOf s = some b)
    (hdot : '.' ∈ b.toList) : s = .table b none := by
  cases hs with
  | @table table name _ hn =>
    cases name with
    | none => rw [Option.some.inj hb.symm]; rfl
    | some word =>
      obtain rfl := Option.some.inj hb
      exact absurd hdot (hn word rfl).notMem_dot
  | query _ hn => exact absurd hdot (hn b hb).notMem_dot

theorem baseAlias_of_ofStatement {s : Statement} {m : Model} (h : ofStatement s = .ok m) :
    m.baseAlias = baseAliasOf s.source := by
  cases s with
  | select q =>
    obtain ⟨-, -, rfl⟩ := ofSelect_ok h
    rfl
  | delete table aliasName condition =>
    obtain rfl := Except.ok.inj h
    rfl

/-- **A column and the key with its path lose the base alias alike, unless the column starts with the
dotted name of a table that is read without an alias.** Then the key is what follows the name, and
the column stays as it is. The statement is any one that stands in a text, and its base alias is the
one that its model has. -/
theorem stripKey_path_eq_iff {text : String} {s level : Statement} {c : Column}
    (hs : parseStatement text = .ok s) (hl : s.Reaches level) (hc : level.Writes c) :
    (∀ m, ofStatement level = .ok m → m.baseAlias = baseAliasOf level.source) ∧
    (stripKey (baseAliasOf level.source) c.path =
      (stripColumn (baseAliasOf level.source) c).path ↔ ¬ ∃ rest, level.SpellsTable c rest) ∧
    ∀ rest, level.SpellsTable c rest → stripKey (baseAliasOf level.source) c.path = rest ∧
      stripColumn (baseAliasOf level.source) c = c := by
  have hlevel := (isStatement_of_parseStatement hs).of_reaches hl
  have hcolumn := hlevel.isColumn hc
  have hspells : ∀ rest, level.SpellsTable c rest →
      stripKey (baseAliasOf level.source) c.path = rest ∧
        stripColumn (baseAliasOf level.source) c = c := by
    rintro rest ⟨table, hsource, hdot, hpath⟩
    rw [hsource, hpath]
    exact ⟨stripKey_append table rest, stripColumn_of_dotted hdot hcolumn⟩
  refine ⟨fun m => baseAlias_of_ofStatement, ⟨?_, ?_⟩, hspells⟩
  · rintro heq ⟨rest, hrest⟩
    obtain ⟨hkey, hstays⟩ := hspells rest hrest
    obtain ⟨table, -, -, hpath⟩ := hrest
    rw [hkey, hstays, hpath] at heq
    exact append_ne table rest heq
  · intro hnone
    cases hbase : baseAliasOf level.source with
    | none => rw [stripColumn_none]; rfl
    | some b =>
      by_cases hdot : '.' ∈ b.toList
      · rw [stripColumn_of_dotted hdot hcolumn]
        refine stripKey_of_not_isPrefix fun hprefix => hnone ?_
        obtain ⟨rest, hrest⟩ := eq_append_of_isPrefix hprefix
        have hsource := source_of_dotted (hlevel.isSource level.source_mem_sources) hbase hdot
        exact ⟨rest, b, hsource, hdot, hrest⟩
      · exact stripKey_path hdot hcolumn

/-- A read of items from a source, with the columns that it groups by. -/
def groupedRead (source : Source) (items : List SelectItem) (groupBy : List Column) : Select where
  distinct := false
  items := items
  source := source
  joins := []
  condition := none
  groupBy := groupBy
  having := none
  orderBy := []
  limit := none
  offset := none

/-- `SELECT x.y.z FROM a.b AS x GROUP BY x.y.z`, which reads a table with a dotted name under an
alias. -/
def aliasedRead : Select :=
  groupedRead (.table "a.b" (some "x")) [.expr (.column ⟨some "x", "y.z"⟩) none]
    [⟨some "x", "y.z"⟩]

/-- `SELECT a.b FROM (SELECT x.y.z FROM a.b AS x GROUP BY x.y.z) AS a`. -/
def nestedAliasedRead : Select :=
  groupedRead (.query (.select aliasedRead) (some "a")) [.expr (.column ⟨some "a", "b"⟩) none] []

/-- The alias of a table with a dotted name is taken off a column and off the key of a group. -/
theorem stripKey_path_eq_iff_aliased : parseStatement
      "SELECT a.b FROM (SELECT x.y.z FROM a.b AS x GROUP BY x.y.z) AS a" =
        .ok (.select nestedAliasedRead) ∧
    (Statement.select nestedAliasedRead).Reaches (.select aliasedRead) ∧
    (Statement.select aliasedRead).Writes ⟨some "x", "y.z"⟩ ∧
    baseAliasOf aliasedRead.source = some "x" ∧
    stripKey (some "x") "x.y.z" = (stripColumn (some "x") ⟨some "x", "y.z"⟩).path := by
  have hparse : parseStatement
      "SELECT a.b FROM (SELECT x.y.z FROM a.b AS x GROUP BY x.y.z) AS a" =
        .ok (.select nestedAliasedRead) := by
    rfl
  have hreaches : (Statement.select nestedAliasedRead).Reaches (.select aliasedRead) :=
    .single (.source (List.mem_cons_self))
  have hwrites : (Statement.select aliasedRead).Writes ⟨some "x", "y.z"⟩ :=
    ⟨.select aliasedRead, .refl, List.mem_cons_self⟩
  refine ⟨hparse, hreaches, hwrites, rfl, ?_⟩
  refine (stripKey_path_eq_iff hparse hreaches hwrites).2.1.2 ?_
  rintro ⟨rest, table, hsource, -⟩
  cases hsource

/-- `SELECT a.b.c, COUNT(*) FROM a.b GROUP BY a.b.c`, which reads a table with a dotted name without an
alias. -/
def dottedRead : Select :=
  groupedRead (.table "a.b" none)
    [.expr (.column ⟨some "a", "b.c"⟩) none, .expr (.call "COUNT" [.wildcard]) none]
    [⟨some "a", "b.c"⟩]

/-- A column that is grouped by and selected under the dotted name of its table is two fields: the key
of the group loses the name and the item keeps it. -/
theorem stripKey_path_ne_dotted : ∃ m c, parseStatement
      "SELECT a.b.c, COUNT(*) FROM a.b GROUP BY a.b.c" = .ok (.select dottedRead) ∧
    (Statement.select dottedRead).Writes c ∧ ofStatement (.select dottedRead) = .ok m ∧
    m.baseAlias = some "a.b" ∧ stripKey (some "a.b") c.path = "c" ∧
    (stripColumn (some "a.b") c).path = "a.b.c" ∧ m.groupKeys = ["c"] ∧
    m.selectColumns = [("a.b.c", none)] := by
  refine ⟨ofClauses dottedRead, ⟨some "a", "b.c"⟩, rfl,
    ⟨.select dottedRead, .refl, List.mem_cons_self⟩, rfl, rfl, ?_⟩
  decide +kernel

end Model

end DocQuery
