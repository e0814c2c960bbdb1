import DocQuery.Proofs.Plan.Compile
import Mathlib.Data.Nat.Basic
import Mathlib.Order.Compare

/-!
# The order that a sort document gives

An ordering is a list of paths with directions, and two documents are compared by one entry after
the other (`compareBy`): the first path on which they differ decides (`decisive?`). A sort document
holds each path once, in the place of its first entry but with the direction of its last one. It
therefore has the same decisive path as the list, and gives the same order exactly where the first
and the last entry of that path have one direction (`plain_compareBy_iff`).
-/

namespace DocQuery

namespace Plan

open Syntax

/-! ## Comparing documents -/

section Compare

variable {α : Type} [LinearOrder α]

/-- The comparison of two values in a direction. -/
def compareIn (ascending : Bool) (a b : α) : Ordering :=
  if ascending then compare a b else compare b a

/-- The comparison of two documents, given by their values at all paths, by one entry after the
other. -/
def compareBy (x y : String → α) : Keyed Bool → Ordering
  | [] => .eq
  | (path, ascending) :: entries =>
    (compareIn ascending (x path) (y path)).then (compareBy x y entries)

/-- The first path of an ordering on which two documents differ. -/
def decisive? (x y : String → α) (entries : Keyed Bool) : Option String :=
  (Keyed.keys entries).find? fun path => x path ≠ y path

theorem decisive?_cons_of_eq {x y : String → α} {first : String} (h : x first = y first)
    (ascending : Bool) (entries : Keyed Bool) :
    decisive? x y ((first, ascending) :: entries) = decisive? x y entries :=
  List.find?_cons_of_neg (by simpa using h)

theorem decisive?_cons_of_ne {x y : String → α} {first : String} (h : x first ≠ y first)
    (ascending : Bool) (entries : Keyed Bool) :
    decisive? x y ((first, ascending) :: entries) = some first :=
  List.find?_cons_of_pos (by simpa using h)

theorem compareIn_eq_eq {ascending : Bool} {a b : α} : compareIn ascending a b = .eq ↔ a = b := by
  cases ascending with
  | true => exact compare_eq_iff_eq
  | false => exact compare_eq_iff_eq.trans eq_comm

/-- Different values tell the directions apart. -/
theorem compareIn_inj {a b : α} (h : a ≠ b) {up up' : Bool} :
    compareIn up a b = compareIn up' a b ↔ up = up' := by
  have hne : compare a b ≠ compare b a := by
    intro heq
    rw [Std.OrientedOrd.eq_swap (a := b)] at heq
    exact h (compare_eq_iff_eq.1 (Ordering.eq_eq_of_eq_swap heq))
  cases up <;> cases up' <;> simp [compareIn, hne, hne.symm]

variable {x y : String → α} {entries : Keyed Bool}

theorem compareBy_of_decisive?_eq_none (h : decisive? x y entries = none) :
    compareBy x y entries = .eq := by
  induction entries with
  | nil => rfl
  | cons entry entries ih =>
    obtain ⟨hsame, hrest⟩ := List.forall_mem_cons.1 (List.find?_eq_none.1 h)
    rw [compareBy, compareIn_eq_eq.2 (by simpa using hsame), Ordering.eq_then]
    exact ih (List.find?_eq_none.2 hrest)

/-- **The first path on which two documents differ decides**, by the direction of its first
entry. -/
theorem compareBy_of_decisive?_eq_some {path : String} (h : decisive? x y entries = some path) :
    ∃ ascending, Keyed.get? entries path = some ascending ∧
      compareBy x y entries = compareIn ascending (x path) (y path) := by
  induction entries with
  | nil => cases h
  | cons entry entries ih =>
    obtain ⟨first, ascending⟩ := entry
    rw [compareBy, Keyed.get?_cons]
    by_cases hfirst : x first = y first
    · rw [decisive?_cons_of_eq hfirst] at h
      have hpath : x path ≠ y path := by simpa using List.find?_some h
      have hne : first ≠ path := fun heq => hpath (heq ▸ hfirst)
      rw [compareIn_eq_eq.2 hfirst, Ordering.eq_then, if_neg hne]
      exact ih h
    · rw [decisive?_cons_of_ne hfirst] at h
      obtain rfl := Option.some.inj h
      refine ⟨ascending, if_pos rfl, ?_⟩
      cases hc : compareIn ascending (x first) (y first) with
      | eq => exact absurd (compareIn_eq_eq.1 hc) hfirst
      | lt | gt => rfl

end Compare

/-! ## Sort documents -/

/-- The number that a direction is sent as. -/
def directionValue (ascending : Bool) : Value := .int (if ascending then 1 else -1)

/-- Whether a value of a sort document asks for ascending order. -/
def isAscending : Value → Bool
  | .int n => 0 < n
  | _ => false

theorem isAscending_directionValue (ascending : Bool) :
    isAscending (directionValue ascending) = ascending := by
  cases ascending <;> rfl

/-- The ordering that a sort document stands for. -/
def sortEntries (sort : Document) : Keyed Bool :=
  sort.map fun entry => (entry.1, isAscending entry.2)

/-- The path and the direction that a key asks for, if it is a column. An alias stands for its
field. -/
def keyEntryOf? (m : Model) (key : OrderKey) : Option (String × Bool) :=
  key.expr.column?.map fun c => (m.aliases.fieldOf c.path, key.ascending)

/-- The ordering that a statement asks for. -/
def orderEntries? (m : Model) : Option (Keyed Bool) := m.orderBy.mapM (keyEntryOf? m)

variable {m : Model}

theorem addPlainKey_ok {o o' : RowOrder} {key : OrderKey} (h : addPlainKey m o key = .ok o') :
    ∃ entry, keyEntryOf? m key = some entry ∧
      o'.sort = Keyed.put o.sort entry.1 (directionValue entry.2) := by
  unfold addPlainKey plainKey at h
  obtain ⟨path, hp, h⟩ := bind_eq_ok.1 h
  cases h
  split at hp
  · next c hc =>
    cases hp
    exact ⟨_, by rw [keyEntryOf?, hc]; rfl, rfl⟩
  · cases hp
  · cases hp

/-- The sort document of plain documents is filled with one entry after the other. -/
theorem plain_sort {o : RowOrder} (h : RowOrder.plain m = .ok o) :
    ∃ entries, orderEntries? m = some entries ∧
      o.sort = Keyed.putAll [] (entries.map fun entry => (entry.1, directionValue entry.2)) := by
  refine foldlM_induction (P := fun done o => ∃ entries, done.mapM (keyEntryOf? m) = some entries ∧
    o.sort = Keyed.putAll [] (entries.map fun entry => (entry.1, directionValue entry.2))) h
    ⟨[], rfl, rfl⟩ ?_
  rintro done o key o' ⟨entries, he, hsort⟩ hkey
  obtain ⟨entry, hentry, hput⟩ := addPlainKey_ok hkey
  refine ⟨entries ++ [entry], ?_, ?_⟩
  · rw [List.mapM_append, he, List.mapM_cons, hentry]
    rfl
  · rw [List.map_append, Keyed.putAll_append, ← hsort]
    exact hput

section Entries

variable {sort : Document} {entries : Keyed Bool}
  (hsort : sort = Keyed.putAll [] (entries.map fun entry => (entry.1, directionValue entry.2)))

include hsort

/-- A path has the direction of its last entry. -/
theorem get?_sortEntries (path : String) :
    Keyed.get? (sortEntries sort) path = Keyed.get? entries.reverse path := by
  have hvalues : (isAscending ∘ directionValue : Bool → Bool) = id :=
    funext isAscending_directionValue
  rw [sortEntries, Keyed.get?_map_snd, hsort, Keyed.get?_putAll, Keyed.get?_nil, Option.or_none,
    ← List.map_reverse, Keyed.get?_map_snd, Option.map_map, hvalues, Option.map_id, id]

/-- The same path decides as before. -/
theorem decisive?_sortEntries {α : Type} [LinearOrder α] (x y : String → α) :
    decisive? x y (sortEntries sort) = decisive? x y entries := by
  rw [decisive?, sortEntries, Keyed.keys_map_snd, hsort, Keyed.find?_keys_putAll,
    Keyed.keys_map_snd]
  rfl

theorem compareBy_sortEntries_iff {α : Type} [LinearOrder α] (x y : String → α) :
    compareBy x y (sortEntries sort) = compareBy x y entries ↔
      ∀ path, decisive? x y entries = some path →
        Keyed.get? entries path = Keyed.get? entries.reverse path := by
  have hd := decisive?_sortEntries hsort x y
  cases h : decisive? x y entries with
  | none =>
    rw [compareBy_of_decisive?_eq_none h, compareBy_of_decisive?_eq_none (hd.trans h)]
    simp
  | some path =>
    have hpath : x path ≠ y path := by simpa using List.find?_some h
    obtain ⟨first, hfirst, hentries⟩ := compareBy_of_decisive?_eq_some h
    obtain ⟨last, hlast, hsorted⟩ := compareBy_of_decisive?_eq_some (hd.trans h)
    rw [get?_sortEntries hsort] at hlast
    rw [hentries, hsorted, compareIn_inj hpath]
    simp [hfirst, hlast, eq_comm]

end Entries

/-- Every path of an ordering decides between two documents that differ there only. -/
theorem exists_decisive {path : String} {entries : Keyed Bool} (h : path ∈ Keyed.keys entries) :
    ∃ x y : String → Nat, decisive? x y entries = some path := by
  let y : String → Nat := fun path' => if path' = path then 1 else 0
  have hsome : (decisive? (fun _ => 0) y entries).isSome = true :=
    List.find?_isSome.2 ⟨path, h, by simp [y]⟩
  obtain ⟨found, hfound⟩ := Option.isSome_iff_exists.1 hsome
  have hsame : found = path := by simpa [y, eq_comm] using List.find?_some hfound
  exact ⟨fun _ => 0, y, hsame ▸ hfound⟩

/-- **When a sort document gives the order that is asked for.** Where the statement is ordered, all
its keys are columns. Two documents are compared by the sort document as by the keys exactly if the
first path on which they differ has the same direction in its first and in its last key. All
documents are, in every order of the values, exactly if this holds of every path. -/
theorem plain_compareBy_iff {m : Model} {o : RowOrder} (h : RowOrder.plain m = .ok o) :
    ∃ entries, orderEntries? m = some entries ∧
      (∀ (α : Type) [LinearOrder α] (x y : String → α),
        compareBy x y (sortEntries o.sort) = compareBy x y entries ↔
          ∀ path, decisive? x y entries = some path →
            Keyed.get? entries path = Keyed.get? entries.reverse path) ∧
      ((∀ (α : Type) [LinearOrder α] (x y : String → α),
        compareBy x y (sortEntries o.sort) = compareBy x y entries) ↔
          ∀ path, Keyed.get? entries path = Keyed.get? entries.reverse path) := by
  obtain ⟨entries, hentries, hsort⟩ := plain_sort h
  have hiff := fun (α : Type) [LinearOrder α] (x y : String → α) =>
    compareBy_sortEntries_iff hsort x y
  refine ⟨entries, hentries, fun α _ x y => hiff α x y, fun hall path => ?_,
    fun hall α _ x y => (hiff α x y).2 fun path _ => hall path⟩
  by_cases hmem : path ∈ Keyed.keys entries
  · obtain ⟨x, y, hd⟩ := exists_decisive hmem
    exact (hiff Nat x y).1 (hall Nat x y) path hd
  · have hmem' : path ∉ Keyed.keys entries.reverse := mt Keyed.mem_keys_reverse.1 hmem
    rw [Keyed.get?_eq_none_iff.2 hmem, Keyed.get?_eq_none_iff.2 hmem']

end Plan

open Plan Syntax

/-! ## Statements -/

/-- The ordering of a `SELECT` statement without groups is the one of its model. -/
theorem compileSelect_plain {s : Settings} {query : Select} {q : Query}
    (h : compileSelect s query = .ok q) (hg : q.grouping = false) :
    ∃ m o, Model.ofSelect query = .ok m ∧ RowOrder.plain m = .ok o ∧ q.sort = o.sort := by
  obtain ⟨m, origin, hm, -, h⟩ := compileSelect_ok h
  obtain ⟨joined, filter, stages, -, -, -, h⟩ := compileModel_ok h
  split at h
  · next hgroups =>
    obtain ⟨g, order, having, -, -, -, rfl⟩ := addGroups_ok h
    exact absurd (hgroups.symm.trans hg) (by decide)
  · obtain ⟨o, -, ho, rfl⟩ := addPlain_ok h
    exact ⟨m, o, hm, ho, rfl⟩

/-- The ordering that a compiled statement asks for. -/
def Compiled.orderEntries? (c : Compiled) : Option (Keyed Bool) :=
  match c.statement with
  | .select query => (Model.ofSelect query).toOption.bind Plan.orderEntries?
  | .delete _ _ _ => none

/-- What a text is ordered by can be found by evaluation. -/
theorem exists_plain (s : Settings) (text : String) (entries sorted : Keyed Bool)
    (h : (compile s text).toOption.map (fun c =>
      (c.query.grouping, sortEntries c.query.sort, c.orderEntries?)) =
        some (false, sorted, some entries)) :
    ∃ c query m o, compile s text = .ok c ∧ c.statement = .select query ∧
      Model.ofSelect query = .ok m ∧ RowOrder.plain m = .ok o ∧ c.query.sort = o.sort ∧
      orderEntries? m = some entries ∧ sortEntries o.sort = sorted := by
  obtain ⟨c, hc, hfacts⟩ := toOption_map_eq_some.1 h
  obtain ⟨hgrouping, hfacts⟩ := Prod.mk.inj hfacts
  obtain ⟨hsorted, hentries⟩ := Prod.mk.inj hfacts
  unfold Compiled.orderEntries? at hentries
  split at hentries
  · next query hs =>
    obtain ⟨m, o, hm, ho, hsort⟩ := compileSelect_plain (compile_select_ok hc hs).1 hgrouping
    obtain ⟨m', hm', hentries⟩ := toOption_bind_eq_some.1 hentries
    obtain rfl : m = m' := Except.ok.inj (hm.symm.trans hm')
    exact ⟨c, query, m, o, hc, hs, hm, ho, hsort, hentries, hsort ▸ hsorted⟩
  · cases hentries

/-- A path that is ordered by three times, twice under its alias, where the second direction never
counts. -/
theorem plain_compareBy_iff_repeated : ∃ c query m o, compile {}
      "SELECT a AS x, b FROM t ORDER BY x DESC, a, b, x DESC" = .ok c ∧
    c.statement = .select query ∧ Model.ofSelect query = .ok m ∧ RowOrder.plain m = .ok o ∧
    c.query.sort = o.sort ∧ sortEntries o.sort = [("a", false), ("b", true)] ∧
    orderEntries? m = some [("a", false), ("a", true), ("b", true), ("a", false)] ∧
    ∀ (α : Type) [LinearOrder α] (x y : String → α), compareBy x y (sortEntries o.sort) =
      compareBy x y [("a", false), ("a", true), ("b", true), ("a", false)] := by
  obtain ⟨c, query, m, o, hc, hs, hm, ho, hsort, hentries, hsorted⟩ := exists_plain {}
    "SELECT a AS x, b FROM t ORDER BY x DESC, a, b, x DESC"
    [("a", false), ("a", true), ("b", true), ("a", false)] [("a", false), ("b", true)]
    (by decide +kernel)
  obtain ⟨entries, hentries', -, hiff⟩ := plain_compareBy_iff ho
  obtain rfl := Option.some.inj (hentries.symm.trans hentries')
  refine ⟨c, query, m, o, hc, hs, hm, ho, hsort, hsorted, hentries, hiff.2 fun path => ?_⟩
  by_cases ha : "a" = path <;> simp [Keyed.get?_cons, ha]

/-- A path that is ordered by in both directions is sorted in the last one, though it is the first
one that counts. -/
theorem plain_compareBy_reversed : ∃ c query m o, compile {}
      "SELECT a FROM t ORDER BY a, a DESC" = .ok c ∧
    c.statement = .select query ∧ Model.ofSelect query = .ok m ∧ RowOrder.plain m = .ok o ∧
    c.query.sort = o.sort ∧ orderEntries? m = some [("a", true), ("a", false)] ∧
    ∀ (α : Type) [LinearOrder α] (x y : String → α), compare (x "a") (y "a") = .lt →
      compareBy x y [("a", true), ("a", false)] = .lt ∧
      compareBy x y (sortEntries o.sort) = .gt := by
  obtain ⟨c, query, m, o, hc, hs, hm, ho, hsort, hentries, hsorted⟩ := exists_plain {}
    "SELECT a FROM t ORDER BY a, a DESC" [("a", true), ("a", false)] [("a", false)]
    (by decide +kernel)
  refine ⟨c, query, m, o, hc, hs, hm, ho, hsort, hentries, fun α _ x y hlt => ?_⟩
  have hup : compareIn true (x "a") (y "a") = .lt := hlt
  have hdown : compareIn false (x "a") (y "a") = .gt :=
    Std.OrientedOrd.eq_swap.trans (congrArg Ordering.swap hlt)
  rw [hsorted]
  simp only [compareBy, hup, hdown]
  exact ⟨rfl, rfl⟩

end DocQuery
