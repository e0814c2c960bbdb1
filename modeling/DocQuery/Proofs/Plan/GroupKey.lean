import DocQuery.Proofs.Filter.Matching
import DocQuery.Proofs.Plan.Groups
import DocQuery.Proofs.Syntax.Paths
import Mathlib.Data.Finset.Card
import Mathlib.Data.Finset.Image

/-!
# The places of grouped fields

Documents that are grouped by several fields have a document for the key of a group, in which a
field stands under its path with underscores for dots. Two paths that differ in nothing else share a
place, and the later one takes it. `ofModel_places_iff` says that this is the only way to lose a
field: every grouped field is read at its own place exactly if no two of the paths have the same
key.
-/

namespace DocQuery

open Syntax

/-! ## Paths as keys -/

theorem notMem_safeKey (path : String) : '.' ∉ (safeKey path).toList := by
  rw [safeKey, String.toList_ofList, List.mem_map]
  rintro ⟨ch, -, hch⟩
  split at hch
  · cases hch
  · next hne => exact hne hch

theorem length_safeKey (path : String) : (safeKey path).toList.length = path.toList.length := by
  rw [safeKey, String.toList_ofList, List.length_map]

/-- A path whose key has no underscore is its own key. -/
theorem safeKey_eq_self {path : String} (h : '_' ∉ (safeKey path).toList) :
    safeKey path = path := by
  apply String.toList_injective
  rw [safeKey, String.toList_ofList] at h ⊢
  refine (List.map_congr_left fun ch hch => ?_).trans (List.map_id _)
  split
  · next hdot =>
    subst hdot
    exact absurd (List.mem_map.2 ⟨'.', hch, rfl⟩) h
  · rfl

/-- A path is determined by its key and its reference together. -/
theorem eq_of_safeKey_eq {path path' : String} (hk : safeKey path = safeKey path')
    (hr : fieldReference path = fieldReference path') : path = path' := by
  have hlength : path.toList.length = path'.toList.length := by
    rw [← length_safeKey, hk, length_safeKey]
  have hlead : ∀ {a b : String}, a = "$" ++ b → a.toList.length = b.toList.length → False := by
    rintro _ b rfl hl
    simp at hl
  unfold fieldReference at hr
  split at hr <;> split at hr
  · exact hr
  · exact (hlead hr hlength).elim
  · exact (hlead hr.symm hlength.symm).elim
  · apply String.toList_injective
    simpa using congrArg String.toList hr

namespace Plan

/-! ## The key of a group -/

/-- The key of a group with several fields: the reference to each path under its key. -/
def keyFields (paths : List String) : Document :=
  Keyed.putAll [] (paths.map fun path => (safeKey path, .string (fieldReference path)))

theorem groupId_eq_keyFields {paths : List String} (h : 2 ≤ paths.length) :
    groupId paths = .document (keyFields paths) := by
  rcases paths with _ | ⟨first, _ | ⟨second, others⟩⟩
  · simp at h
  · simp at h
  · rfl

/-- The reference to every path can be read exactly if different paths have different keys. -/
theorem get?_keyFields_iff {paths : List String} :
    (∀ path ∈ paths, Keyed.get? (keyFields paths) (safeKey path) =
      some (.string (fieldReference path))) ↔ Set.InjOn safeKey {path | path ∈ paths} := by
  have hkept := Keyed.forall_get?_putAll_iff []
    (paths.map fun path => (safeKey path, Value.string (fieldReference path)))
  simp only [List.forall_mem_map, Value.string.injEq] at hkept
  rw [keyFields, hkept]
  constructor
  · intro h path hp path' hp' hk
    exact eq_of_safeKey_eq hk (h path hp path' hp' hk)
  · intro h path hp path' hp' hk
    rw [h hp hp' hk]

/-- The key has as many fields as there are paths exactly if different paths have different keys. -/
theorem length_keyFields_iff {paths : List String} (h : paths.Nodup) :
    (keyFields paths).length = paths.length ↔ Set.InjOn safeKey {path | path ∈ paths} := by
  have hnil : (Keyed.keys ([] : Document)).Nodup := List.nodup_nil
  have hnodup : (Keyed.keys (keyFields paths)).Nodup := Keyed.nodup_keys_putAll hnil _
  have himage : (Keyed.keys (keyFields paths)).toFinset = paths.toFinset.image safeKey := by
    ext key
    rw [List.mem_toFinset, keyFields, Keyed.mem_keys_putAll]
    simp [Keyed.keys]
  have hlength : (keyFields paths).length = (paths.toFinset.image safeKey).card := by
    rw [← himage, List.toFinset_card_of_nodup hnodup, Keyed.keys, List.length_map]
  have hset : (paths.toFinset : Set String) = {path | path ∈ paths} := by
    ext path
    simp
  rw [hlength, ← List.toFinset_card_of_nodup h, Finset.card_image_iff, hset]

/-! ## Places -/

/-- What stands at a place of the key of a group. -/
def Grouping.keyAt (g : Grouping) (place : String) : List Value :=
  Document.reach (.single "_id" g.id) place

theorem Grouping.keyAt_id (g : Grouping) : g.keyAt "_id" = [g.id] := rfl

theorem Grouping.keyAt_field {g : Grouping} {fields : Document} (h : g.id = .document fields)
    {key : String} (hk : '.' ∉ key.toList) :
    g.keyAt ("_id." ++ key) = (Keyed.get? fields key).toList := by
  have hsplit : Column.splitDots ("_id." ++ key).toList = ["_id".toList, key.toList] := by
    rw [String.toList_append, ← Column.splitDots_of_notMem hk]
    exact Column.splitDots_append_dot (show '.' ∉ "_id".toList by decide) key.toList
  rw [keyAt, Document.reach, hsplit, h]
  cases hget : Keyed.get? fields key <;>
    simp [Value.reach, Document.single, Keyed.get?_cons, hget]

variable {m : Model} {g : Grouping}

/-- Every grouped field is read at its place exactly if different fields have different keys. -/
theorem GroupingOf.keyAt_iff (h : GroupingOf m g) :
    (∀ path ∈ g.fields, ∃ place, g.idReference? path = some place ∧
      g.keyAt place = [.string (fieldReference path)]) ↔
      Set.InjOn safeKey {path | path ∈ g.fields} := by
  by_cases hlength : 2 ≤ g.fields.length
  · have hid : g.id = .document (keyFields g.fields) := h.id.trans (groupId_eq_keyFields hlength)
    rw [← get?_keyFields_iff]
    refine forall₂_congr fun path hp => ?_
    have hplace : g.idReference? path = some ("_id." ++ safeKey path) := by
      rw [Grouping.idReference?, idReferenceIn_of_mem hp, if_neg (by omega)]
    rw [hplace]
    simp [Grouping.keyAt_field hid (notMem_safeKey path), Option.toList_eq_singleton_iff]
  · -- A single field is the key itself.
    have hlone : ∀ path ∈ g.fields, g.fields = [path] := by
      intro path hp
      obtain ⟨path', hfields⟩ : ∃ path', g.fields = [path'] := by
        have := List.length_pos_of_mem hp
        exact List.length_eq_one_iff.1 (by omega)
      rw [hfields] at hp ⊢
      rw [List.mem_singleton.1 hp]
    refine iff_of_true ?_ ?_
    · intro path hp
      refine ⟨"_id", ?_, ?_⟩
      · rw [Grouping.idReference?, idReferenceIn_of_mem hp, hlone path hp]
        rfl
      · rw [Grouping.keyAt_id, h.id, hlone path hp]
        rfl
    · intro path hp path' hp' _
      have hp' : path' ∈ g.fields := hp'
      rw [hlone path hp] at hp'
      exact (List.mem_singleton.1 hp').symm

end Plan

open Plan

/-- **Every grouped field has a place of its own in the key of a group, unless two share a key.**
The selected columns and the keys are grouped by, none of them twice. Each is read at its place, and
the key of several fields has a field for each of them, exactly if no two paths differ only in dots
and underscores. -/
theorem ofModel_places_iff {m : Model} {g : Grouping} (h : Grouping.ofModel m = .ok g) :
    g.fields.Nodup ∧
    (∀ path, path ∈ g.fields ↔ path ∈ m.selectColumns.map (·.1) ∨ path ∈ m.groupKeys) ∧
    ((∀ path ∈ g.fields, ∃ place, g.idReference? path = some place ∧
        g.keyAt place = [.string (fieldReference path)]) ↔
      Set.InjOn safeKey {path | path ∈ g.fields}) ∧
    (2 ≤ g.fields.length → ∃ fields : Document, g.id = .document fields ∧
      (fields.length = g.fields.length ↔ Set.InjOn safeKey {path | path ∈ g.fields})) := by
  have hof := groupingOf_ofModel h
  have hnodup : g.fields.Nodup := hof.fields ▸ nodup_distinctPaths _
  refine ⟨hnodup, fun path => ?_, hof.keyAt_iff, fun hlength => ?_⟩
  · rw [hof.fields, mem_groupedFields]
  · exact ⟨keyFields g.fields, hof.id.trans (groupId_eq_keyFields hlength),
      length_keyFields_iff hnodup⟩

/-- Three fields with a place each, of which two are selected. -/
theorem ofModel_places_iff_nested : ∃ c query m g, compile {}
      "SELECT a AS x, b.c, COUNT(*) FROM t GROUP BY a, b.c, d_e" = .ok c ∧
    c.statement = .select query ∧ Model.ofSelect query = .ok m ∧ Grouping.ofModel m = .ok g ∧
    g.fields = ["a", "b.c", "d_e"] ∧ Set.InjOn safeKey {path | path ∈ g.fields} ∧
    (∀ path ∈ g.fields, ∃ place, g.idReference? path = some place ∧
      g.keyAt place = [.string (fieldReference path)]) ∧
    ∃ fields : Document, g.id = .document fields ∧ fields.length = g.fields.length := by
  obtain ⟨c, query, m, g, hc, hs, -, hm, hg, hfields⟩ := exists_groups {}
    "SELECT a AS x, b.c, COUNT(*) FROM t GROUP BY a, b.c, d_e" (fun _ _ g => g.fields)
    ["a", "b.c", "d_e"] (by decide +kernel)
  have hapart : Set.InjOn safeKey {path | path ∈ g.fields} := by
    rw [hfields]
    exact (by decide +kernel : ∀ path ∈ ["a", "b.c", "d_e"], ∀ path' ∈ ["a", "b.c", "d_e"],
      safeKey path = safeKey path' → path = path')
  obtain ⟨-, -, hplaces, hkey⟩ := ofModel_places_iff hg
  obtain ⟨fields, hid, hlength⟩ := hkey (by rw [hfields]; decide)
  exact ⟨c, query, m, g, hc, hs, hm, hg, hfields, hapart, hplaces.2 hapart, fields, hid,
    hlength.2 hapart⟩

/-- Of two fields that differ only in a dot and an underscore one is lost. -/
theorem ofModel_places_shared : ∃ c query m g, compile {}
      "SELECT a.b, a_b, COUNT(*) FROM t GROUP BY a.b, a_b" = .ok c ∧
    c.statement = .select query ∧ Model.ofSelect query = .ok m ∧ Grouping.ofModel m = .ok g ∧
    g.fields = ["a.b", "a_b"] ∧ g.id = .document [("a_b", .string "$a_b")] ∧
    ¬ ∀ path ∈ g.fields, ∃ place, g.idReference? path = some place ∧
      g.keyAt place = [.string (fieldReference path)] := by
  obtain ⟨c, query, m, g, hc, hs, -, hm, hg, hfields⟩ := exists_groups {}
    "SELECT a.b, a_b, COUNT(*) FROM t GROUP BY a.b, a_b" (fun _ _ g => g.fields)
    ["a.b", "a_b"] (by decide +kernel)
  have hof := groupingOf_ofModel hg
  have hid : g.id = .document [("a_b", .string "$a_b")] := by
    rw [hof.id, hfields]
    rfl
  have hshared : ¬ Set.InjOn safeKey {path | path ∈ g.fields} := by
    rw [hfields]
    intro h
    have hsame : "a.b" = "a_b" :=
      h (List.mem_cons_self ..) (List.mem_cons_of_mem _ (List.mem_cons_self ..)) (by decide +kernel)
    exact absurd hsame (by decide)
  exact ⟨c, query, m, g, hc, hs, hm, hg, hfields, hid, mt hof.keyAt_iff.1 hshared⟩

end DocQuery
