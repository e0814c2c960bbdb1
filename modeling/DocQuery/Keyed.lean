/-!
# Lists with keys

A `Keyed` list maps texts to values and remembers the order in which the keys came. Putting a value
under a key that is present keeps the place of the key and replaces the value; a new key goes to
the end. `Keyed.keys_put` and `Keyed.get?_put` say so. After several writes the last one under a key
counts (`Keyed.get?_putAll`), so that all of them can be read only if those under the same key agree
(`Keyed.forall_get?_putAll_iff`).
-/

namespace DocQuery

/-- Values under distinct keys, in the order in which the keys were first put. -/
abbrev Keyed (α : Type) := List (String × α)

namespace Keyed

variable {α : Type}

/-- The keys in order. -/
def keys (entries : Keyed α) : List String := entries.map (·.1)

/-- The value under a key. -/
def get? (entries : Keyed α) (key : String) : Option α :=
  match entries with
  | [] => none
  | (k, v) :: rest => if k = key then some v else get? rest key

/-- Whether there is a value under a key. -/
def hasKey (entries : Keyed α) (key : String) : Bool := (get? entries key).isSome

/-- Puts a value under a key: in the place of the key if it is present, at the end otherwise. -/
def put (entries : Keyed α) (key : String) (value : α) : Keyed α :=
  match entries with
  | [] => [(key, value)]
  | (k, v) :: rest => if k = key then (k, value) :: rest else (k, v) :: put rest key value

theorem put_nil (key : String) (value : α) : put [] key value = [(key, value)] := rfl

theorem put_cons (k : String) (v : α) (rest : Keyed α) (key : String) (value : α) :
    put ((k, v) :: rest) key value =
      if k = key then (k, value) :: rest else (k, v) :: put rest key value := rfl

/-- Puts the entries of the second list one after the other. -/
def putAll (entries extra : Keyed α) : Keyed α :=
  extra.foldl (fun acc entry => put acc entry.1 entry.2) entries

@[simp] theorem get?_nil (key : String) : get? ([] : Keyed α) key = none := rfl

theorem get?_cons (k : String) (v : α) (rest : Keyed α) (key : String) :
    get? ((k, v) :: rest) key = if k = key then some v else get? rest key := rfl

theorem hasKey_iff_mem_keys {entries : Keyed α} {key : String} :
    hasKey entries key = true ↔ key ∈ keys entries := by
  induction entries with
  | nil => simp [hasKey, keys]
  | cons entry rest ih =>
    obtain ⟨k, v⟩ := entry
    by_cases h : k = key
    · simp [hasKey, keys, get?_cons, h]
    · have h' : ¬ key = k := fun e => h e.symm
      simpa [hasKey, keys, get?_cons, h, h'] using ih

/-- Reading after a write gives the written value at its key and the old value elsewhere. -/
theorem get?_put (entries : Keyed α) (key key' : String) (value : α) :
    get? (put entries key value) key' = if key = key' then some value else get? entries key' := by
  induction entries with
  | nil => simp [put_nil, get?_cons]
  | cons entry rest ih =>
    obtain ⟨k, v⟩ := entry
    by_cases h : k = key
    · subst h
      by_cases h' : k = key' <;> simp [put_cons, get?_cons, h']
    · by_cases h' : k = key'
      · subst h'
        simp [put_cons, get?_cons, h, Ne.symm h]
      · simp [put_cons, get?_cons, h, h', ih]

/-- A write adds its key at the end if it is new and keeps the keys otherwise. -/
theorem keys_put (entries : Keyed α) (key : String) (value : α) :
    keys (put entries key value) =
      if key ∈ keys entries then keys entries else keys entries ++ [key] := by
  induction entries with
  | nil => simp [put_nil, keys]
  | cons entry rest ih =>
    obtain ⟨k, v⟩ := entry
    by_cases h : k = key
    · simp [put_cons, keys, h]
    · have h' : ¬ key = k := fun e => h e.symm
      simp only [keys] at ih
      by_cases hm : key ∈ rest.map (·.1) <;> simp_all [put_cons, keys]

/-- A write under a new key leaves the entries that are there. -/
theorem put_of_notMem_keys {entries : Keyed α} {key : String} (h : key ∉ keys entries) (value : α) :
    put entries key value = entries ++ [(key, value)] := by
  induction entries with
  | nil => rfl
  | cons entry rest ih =>
    obtain ⟨k, v⟩ := entry
    simp only [keys, List.map_cons, List.mem_cons, not_or] at h
    rw [put_cons, if_neg (Ne.symm h.1), ih h.2, List.cons_append]

@[simp] theorem put_ne_nil (entries : Keyed α) (key : String) (value : α) :
    put entries key value ≠ [] := by
  cases entries with
  | nil => simp [put_nil]
  | cons entry rest =>
    obtain ⟨k, v⟩ := entry
    rw [put_cons]
    split <;> simp

/-- Entries are never removed. -/
theorem putAll_ne_nil {entries extra : Keyed α} (h : entries ≠ [] ∨ extra ≠ []) :
    putAll entries extra ≠ [] := by
  unfold putAll
  induction extra generalizing entries with
  | nil => simpa using h
  | cons entry extra ih => exact ih (.inl (put_ne_nil entries entry.1 entry.2))

/-- Writing keeps the keys distinct. -/
theorem nodup_keys_put {entries : Keyed α} (h : (keys entries).Nodup) (key : String) (value : α) :
    (keys (put entries key value)).Nodup := by
  rw [keys_put]
  split
  · exact h
  · next hn =>
    refine List.nodup_append.2 ⟨h, by simp, ?_⟩
    intro a ha b hb e
    simp only [List.mem_singleton] at hb
    exact hn (hb ▸ e ▸ ha)

theorem mem_keys_put {entries : Keyed α} {key key' : String} {value : α} :
    key' ∈ keys (put entries key value) ↔ key' = key ∨ key' ∈ keys entries := by
  rw [keys_put]
  split
  · next h => exact ⟨.inr, fun hk => hk.elim (fun e => e ▸ h) id⟩
  · rw [List.mem_append, List.mem_singleton, or_comm]

theorem mem_of_mem_put {entries : Keyed α} {key : String} {value : α} {entry : String × α}
    (h : entry ∈ put entries key value) : entry ∈ entries ∨ entry = (key, value) := by
  induction entries with
  | nil => exact .inr (List.mem_singleton.1 h)
  | cons first rest ih =>
    obtain ⟨k, v⟩ := first
    rw [put_cons] at h
    split at h
    · next hk =>
      rcases List.mem_cons.1 h with rfl | hm
      · exact .inr (hk ▸ rfl)
      · exact .inl (List.mem_cons_of_mem _ hm)
    · rcases List.mem_cons.1 h with rfl | hm
      · exact .inl List.mem_cons_self
      · exact (ih hm).imp_left (List.mem_cons_of_mem _)

theorem mem_of_get? {entries : Keyed α} {key : String} {value : α}
    (h : get? entries key = some value) : (key, value) ∈ entries := by
  induction entries with
  | nil => cases h
  | cons entry rest ih =>
    obtain ⟨k, v⟩ := entry
    rw [get?_cons] at h
    split at h
    · next hk =>
      cases h
      exact hk ▸ List.mem_cons_self
    · exact List.mem_cons_of_mem _ (ih h)

theorem get?_eq_none_iff {entries : Keyed α} {key : String} :
    get? entries key = none ↔ key ∉ keys entries := by
  rw [← hasKey_iff_mem_keys, hasKey, Bool.not_eq_true, Option.isSome_eq_false_iff,
    Option.isNone_iff_eq_none]

theorem get?_append (first second : Keyed α) (key : String) :
    get? (first ++ second) key = (get? first key).or (get? second key) := by
  induction first with
  | nil => rfl
  | cons entry rest ih =>
    obtain ⟨k, v⟩ := entry
    rw [List.cons_append, get?_cons, get?_cons, ih]
    split <;> rfl

/-- Under distinct keys every entry can be read. -/
theorem get?_of_mem {entries : Keyed α} (h : (keys entries).Nodup) {key : String} {value : α}
    (hm : (key, value) ∈ entries) : get? entries key = some value := by
  induction entries with
  | nil => cases hm
  | cons entry rest ih =>
    obtain ⟨k, v⟩ := entry
    obtain ⟨hk, hrest⟩ := List.nodup_cons.1 h
    rw [get?_cons]
    rcases List.mem_cons.1 hm with he | hm
    · cases he
      rw [if_pos rfl]
    · have hmem : key ∈ keys rest := List.mem_map.2 ⟨_, hm, rfl⟩
      have hne : k ≠ key := fun e => hk (e ▸ hmem)
      rw [if_neg hne, ih hrest hm]

/-- After a write of another value the entries that are read are those under other keys. -/
theorem get?_put_eq_some_iff {entries : Keyed α} {key key' : String} {value value' : α}
    (h : value' ≠ value) :
    get? (put entries key value) key' = some value' ↔
      key' ≠ key ∧ get? entries key' = some value' := by
  rw [get?_put]
  split
  · next hk => exact ⟨fun hv => absurd (Option.some.inj hv).symm h, fun hv => absurd hk.symm hv.1⟩
  · next hk => exact ⟨fun hv => ⟨Ne.symm hk, hv⟩, And.right⟩

theorem mem_keys_reverse {entries : Keyed α} {key : String} :
    key ∈ keys entries.reverse ↔ key ∈ keys entries := by
  rw [keys, List.map_reverse, List.mem_reverse, keys]

theorem keys_map_snd {β : Type} (f : α → β) (entries : Keyed α) :
    keys (entries.map fun entry => (entry.1, f entry.2)) = keys entries :=
  List.map_map

theorem get?_map_snd {β : Type} (f : α → β) (entries : Keyed α) (key : String) :
    get? (entries.map fun entry => (entry.1, f entry.2)) key = (get? entries key).map f := by
  induction entries with
  | nil => rfl
  | cons entry rest ih =>
    obtain ⟨k, v⟩ := entry
    rw [List.map_cons, get?_cons, get?_cons, ih]
    split <;> rfl

/-- A key that is put again keeps its place, so that a search of the keys finds the same one as if
it were added once more. -/
theorem find?_keys_put (p : String → Bool) (entries : Keyed α) (key : String) (value : α) :
    (keys (put entries key value)).find? p = (keys entries ++ [key]).find? p := by
  rw [keys_put]
  split
  · next hmem =>
    rw [List.find?_append]
    cases hf : (keys entries).find? p with
    | some found => rfl
    | none =>
      rw [Option.none_or, List.find?_cons_of_neg (List.find?_eq_none.1 hf key hmem), List.find?_nil]
  · rfl

/-! ## Several writes -/

theorem putAll_cons (entries : Keyed α) (entry : String × α) (extra : Keyed α) :
    putAll entries (entry :: extra) = putAll (put entries entry.1 entry.2) extra := rfl

theorem putAll_append (entries first second : Keyed α) :
    putAll entries (first ++ second) = putAll (putAll entries first) second :=
  List.foldl_append

/-- Of several writes under a key the last one is read. -/
theorem get?_putAll (entries extra : Keyed α) (key : String) :
    get? (putAll entries extra) key = (get? extra.reverse key).or (get? entries key) := by
  induction extra generalizing entries with
  | nil => rfl
  | cons entry extra ih =>
    obtain ⟨k, v⟩ := entry
    rw [putAll_cons, ih, get?_put, List.reverse_cons, get?_append, get?_cons, get?_nil]
    cases get? extra.reverse key with
    | some value => rfl
    | none => split <;> rfl

theorem get?_putAll_of_notMem {entries extra : Keyed α} {key : String} (h : key ∉ keys extra) :
    get? (putAll entries extra) key = get? entries key := by
  have hnone : get? extra.reverse key = none := get?_eq_none_iff.2 (mt mem_keys_reverse.1 h)
  rw [get?_putAll, hnone, Option.none_or]

/-- What is read under a key that was written is one of the values that were written under it. -/
theorem exists_get?_putAll {entries extra : Keyed α} {key : String} (h : key ∈ keys extra) :
    ∃ value, (key, value) ∈ extra ∧ get? (putAll entries extra) key = some value := by
  obtain ⟨value, hvalue⟩ :=
    Option.isSome_iff_exists.1 (hasKey_iff_mem_keys.2 (mem_keys_reverse.2 h))
  refine ⟨value, List.mem_reverse.1 (mem_of_get? hvalue), ?_⟩
  rw [get?_putAll, hvalue, Option.some_or]

/-- Under distinct keys everything that was written can be read. -/
theorem get?_putAll_of_mem {entries extra : Keyed α} (h : (keys extra).Nodup) {key : String}
    {value : α} (hm : (key, value) ∈ extra) : get? (putAll entries extra) key = some value := by
  obtain ⟨value', hm', hget⟩ := exists_get?_putAll (List.mem_map_of_mem hm)
  rw [hget, ← get?_of_mem h hm', get?_of_mem h hm]

theorem mem_keys_putAll {entries extra : Keyed α} {key : String} :
    key ∈ keys (putAll entries extra) ↔ key ∈ keys entries ∨ key ∈ keys extra := by
  induction extra generalizing entries with
  | nil => simp [putAll, keys]
  | cons entry extra ih =>
    rw [putAll_cons, ih, mem_keys_put]
    simp only [keys, List.map_cons, List.mem_cons]
    exact ⟨fun h => h.elim (fun h => h.elim (.inr ∘ .inl) .inl) (.inr ∘ .inr),
      fun h => h.elim (.inl ∘ .inr) (fun h => h.elim (.inl ∘ .inl) .inr)⟩

/-- Nothing is there after several writes but what was there before and what was written. -/
theorem mem_of_mem_putAll {entries extra : Keyed α} {entry : String × α}
    (h : entry ∈ putAll entries extra) : entry ∈ entries ∨ entry ∈ extra := by
  induction extra generalizing entries with
  | nil => exact .inl h
  | cons written extra ih =>
    rcases ih h with hm | hm
    · rcases mem_of_mem_put hm with hm | rfl
      · exact .inl hm
      · exact .inr List.mem_cons_self
    · exact .inr (List.mem_cons_of_mem _ hm)

theorem nodup_keys_putAll {entries : Keyed α} (h : (keys entries).Nodup) (extra : Keyed α) :
    (keys (putAll entries extra)).Nodup := by
  induction extra generalizing entries with
  | nil => exact h
  | cons entry extra ih => exact ih (nodup_keys_put h entry.1 entry.2)

/-- A search of the keys after several writes finds the same one as a search of all keys. -/
theorem find?_keys_putAll (p : String → Bool) (entries extra : Keyed α) :
    (keys (putAll entries extra)).find? p = (keys entries ++ keys extra).find? p := by
  induction extra generalizing entries with
  | nil => exact congrArg (List.find? p) (List.append_nil (keys entries)).symm
  | cons entry extra ih =>
    rw [putAll_cons, ih, List.find?_append, find?_keys_put, ← List.find?_append, List.append_assoc]
    rfl

/-- **All written entries can be read** exactly if those under the same key are the same. -/
theorem forall_get?_putAll_iff (entries extra : Keyed α) :
    (∀ entry ∈ extra, get? (putAll entries extra) entry.1 = some entry.2) ↔
      ∀ a ∈ extra, ∀ b ∈ extra, a.1 = b.1 → a.2 = b.2 := by
  constructor
  · intro h a ha b hb hab
    have hsame := h b hb
    rw [← hab, h a ha] at hsame
    exact Option.some.inj hsame
  · intro h entry he
    obtain ⟨value, hv, hget⟩ := exists_get?_putAll (List.mem_map_of_mem he)
    exact hget.trans (congrArg some (h _ hv entry he rfl))

end Keyed

end DocQuery
