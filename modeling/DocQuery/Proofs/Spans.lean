import Mathlib.Data.List.Basic

/-!
# Runs of characters

A text is cut after the longest run of characters that have a property. `span_append` says where the
cut falls in a text of which the run is known, and `exists_span` that every text has such a run.
-/

namespace DocQuery

variable {p : Char → Bool}

/-- A run goes up to the first character without the property. -/
theorem span_append {run : List Char} (hp : ∀ c ∈ run, p c = true) (rest : List Char)
    (hr : ∀ c ∈ rest.head?, p c = false) :
    (run ++ rest).takeWhile p = run ∧ (run ++ rest).dropWhile p = rest := by
  rw [List.takeWhile_append_of_pos hp, List.dropWhile_append_of_pos hp]
  cases rest with
  | nil => exact ⟨List.append_nil run, rfl⟩
  | cons c rest =>
    have hn : ¬ p c = true := Bool.not_eq_true _ ▸ hr c rfl
    rw [List.takeWhile_cons_of_neg hn, List.dropWhile_cons_of_neg hn]
    exact ⟨List.append_nil run, rfl⟩

theorem eq_false_of_mem_head?_dropWhile {cs : List Char} :
    ∀ c ∈ (cs.dropWhile p).head?, p c = false := by
  intro c hc
  have hhead := List.head?_dropWhile_not p cs
  rw [Option.mem_def.1 hc] at hhead
  exact hhead

theorem exists_span (p : Char → Bool) (cs : List Char) : ∃ run rest, cs = run ++ rest ∧
    (∀ c ∈ run, p c = true) ∧ ∀ c ∈ rest.head?, p c = false :=
  ⟨cs.takeWhile p, cs.dropWhile p, List.takeWhile_append_dropWhile.symm,
    List.all_eq_true.1 List.all_takeWhile, eq_false_of_mem_head?_dropWhile⟩

end DocQuery
