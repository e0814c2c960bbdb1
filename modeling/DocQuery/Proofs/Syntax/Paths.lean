import DocQuery.Syntax.Tree

/-!
# Dotted paths

A path is cut at its dots and put together again. The parts determine the path
(`Column.splitDots_injective`), and the column that a path names has that path
(`Column.path_ofPath`).
-/

namespace DocQuery.Syntax

namespace Column

theorem splitDots_ne_nil (cs : List Char) : splitDots cs ≠ [] := by
  cases cs with
  | nil => simp [splitDots]
  | cons c cs =>
    rw [splitDots]
    split
    · simp
    · split <;> simp

/-- A character that is no dot goes to the front of the first part. -/
theorem splitDots_cons_of_ne {c : Char} (hc : c ≠ '.') {cs part : List Char}
    {parts : List (List Char)} (h : splitDots cs = part :: parts) :
    splitDots (c :: cs) = (c :: part) :: parts := by
  rw [splitDots, if_neg hc, h]

/-- The parts of a text between dots determine the text. -/
theorem intercalate_splitDots (cs : List Char) : ['.'].intercalate (splitDots cs) = cs := by
  induction cs with
  | nil => rfl
  | cons c cs ih =>
    obtain ⟨part, parts, hs⟩ := List.exists_cons_of_ne_nil (splitDots_ne_nil cs)
    rw [hs] at ih
    by_cases hc : c = '.'
    · have hdot : splitDots (c :: cs) = [] :: splitDots cs := if_pos hc
      rw [hdot, hs, List.intercalate_cons_cons, ih, hc]
      rfl
    · rw [splitDots_cons_of_ne hc hs]
      cases parts with
      | nil =>
        rw [List.intercalate_singleton] at ih ⊢
        rw [ih]
      | cons part' parts =>
        rw [List.intercalate_cons_cons] at ih ⊢
        rw [← ih]
        rfl

theorem splitDots_injective {cs ds : List Char} (h : splitDots cs = splitDots ds) : cs = ds := by
  rw [← intercalate_splitDots cs, h, intercalate_splitDots]

theorem splitDots_of_notMem {cs : List Char} (h : '.' ∉ cs) : splitDots cs = [cs] := by
  induction cs with
  | nil => rfl
  | cons c cs ih =>
    obtain ⟨hc, hcs⟩ := not_or.1 (mt List.mem_cons.2 h)
    exact splitDots_cons_of_ne (Ne.symm hc) (ih hcs)

/-- The first dot ends the first part. -/
theorem splitDots_append_dot {cs : List Char} (h : '.' ∉ cs) (ds : List Char) :
    splitDots (cs ++ '.' :: ds) = cs :: splitDots ds := by
  induction cs with
  | nil => rfl
  | cons c cs ih =>
    obtain ⟨hc, hcs⟩ := not_or.1 (mt List.mem_cons.2 h)
    exact splitDots_cons_of_ne (Ne.symm hc) (ih hcs)

end Column

theorem path_ofSegments {segments : List String} (hne : segments ≠ []) :
    (Column.ofSegments segments).path = ".".intercalate segments := by
  obtain ⟨first, others, rfl⟩ := List.exists_cons_of_ne_nil hne
  cases others with
  | nil => simp [Column.ofSegments, Column.path]
  | cons second others =>
    rw [String.intercalate_cons_cons]
    rfl

/-- The column that a path names has that path. -/
@[simp] theorem Column.path_ofPath (path : String) : (Column.ofPath path).path = path := by
  have hne : (splitDots path.toList).map String.ofList ≠ [] := by
    simp [splitDots_ne_nil]
  have hparts : ((splitDots path.toList).map String.ofList).map String.toList =
      splitDots path.toList := by
    simp [Function.comp_def]
  apply String.toList_injective
  rw [Column.ofPath, path_ofSegments hne, String.toList_intercalate, hparts]
  exact intercalate_splitDots _

end DocQuery.Syntax
