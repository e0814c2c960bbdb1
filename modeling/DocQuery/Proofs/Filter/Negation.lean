import DocQuery.Proofs.Filter.Keys
import DocQuery.Proofs.Syntax.Paths

/-!
# Negation

`NOT` before parentheses puts the filter under `$nor`, which matches the documents that the filter
does not match. `NOT` before anything else tests that the field with the text of the negated
expression for its name is not true. `negation_sound_iff` says that the second agrees with the first
for bare columns and for nothing else: any other condition speaks of fields with shorter names, so
that two documents which differ only in the field that is tested tell the two filters apart.
-/

namespace DocQuery

open Syntax

namespace Value

/-! ## Long arrays -/

mutual

/-- The length of the longest array in a value. -/
def longest : Value → Nat
  | .array elements => max elements.length (longestElement elements)
  | .document fields => longestField fields
  | _ => 0

/-- The length of the longest array in the elements of an array. -/
def longestElement : List Value → Nat
  | [] => 0
  | v :: vs => max (longest v) (longestElement vs)

/-- The length of the longest array in the fields of a document. -/
def longestField : List (String × Value) → Nat
  | [] => 0
  | (_, v) :: fields => max (longest v) (longestField fields)

end

theorem longest_le_of_mem {v : Value} {vs : List Value} (h : v ∈ vs) :
    v.longest ≤ longestElement vs := by
  induction vs with
  | nil => cases h
  | cons w vs ih =>
    rw [longestElement]
    rcases List.mem_cons.1 h with rfl | h
    · exact Nat.le_max_left _ _
    · exact Nat.le_trans (ih h) (Nat.le_max_right _ _)

theorem longest_le_of_mem_fields {key : String} {v : Value} {fields : List (String × Value)}
    (h : (key, v) ∈ fields) : v.longest ≤ longestField fields := by
  induction fields with
  | nil => cases h
  | cons field fields ih =>
    obtain ⟨key', w⟩ := field
    rw [longestField]
    rcases List.mem_cons.1 h with h | h
    · cases h
      exact Nat.le_max_left _ _
    · exact Nat.le_trans (ih h) (Nat.le_max_right _ _)

mutual

/-- Equal values have arrays of equal lengths. -/
theorem longest_eq_of_same : ∀ {u v : Value}, same u v = true → longest u = longest v
  | .array us, .array vs, h => by
    rw [same] at h
    obtain ⟨hl, he⟩ := longestElement_eq_of_same h
    rw [longest, longest, hl, he]
  | .document us, .document vs, h => by
    rw [same] at h
    rw [longest, longest, longestField_eq_of_same h]
  | .null, v, h | .bool _, v, h | .int _, v, h | .float _, v, h | .string _, v, h => by
    cases v with
    | array _ => cases h
    | document _ => cases h
    | _ => rfl
  | .array _, .null, h | .array _, .bool _, h | .array _, .int _, h | .array _, .float _, h
  | .array _, .string _, h | .array _, .document _, h => nomatch h
  | .document _, .null, h | .document _, .bool _, h | .document _, .int _, h
  | .document _, .float _, h | .document _, .string _, h | .document _, .array _, h => nomatch h

theorem longestElement_eq_of_same : ∀ {us vs : List Value}, sameElements us vs = true →
    us.length = vs.length ∧ longestElement us = longestElement vs
  | [], [], _ => ⟨rfl, rfl⟩
  | u :: us, v :: vs, h => by
    rw [sameElements, Bool.and_eq_true] at h
    obtain ⟨hl, he⟩ := longestElement_eq_of_same h.2
    rw [List.length_cons, List.length_cons, longestElement, longestElement, hl, he,
      longest_eq_of_same h.1]
    exact ⟨rfl, rfl⟩
  | [], _ :: _, h => by simp [sameElements] at h
  | _ :: _, [], h => by simp [sameElements] at h

theorem longestField_eq_of_same : ∀ {us vs : List (String × Value)}, sameFields us vs = true →
    longestField us = longestField vs
  | [], [], _ => rfl
  | (_, u) :: us, (_, v) :: vs, h => by
    rw [sameFields, Bool.and_eq_true, Bool.and_eq_true] at h
    rw [longestField, longestField, longest_eq_of_same h.1.2, longestField_eq_of_same h.2]
  | [], _ :: _, h => by simp [sameFields] at h
  | _ :: _, [], h => by simp [sameFields] at h

end

/-! ## Filters that do not tell two assignments apart -/

section Congruence

variable {P : String → Prop} {N : Nat} {assign assign' : String → Value → Bool}

mutual

/-- Assignments that agree on the keys of a filter and on values with arrays as short as its own give
it the same truth value. -/
theorem truth_congr
    (h : ∀ key value, P key → longest value ≤ N → assign key value = assign' key value) :
    ∀ {v : Value}, AllKeys P v → longest v ≤ N → truth assign v = truth assign' v
  | .document clauses, hk, hn => by
    rw [AllKeys] at hk
    rw [longest] at hn
    rw [truth, truth, clausesTruth_congr h hk hn]
  | .null, _, _ | .bool _, _, _ | .int _, _, _ | .float _, _, _ | .string _, _, _
  | .array _, _, _ => rfl

theorem clausesTruth_congr
    (h : ∀ key value, P key → longest value ≤ N → assign key value = assign' key value) :
    ∀ {clauses : List (String × Value)}, AllClauseKeys P clauses →
      longestField clauses ≤ N → clausesTruth assign clauses = clausesTruth assign' clauses
  | [], _, _ => rfl
  | (key, value) :: rest, hk, hn => by
    rw [longestField] at hn
    have hv : longest value ≤ N := Nat.le_trans (Nat.le_max_left _ _) hn
    have hkey := h key value (allClauseKeys_cons.1 hk).1 hv
    have hrest := clausesTruth_congr h (allClauseKeys_cons.1 hk).2.2
      (Nat.le_trans (Nat.le_max_right _ _) hn)
    cases value with
    | array filters =>
      rw [longest] at hv
      obtain ⟨ha, ho⟩ := elementsTruth_congr h ((allClauseKeys_cons.1 hk).2.1 filters rfl)
        (Nat.le_trans (Nat.le_max_right _ _) hv)
      simp only [clausesTruth, hrest, hkey, ha, ho]
    | _ => simp only [clausesTruth, hrest, hkey]

theorem elementsTruth_congr
    (h : ∀ key value, P key → longest value ≤ N → assign key value = assign' key value) :
    ∀ {filters : List Value}, AllElementKeys P filters →
      longestElement filters ≤ N → allTrue assign filters = allTrue assign' filters ∧
        anyTrue assign filters = anyTrue assign' filters
  | [], _, _ => ⟨rfl, rfl⟩
  | filter :: filters, hk, hn => by
    rw [AllElementKeys] at hk
    rw [longestElement] at hn
    have hf := truth_congr h hk.1 (Nat.le_trans (Nat.le_max_left _ _) hn)
    obtain ⟨ha, ho⟩ := elementsTruth_congr h hk.2 (Nat.le_trans (Nat.le_max_right _ _) hn)
    rw [allTrue, allTrue, anyTrue, anyTrue, hf, ha, ho]
    exact ⟨rfl, rfl⟩

end

end Congruence

/-! ## Documents with a single path -/

/-- The value with one value at the end of a path. -/
def nest : List (List Char) → Value → Value
  | [], leaf => leaf
  | part :: parts, leaf => .single (String.ofList part) (nest parts leaf)

theorem longest_nest (leaf : Value) (parts : List (List Char)) :
    longest (nest parts leaf) = longest leaf := by
  induction parts with
  | nil => rfl
  | cons part parts ih =>
    rw [nest, single, longest, longestField, longestField, ih]
    exact Nat.max_zero _

/-- An array of nulls with a last element. -/
def padded (n : Nat) (last : Value) : Value := .array (List.replicate n .null ++ [last])

theorem lt_longest_padded (n : Nat) (last : Value) : n < longest (padded n last) := by
  rw [padded, longest, List.length_append, List.length_replicate, List.length_singleton]
  omega

theorem reach_padded {n : Nat} {u : Value} (hu : ∀ fields, u ≠ .document fields)
    (part : List Char) (parts : List (List Char)) : reach (part :: parts) (padded n u) = [] := by
  rw [padded, reach, List.flatMap_eq_nil_iff]
  intro v hv
  rcases List.mem_append.1 hv with hv | hv
  · rw [List.eq_of_mem_replicate hv]
  · rw [List.mem_singleton.1 hv]
    cases u with
    | document fields => exact absurd rfl (hu fields)
    | _ => rfl

theorem reach_nest_cons (part part' : List Char) (parts parts' : List (List Char)) (leaf : Value) :
    reach (part' :: parts') (nest (part :: parts) leaf) =
      if part' = part then reach parts' (nest parts leaf) else [] := by
  rw [nest, single, reach, Keyed.get?, Keyed.get?]
  by_cases hp : part' = part
  · rw [if_pos (by rw [hp]), if_pos hp]
    rfl
  · have hs : String.ofList part ≠ String.ofList part' := fun h =>
      hp (String.ofList_injective h).symm
    rw [if_neg hs, if_neg hp]
    rfl

theorem reach_nest_self (leaf : Value) (parts : List (List Char)) :
    reach parts (nest parts leaf) = [leaf] := by
  induction parts with
  | nil => rfl
  | cons part parts ih => rw [reach_nest_cons, if_pos rfl, ih]

/-- Another path than that of the leaf leads nowhere or to a document on the way. -/
theorem reach_nest_of_ne {n : Nat} {u w : Value} (hu : ∀ fields, u ≠ .document fields)
    (hw : ∀ fields, w ≠ .document fields) {parts others : List (List Char)} (h : others ≠ parts) :
    (reach others (nest parts (padded n u)) = [] ∧ reach others (nest parts (padded n w)) = []) ∨
      ∃ part rest, reach others (nest parts (padded n u)) = [nest (part :: rest) (padded n u)] ∧
        reach others (nest parts (padded n w)) = [nest (part :: rest) (padded n w)] := by
  induction parts generalizing others with
  | nil =>
    cases others with
    | nil => exact absurd rfl h
    | cons other others => exact .inl ⟨reach_padded hu _ _, reach_padded hw _ _⟩
  | cons part parts ih =>
    cases others with
    | nil => exact .inr ⟨part, parts, rfl, rfl⟩
    | cons other others =>
      rw [reach_nest_cons, reach_nest_cons]
      split
      · next hp =>
        subst hp
        exact ih fun ho => h (by rw [ho])
      · exact .inl ⟨rfl, rfl⟩

end Value

namespace Filter

/-- Whether two documents pass the same tests of the field at a path, as far as these have values
with short arrays. -/
structure Alike (n : Nat) (path : String) (d d' : Document) : Prop where
  /-- They are equal to the same values there. -/
  equals : ∀ value, value.longest ≤ n → fieldEquals path value d = fieldEquals path value d'
  /-- They compare in the same way there. -/
  compares : ∀ value wanted, fieldCompares path value wanted d = fieldCompares path value wanted d'
  /-- Both have the field or neither has it. -/
  isEmpty : (d.reach path).isEmpty = (d'.reach path).isEmpty

theorem operatorMatches_congr {ext : Extension} {n : Nat} {path op : String} {operand : Value}
    {d d' : Document} (h : Alike n path d d') (hn : operand.longest ≤ n)
    (he : ∀ value, ext path value d = ext path value d') :
    operatorMatches ext path op operand d = operatorMatches ext path op operand d' := by
  have hin : ∀ values, operand = .array values →
      values.any (fieldEquals path · d) = values.any (fieldEquals path · d') := by
    rintro values rfl
    rw [Value.longest] at hn
    rw [Bool.eq_iff_iff, List.any_eq_true, List.any_eq_true]
    refine exists_congr fun value => and_congr_right fun hm => ?_
    have hv : value.longest ≤ n :=
      Nat.le_trans (Value.longest_le_of_mem hm) (Nat.le_trans (Nat.le_max_right _ _) hn)
    rw [h.equals value hv]
  unfold operatorMatches
  rw [h.equals operand hn]
  simp only [h.compares, h.isEmpty, he]
  repeat' split
  all_goals first | rfl | rw [hin _ rfl]

theorem clauseMatches_congr {ext : Extension} {n : Nat} {key : String} {value : Value}
    {d d' : Document} (h : Alike n key d d') (hn : value.longest ≤ n)
    (he : ∀ value, ext key value d = ext key value d') :
    clauseMatches ext d key value = clauseMatches ext d' key value := by
  unfold clauseMatches
  rw [he]
  split
  · rfl
  · cases value with
    | document fields =>
      dsimp only
      rw [h.equals _ hn]
      split
      · rw [Value.longest] at hn
        rw [Bool.eq_iff_iff, List.all_eq_true, List.all_eq_true]
        refine forall_congr' fun field => forall_congr' fun hm => ?_
        rw [operatorMatches_congr h (Nat.le_trans (Value.longest_le_of_mem_fields hm) hn) he]
      · rfl
    | _ => exact h.equals _ hn

/-- The document with an array of nulls and one last element at the end of a path. -/
def documentAt (n : Nat) (path : String) (last : Value) : Document :=
  match Column.splitDots path.toList with
  | [] => []
  | part :: parts => [(String.ofList part, Value.nest parts (Value.padded n last))]

theorem document_documentAt (n : Nat) (path : String) (last : Value) :
    Value.document (documentAt n path last) =
      Value.nest (Column.splitDots path.toList) (Value.padded n last) := by
  unfold documentAt
  split
  · next h => exact absurd h (Column.splitDots_ne_nil _)
  · next h =>
    rw [h]
    rfl

/-- A document on the way to a long array equals no value with short arrays. -/
theorem hits_nest_eq_false {n : Nat} {part : List Char} {parts : List (List Char)}
    {last value : Value} (hn : value.longest ≤ n) :
    hits (Value.same · value) (Value.nest (part :: parts) (Value.padded n last)) = false := by
  have hne : Value.same (Value.nest (part :: parts) (Value.padded n last)) value = false := by
    rw [Bool.eq_false_iff]
    intro hs
    have hlong := Value.lt_longest_padded n last
    have heq := Value.longest_eq_of_same hs
    rw [Value.longest_nest] at heq
    omega
  simp only [hits, hne]
  rfl

/-- Documents that differ at the end of a path pass the same tests everywhere else. -/
theorem alike_documentAt {n : Nat} {path other : String} (h : other ≠ path) {u w : Value}
    (hu : ∀ fields, u ≠ .document fields) (hw : ∀ fields, w ≠ .document fields) :
    Alike n other (documentAt n path u) (documentAt n path w) := by
  have hne : Column.splitDots other.toList ≠ Column.splitDots path.toList := fun hs =>
    h (String.toList_injective (Column.splitDots_injective hs))
  have hr := Value.reach_nest_of_ne (n := n) hu hw hne
  rw [← document_documentAt, ← document_documentAt] at hr
  change ((documentAt n path u).reach other = [] ∧ (documentAt n path w).reach other = []) ∨
    ∃ part rest, (documentAt n path u).reach other = _ ∧ (documentAt n path w).reach other = _ at hr
  obtain ⟨hu, hw⟩ | ⟨part, rest, hu, hw⟩ := hr
  · refine ⟨fun value hn => ?_, fun value wanted => ?_, by rw [hu, hw]⟩
    · unfold fieldEquals
      rw [hu, hw]
    · unfold fieldCompares
      rw [hu, hw]
  · refine ⟨fun value hn => ?_, fun value wanted => ?_, by rw [hu, hw]; rfl⟩
    · unfold fieldEquals
      rw [hu, hw, List.any_cons, List.any_cons, hits_nest_eq_false hn, hits_nest_eq_false hn]
      rfl
    · unfold fieldCompares
      rw [hu, hw]
      cases value <;> rfl

/-! ## The two negations -/

/-- A filter with one clause that has no array matches where the clause does. -/
theorem matchesDoc_single (ext : Extension) (d : Document) (key : String) {value : Value}
    (h : ∀ vs, value ≠ .array vs) :
    matchesDoc ext [(key, value)] d = clauseMatches ext d key value := by
  rw [matchesDoc, Value.truth]
  cases value with
  | array vs => exact absurd rfl (h vs)
  | _ => simp only [Value.clausesTruth, Bool.and_true]

/-- The filter that tests whether a field is not true. -/
def notTrue (path : String) : Document := [(path, .single "$ne" (.bool true))]

theorem clauseMatches_of_isOperator (ext : Extension) (d : Document) {key : String}
    (h : isOperator key = true) (value : Value) :
    clauseMatches ext d key value = ext key value d := by
  unfold clauseMatches
  rw [if_pos h]

theorem matchesDoc_notTrue_of_isOperator (ext : Extension) (d : Document) {path : String}
    (h : isOperator path = true) :
    matchesDoc ext (notTrue path) d = ext path (.single "$ne" (.bool true)) d := by
  rw [notTrue, matchesDoc_single ext d path (by simp [Value.single]),
    clauseMatches_of_isOperator ext d h]

theorem matchesDoc_notTrue (ext : Extension) (d : Document) {path : String}
    (h : isOperator path = false) :
    matchesDoc ext (notTrue path) d = !fieldEquals path (.bool true) d := by
  rw [notTrue, matchesDoc_single ext d path (by simp [Value.single])]
  have ht : isTest [("$ne", .bool true)] = true := by simp [isTest, isOperator]
  simp [clauseMatches, h, Value.single, ht, operatorMatches]

/-- The array at the end of a path has a true element if its last one is. -/
theorem fieldEquals_documentAt (n : Nat) (path : String) (b : Bool) :
    fieldEquals path (.bool true) (documentAt n path (.bool b)) = b := by
  have hr : (documentAt n path (.bool b)).reach path = [Value.padded n (.bool b)] := by
    rw [Document.reach, document_documentAt, Value.reach_nest_self]
  unfold fieldEquals
  rw [hr]
  cases b <;> simp [hits, Value.padded, Value.same, Value.scaled?]

/-- A filter without a clause on an operator does not depend on what is made of that operator. -/
theorem clauseMatches_congr_ext {ext ext' : Extension} {d : Document} {key : String} (value : Value)
    (h : ∀ value, ext key value d = ext' key value d) :
    clauseMatches ext d key value = clauseMatches ext' d key value := by
  unfold clauseMatches operatorMatches
  simp only [h]

/-- A condition that is no column is matched together with the test of the field that has its text for
a name, by some document: the condition does not depend on that field. -/
theorem exists_matchesDoc_notTrue_eq {s : Settings} {p : Expr} {f : Document}
    (hf : ofExpr s p = .ok f) (hp : p.column? = none) :
    ∃ ext d, matchesDoc ext (notTrue p.render) d = matchesDoc ext f d := by
  rw [ofExpr_eq_ok] at hf
  have hkeys := valueOf_keys hf
  have hne : ∀ key, Bounded (keyBound p) key → key ≠ p.render := by
    rintro key hk rfl
    exact not_bounded_render hf hp hk
  by_cases ho : isOperator p.render
  · -- The field is an operator, so it is what the store makes of it that is varied.
    let yes : Extension := fun _ _ _ => true
    let no : Extension := fun key _ _ => key ≠ p.render
    have hsame : matchesDoc yes f [] = matchesDoc no f [] := by
      refine Value.truth_congr (fun key value hk _ => ?_) hkeys (Nat.le_refl _)
      exact clauseMatches_congr_ext value fun value => by simp [yes, no, hne key hk]
    cases hv : matchesDoc no f [] with
    | true => exact ⟨yes, [], by rw [matchesDoc_notTrue_of_isOperator _ _ ho, hsame, hv]⟩
    | false =>
      exact ⟨no, [], by rw [matchesDoc_notTrue_of_isOperator _ _ ho, hv]; simp [no]⟩
  · -- The two documents have arrays that are longer than any in the filter.
    rw [Bool.not_eq_true] at ho
    let ext : Extension := fun _ _ _ => true
    let n := (Value.document f).longest
    have hsame : matchesDoc ext f (documentAt n p.render (.bool true)) =
        matchesDoc ext f (documentAt n p.render (.bool false)) := by
      refine Value.truth_congr (fun key value hk hn => ?_) hkeys (Nat.le_refl _)
      exact clauseMatches_congr (alike_documentAt (hne key hk) (by simp) (by simp)) hn fun _ => rfl
    cases hv : matchesDoc ext f (documentAt n p.render (.bool false)) with
    | true =>
      refine ⟨ext, documentAt n p.render (.bool false), ?_⟩
      rw [matchesDoc_notTrue _ _ ho, fieldEquals_documentAt, hv]
      rfl
    | false =>
      refine ⟨ext, documentAt n p.render (.bool true), ?_⟩
      rw [matchesDoc_notTrue _ _ ho, fieldEquals_documentAt, hsame, hv]
      rfl

theorem ofExpr_column {s : Settings} {c : Column} {f : Document}
    (hf : ofExpr s (.column c) = .ok f) : f = [(c.path, .bool true)] := by
  rw [ofExpr_eq_ok] at hf
  cases hf
  rfl

theorem ofExpr_not (s : Settings) (p : Expr) : ofExpr s (.not p) = .ok (notTrue p.render) := by
  rw [ofExpr_eq_ok]
  rfl

theorem ofExpr_parens_negated {s : Settings} {p : Expr} {f : Document} (hf : ofExpr s p = .ok f) :
    ofExpr s (.parens p true) = .ok [("$nor", .array [.document f])] := by
  rw [ofExpr_eq_ok] at hf ⊢
  rw [valueOf_parens, hf]
  rfl

/-- **Negation without parentheses is sound for bare columns only.** Wherever a condition compiles, so
do its two negations. The one with parentheses matches the documents that the condition does not
match. The one without tests the field that has the text of the condition for its name, and so it
matches those documents exactly if the condition is a column. -/
theorem negation_sound_iff {s : Settings} {p : Expr} {f : Document} (hf : ofExpr s p = .ok f) :
    ∃ g n, ofExpr s (.not p) = .ok g ∧ ofExpr s (.parens p true) = .ok n ∧
      (∀ ext d, matchesDoc ext n d = !matchesDoc ext f d) ∧
      ((∀ ext d, matchesDoc ext g d = !matchesDoc ext f d) ↔
        ∃ c, p = .column c ∧ isOperator c.path = false) := by
  refine ⟨_, _, ofExpr_not s p, ofExpr_parens_negated hf, fun ext d => ?_, ?_, ?_⟩
  · have h := Value.truth_nor (clauseMatches ext d) [.document f]
    rw [List.any_cons, List.any_nil, Bool.or_false] at h
    exact h
  · intro h
    cases p with
    | column c =>
      refine ⟨c, rfl, ?_⟩
      rw [Bool.eq_false_iff]
      intro ho
      have hyes := h (fun _ _ _ => true) []
      rw [Expr.render, matchesDoc_notTrue_of_isOperator _ _ ho, ofExpr_column hf,
        matchesDoc_single _ _ _ (by simp), clauseMatches_of_isOperator _ _ ho] at hyes
      cases hyes
    | _ =>
      obtain ⟨ext, d, hd⟩ := exists_matchesDoc_notTrue_eq hf rfl
      rw [h] at hd
      simp at hd
  · rintro ⟨c, rfl, ho⟩ ext d
    rw [Expr.render, matchesDoc_notTrue _ _ ho, ofExpr_column hf,
      matchesDoc_single _ _ _ (by simp)]
    simp [clauseMatches, ho]

/-- `a = 1 OR active`. -/
def equalOrActive : Expr :=
  .logic .or (.compare (.column ⟨none, "a"⟩) .equal (.literal (.int 1)))
    (.column ⟨none, "active"⟩)

/-- The filter of `a = 1 OR active`. -/
def equalOrActiveFilter : Document :=
  [("$or", .array [.document [("a", .int 1)], .document [("active", .bool true)]])]

/-- The negation of a column with a qualifier is sound. That of a compound condition is sound with
parentheses only. -/
theorem negation_sound_iff_column_compound :
    (ofExpr {} (.column ⟨some "t", "active"⟩) = .ok [("t.active", .bool true)] ∧
      ∀ ext d, matchesDoc ext [("t.active", .single "$ne" (.bool true))] d =
        !matchesDoc ext [("t.active", .bool true)] d) ∧
    ofExpr {} equalOrActive = .ok equalOrActiveFilter ∧
      (∀ ext d, matchesDoc ext [("$nor", .array [.document equalOrActiveFilter])] d =
        !matchesDoc ext equalOrActiveFilter d) ∧
      ¬ ∀ ext d, matchesDoc ext [("a = 1 OR active", .single "$ne" (.bool true))] d =
        !matchesDoc ext equalOrActiveFilter d := by
  have hcolumn : ofExpr {} (.column ⟨some "t", "active"⟩) = .ok [("t.active", .bool true)] := rfl
  have hcompound : ofExpr {} equalOrActive = .ok equalOrActiveFilter := rfl
  refine ⟨⟨hcolumn, ?_⟩, hcompound, ?_⟩
  · obtain ⟨g, n, hg, -, -, h⟩ := negation_sound_iff hcolumn
    obtain rfl := Except.ok.inj ((ofExpr_not {} _).symm.trans hg)
    exact h.2 ⟨_, rfl, by decide⟩
  · obtain ⟨g, n, hg, hn, hsound, h⟩ := negation_sound_iff hcompound
    obtain rfl := Except.ok.inj ((ofExpr_not {} _).symm.trans hg)
    obtain rfl := Except.ok.inj ((ofExpr_parens_negated hcompound).symm.trans hn)
    refine ⟨hsound, fun hall => ?_⟩
    obtain ⟨c, hc, -⟩ := h.1 hall
    cases hc

/-- `NOT a = 1` matches the document `{a: 1}`, as `a = 1` does. -/
theorem negation_unsound : ¬ ∀ (s : Settings) (p : Expr) (f g : Document),
    ofExpr s p = .ok f → ofExpr s (.not p) = .ok g →
      ∀ ext d, matchesDoc ext g d = !matchesDoc ext f d := by
  intro h
  have hf : ofExpr {} (.compare (.column ⟨none, "a"⟩) .equal (.literal (.int 1))) =
      .ok [("a", .int 1)] := rfl
  have hd := h {} _ _ _ hf (ofExpr_not {} _) (fun _ _ _ => true) [("a", .int 1)]
  revert hd
  decide +kernel

end Filter

end DocQuery
