import DocQuery.Number.Layout
import DocQuery.Proofs.Number.Shortest
import DocQuery.Proofs.Spans

/-!
# Numerals

What the readers of numbers make of the texts of numbers: runs of digits with an optional sign, and
with a point between two of them. A number in positional notation is such a text
(`toList_positionalText`).
-/

namespace DocQuery.Number

/-- The characters of a numeral with its sign. -/
def signed (negative : Bool) (cs : List Char) : List Char := if negative then '-' :: cs else cs

/-- A natural number with a sign. -/
def signedInt (negative : Bool) (n : Nat) : Int := if negative then -(n : Int) else n

/-- Whether all characters are digits. -/
def IsDigits (cs : List Char) : Prop := ∀ ch ∈ cs, isDigit ch = true

/-! ## Runs of digits -/

theorem isDigit_iff {ch : Char} : isDigit ch = true ↔ 48 ≤ ch.toNat ∧ ch.toNat ≤ 57 := by
  simp only [isDigit, Bool.and_eq_true, decide_eq_true_eq]
  exact Iff.rfl

theorem isDigits_toDigits (n : Nat) : IsDigits (Nat.toDigits 10 n) := by
  intro ch hm
  have h := Nat.isDigit_of_mem_toDigits (by decide) (by decide) hm
  rw [isDigit_iff]
  simp only [Char.isDigit, Bool.and_eq_true, decide_eq_true_eq, ge_iff_le] at h
  exact h

theorem isDigits_replicate_zero (k : Nat) : IsDigits (List.replicate k '0') := by
  intro ch hm
  rw [List.eq_of_mem_replicate hm]
  decide

theorem IsDigits.append {cs ds : List Char} (hc : IsDigits cs) (hd : IsDigits ds) :
    IsDigits (cs ++ ds) :=
  List.forall_mem_append.2 ⟨hc, hd⟩

theorem natOfDigits_eq (ds : List Char) : natOfDigits ds = Nat.ofDigitChars 10 ds 0 := rfl

theorem natOfDigits_toDigits (n : Nat) : natOfDigits (Nat.toDigits 10 n) = n :=
  Nat.ofDigitChars_ten_toDigits

theorem natOfDigits_append_zeros (ds : List Char) (k : Nat) :
    natOfDigits (ds ++ List.replicate k '0') = natOfDigits ds * 10 ^ k := by
  rw [natOfDigits_eq, Nat.ofDigitChars_append, Nat.ofDigitChars_replicate_zero, Nat.mul_comm]
  rfl

theorem natOfDigits_zeros_append (k : Nat) (ds : List Char) :
    natOfDigits ('0' :: (List.replicate k '0' ++ ds)) = natOfDigits ds := by
  rw [← List.cons_append, ← List.replicate_succ, natOfDigits_eq, Nat.ofDigitChars_append,
    Nat.ofDigitChars_replicate_zero, Nat.mul_zero]
  rfl

/-! ## Readers of numbers -/

/-- A run of digits has no sign of its own. -/
theorem readSign_signed {cs : List Char} (negative : Bool)
    (h : ∀ ch ∈ cs.head?, isDigit ch = true) : readSign (signed negative cs) = (negative, cs) := by
  cases negative with
  | true => rfl
  | false =>
    cases cs with
    | nil => rfl
    | cons ch cs =>
      have hd := isDigit_iff.1 (h ch rfl)
      change readSign (ch :: cs) = (false, ch :: cs)
      unfold readSign
      split
      · next heq =>
        cases heq
        exact absurd hd (by decide)
      · next heq =>
        cases heq
        exact absurd hd (by decide)
      · rfl

theorem IsDigits.head {ds : List Char} (h : IsDigits ds) : ∀ ch ∈ ds.head?, isDigit ch = true :=
  fun ch hm => h ch (List.mem_of_mem_head? hm)

theorem int?_signed {ds : List Char} (negative : Bool) (hne : ds ≠ []) (h : IsDigits ds) :
    int? (signed negative ds) = some (signedInt negative (natOfDigits ds)) := by
  obtain ⟨d, ds, rfl⟩ := List.exists_cons_of_ne_nil hne
  unfold int?
  rw [readSign_signed negative h.head]
  dsimp only
  rw [if_pos (List.all_eq_true.2 h)]
  rfl

/-- A run of digits is read up to the first character that is none. -/
theorem IsDigits.span {ds : List Char} (h : IsDigits ds) (rest : List Char)
    (hr : ∀ ch ∈ rest.head?, isDigit ch = false) :
    (ds ++ rest).takeWhile isDigit = ds ∧ (ds ++ rest).dropWhile isDigit = rest :=
  span_append h rest hr

/-- The decimal of a run of digits. -/
theorem parse?_signed {ds : List Char} (negative : Bool) (hne : ds ≠ []) (h : IsDigits ds) :
    Decimal.parse? (signed negative ds) = some ⟨negative, natOfDigits ds, 0⟩ := by
  obtain ⟨htake, hdrop⟩ := h.span [] (by simp)
  rw [List.append_nil] at htake hdrop
  have hempty : ds.isEmpty = false := by
    rw [← Bool.not_eq_true, List.isEmpty_iff]
    exact hne
  unfold Decimal.parse?
  rw [readSign_signed negative h.head]
  dsimp only
  rw [htake, hdrop]
  simp [Decimal.readFraction, Decimal.exponent?, hempty]

/-- The decimal of two runs of digits with a point between them. -/
theorem parse?_signed_point {ws fs : List Char} (negative : Bool) (hne : ws ≠ [])
    (hw : IsDigits ws) (hf : IsDigits fs) :
    Decimal.parse? (signed negative (ws ++ '.' :: fs)) =
      some ⟨negative, natOfDigits (ws ++ fs), -(fs.length : Int)⟩ := by
  obtain ⟨w, ws, rfl⟩ := List.exists_cons_of_ne_nil hne
  obtain ⟨htake, hdrop⟩ := hw.span ('.' :: fs) (by
    rintro _ ⟨⟩
    decide)
  obtain ⟨hftake, hfdrop⟩ := hf.span [] (by simp)
  rw [List.append_nil] at hftake hfdrop
  unfold Decimal.parse?
  rw [readSign_signed negative (by
    rintro _ ⟨⟩
    exact hw w List.mem_cons_self)]
  dsimp only
  rw [htake, hdrop]
  simp [Decimal.readFraction, Decimal.exponent?, hftake, hfdrop]

/-! ## Positional notation -/

namespace Layout

/-- The text of a whole number in positional notation. -/
theorem toList_positionalText_whole (layout : Layout) (hs : layout.wholeSuffix = "")
    {ds : List Char} (hne : ds ≠ []) (e : Nat) :
    (layout.positionalText ds ((e : Int) + ds.length)).toList = ds ++ List.replicate e '0' := by
  have hpos := List.length_pos_iff.2 hne
  have hzeros : ((e : Int) + ds.length - ds.length).natAbs = e := by omega
  unfold positionalText
  dsimp only
  rw [if_neg (by omega), if_pos (by omega), hzeros, hs, String.append_empty,
    String.toList_ofList]

/-- The text of a decimal fraction in positional notation. -/
theorem toList_positionalText_fraction (layout : Layout) {ds : List Char} (hd : IsDigits ds)
    {e : Int} (he : e < 0) :
    ∃ ws fs, ws ≠ [] ∧ IsDigits ws ∧ IsDigits fs ∧ -(fs.length : Int) = e ∧
      natOfDigits (ws ++ fs) = natOfDigits ds ∧
      (layout.positionalText ds (e + ds.length)).toList = ws ++ '.' :: fs := by
  unfold positionalText
  dsimp only
  by_cases hp : e + ds.length ≤ 0
  · rw [if_pos hp]
    refine ⟨['0'], List.replicate (e + ds.length).natAbs '0' ++ ds, List.cons_ne_nil _ _,
      isDigits_replicate_zero 1, (isDigits_replicate_zero _).append hd, ?_,
      natOfDigits_zeros_append _ ds, ?_⟩
    · rw [List.length_append, List.length_replicate]
      omega
    · simp
  · rw [if_neg hp, if_neg (by omega), String.toList_ofList]
    have htake : ds.take (e + ds.length).natAbs ++ ds.drop (e + ds.length).natAbs = ds :=
      List.take_append_drop _ _
    refine ⟨_, _, ?_, ?_, ?_, ?_, by rw [htake], rfl⟩
    · rw [← List.length_pos_iff, List.length_take]
      omega
    · exact fun ch hm => hd ch (List.mem_of_mem_take hm)
    · exact fun ch hm => hd ch (List.mem_of_mem_drop hm)
    · rw [List.length_drop]
      omega

end Layout

end DocQuery.Number
