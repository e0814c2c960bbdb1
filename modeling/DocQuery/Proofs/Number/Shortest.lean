import DocQuery.Number.Shortest
import DocQuery.Proofs.Number.Rounding

/-!
# The shortest decimal reads back

Whatever decimal `shortest` gives for a number of double precision, the number is what that decimal
rounds to (`magnitude_shortest`). The decimal is a whole number exactly if the number is one
(`nonneg_exponent_iff`), and below `2 ^ 53` it is the number itself
(`shortest_mul_one`).
-/

namespace DocQuery.Number.Binary64

variable {tie : Tie} {units : Nat}

/-! ## Reading back -/

theorem readsBack?_eq_some {significand : Nat} {exponent : Int} {p : Nat × Int}
    (h : readsBack? units significand exponent = some p) :
    p = (significand, exponent) ∧ magnitude p.1 p.2 = units := by
  unfold readsBack? at h
  split at h
  · next hm =>
    obtain rfl := Option.some.inj h
    exact ⟨rfl, hm⟩
  · cases h

/-- A decimal that is found on a grid is on that grid and rounds to the magnitude. -/
theorem onGrid?_eq_some {exact dropped : Nat} {p : Nat × Int}
    (h : onGrid? tie units exact dropped = some p) :
    p.2 = (dropped : Int) - 1074 ∧ magnitude p.1 p.2 = units := by
  have hor : ∀ {a b : Nat}, (readsBack? units a ((dropped : Int) - 1074) <|>
      readsBack? units b ((dropped : Int) - 1074)) = some p →
      p.2 = (dropped : Int) - 1074 ∧ magnitude p.1 p.2 = units := by
    intro a b hab
    rw [Option.orElse_eq_orElse, Option.orElse_eq_or] at hab
    rcases Option.or_eq_some_iff.1 hab with h | ⟨-, h⟩
    · obtain ⟨hp, hm⟩ := readsBack?_eq_some h
      exact ⟨by rw [hp], hm⟩
    · obtain ⟨hp, hm⟩ := readsBack?_eq_some h
      exact ⟨by rw [hp], hm⟩
  unfold onGrid? at h
  dsimp only at h
  split at h
  · exact hor h
  · exact hor h

/-- Dropping zeros keeps the magnitude. -/
theorem magnitude_dropZeros {bound significand : Nat} {exponent : Int}
    (h : magnitude significand exponent = units) (h0 : units ≠ 0) (hlt : units < overflow) :
    magnitude (dropZeros bound significand exponent).1 (dropZeros bound significand exponent).2 =
      units := by
  induction bound generalizing significand exponent with
  | zero => exact h
  | succ bound ih =>
    rw [dropZeros]
    split
    · next hz =>
      have hten : significand = significand / 10 * 10 := by omega
      rw [hten] at h
      exact ih (magnitude_succ_of_mul_ten h h0 hlt)
    · exact h

theorem le_exponent_dropZeros (bound significand : Nat) (exponent : Int) :
    exponent ≤ (dropZeros bound significand exponent).2 := by
  induction bound generalizing significand exponent with
  | zero => exact Int.le_refl _
  | succ bound ih =>
    rw [dropZeros]
    split
    · exact Int.le_trans (Int.le_add_of_nonneg_right (by decide)) (ih _ _)
    · exact Int.le_refl _

theorem exactSignificand_eq (units : Nat) : exactSignificand units = units * 5 ^ 1074 := by
  rw [exactSignificand, Nat.pow_eq]

/-- A number of double precision is what its exact decimal rounds to. -/
theorem magnitude_exactSignificand (h0 : units ≠ 0) (hu : ulp units ∣ units) :
    magnitude (exactSignificand units) (-1074) = units := by
  have hlog : 1074 ≤ (units * 5 ^ 1074).log2 := by
    generalize 1074 = p
    have hpos := Nat.pos_of_ne_zero h0
    refine (Nat.le_log2 (Nat.ne_of_gt (Nat.mul_pos hpos (Nat.pow_pos (by decide))))).2 ?_
    exact Nat.le_trans (Nat.pow_le_pow_left (by decide) p) (Nat.le_mul_of_pos_left _ hpos)
  have hone : units * 5 ^ 1074 * one = units * 10 ^ 1074 := by
    rw [one_eq]
    generalize 1074 = p
    rw [Nat.mul_assoc, ← Nat.mul_pow]
  rw [exactSignificand_eq, show (-1074 : Int) = .negSucc 1073 from rfl, magnitude_negSucc_eq,
    if_neg (by omega), hone, show 1073 + 1 = 1074 from rfl]
  generalize 1074 = p
  have hscale := round_mul_mul units 1 (Nat.pow_pos (n := p) (show 0 < 10 by decide))
  rw [Nat.one_mul] at hscale
  rw [hscale, round_one_of_ulp_dvd hu]

/-- The candidate is found on a grid, or it is the exact decimal. -/
theorem candidate_cases (tie : Tie) (units exact : Nat) :
    (∃ i < 17, onGrid? tie units exact ((Nat.toDigits 10 exact).length - (i + 1)) =
        some (candidate tie units exact)) ∨
      candidate tie units exact = (exact, -1074) := by
  unfold candidate
  dsimp only
  cases hf : (List.range 17).findSome? fun i => onGrid? tie units exact
      ((Nat.toDigits 10 exact).length - (i + 1)) with
  | none => exact .inr rfl
  | some found =>
    obtain ⟨i, hm, hi⟩ := List.exists_of_findSome?_eq_some hf
    exact .inl ⟨i, List.mem_range.1 hm, hi⟩

theorem shortest_eq (tie : Tie) (units : Nat) :
    shortest tie units =
      dropZeros (Nat.toDigits 10 (candidate tie units (exactSignificand units)).1).length
        (candidate tie units (exactSignificand units)).1
        (candidate tie units (exactSignificand units)).2 := rfl

theorem magnitude_candidate (h0 : units ≠ 0) (hu : ulp units ∣ units) :
    magnitude (candidate tie units (exactSignificand units)).1
      (candidate tie units (exactSignificand units)).2 = units := by
  obtain ⟨i, -, hi⟩ | hc := candidate_cases tie units (exactSignificand units)
  · exact (onGrid?_eq_some hi).2
  · rw [hc]
    exact magnitude_exactSignificand h0 hu

/-- **The shortest decimal of a number rounds to the number.** -/
theorem magnitude_shortest (tie : Tie) (h0 : units ≠ 0) (hlt : units < overflow)
    (hu : ulp units ∣ units) :
    magnitude (shortest tie units).1 (shortest tie units).2 = units := by
  rw [shortest_eq]
  exact magnitude_dropZeros (magnitude_candidate h0 hu) h0 hlt

/-! ## Whole numbers -/

theorem one_pos : 0 < one := by
  rw [one_eq]
  generalize 1074 = p
  exact Nat.two_pow_pos p

theorem two_pow_dvd_one {j : Nat} (h : j ≤ 1074) : 2 ^ j ∣ one := by
  rw [one_eq]
  generalize 1074 = p at h ⊢
  exact Nat.pow_dvd_pow 2 h

theorem one_dvd_two_pow {j : Nat} (h : 1074 ≤ j) : one ∣ 2 ^ j := by
  rw [one_eq]
  generalize 1074 = p at h ⊢
  exact Nat.pow_dvd_pow 2 h

/-- A whole number rounds to a whole number. -/
theorem one_dvd_round (m : Nat) : one ∣ round (m * one) 1 := by
  have hdvd : one ∣ m * one := Nat.dvd_mul_left _ _
  by_cases hj : (m * one).log2 - 52 ≤ 1074
  · rw [round_one_of_ulp_dvd (Nat.dvd_trans (two_pow_dvd_one hj) hdvd)]
    exact hdvd
  · have hu : one ∣ ulp (m * one) := one_dvd_two_pow (by omega)
    have hr := round_cases (m * one) 1
    rw [Nat.div_one] at hr
    rcases hr with hr | hr
    · rw [hr]
      exact Nat.dvd_mul_left_of_dvd hu _
    · rw [hr]
      exact Nat.dvd_mul_left_of_dvd hu _

/-- Zeros at the end lengthen a number by as many digits. -/
theorem length_toDigits_mul_ten_pow {k : Nat} (hk : k ≠ 0) (m : Nat) :
    (Nat.toDigits 10 (k * 10 ^ m)).length = (Nat.toDigits 10 k).length + m := by
  have hlen : ∀ n t, 0 < t → ((Nat.toDigits 10 n).length ≤ t ↔ n < 10 ^ t) := fun n t ht =>
    Nat.length_toDigits_le_iff (by decide) ht
  have hpos : 0 < (Nat.toDigits 10 k).length := Nat.length_toDigits_pos
  have hup : k < 10 ^ (Nat.toDigits 10 k).length := (hlen k _ hpos).1 (Nat.le_refl _)
  have hlow : 10 ^ ((Nat.toDigits 10 k).length - 1) ≤ k := by
    by_cases h1 : (Nat.toDigits 10 k).length = 1
    · rw [h1]
      exact Nat.pos_of_ne_zero hk
    · refine Nat.not_lt.1 fun hlt => ?_
      have := (hlen k _ (by omega)).2 hlt
      omega
  have hten : 0 < 10 ^ m := Nat.pow_pos (by decide)
  apply Nat.le_antisymm
  · rw [hlen _ _ (by omega), Nat.pow_add]
    exact Nat.mul_lt_mul_of_pos_right hup hten
  · refine Nat.not_lt.1 fun hlt => ?_
    have hlt' : k * 10 ^ m < 10 ^ ((Nat.toDigits 10 k).length - 1 + m) := by
      by_cases h0 : (Nat.toDigits 10 k).length - 1 + m = 0
      · have := Nat.length_toDigits_pos (b := 10) (n := k * 10 ^ m)
        omega
      · exact (hlen _ _ (by omega)).1 (by omega)
    rw [Nat.pow_add] at hlt'
    exact Nat.not_lt.2 hlow (Nat.lt_of_mul_lt_mul_right hlt')

/-- A grid that has the exact value on it finds that value, if it rounds to the magnitude. -/
theorem onGrid?_mul_ten_pow {k d : Nat} (h : magnitude k ((d : Int) - 1074) = units) :
    onGrid? tie units (k * 10 ^ d) d = some (k, (d : Int) - 1074) := by
  have hpos : 0 < 10 ^ d := Nat.pow_pos (by decide)
  have hfirst : tie.lowerFirst k (2 * 0) (10 ^ d) = true := by
    rw [Tie.lowerFirst, Bool.or_eq_true, decide_eq_true_eq]
    exact .inl hpos
  unfold onGrid?
  dsimp only
  rw [Nat.pow_eq, Nat.mul_div_cancel _ hpos, Nat.mul_mod_left, if_pos hfirst, readsBack?,
    if_pos h]
  rfl

theorem add_le_exponent_dropZeros {k : Nat} (hk : k ≠ 0) {m bound : Nat} (hb : m ≤ bound)
    (e : Int) : e + m ≤ (dropZeros bound (k * 10 ^ m) e).2 := by
  induction m generalizing bound e with
  | zero =>
    rw [Int.natCast_zero, Int.add_zero]
    exact le_exponent_dropZeros _ _ _
  | succ m ih =>
    obtain ⟨bound, rfl⟩ : ∃ b, bound = b + 1 := ⟨bound - 1, by omega⟩
    have hten : k * 10 ^ (m + 1) = k * 10 ^ m * 10 := by rw [Nat.pow_succ, Nat.mul_assoc]
    have hne : k * 10 ^ m * 10 ≠ 0 := by
      have := Nat.mul_pos (Nat.pos_of_ne_zero hk) (Nat.pow_pos (n := m) (show 0 < 10 by decide))
      omega
    rw [hten, dropZeros, if_pos ⟨hne, Nat.mul_mod_left _ _⟩, Nat.mul_div_cancel _ (by decide)]
    have := ih (Nat.le_of_succ_le_succ hb) (e + 1)
    omega

/-- A decimal that is found for a whole number is a whole number, since the grid of whole numbers is
tried if no coarser one will do. -/
theorem nonneg_exponent_candidate {k d : Nat} (hd : d = 1074) (hk : k ≠ 0)
    (hm : magnitude k 0 = units) :
    0 ≤ (candidate tie units (k * 10 ^ d)).2 ∨
      candidate tie units (k * 10 ^ d) = (k * 10 ^ d, -1074) := by
  have hlen := length_toDigits_mul_ten_pow hk d
  have hpos : 0 < (Nat.toDigits 10 k).length := Nat.length_toDigits_pos
  have hzero : (d : Int) - 1074 = 0 := by omega
  have hgrid : onGrid? tie units (k * 10 ^ d) d = some (k, (d : Int) - 1074) :=
    onGrid?_mul_ten_pow (by rw [hzero, hm])
  generalize k * 10 ^ d = exact at hlen hgrid ⊢
  unfold candidate
  dsimp only
  rw [hlen]
  cases hf : (List.range 17).findSome? fun i =>
      onGrid? tie units exact ((Nat.toDigits 10 k).length + d - (i + 1)) with
  | none => exact .inr rfl
  | some p =>
    obtain ⟨l₁, i, l₂, hl, hi, hnone⟩ := List.findSome?_eq_some_iff.1 hf
    obtain ⟨he, -⟩ := onGrid?_eq_some hi
    left
    rw [Option.getD_some, he]
    -- A grid after that of the whole numbers would not have been tried.
    suffices hle : i + 1 ≤ (Nat.toDigits 10 k).length by omega
    refine Nat.not_lt.1 fun hlt => ?_
    have hmem : (Nat.toDigits 10 k).length - 1 ∈ l₁ := by
      have hsorted : (l₁ ++ i :: l₂).Pairwise (· < ·) := hl ▸ List.pairwise_lt_range
      have hi17 : i ∈ List.range 17 := by
        rw [hl]
        exact List.mem_append_right _ List.mem_cons_self
      have hrange : (Nat.toDigits 10 k).length - 1 ∈ l₁ ++ i :: l₂ := by
        rw [← hl, List.mem_range]
        have := List.mem_range.1 hi17
        omega
      rcases List.mem_append.1 hrange with h | h
      · exact h
      · rcases List.mem_cons.1 h with h | h
        · omega
        · have := (List.pairwise_cons.1 (List.pairwise_append.1 hsorted).2.1).1 _ h
          omega
    have hnone' := hnone _ hmem
    rw [show (Nat.toDigits 10 k).length + d - ((Nat.toDigits 10 k).length - 1 + 1) = d by omega,
      hgrid] at hnone'
    cases hnone'

/-- A whole number that has double precision is its own magnitude. -/
theorem magnitude_zero_of_ulp_dvd {k : Nat} (hk : k ≠ 0) (hu : ulp (k * one) ∣ k * one) :
    magnitude k 0 = k * one := by
  rw [show (0 : Int) = .ofNat 0 from rfl, magnitude_ofNat_eq, if_neg hk, if_neg (by decide),
    Nat.pow_zero, Nat.mul_one, round_one_of_ulp_dvd hu]

/-- **The shortest decimal is a whole number exactly if the number is.** -/
theorem nonneg_exponent_iff (tie : Tie) (h0 : units ≠ 0) (hlt : units < overflow)
    (hu : ulp units ∣ units) :
    0 ≤ (shortest tie units).2 ↔ one ∣ units := by
  constructor
  · intro he
    obtain ⟨e, he⟩ := Int.eq_ofNat_of_zero_le he
    have hm := magnitude_shortest tie h0 hlt hu
    rw [he] at hm
    obtain ⟨-, -, hr⟩ := magnitude_ofNat hm h0 hlt
    rw [← hr]
    exact one_dvd_round _
  · rintro ⟨k, rfl⟩
    rw [Nat.mul_comm] at h0 hlt hu ⊢
    have hk : k ≠ 0 := by
      rintro rfl
      exact h0 (Nat.zero_mul _)
    obtain ⟨d, hd⟩ : ∃ d, d = 1074 := ⟨_, rfl⟩
    have hexact : exactSignificand (k * one) = k * 10 ^ d := by
      rw [exactSignificand_eq, one_eq, ← hd, Nat.mul_assoc, ← Nat.mul_pow]
    have hlen := length_toDigits_mul_ten_pow hk d
    rw [shortest_eq, hexact]
    rcases nonneg_exponent_candidate hd hk (magnitude_zero_of_ulp_dvd hk hu) with hc | hc
    · exact Int.le_trans hc (le_exponent_dropZeros _ _ _)
    · have hbound : d ≤ (Nat.toDigits 10 (k * 10 ^ d)).length := by omega
      have hdrop := add_le_exponent_dropZeros hk hbound (-1074)
      rw [hc]
      exact Int.le_trans (by omega) hdrop

/-- A whole number below `2 ^ 53` has double precision. -/
theorem ulp_dvd_mul_one {k : Nat} (hk : k < 2 ^ 53) : ulp (k * one) ∣ k * one := by
  rw [one_eq]
  generalize 1074 = p
  exact ulp_dvd_mul_two_pow (Nat.le_of_lt hk)

/-- Only a whole number below `2 ^ 53` itself rounds to it. -/
theorem eq_of_round_mul_one {m k : Nat} (hk : k < 2 ^ 53) (h : round (m * one) 1 = k * one) :
    m = k := by
  by_cases hm : m < 2 ^ 53
  · rw [round_one_of_ulp_dvd (ulp_dvd_mul_one hm)] at h
    exact Nat.eq_of_mul_eq_mul_right one_pos h
  · have hle : 2 ^ 53 * one ≤ m * one := Nat.mul_le_mul_right _ (Nat.not_lt.1 hm)
    have hne : m * one ≠ 0 := by
      have := Nat.mul_pos (show 0 < 2 ^ 53 by decide) one_pos
      omega
    have hround : 2 ^ 53 * one ≤ round (m * one) 1 := by
      have hlog : 2 ^ (m * one / 1).log2 ≤ round (m * one) 1 :=
        two_pow_log2_le_round (by rwa [Nat.div_one])
      rw [Nat.div_one] at hlog
      refine Nat.le_trans ?_ hlog
      rw [one_eq] at hle hne ⊢
      generalize 1074 = p at hle hne ⊢
      rw [← Nat.pow_add] at hle ⊢
      exact Nat.pow_le_pow_right (by decide) ((Nat.le_log2 hne).2 hle)
    rw [h] at hround
    exact absurd hk (Nat.not_lt.2 (Nat.le_of_mul_le_mul_right hround one_pos))

theorem mul_one_lt_overflow {k : Nat} (hk : k < 2 ^ 53) : k * one < overflow := by
  rw [one_eq, overflow_eq]
  generalize hp : 1074 = p
  calc k * 2 ^ p < 2 ^ 53 * 2 ^ p := Nat.mul_lt_mul_of_pos_right hk (Nat.two_pow_pos p)
    _ = 2 ^ (53 + p) := (Nat.pow_add ..).symm
    _ ≤ 2 ^ 2098 := Nat.pow_le_pow_right (by decide) (by omega)

/-- **Below `2 ^ 53` the shortest decimal of a whole number is that number.** -/
theorem shortest_mul_one (tie : Tie) {k : Nat} (hk : k ≠ 0) (hlt : k < 2 ^ 53) :
    ∃ e : Nat, (shortest tie (k * one)).2 = e ∧ (shortest tie (k * one)).1 * 10 ^ e = k := by
  have h0 : k * one ≠ 0 := Nat.ne_of_gt (Nat.mul_pos (Nat.pos_of_ne_zero hk) one_pos)
  have hover := mul_one_lt_overflow hlt
  have hu := ulp_dvd_mul_one hlt
  obtain ⟨e, he⟩ := Int.eq_ofNat_of_zero_le
    ((nonneg_exponent_iff tie h0 hover hu).2 (Nat.dvd_mul_left _ _))
  have hm := magnitude_shortest tie h0 hover hu
  rw [he] at hm
  obtain ⟨-, -, hr⟩ := magnitude_ofNat hm h0 hover
  exact ⟨e, he, eq_of_round_mul_one hlt hr⟩

end DocQuery.Number.Binary64
