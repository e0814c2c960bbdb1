import DocQuery.Number.Binary64
import Mathlib.Algebra.Group.Nat.Defs

/-!
# Laws of rounding

`round num den` depends on the quotient of its arguments only (`round_mul_mul`). What it gives is a
number of double precision, that is, a multiple of the spacing at its own size (`ulp_dvd_round`), and
such numbers round to themselves (`round_one_of_ulp_dvd`). It stays on the same side of powers of two
(`two_pow_log2_le_round`), so what is too large stays so.

`magnitude_succ_of_mul_ten` moves a factor of ten from the significand of a decimal to its exponent:
the magnitude stays the same, as long as it is positive and finite.
-/

namespace DocQuery.Number.Binary64

/-! ## Rounding a quotient -/

theorem overflow_eq : overflow = 2 ^ 2098 := by rw [overflow, Nat.pow_eq]

theorem ulp_eq (units : Nat) : ulp units = 2 ^ (units.log2 - 52) := rfl

theorem ulp_pos (units : Nat) : 0 < ulp units := Nat.two_pow_pos _

theorem roundTo_eq (num den spacing : Nat) :
    roundTo num den spacing =
      if 2 * (num % (den * spacing)) < den * spacing ∨
          2 * (num % (den * spacing)) = den * spacing ∧ num / (den * spacing) % 2 = 0 then
        num / (den * spacing) * spacing
      else (num / (den * spacing) + 1) * spacing := rfl

/-- Rounding depends on the quotient only. -/
theorem round_mul_mul (num den : Nat) {k : Nat} (hk : 0 < k) :
    round (num * k) (den * k) = round num den := by
  rw [round, round, Nat.mul_div_mul_right num den hk]
  generalize ulp (num / den) = spacing
  have hstep : den * k * spacing = den * spacing * k := by
    rw [Nat.mul_assoc, Nat.mul_comm k, ← Nat.mul_assoc]
  have hlow : num * k / (den * k * spacing) = num / (den * spacing) := by
    rw [hstep, Nat.mul_div_mul_right _ _ hk]
  have hmod : 2 * (num * k % (den * k * spacing)) = 2 * (num % (den * spacing)) * k := by
    rw [hstep, Nat.mul_mod_mul_right, Nat.mul_assoc]
  rw [roundTo_eq, roundTo_eq, hlow, hmod, hstep]
  have hlt : 2 * (num % (den * spacing)) * k < den * spacing * k ↔
      2 * (num % (den * spacing)) < den * spacing := Nat.mul_lt_mul_right hk
  have heq : 2 * (num % (den * spacing)) * k = den * spacing * k ↔
      2 * (num % (den * spacing)) = den * spacing := Nat.mul_right_cancel_iff hk
  simp only [hlt, heq]

/-- A quotient below one half rounds to zero. -/
theorem round_eq_zero {num den : Nat} (h : 2 * num < den) : round num den = 0 := by
  have hdiv : num / den = 0 := Nat.div_eq_of_lt (by omega)
  have hulp : ulp 0 = 1 := rfl
  rw [round, hdiv, hulp, roundTo_eq, Nat.mul_one, hdiv, Nat.mod_eq_of_lt (by omega),
    if_pos (.inl h)]

/-- What rounds is low times the spacing, or one spacing more. -/
theorem round_cases (num den : Nat) :
    round num den = num / den / ulp (num / den) * ulp (num / den) ∨
      round num den = (num / den / ulp (num / den) + 1) * ulp (num / den) := by
  rw [round, roundTo_eq, Nat.div_div_eq_div_mul]
  split
  · exact .inl rfl
  · exact .inr rfl

/-- Rounding does not go below the power of two below the quotient. -/
theorem two_pow_log2_le_round {num den : Nat} (h : num / den ≠ 0) :
    2 ^ (num / den).log2 ≤ round num den := by
  generalize hq : num / den = q at h
  have hlow : 2 ^ q.log2 ≤ q / ulp q * ulp q := by
    have hle := Nat.log2_self_le h
    by_cases h52 : 52 ≤ q.log2
    · have hpow : 2 ^ q.log2 = 2 ^ 52 * ulp q := by
        rw [ulp_eq, ← Nat.pow_add]
        congr 1
        omega
      have hdiv : 2 ^ 52 ≤ q / ulp q := by
        rw [Nat.le_div_iff_mul_le (ulp_pos q), ← hpow]
        exact hle
      rw [hpow]
      exact Nat.mul_le_mul_right _ hdiv
    · have hulp : ulp q = 1 := by
        rw [ulp_eq, Nat.sub_eq_zero_of_le (by omega), Nat.pow_zero]
      rw [hulp, Nat.div_one, Nat.mul_one]
      exact hle
  rcases round_cases num den with hr | hr
  · rw [hr, hq]
    exact hlow
  · rw [hr, hq, Nat.add_mul]
    exact Nat.le_trans hlow (Nat.le_add_right _ _)

/-- What is too large before rounding is so after it. -/
theorem overflow_le_round {num den : Nat} (h : overflow ≤ num / den) : overflow ≤ round num den := by
  have hne : num / den ≠ 0 := by
    intro h0
    rw [h0, overflow_eq] at h
    exact absurd h (Nat.not_le.2 (Nat.two_pow_pos _))
  rw [overflow_eq] at h ⊢
  have hlog : 2098 ≤ (num / den).log2 := (Nat.le_log2 hne).2 h
  exact Nat.le_trans (Nat.pow_le_pow_right (by decide) hlog) (two_pow_log2_le_round hne)

/-- A number with at most 53 binary digits is a multiple of the spacing at its size. -/
theorem ulp_dvd_mul_two_pow {k j : Nat} (hk : k ≤ 2 ^ 53) : ulp (k * 2 ^ j) ∣ k * 2 ^ j := by
  rcases Nat.eq_zero_or_pos k with rfl | hpos
  · rw [Nat.zero_mul]
    exact Nat.dvd_zero _
  · rcases Nat.lt_or_eq_of_le hk with hlt | rfl
    · have hlog : (k * 2 ^ j).log2 < 53 + j := by
        rw [Nat.log2_lt (Nat.ne_of_gt (Nat.mul_pos hpos (Nat.two_pow_pos j))), Nat.pow_add]
        exact Nat.mul_lt_mul_of_pos_right hlt (Nat.two_pow_pos j)
      exact Nat.dvd_trans (Nat.pow_dvd_pow 2 (by omega)) (Nat.dvd_mul_left _ _)
    · rw [ulp_eq, ← Nat.pow_add, Nat.log2_two_pow]
      exact Nat.pow_dvd_pow 2 (by omega)

/-- **A rounded magnitude is a number of double precision.** -/
theorem ulp_dvd_round (num den : Nat) : ulp (round num den) ∣ round num den := by
  generalize hq : num / den = q
  have hbound : q / ulp q < 2 ^ 53 := by
    rcases Nat.eq_zero_or_pos q with rfl | hpos
    · decide
    · rw [Nat.div_lt_iff_lt_mul (ulp_pos q), ulp_eq, ← Nat.pow_add]
      exact (Nat.log2_lt (Nat.ne_of_gt hpos)).1 (by omega)
  rcases round_cases num den with hr | hr
  · rw [hr, hq]
    exact ulp_dvd_mul_two_pow (Nat.le_of_lt hbound)
  · rw [hr, hq]
    exact ulp_dvd_mul_two_pow hbound

/-- A number of double precision rounds to itself. -/
theorem round_one_of_ulp_dvd {units : Nat} (h : ulp units ∣ units) : round units 1 = units := by
  rw [round, roundTo_eq, Nat.div_one, Nat.one_mul, Nat.mod_eq_zero_of_dvd h,
    if_pos (.inl (ulp_pos units)), Nat.div_mul_cancel h]

/-! ## Magnitudes of decimals -/

/-- The number one, in units. -/
def one : Nat := Nat.pow 2 1074

theorem one_eq : one = 2 ^ 1074 := by rw [one, Nat.pow_eq]

theorem magnitude_ofNat_eq (significand e : Nat) :
    magnitude significand (.ofNat e) =
      if significand = 0 then 0
      else if 400 < e then overflow
      else round (significand * 10 ^ e * one) 1 := rfl

theorem magnitude_negSucc_eq (significand e : Nat) :
    magnitude significand (.negSucc e) =
      if significand.log2 + 400 < e then 0
      else round (significand * one) (10 ^ (e + 1)) := rfl

attribute [irreducible] one

/-- A finite magnitude of a decimal is a number of double precision. -/
theorem ulp_dvd_magnitude {significand : Nat} {exponent : Int}
    (h : magnitude significand exponent < overflow) :
    ulp (magnitude significand exponent) ∣ magnitude significand exponent := by
  cases exponent with
  | ofNat e =>
    rw [magnitude_ofNat_eq] at h ⊢
    split
    · exact Nat.dvd_zero _
    · next hs =>
      rw [if_neg hs] at h
      split
      · next he =>
        rw [if_pos he] at h
        exact absurd h (Nat.lt_irrefl _)
      · exact ulp_dvd_round _ _
  | negSucc e =>
    rw [magnitude_negSucc_eq]
    split
    · exact Nat.dvd_zero _
    · exact ulp_dvd_round _ _

/-- The magnitude of a whole number with trailing zeros. -/
theorem magnitude_ofNat {significand e units : Nat}
    (h : magnitude significand (.ofNat e) = units) (h0 : units ≠ 0) (hlt : units < overflow) :
    significand ≠ 0 ∧ e ≤ 400 ∧ round (significand * 10 ^ e * one) 1 = units := by
  rw [magnitude_ofNat_eq] at h
  split at h
  · exact absurd h.symm h0
  · next hs =>
    split at h
    · omega
    · exact ⟨hs, by omega, h⟩

/-- The magnitude of a decimal fraction. -/
theorem magnitude_negSucc {significand e units : Nat}
    (h : magnitude significand (.negSucc e) = units) (h0 : units ≠ 0) :
    round (significand * one) (10 ^ (e + 1)) = units := by
  rw [magnitude_negSucc_eq] at h
  split at h
  · exact absurd h.symm h0
  · exact h

/-- A decimal that is too small to be computed is less than half a unit. -/
theorem two_mul_lt_ten_pow {significand e : Nat} (h : significand.log2 + 400 < e) :
    2 * (significand * one) < 10 ^ (e + 1) := by
  have hs : significand < 2 ^ (significand.log2 + 1) := Nat.lt_log2_self
  rw [one_eq]
  generalize hp : 1074 = p
  calc 2 * (significand * 2 ^ p)
      = significand * 2 ^ (p + 1) := by rw [Nat.mul_left_comm, ← Nat.pow_succ']
    _ < 2 ^ (significand.log2 + 1) * 2 ^ (p + 1) :=
        Nat.mul_lt_mul_of_pos_right hs (Nat.two_pow_pos _)
    _ = 2 ^ (significand.log2 + 1 + (p + 1)) := (Nat.pow_add ..).symm
    _ ≤ 2 ^ (3 * (e + 1)) := Nat.pow_le_pow_right (by decide) (by omega)
    _ = 8 ^ (e + 1) := by rw [Nat.pow_mul]
    _ ≤ 10 ^ (e + 1) := Nat.pow_le_pow_left (by decide) _

/-- A power of ten that is too large to be computed is too large for a number. -/
theorem overflow_le_mul_ten_pow {significand e : Nat} (hs : significand ≠ 0) (he : 400 < e) :
    overflow ≤ significand * 10 ^ e * one := by
  rw [overflow_eq, one_eq]
  generalize hp : 1074 = p
  have hexp : 2098 ≤ 3 * e + p := by omega
  have hten : 8 ^ e ≤ 10 ^ e := Nat.pow_le_pow_left (by decide) e
  calc 2 ^ 2098 ≤ 2 ^ (3 * e + p) := Nat.pow_le_pow_right (by decide) hexp
    _ = 8 ^ e * 2 ^ p := by rw [Nat.pow_add, Nat.pow_mul]
    _ ≤ significand * 10 ^ e * 2 ^ p :=
        Nat.mul_le_mul_right _ (Nat.le_trans hten
          (Nat.le_mul_of_pos_left _ (Nat.pos_of_ne_zero hs)))

/-- **A factor of ten may move from the significand to the exponent.** -/
theorem magnitude_succ_of_mul_ten {significand units : Nat} {exponent : Int}
    (h : magnitude (significand * 10) exponent = units) (h0 : units ≠ 0) (hlt : units < overflow) :
    magnitude significand (exponent + 1) = units := by
  match exponent, h with
  | .ofNat e, h =>
    obtain ⟨hs, he, hr⟩ := magnitude_ofNat h h0 hlt
    have hs' : significand ≠ 0 := by
      rintro rfl
      exact hs (Nat.zero_mul _)
    have hten : significand * 10 * 10 ^ e = significand * 10 ^ (e + 1) := by
      rw [Nat.pow_succ', Nat.mul_assoc]
    rw [hten] at hr
    have he' : ¬ 400 < e + 1 := by
      intro hgt
      have hbig := overflow_le_mul_ten_pow hs' hgt
      rw [← Nat.div_one (_ * one)] at hbig
      have hover := overflow_le_round hbig
      omega
    rw [show Int.ofNat e + 1 = .ofNat (e + 1) from rfl, magnitude_ofNat_eq, if_neg hs', if_neg he']
    exact hr
  | .negSucc 0, h =>
    have hr := magnitude_negSucc h h0
    have hten : significand * 10 * one = significand * 10 ^ 0 * one * 10 := by
      rw [Nat.pow_zero, Nat.mul_one, Nat.mul_right_comm]
    rw [hten, show 10 ^ (0 + 1) = 1 * 10 from rfl, round_mul_mul _ _ (by decide)] at hr
    have hs : significand ≠ 0 := by
      rintro rfl
      rw [Nat.zero_mul (10 ^ 0), Nat.zero_mul one, round_eq_zero (by decide)] at hr
      exact h0 hr.symm
    rw [show Int.negSucc 0 + 1 = .ofNat 0 from rfl, magnitude_ofNat_eq, if_neg hs,
      if_neg (by decide)]
    exact hr
  | .negSucc (e + 1), h =>
    have hr := magnitude_negSucc h h0
    rw [Nat.mul_right_comm, Nat.pow_succ, round_mul_mul _ _ (by decide)] at hr
    have he : ¬ significand.log2 + 400 < e := by
      intro hsmall
      rw [round_eq_zero (two_mul_lt_ten_pow hsmall)] at hr
      exact h0 hr.symm
    rw [show Int.negSucc (e + 1) + 1 = .negSucc e from rfl, magnitude_negSucc_eq, if_neg he]
    exact hr

/-- Trailing zeros may be written out. -/
theorem magnitude_mul_ten_pow {significand e units : Nat}
    (h : magnitude significand (.ofNat e) = units) (h0 : units ≠ 0) (hlt : units < overflow) :
    magnitude (significand * 10 ^ e) (.ofNat 0) = units := by
  obtain ⟨hs, -, hr⟩ := magnitude_ofNat h h0 hlt
  have hne : significand * 10 ^ e ≠ 0 :=
    Nat.ne_of_gt (Nat.mul_pos (Nat.pos_of_ne_zero hs) (Nat.pow_pos (by decide)))
  rw [magnitude_ofNat_eq, if_neg hne, if_neg (by decide), Nat.pow_zero, Nat.mul_one]
  exact hr

end DocQuery.Number.Binary64
