import DocQuery.Proofs.Number.Numeral
import DocQuery.Proofs.Syntax.Names
import DocQuery.Syntax.Lexeme
import DocQuery.Syntax.Render

/-!
# Literals that are read back

A literal that was read is written as a text that is read again (`reads_quoted`, `reads_number`), but
not always as the same literal: a whole number has no point in its text, and so a float that is one is
read again as the integer that its digits show, if that fits in a word (`Literal.reread`). The digits
of a float are the shortest that round to it. Below `2 ^ 53` they show the number itself, and beyond
they may show another one that rounds to it (`exists_shownInt_eq`).
-/

namespace DocQuery

namespace Number

/-- The whole number that the shortest digits of a number show, for a number that is whole. -/
def Binary64.shownInt (x : Binary64) : Int :=
  signedInt x.negative
    (if x.units = 0 then 0
    else (shortest .up x.units).1 * 10 ^ (shortest .up x.units).2.toNat)

/-- Whether a number is finite and has double precision. -/
structure Binary64.Valid (x : Binary64) : Prop where
  /-- It is finite. -/
  lt_overflow : x.units < overflow
  /-- It is a multiple of the spacing at its size. -/
  ulp_dvd : ulp x.units ∣ x.units

/-- A decimal is read as a number of double precision. -/
theorem Binary64.valid_of_ofDecimal? {d : Decimal} {x : Binary64} (h : ofDecimal? d = some x) :
    x.Valid := by
  unfold ofDecimal? at h
  dsimp only at h
  split at h
  · next hlt =>
    obtain rfl := Option.some.inj h
    exact ⟨hlt, ulp_dvd_magnitude hlt⟩
  · cases h

end Number

namespace Syntax

open Number

/-- What a literal is read as when its text is read again. -/
def Literal.reread : Literal → Literal
  | .float x =>
    if Binary64.one ∣ x.units ∧ fitsWord x.shownInt = true then .int x.shownInt else .float x
  | value => value

/-- Whether a literal is one that can be read. -/
def Literal.Readable : Literal → Prop
  | .int n => fitsWord n = true
  | .float x => x.Valid
  | _ => True

/-! ## Numbers -/

theorem readable_of_numberLiteral? {cs : List Char} {value : Literal}
    (h : numberLiteral? cs = some value) : value.Readable := by
  unfold numberLiteral? at h
  split at h
  · next n hn =>
    obtain rfl := Option.some.inj h
    split at hn
    · cases hn
    · exact (Option.filter_eq_some_iff.1 hn).2
  · obtain ⟨x, hx, rfl⟩ := Option.map_eq_some_iff.1 h
    obtain ⟨d, -, hd⟩ := Option.bind_eq_some_iff.1 hx
    exact Binary64.valid_of_ofDecimal? hd

theorem not_mem_signed {negative : Bool} {ch : Char} {cs : List Char} (hc : ch ≠ '-')
    (h : ch ∉ cs) : ch ∉ signed negative cs := by
  cases negative with
  | true =>
    rintro (_ | ⟨_, hm⟩)
    · exact hc rfl
    · exact h hm
  | false => exact h

/-- A run of digits is read as an integer if it fits in a word. -/
theorem numberLiteral?_signed {ds : List Char} (negative : Bool) (hne : ds ≠ [])
    (h : IsDigits ds) :
    numberLiteral? (signed negative ds) =
      if fitsWord (signedInt negative (natOfDigits ds)) = true then
        some (.int (signedInt negative (natOfDigits ds)))
      else (Binary64.ofDecimal? ⟨negative, natOfDigits ds, 0⟩).map .float := by
  have hpoint : (signed negative ds).contains '.' = false := by
    rw [← Bool.not_eq_true, List.contains_iff_mem]
    exact not_mem_signed (by decide) fun hm => absurd (h '.' hm) (by decide)
  unfold numberLiteral?
  rw [hpoint, wordInt?, int?_signed negative hne h, parse?_signed negative hne h]
  cases hfit : fitsWord (signedInt negative (natOfDigits ds)) with
  | true => simp [Option.filter, hfit]
  | false => simp [Option.filter, hfit]

/-- Digits with a point are read as a float. -/
theorem numberLiteral?_signed_point {ws fs : List Char} (negative : Bool) (hne : ws ≠ [])
    (hw : IsDigits ws) (hf : IsDigits fs) :
    numberLiteral? (signed negative (ws ++ '.' :: fs)) =
      (Binary64.ofDecimal? ⟨negative, natOfDigits (ws ++ fs), -(fs.length : Int)⟩).map .float := by
  have hpoint : (signed negative (ws ++ '.' :: fs)).contains '.' = true := by
    rw [List.contains_iff_mem]
    cases negative <;> simp [signed]
  unfold numberLiteral?
  rw [hpoint, parse?_signed_point negative hne hw hf, if_pos rfl, Option.bind_some]

/-- The text of a number, in the characters of its digits. -/
theorem toList_intText (n : Int) :
    (intText n).toList = signed (decide (n < 0)) (Nat.toDigits 10 n.natAbs) := by
  unfold intText natText
  split
  · next h => simp [signed, h, Nat.toList_repr]
  · next h => simp [signed, h, Nat.toList_repr]

theorem signedInt_natAbs (n : Int) : signedInt (decide (n < 0)) n.natAbs = n := by
  unfold signedInt
  split
  · next h =>
    rw [decide_eq_true_eq] at h
    omega
  · next h =>
    rw [decide_eq_true_eq] at h
    omega

/-- A text of digits, with a sign in front and a point between two of them or without. -/
def IsNumeral (cs : List Char) : Prop :=
  ∃ negative ws, ws ≠ [] ∧ IsDigits ws ∧
    (cs = signed negative ws ∨ ∃ fs, IsDigits fs ∧ cs = signed negative (ws ++ '.' :: fs))

/-- The text of a float, in the characters of its shortest digits. -/
theorem toList_render_float (x : Binary64) :
    (Literal.float x).render.toList = signed x.negative
      (if x.units = 0 then ['0']
      else (sqlLayout.positionalText (Nat.toDigits 10 (Binary64.shortest .up x.units).1)
        ((Binary64.shortest .up x.units).2 +
          (Nat.toDigits 10 (Binary64.shortest .up x.units).1).length)).toList) := by
  rw [Literal.render, Binary64.text, show sqlLayout.tie = .up from rfl]
  generalize Binary64.shortest .up x.units = decimal
  by_cases h0 : x.units = 0 <;> cases x.negative <;>
    simp [h0, signed, sqlLayout, Layout.magnitudeText]

/-- A decimal with the magnitude of a number is read as the number. -/
theorem ofDecimal?_of_magnitude {x : Binary64} (hx : x.Valid) {significand : Nat} {exponent : Int}
    (h : Binary64.magnitude significand exponent = x.units) :
    Binary64.ofDecimal? ⟨x.negative, significand, exponent⟩ = some x := by
  unfold Binary64.ofDecimal?
  dsimp only
  rw [h, if_pos hx.lt_overflow]

/-- **The text of a float is read again**, as the integer that its digits show if it is a whole number
and they fit in a word, and else as the float itself. -/
theorem numberLiteral?_render_float {x : Binary64} (hx : x.Valid) :
    IsNumeral (Literal.float x).render.toList ∧
      numberLiteral? (Literal.float x).render.toList = some (Literal.float x).reread := by
  rw [toList_render_float, Literal.reread, Binary64.shownInt]
  by_cases h0 : x.units = 0
  · have hz : signedInt x.negative 0 = 0 := by cases x.negative <;> rfl
    have hd : IsDigits ['0'] := isDigits_replicate_zero 1
    rw [if_pos h0, if_pos h0, hz, if_pos ⟨by rw [h0]; exact Nat.dvd_zero _, by decide⟩]
    refine ⟨⟨_, _, List.cons_ne_nil _ _, hd, .inl rfl⟩, ?_⟩
    rw [numberLiteral?_signed _ (List.cons_ne_nil _ _) hd,
      show natOfDigits ['0'] = 0 from rfl, hz, if_pos (by decide)]
  · have hm := Binary64.magnitude_shortest .up h0 hx.lt_overflow hx.ulp_dvd
    have hwhole := Binary64.nonneg_exponent_iff .up h0 hx.lt_overflow hx.ulp_dvd
    rw [if_neg h0, if_neg h0]
    generalize Binary64.shortest .up x.units = decimal at hm hwhole ⊢
    obtain ⟨significand, exponent⟩ := decimal
    dsimp only at hm hwhole ⊢
    have hds := isDigits_toDigits significand
    have hne := Nat.toDigits_ne_nil (n := significand) (b := 10)
    cases exponent with
    | ofNat e =>
      have hzeros := hds.append (isDigits_replicate_zero e)
      have hne' : Nat.toDigits 10 significand ++ List.replicate e '0' ≠ [] :=
        List.append_ne_nil_of_left_ne_nil hne _
      rw [show Int.ofNat e = (e : Int) from rfl,
        Layout.toList_positionalText_whole _ rfl hne, Int.toNat_natCast]
      refine ⟨⟨_, _, hne', hzeros, .inl rfl⟩, ?_⟩
      rw [numberLiteral?_signed _ hne' hzeros, natOfDigits_append_zeros, natOfDigits_toDigits]
      split
      · next hfit => rw [if_pos ⟨hwhole.1 (Int.natCast_nonneg e), hfit⟩]
      · next hfit =>
        have hm' := Binary64.magnitude_mul_ten_pow hm h0 hx.lt_overflow
        rw [if_neg fun h => hfit h.2, show (0 : Int) = Int.ofNat 0 from rfl,
          ofDecimal?_of_magnitude hx hm', Option.map_some]
    | negSucc e =>
      obtain ⟨ws, fs, hws, hw, hf, hlen, hval, htext⟩ :=
        sqlLayout.toList_positionalText_fraction hds (Int.negSucc_lt_zero e)
      rw [htext]
      refine ⟨⟨_, _, hws, hw, .inr ⟨fs, hf, rfl⟩⟩, ?_⟩
      rw [numberLiteral?_signed_point _ hws hw hf, hlen, hval, natOfDigits_toDigits,
        ofDecimal?_of_magnitude hx hm, Option.map_some,
        if_neg fun h => absurd (hwhole.2 h.1) (by omega)]

theorem numberLiteral?_render_int {n : Int} (hn : fitsWord n = true) :
    IsNumeral (Literal.int n).render.toList ∧
      numberLiteral? (Literal.int n).render.toList = some (.int n) := by
  have hd := isDigits_toDigits n.natAbs
  have hne := Nat.toDigits_ne_nil (n := n.natAbs) (b := 10)
  rw [Literal.render, toList_intText]
  refine ⟨⟨_, _, hne, hd, .inl rfl⟩, ?_⟩
  rw [numberLiteral?_signed _ hne hd, natOfDigits_toDigits, signedInt_natAbs, if_pos hn]

/-- **The text of a number that was read is read again**, by its characters. -/
theorem numberLiteral?_render {value : Literal} (hv : value.Readable)
    (hn : (∃ n, value = .int n) ∨ ∃ x, value = .float x) :
    IsNumeral value.render.toList ∧ numberLiteral? value.render.toList = some value.reread := by
  obtain ⟨n, rfl⟩ | ⟨x, rfl⟩ := hn
  · exact numberLiteral?_render_int hv
  · exact numberLiteral?_render_float hv

/-! ## Readers of literals -/

theorem numberBody_of_ends {tail : List Char} (h : Ends tail) (pointed : Bool) :
    numberBody pointed tail = [] := by
  cases tail with
  | nil => rfl
  | cons ch cs =>
    have hch : ch ≠ '.' ∧ isDigit ch = false := by
      rcases h ch rfl with rfl | rfl | rfl <;> decide
    rw [numberBody, if_neg fun hp => hch.1 hp.1, if_neg (by rw [hch.2]; decide)]

/-- All digits belong to a number. -/
theorem numberBody_append {ds : List Char} (h : IsDigits ds) (pointed : Bool) (tail : List Char) :
    numberBody pointed (ds ++ tail) = ds ++ numberBody pointed tail := by
  induction ds with
  | nil => rfl
  | cons d ds ih =>
    obtain ⟨hd, hds⟩ := List.forall_mem_cons.1 h
    have hpoint : d ≠ '.' := by
      rintro rfl
      exact absurd hd (by decide)
    rw [List.cons_append, numberBody, if_neg fun hp => hpoint hp.1, if_pos hd, ih hds,
      List.cons_append]

/-- The characters of a numeral after its sign belong to one number. -/
theorem IsNumeral.exists_body {cs : List Char} (h : IsNumeral cs) :
    ∃ negative d body, cs = signed negative (d :: body) ∧ isDigit d = true ∧
      ∀ tail, Ends tail → numberBody false (d :: body ++ tail) = d :: body := by
  obtain ⟨negative, ws, hne, hw, h⟩ := h
  obtain ⟨d, ds, rfl⟩ := List.exists_cons_of_ne_nil hne
  have hd := hw d List.mem_cons_self
  obtain rfl | ⟨fs, hf, rfl⟩ := h
  · refine ⟨negative, d, ds, rfl, hd, fun tail ht => ?_⟩
    rw [numberBody_append hw, numberBody_of_ends ht, List.append_nil]
  · refine ⟨negative, d, ds ++ '.' :: fs, rfl, hd, fun tail ht => ?_⟩
    rw [← List.cons_append, List.append_assoc, numberBody_append hw,
      List.cons_append (a := '.'), numberBody, if_pos ⟨rfl, rfl⟩, numberBody_append hf,
      numberBody_of_ends ht, List.append_nil]

/-- A numeral starts with a digit, or with a minus sign before one. -/
theorem IsNumeral.startsNumber {cs tail : List Char} (h : IsNumeral cs) {c : Cursor}
    (hc : c.rest = cs ++ tail) :
    startsNumber c = true ∧ c.current ≠ '(' ∧ isQuote c.current = false := by
  obtain ⟨negative, d, body, rfl, hd, -⟩ := h.exists_body
  unfold Syntax.startsNumber
  cases negative with
  | true =>
    have hpeek : c.peek 1 = d := by
      rw [Cursor.peek, hc]
      rfl
    rw [Cursor.current_of_rest hc, hpeek, hd]
    decide
  | false =>
    rw [Cursor.current_of_rest hc, hd, Bool.true_or]
    refine ⟨rfl, ?_, ?_⟩
    · rintro rfl
      exact absurd hd (by decide)
    · rw [isQuote, Bool.or_eq_false_iff, decide_eq_false_iff_not, decide_eq_false_iff_not]
      constructor <;>
        rintro rfl <;>
        exact absurd hd (by decide)

namespace Reader

theorem number_eq_ok {c c' : Cursor} {value : Literal} (h : number c = .ok (value, c')) :
    value.Readable := by
  unfold number at h
  dsimp only at h
  split at h
  · next hv =>
    cases h
    exact readable_of_numberLiteral? hv
  · cases h

theorem reads_number {cs tail : List Char} {value : Literal} (h : IsNumeral cs)
    (hv : numberLiteral? cs = some value) (ht : Ends tail) :
    Reads number (cs ++ tail) value tail := by
  intro c hc
  obtain ⟨negative, d, body, rfl, hd, hbody⟩ := h.exists_body
  unfold number
  cases negative with
  | true =>
    rw [show signed true (d :: body) ++ tail = '-' :: (d :: body ++ tail) from rfl] at hc
    dsimp only
    rw [if_pos (Cursor.current_of_rest hc), hc, show ('-' :: (d :: body ++ tail)).take 1 = ['-'] from rfl,
      show ('-' :: (d :: body ++ tail)).drop ['-'].length = d :: body ++ tail from rfl, hbody tail ht,
      show ['-'] ++ d :: body = signed true (d :: body) from rfl, hv]
    refine ⟨_, rfl, ?_⟩
    rw [Cursor.rest_advance, hc, ← List.length_append]
    exact List.drop_left
  | false =>
    rw [show signed false (d :: body) ++ tail = d :: body ++ tail from rfl] at hc
    have hsign : c.current ≠ '-' := by
      rw [Cursor.current_of_rest hc]
      rintro rfl
      exact absurd hd (by decide)
    dsimp only
    rw [if_neg hsign, List.length_nil, List.drop_zero, hc, hbody tail ht, List.nil_append,
      show d :: body = signed false (d :: body) from rfl, hv]
    refine ⟨_, rfl, ?_⟩
    rw [Cursor.rest_advance, hc, Nat.zero_add]
    exact List.drop_left

end Reader

/-! ## Quoted texts -/

/-- The characters between quotes are read up to a quote that is not doubled. -/
theorem quotedBody_quote (body : List Char) {tail : List Char} (ht : Ends tail) :
    quotedBody '\'' (body.flatMap Literal.quoteChar ++ '\'' :: tail) =
      some (body, (body.flatMap Literal.quoteChar).length + 1) := by
  induction body with
  | nil =>
    cases tail with
    | nil => decide
    | cons ch cs =>
      have hch : ch ≠ '\'' := by
        rcases ht ch rfl with rfl | rfl | rfl <;> decide
      rw [List.flatMap_nil, List.nil_append, quotedBody, if_pos rfl, if_neg hch]
      rfl
  | cons ch body ih =>
    rw [List.flatMap_cons]
    by_cases hq : ch = '\''
    · subst hq
      rw [show Literal.quoteChar '\'' = ['\'', '\''] from rfl, List.append_assoc, List.cons_append,
        List.cons_append, List.nil_append, quotedBody, if_pos rfl, if_pos rfl, ih, Option.map_some]
      simp only [List.length_append, List.length_cons, List.length_nil, Option.some.injEq,
        Prod.mk.injEq, true_and]
      omega
    · rw [show Literal.quoteChar ch = [ch] from if_neg hq, List.append_assoc, List.cons_append,
        List.nil_append]
      obtain ⟨d, ds, hd⟩ : ∃ d ds, body.flatMap Literal.quoteChar ++ '\'' :: tail = d :: ds :=
        List.exists_cons_of_ne_nil (by simp)
      rw [hd, quotedBody, if_neg hq, ← hd, ih, Option.map_some]
      simp only [List.length_append, List.length_cons, List.length_nil, Option.some.injEq,
        Prod.mk.injEq, true_and]
      omega

theorem toList_quote (s : String) :
    (Literal.quote s).toList = '\'' :: (s.toList.flatMap Literal.quoteChar ++ ['\'']) := by
  simp [Literal.quote]

namespace Reader

theorem quoted_eq_ok {c c' : Cursor} {value : Literal} (h : quoted c = .ok (value, c')) :
    value.Readable := by
  unfold quoted at h
  split at h
  · cases h
    trivial
  · cases h

/-- **A text that was quoted is read again.** -/
theorem reads_quoted (s : String) {tail : List Char} (ht : Ends tail) :
    Reads quoted ((Literal.quote s).toList ++ tail) (.string s) tail := by
  intro c hc
  rw [toList_quote, List.cons_append, List.append_assoc, List.singleton_append] at hc
  unfold quoted
  rw [Cursor.current_of_rest hc, hc, List.drop_succ_cons, List.drop_zero,
    quotedBody_quote s.toList ht]
  dsimp only
  rw [String.ofList_toList]
  refine ⟨_, rfl, ?_⟩
  rw [Cursor.rest_advance, hc, List.drop_succ_cons, ← List.drop_drop, List.drop_left]
  rfl

end Reader

/-! ## What the digits of a whole number show -/

/-- **The digits of a float that is a whole number show a number that rounds to it, and below `2 ^ 53`
the number itself.** -/
theorem exists_shownInt_eq {x : Binary64} (hx : x.Valid) (h : Binary64.one ∣ x.units) :
    ∃ n, x.shownInt = signedInt x.negative n ∧ Binary64.magnitude n 0 = x.units ∧
      (x.units < 2 ^ 53 * Binary64.one → n * Binary64.one = x.units) := by
  unfold Binary64.shownInt
  by_cases h0 : x.units = 0
  · rw [if_pos h0, h0]
    exact ⟨0, rfl, rfl, fun _ => Nat.zero_mul _⟩
  · have hm := Binary64.magnitude_shortest .up h0 hx.lt_overflow hx.ulp_dvd
    obtain ⟨e, he⟩ := Int.eq_ofNat_of_zero_le
      ((Binary64.nonneg_exponent_iff .up h0 hx.lt_overflow hx.ulp_dvd).2 h)
    have hexact : x.units < 2 ^ 53 * Binary64.one →
        (Binary64.shortest .up x.units).1 * 10 ^ e * Binary64.one = x.units := by
      intro hlt
      obtain ⟨k, hk⟩ := h
      rw [Nat.mul_comm] at hk
      rw [hk] at h0 hlt he ⊢
      obtain ⟨e', he', hval⟩ := Binary64.shortest_mul_one .up
        (fun hk0 => h0 (by rw [hk0, Nat.zero_mul])) (Nat.lt_of_mul_lt_mul_right hlt)
      rw [Int.ofNat_inj.1 (he.symm.trans he'), hval]
    rw [he] at hm
    rw [if_neg h0, he]
    exact ⟨_, rfl, Binary64.magnitude_mul_ten_pow hm h0 hx.lt_overflow, hexact⟩

/-- A literal is read again as itself unless it is a float that is a whole number in a word. -/
theorem reread_eq_self {value : Literal}
    (h : ∀ x, value = .float x → Binary64.one ∣ x.units → fitsWord x.shownInt = false) :
    value.reread = value := by
  cases value with
  | float x =>
    refine if_neg fun ⟨hwhole, hfits⟩ => ?_
    rw [h x rfl hwhole] at hfits
    cases hfits
  | _ => rfl

end Syntax

end DocQuery
