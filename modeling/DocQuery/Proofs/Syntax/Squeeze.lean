import DocQuery.Proofs.Number.Numeral
import DocQuery.Proofs.Syntax.Names
import DocQuery.Syntax.Lexeme

/-!
# Runs of blanks

`squeeze` makes one space of each run of blanks outside of quoted texts. A squeezed text starts with
the same character, but for one blank in place of another (`head?_squeeze`), and the same keywords,
names, numbers and quoted texts stand at its start. After each of them stands the squeezed rest of
the text (`drop_squeeze`, `drop_squeezeWithin`).
-/

namespace DocQuery.Syntax

/-- The text with one space for each run of blanks outside of quoted texts. The first argument is the
quote of the quoted text that it starts within, if it does. A doubled quote closes a quoted text and
opens the next one. -/
def squeezeWithin : Option Char → List Char → List Char
  | _, [] => []
  | some quote, ch :: cs => ch :: squeezeWithin (if ch = quote then none else some quote) cs
  | none, ch :: cs =>
    if isQuote ch then ch :: squeezeWithin (some ch) cs
    else if Text.isBlank ch then
      -- The last blank of a run stands for all of it.
      if cs.head?.any Text.isBlank then squeezeWithin none cs else ' ' :: squeezeWithin none cs
    else ch :: squeezeWithin none cs

/-- The text with one space for each run of blanks outside of quoted texts. -/
abbrev squeeze (cs : List Char) : List Char := squeezeWithin none cs

/-- The text with one space for each run of blanks outside of quoted texts. -/
def squeezeBlanks (text : String) : String := String.ofList (squeeze text.toList)

example : squeezeBlanks "a \t =\n 'it''s  so'  ;" = "a = 'it''s  so' ;" := by decide +kernel

/-- Whether a character is neither blank nor a quote. -/
def IsPlain (ch : Char) : Prop := isQuote ch = false ∧ Text.isBlank ch = false

instance (ch : Char) : Decidable (IsPlain ch) :=
  inferInstanceAs (Decidable (isQuote ch = false ∧ Text.isBlank ch = false))

/-- The character that a character becomes if it starts a text that is squeezed. -/
def spaced (ch : Char) : Char := if Text.isBlank ch then ' ' else ch

/-! ## Characters -/

theorem isBlank_of_isQuote {ch : Char} (h : isQuote ch = true) : Text.isBlank ch = false := by
  rw [isQuote, Bool.or_eq_true, decide_eq_true_eq, decide_eq_true_eq] at h
  rcases h with rfl | rfl <;> decide

theorem isQuote_of_isBlank {ch : Char} (h : Text.isBlank ch = true) : isQuote ch = false := by
  rw [← Bool.not_eq_true]
  intro hq
  rw [isBlank_of_isQuote hq] at h
  cases h

theorem spaced_of_isBlank {ch : Char} (h : Text.isBlank ch = true) : spaced ch = ' ' := if_pos h

theorem spaced_of_not_isBlank {ch : Char} (h : Text.isBlank ch = false) : spaced ch = ch :=
  if_neg (by rw [h]; exact Bool.false_ne_true)

theorem spaced_endMark : spaced Cursor.endMark = Cursor.endMark := by decide

theorem isPlain_of_not_isDelimiter {ch : Char} (h : isDelimiter ch = false) : IsPlain ch := by
  rw [isDelimiter, Bool.or_eq_false_iff] at h
  refine ⟨?_, h.2⟩
  rw [← Bool.not_eq_true, isQuote, Bool.or_eq_true, decide_eq_true_eq, decide_eq_true_eq]
  rintro (rfl | rfl) <;> exact absurd h.1 (by decide)

theorem isPlain_of_isNameChar {ch : Char} (h : isNameChar ch = true) : IsPlain ch :=
  isPlain_of_not_isDelimiter (isDelimiter_of_isNameChar h)

theorem isPlain_of_isDigit {ch : Char} (h : Number.isDigit ch = true) : IsPlain ch := by
  have hall : ∀ n : Fin 0x80, Number.isDigit (Char.ofNat n) = true → IsPlain (Char.ofNat n) := by
    decide +kernel
  have hn := Number.isDigit_iff.1 h
  have hch := hall ⟨ch.toNat, by omega⟩
  simp only [Char.ofNat_toNat] at hch
  exact hch h

/-- A character that is no blank is the same before and after. -/
theorem spaced_eq_iff {ch other : Char} (h : Text.isBlank other = false) :
    spaced ch = other ↔ ch = other := by
  cases hb : Text.isBlank ch with
  | true =>
    rw [spaced_of_isBlank hb]
    constructor
    · rintro rfl
      exact absurd h (by decide)
    · rintro rfl
      rw [hb] at h
      cases h
  | false => rw [spaced_of_not_isBlank hb]

theorem isPlain_spaced_iff {ch : Char} : IsPlain (spaced ch) ↔ IsPlain ch := by
  cases hb : Text.isBlank ch with
  | true =>
    rw [spaced_of_isBlank hb]
    refine iff_of_false (by decide) fun h => ?_
    rw [h.2] at hb
    cases hb
  | false => rw [spaced_of_not_isBlank hb]

theorem isQuote_spaced (ch : Char) : isQuote (spaced ch) = isQuote ch := by
  cases hb : Text.isBlank ch with
  | true => rw [spaced_of_isBlank hb, isQuote_of_isBlank hb, isQuote_of_isBlank (by decide)]
  | false => rw [spaced_of_not_isBlank hb]

/-- A test that no blank passes. -/
theorem test_spaced {p : Char → Bool} (hp : ∀ ch, p ch = true → IsPlain ch) (ch : Char) :
    p (spaced ch) = p ch := by
  cases hb : Text.isBlank ch with
  | true =>
    rw [spaced_of_isBlank hb]
    have hfalse : ∀ x, Text.isBlank x = true → p x = false := by
      intro x hx
      rw [← Bool.not_eq_true]
      intro h
      rw [(hp x h).2] at hx
      cases hx
    rw [hfalse ch hb, hfalse ' ' (by decide)]
  | false => rw [spaced_of_not_isBlank hb]

/-! ## Texts -/

theorem squeeze_cons_plain {ch : Char} (h : IsPlain ch) (cs : List Char) :
    squeeze (ch :: cs) = ch :: squeeze cs := by
  simp [squeeze, squeezeWithin, h.1, h.2]

theorem squeeze_cons_quote {ch : Char} (h : isQuote ch = true) (cs : List Char) :
    squeeze (ch :: cs) = ch :: squeezeWithin (some ch) cs := by
  simp [squeeze, squeezeWithin, h]

/-- A run of blanks becomes one space. -/
theorem squeeze_cons_blank {ch : Char} (h : Text.isBlank ch = true) (cs : List Char) :
    squeeze (ch :: cs) = ' ' :: squeeze (trimStart cs) := by
  induction cs generalizing ch with
  | nil => simp [squeeze, squeezeWithin, h, isQuote_of_isBlank h]
  | cons next cs ih =>
    have hq := isQuote_of_isBlank h
    cases hn : Text.isBlank next with
    | true =>
      have htrim : trimStart (next :: cs) = trimStart cs := List.dropWhile_cons_of_pos hn
      rw [htrim, ← ih hn]
      simp [squeeze, squeezeWithin, h, hq, hn]
    | false =>
      rw [trimStart_cons hn]
      simp [squeeze, squeezeWithin, h, hq, hn]

/-- The first character of a squeezed text. -/
theorem exists_squeeze_cons (ch : Char) (cs : List Char) :
    ∃ rest, squeeze (ch :: cs) = spaced ch :: rest := by
  cases hb : Text.isBlank ch with
  | true => exact ⟨_, by rw [squeeze_cons_blank hb, spaced_of_isBlank hb]⟩
  | false =>
    rw [spaced_of_not_isBlank hb]
    cases hq : isQuote ch with
    | true => exact ⟨_, squeeze_cons_quote hq cs⟩
    | false => exact ⟨_, squeeze_cons_plain ⟨hq, hb⟩ cs⟩

theorem head?_squeeze (cs : List Char) : (squeeze cs).head? = cs.head?.map spaced := by
  cases cs with
  | nil => rfl
  | cons ch cs =>
    obtain ⟨rest, hrest⟩ := exists_squeeze_cons ch cs
    rw [hrest, List.head?_cons, List.head?_cons, Option.map_some]

theorem squeeze_eq_nil_iff {cs : List Char} : squeeze cs = [] ↔ cs = [] := by
  rw [← List.head?_eq_none_iff, head?_squeeze, Option.map_eq_none_iff, List.head?_eq_none_iff]

theorem trimStart_squeeze (cs : List Char) : trimStart (squeeze cs) = squeeze (trimStart cs) := by
  -- A text that does not start with a blank does not do so when it is squeezed.
  have htrimmed : ∀ {cs : List Char}, (∀ ch ∈ cs.head?, Text.isBlank ch = false) →
      trimStart (squeeze cs) = squeeze cs := by
    intro cs hcs
    cases cs with
    | nil => rfl
    | cons ch cs =>
      have hb := hcs ch rfl
      cases hq : isQuote ch with
      | true => rw [squeeze_cons_quote hq, trimStart_cons hb]
      | false => rw [squeeze_cons_plain ⟨hq, hb⟩, trimStart_cons hb]
  cases cs with
  | nil => rfl
  | cons ch cs =>
    cases hb : Text.isBlank ch with
    | true =>
      have htrim : trimStart (ch :: cs) = trimStart cs := List.dropWhile_cons_of_pos hb
      rw [squeeze_cons_blank hb, trimStart_space, htrim]
      exact htrimmed eq_false_of_mem_head?_dropWhile
    | false =>
      rw [trimStart_cons hb]
      exact htrimmed fun x hx => by cases hx; exact hb

theorem squeeze_append {part : List Char} (h : ∀ ch ∈ part, IsPlain ch) (cs : List Char) :
    squeeze (part ++ cs) = part ++ squeeze cs := by
  induction part with
  | nil => rfl
  | cons ch part ih =>
    obtain ⟨hch, hpart⟩ := List.forall_mem_cons.1 h
    rw [List.cons_append, squeeze_cons_plain hch, ih hpart, List.cons_append]

/-- After characters that are neither blanks nor quotes the squeezed rest follows. -/
theorem drop_squeeze {part cs : List Char} (hp : part <+: cs) (h : ∀ ch ∈ part, IsPlain ch) :
    (squeeze cs).drop part.length = squeeze (cs.drop part.length) := by
  obtain ⟨rest, rfl⟩ := hp
  rw [squeeze_append h, List.drop_left, List.drop_left]

/-! ## Names and keywords -/

theorem takeWhile_squeeze {p : Char → Bool} (hp : ∀ ch, p ch = true → IsPlain ch)
    (cs : List Char) : (squeeze cs).takeWhile p = cs.takeWhile p := by
  induction cs with
  | nil => rfl
  | cons ch cs ih =>
    cases h : p ch with
    | true =>
      rw [squeeze_cons_plain (hp ch h), List.takeWhile_cons_of_pos h,
        List.takeWhile_cons_of_pos h, ih]
    | false =>
      obtain ⟨rest, hrest⟩ := exists_squeeze_cons ch cs
      have hspaced : p (spaced ch) = false := by rw [test_spaced hp, h]
      rw [hrest, List.takeWhile_cons_of_neg (by simp [hspaced]),
        List.takeWhile_cons_of_neg (by simp [h])]

theorem Delimited.squeeze {rest : List Char} (h : Delimited rest) : Delimited (squeeze rest) := by
  intro ch hch
  rw [head?_squeeze] at hch
  obtain ⟨x, hx, rfl⟩ := Option.map_eq_some_iff.1 hch
  have hd := h x hx
  cases hb : Text.isBlank x with
  | true =>
    rw [spaced_of_isBlank hb]
    decide
  | false => rwa [spaced_of_not_isBlank hb]

/-- A text up to its first delimiter. -/
theorem exists_delimited (cs : List Char) :
    ∃ part rest, cs = part ++ rest ∧ (∀ ch ∈ part, isDelimiter ch = false) ∧ Delimited rest := by
  obtain ⟨part, rest, heq, hpart, hrest⟩ := exists_span (!isDelimiter ·) cs
  refine ⟨part, rest, heq, fun ch hm => ?_, fun ch hm => ?_⟩
  · simpa using hpart ch hm
  · simpa using hrest ch hm

theorem startsWith_squeeze {word : String} (hw : IsUpperWord word) (cs : List Char) :
    startsWith word (squeeze cs) = startsWith word cs := by
  obtain ⟨part, rest, rfl, hpart, hrest⟩ := exists_delimited cs
  rw [squeeze_append fun ch hm => isPlain_of_not_isDelimiter (hpart ch hm), Bool.eq_iff_iff,
    startsWith_append_iff hw hpart hrest.squeeze, startsWith_append_iff hw hpart hrest]

/-- After a keyword the squeezed rest follows. -/
theorem drop_squeeze_of_startsWith {word : String} (hw : IsUpperWord word) {cs : List Char}
    (h : startsWith word cs = true) :
    (squeeze cs).drop word.length = squeeze (cs.drop word.length) := by
  obtain ⟨part, rest, rfl, hpart, hrest⟩ := exists_delimited cs
  have hmap := (startsWith_append_iff hw hpart hrest).1 h
  have hlength : word.length = part.length := by
    rw [← String.length_toList, ← hmap, List.length_map]
  rw [hlength]
  exact drop_squeeze (List.prefix_append _ _) fun ch hm => isPlain_of_not_isDelimiter (hpart ch hm)

/-! ## Numbers and quoted texts -/

theorem isPlain_of_mem_numberBody {pointed : Bool} {cs : List Char} {ch : Char}
    (h : ch ∈ numberBody pointed cs) : IsPlain ch := by
  fun_induction numberBody pointed cs with
  | case1 => cases h
  | case2 pointed x cs hx ih =>
    rcases List.mem_cons.1 h with rfl | h
    · rw [hx.1]
      decide
    · exact ih h
  | case3 pointed x cs hx hd ih =>
    rcases List.mem_cons.1 h with rfl | h
    · exact isPlain_of_isDigit hd
    · exact ih h
  | case4 => cases h

theorem isPrefix_numberBody (pointed : Bool) (cs : List Char) : numberBody pointed cs <+: cs := by
  fun_induction numberBody pointed cs with
  | case1 => exact List.nil_prefix
  | case2 pointed x cs hx ih => exact (List.prefix_cons_inj _).2 ih
  | case3 pointed x cs hx hd ih => exact (List.prefix_cons_inj _).2 ih
  | case4 => exact List.nil_prefix

theorem numberBody_squeeze (pointed : Bool) (cs : List Char) :
    numberBody pointed (squeeze cs) = numberBody pointed cs := by
  fun_induction numberBody pointed cs with
  | case1 => rfl
  | case2 pointed x cs hx ih =>
    have hplain : IsPlain x := by
      rw [hx.1]
      decide
    rw [squeeze_cons_plain hplain, numberBody, if_pos hx, ih]
  | case3 pointed x cs hx hd ih =>
    rw [squeeze_cons_plain (isPlain_of_isDigit hd), numberBody, if_neg hx, if_pos hd, ih]
  | case4 pointed x cs hx hd =>
    obtain ⟨rest, hrest⟩ := exists_squeeze_cons x cs
    have hpoint : ¬ (spaced x = '.' ∧ pointed = false) := by rwa [spaced_eq_iff (by decide)]
    rw [hrest, numberBody, if_neg hpoint, if_neg]
    rwa [test_spaced fun _ => isPlain_of_isDigit]

theorem squeezeWithin_close (quote : Char) (cs : List Char) :
    squeezeWithin (some quote) (quote :: cs) = quote :: squeeze cs := by
  rw [squeezeWithin, if_pos rfl]

/-- A quoted text is left as it is, and after it the squeezed rest follows. -/
theorem quotedBody_squeezeWithin {quote : Char} (hq : isQuote quote = true) (cs : List Char) :
    quotedBody quote (squeezeWithin (some quote) cs) = quotedBody quote cs ∧
      ∀ body size, quotedBody quote cs = some (body, size) →
        (squeezeWithin (some quote) cs).drop size = squeeze (cs.drop size) := by
  induction cs using quotedBody.induct quote with
  | case1 => simp [squeezeWithin, quotedBody]
  | case2 c h =>
    refine ⟨by simp [squeezeWithin], fun body size hbody => ?_⟩
    rw [quotedBody, if_pos h] at hbody
    cases hbody
    simp [squeezeWithin]
  | case3 c h =>
    refine ⟨by simp [squeezeWithin], fun body size hbody => ?_⟩
    rw [quotedBody, if_neg h] at hbody
    cases hbody
  | case4 cs ih =>
    -- The doubled quote closes the quoted text and opens it again.
    have hdouble : squeezeWithin (some quote) (quote :: quote :: cs) =
        quote :: quote :: squeezeWithin (some quote) cs := by
      rw [squeezeWithin_close, squeeze_cons_quote hq]
    rw [hdouble, quotedBody, if_pos rfl, if_pos rfl, quotedBody, if_pos rfl, if_pos rfl, ih.1]
    refine ⟨rfl, fun body size hbody => ?_⟩
    obtain ⟨⟨body', size'⟩, hbody', heq⟩ := Option.map_eq_some_iff.1 hbody
    cases heq
    exact ih.2 body' size' hbody'
  | case5 d cs h =>
    obtain ⟨rest, hrest⟩ := exists_squeeze_cons d cs
    have hne : spaced d ≠ quote := by rwa [Ne, spaced_eq_iff (isBlank_of_isQuote hq)]
    have hclose : squeezeWithin (some quote) (quote :: d :: cs) = quote :: spaced d :: rest := by
      rw [squeezeWithin_close, hrest]
    rw [hclose, quotedBody, if_pos rfl, if_neg hne, quotedBody, if_pos rfl, if_neg h]
    refine ⟨rfl, fun body size hbody => ?_⟩
    cases hbody
    exact hrest.symm
  | case6 c d cs h ih =>
    have hnext : squeezeWithin (some quote) (c :: d :: cs) =
        c :: squeezeWithin (some quote) (d :: cs) := by
      rw [squeezeWithin, if_neg h]
    have hcons : ∃ rest, squeezeWithin (some quote) (d :: cs) = d :: rest := ⟨_, rfl⟩
    obtain ⟨rest, hrest⟩ := hcons
    rw [hnext, hrest, quotedBody, if_neg h, ← hrest, ih.1, quotedBody, if_neg h]
    refine ⟨rfl, fun body size hbody => ?_⟩
    obtain ⟨⟨body', size'⟩, hbody', heq⟩ := Option.map_eq_some_iff.1 hbody
    cases heq
    exact ih.2 body' size' hbody'

end DocQuery.Syntax
