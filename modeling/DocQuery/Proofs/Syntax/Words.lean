import DocQuery.Proofs.Syntax.Reading
import DocQuery.Syntax.Name

/-!
# Keywords in a text

Whether a keyword comes next depends on the text after the cursor only (`startsWith`). A text that
starts with characters that are no delimiters, up to a delimiter or the end, starts with the keyword
that these characters spell in any case and with no other (`startsWith_append_iff`). The characters
of names are no delimiters, so a name that is not reserved is never taken for a keyword.
-/

namespace DocQuery.Syntax

/-! ## Delimiters -/

/-- ASCII letters are no delimiters. -/
theorem not_letter_of_isDelimiter {ch : Char} (h : isDelimiter ch = true) :
    ch.toNat < 0x41 ∨ 0x7a < ch.toNat := by
  rw [isDelimiter, Bool.or_eq_true, List.contains_iff_mem] at h
  rcases h with h | h
  · left
    simp only [List.mem_cons, List.not_mem_nil, or_false] at h
    rcases h with rfl | rfl | rfl | rfl | rfl | rfl | rfl | rfl | rfl | rfl <;> decide
  · obtain ⟨span, hm, hl, hu⟩ := Text.Spans.contains_iff.1 h
    simp only [Text.blankSpans, List.mem_cons, List.not_mem_nil, or_false] at hm
    rcases hm with rfl | rfl | rfl | rfl | rfl | rfl | rfl | rfl | rfl | rfl <;>
      simp only at hl hu <;> omega

theorem toNat_of_isUpper {ch : Char} (h : ch.isUpper = true) : 65 ≤ ch.toNat ∧ ch.toNat ≤ 90 := by
  obtain ⟨hl, hu⟩ := of_decide_eq_true h
  exact ⟨hl, hu⟩

theorem isDelimiter_of_isUpper {ch : Char} (h : ch.isUpper = true) : isDelimiter ch = false := by
  rw [Bool.eq_false_iff]
  intro hd
  have hc := not_letter_of_isDelimiter hd
  have hn := toNat_of_isUpper h
  omega

theorem asciiUpper_of_isUpper {ch : Char} (h : ch.isUpper = true) : Text.asciiUpper ch = ch := by
  have hn := toNat_of_isUpper h
  rw [Text.asciiUpper, if_neg (by omega)]

theorem asciiUpper_of_isDelimiter {ch : Char} (h : isDelimiter ch = true) :
    Text.asciiUpper ch = ch := by
  have hc := not_letter_of_isDelimiter h
  rw [Text.asciiUpper, if_neg (by omega)]

theorem letterSpans_blankSpans_disjoint : ∀ s ∈ Text.letterSpans, ∀ b ∈ Text.blankSpans,
    0x80 ≤ s.1 ∧ (s.2 < b.1 ∨ b.2 < s.1) := by
  decide +kernel

theorem numeralSpans_blankSpans_disjoint : ∀ s ∈ Text.numeralSpans, ∀ b ∈ Text.blankSpans,
    0x80 ≤ s.1 ∧ (s.2 < b.1 ∨ b.2 < s.1) := by
  decide +kernel

/-- A character in a table that is apart from that of the blank characters is no delimiter. -/
theorem isDelimiter_of_contains {spans : Text.Spans} {ch : Char}
    (hd : ∀ s ∈ spans, ∀ b ∈ Text.blankSpans, 0x80 ≤ s.1 ∧ (s.2 < b.1 ∨ b.2 < s.1))
    (h : spans.contains ch.toNat = true) : isDelimiter ch = false := by
  obtain ⟨s, hs, hl, hu⟩ := Text.Spans.contains_iff.1 h
  have hlow : 0x80 ≤ ch.toNat := Nat.le_trans (hd s hs (0x9, 0xd) (by decide)).1 hl
  rw [isDelimiter, Bool.or_eq_false_iff]
  constructor
  · rw [← Bool.not_eq_true, List.contains_iff_mem]
    intro hm
    simp only [List.mem_cons, List.not_mem_nil, or_false] at hm
    rcases hm with rfl | rfl | rfl | rfl | rfl | rfl | rfl | rfl | rfl | rfl <;>
      exact absurd hlow (by decide)
  · rw [Text.isBlank, ← Bool.not_eq_true, Text.Spans.contains_iff]
    rintro ⟨b, hb, hbl, hbu⟩
    have hapart := (hd s hs b hb).2
    omega

theorem isDelimiter_of_ascii {ch : Char} (h : ch.toNat < 0x80)
    (ha : (ch.isAlpha || ch.isDigit) = true) : isDelimiter ch = false := by
  have hall : ∀ n : Fin 0x80, ((Char.ofNat n).isAlpha || (Char.ofNat n).isDigit) = true →
      isDelimiter (Char.ofNat n) = false := by decide +kernel
  have hch := hall ⟨ch.toNat, h⟩
  simp only [Char.ofNat_toNat] at hch
  exact hch ha

/-- The characters of names are no delimiters. -/
theorem isDelimiter_of_isNameChar {ch : Char} (h : isNameChar ch = true) :
    isDelimiter ch = false := by
  simp only [isNameChar, Bool.or_eq_true, decide_eq_true_eq] at h
  by_cases ha : ch.toNat < 0x80
  · rw [Text.isLetter_of_ascii ha, Text.isNumeral_of_ascii ha] at h
    rcases h with ((h | h) | rfl) | rfl
    · exact isDelimiter_of_ascii ha (by rw [h, Bool.true_or])
    · exact isDelimiter_of_ascii ha (by rw [h, Bool.or_true])
    · decide
    · decide
  · simp only [Text.isLetter, Text.isNumeral, if_neg ha] at h
    rcases h with ((h | h) | rfl) | rfl
    · exact isDelimiter_of_contains letterSpans_blankSpans_disjoint h
    · exact isDelimiter_of_contains numeralSpans_blankSpans_disjoint h
    · decide
    · decide

/-! ## Keywords -/

/-- Whether a text starts with a keyword. -/
def startsWith (word : String) (cs : List Char) : Bool :=
  Word.spelledAt word.toList cs &&
    ((cs.drop word.length).isEmpty ||
      isDelimiter ((cs.drop word.length).head?.getD Cursor.endMark))

theorem isAt_keyword (word : String) (c : Cursor) :
    (Word.keyword word).isAt c = startsWith word c.rest := by
  unfold Word.isAt startsWith Word.keyword Word.reachesEnd Cursor.peek
  dsimp only
  rw [String.length_toList, List.head?_drop]
  cases (c.rest.drop word.length).isEmpty <;> simp

/-- Whether a word is made of upper case letters. -/
def IsUpperWord (word : String) : Prop := ∀ ch ∈ word.toList, ch.isUpper = true

instance (word : String) : Decidable (IsUpperWord word) := List.decidableBAll _ word.toList

theorem isUpperWord_of_mem : ∀ word ∈ reservedWords, IsUpperWord word := by decide

/-- A text that is empty or starts with a delimiter. -/
def Delimited (rest : List Char) : Prop := ∀ ch ∈ rest.head?, isDelimiter ch = true

theorem delimited_cons {ch : Char} (h : isDelimiter ch = true) (cs : List Char) :
    Delimited (ch :: cs) := by
  rintro _ ⟨⟩
  exact h

theorem spelledAt_cons_cons (l ch : Char) (letters cs : List Char) :
    Word.spelledAt (l :: letters) (ch :: cs) =
      (decide (Text.asciiUpper ch = l) && Word.spelledAt letters cs) := rfl

/-- Letters are spelled at the start of a text up to its first delimiter, and end there, exactly when
they are what stands before that delimiter. -/
theorem spelledAt_append_iff {letters name rest : List Char}
    (hl : ∀ ch ∈ letters, ch.isUpper = true) (hn : ∀ ch ∈ name, isDelimiter ch = false)
    (hr : Delimited rest) :
    (Word.spelledAt letters (name ++ rest) &&
        (((name ++ rest).drop letters.length).isEmpty ||
          isDelimiter (((name ++ rest).drop letters.length).head?.getD Cursor.endMark))) = true ↔
      name.map Text.asciiUpper = letters := by
  induction letters generalizing name with
  | nil =>
    cases name with
    | nil =>
      cases rest with
      | nil => simp [Word.spelledAt]
      | cons ch cs => simp [Word.spelledAt, hr ch rfl]
    | cons ch cs => simp [Word.spelledAt, hn ch List.mem_cons_self]
  | cons l letters ih =>
    have hupper : l.isUpper = true := hl l List.mem_cons_self
    cases name with
    | nil =>
      -- The first letter would have to be a delimiter or the end mark.
      have hne : Text.asciiUpper (rest.head?.getD Cursor.endMark) ≠ l := by
        rintro rfl
        cases rest with
        | nil => exact absurd hupper (by decide)
        | cons ch cs =>
          have hd := hr ch rfl
          simp only [List.head?_cons, Option.getD_some] at hupper
          rw [asciiUpper_of_isDelimiter hd] at hupper
          rw [isDelimiter_of_isUpper hupper] at hd
          cases hd
      simp [Word.spelledAt, hne]
    | cons ch cs =>
      have ih' := ih (fun x hx => hl x (List.mem_cons_of_mem _ hx))
        (fun x hx => hn x (List.mem_cons_of_mem _ hx))
      rw [List.cons_append, spelledAt_cons_cons, List.length_cons, List.drop_succ_cons,
        List.map_cons, List.cons.injEq, Bool.and_assoc, Bool.and_eq_true, decide_eq_true_eq, ih']

/-- **A keyword is read off the characters before the first delimiter.** -/
theorem startsWith_append_iff {word : String} {name rest : List Char} (hw : IsUpperWord word)
    (hn : ∀ ch ∈ name, isDelimiter ch = false) (hr : Delimited rest) :
    startsWith word (name ++ rest) = true ↔ name.map Text.asciiUpper = word.toList := by
  have h := spelledAt_append_iff hw hn hr
  rw [String.length_toList] at h
  exact h

theorem map_asciiUpper_of_isUpperWord {word : String} (h : IsUpperWord word) :
    word.toList.map Text.asciiUpper = word.toList := by
  rw [List.map_congr_left fun ch hm => asciiUpper_of_isUpper (h ch hm)]
  exact List.map_id _

theorem startsWith_word_iff {word other : String} {rest : List Char} (hw : IsUpperWord word)
    (ho : IsUpperWord other) (hr : Delimited rest) :
    startsWith word (other.toList ++ rest) = true ↔ other = word := by
  rw [startsWith_append_iff hw (fun ch hm => isDelimiter_of_isUpper (ho ch hm)) hr,
    map_asciiUpper_of_isUpperWord ho]
  exact ⟨String.toList_injective, congrArg _⟩

/-- A text that starts with a delimiter starts with no keyword. -/
theorem startsWith_of_delimited {word : String} {rest : List Char} (hw : IsUpperWord word)
    (hne : word ≠ "") (hr : Delimited rest) : startsWith word rest = false := by
  rw [← Bool.not_eq_true]
  intro h
  have h' : List.map Text.asciiUpper [] = word.toList :=
    (startsWith_append_iff hw (by simp) hr).1 h
  exact hne (String.toList_injective h'.symm)

/-- A text that starts with a keyword starts with no blank. -/
theorem trimStart_of_startsWith {word : String} {cs : List Char} (hw : IsUpperWord word)
    (hne : word ≠ "") (h : startsWith word cs = true) : trimStart cs = cs := by
  cases cs with
  | nil => rfl
  | cons ch cs =>
    refine trimStart_cons ?_ cs
    rw [← Bool.not_eq_true]
    intro hblank
    have hd : isDelimiter ch = true := by rw [isDelimiter, hblank, Bool.or_true]
    rw [startsWith_of_delimited hw hne (delimited_cons hd cs)] at h
    cases h

/-- A text that starts with a keyword starts with its first letter. -/
theorem asciiUpper_of_startsWith {word : String} {letter : Char} {letters cs : List Char}
    (hl : word.toList = letter :: letters) (h : startsWith word cs = true) :
    Text.asciiUpper (cs.head?.getD Cursor.endMark) = letter := by
  rw [startsWith, hl, Bool.and_eq_true] at h
  exact of_decide_eq_true (Bool.and_eq_true _ _ ▸ h.1).1

theorem asciiLower_asciiUpper (ch : Char) :
    Text.asciiLower (Text.asciiUpper ch) = Text.asciiLower ch := by
  by_cases ha : ch.toNat < 0x80
  · have hall : ∀ n : Fin 0x80, Text.asciiLower (Text.asciiUpper (Char.ofNat n)) =
        Text.asciiLower (Char.ofNat n) := by decide +kernel
    have hch := hall ⟨ch.toNat, ha⟩
    simp only [Char.ofNat_toNat] at hch
    exact hch
  · rw [Text.asciiUpper, if_neg (by omega)]

/-- A name that spells a keyword is reserved. -/
theorem isReserved_of_map_asciiUpper {word : String} (hw : word ∈ reservedWords) {name : List Char}
    (h : name.map Text.asciiUpper = word.toList) : isReserved (String.ofList name) = true := by
  refine List.any_eq_true.2 ⟨word, hw, ?_⟩
  rw [Text.sameIgnoringCase, beq_iff_eq, ← h, List.map_map, String.toList_ofList]
  exact List.map_congr_left fun ch _ => asciiLower_asciiUpper ch

namespace Reader

theorem reads_consumeWord {word : String} {rest : List Char} (hw : IsUpperWord word)
    (hr : Delimited rest) :
    Reads (consumeWord word) (word.toList ++ rest) true (trimStart rest) := by
  intro c hc
  have hat : (Word.keyword word).isAt c = true := by
    rw [isAt_keyword, hc, startsWith_word_iff hw hw hr]
  refine ⟨(c.jump word.length).skipBlank, if_pos hat, ?_⟩
  rw [Cursor.rest_skipBlank, Cursor.rest_jump, hc, ← String.length_toList, List.drop_left]

theorem reads_consumeWord_of_not {word : String} {input : List Char}
    (h : startsWith word input = false) : Reads (consumeWord word) input false input := by
  intro c hc
  have hat : (Word.keyword word).isAt c = false := by rw [isAt_keyword, hc, h]
  exact ⟨c, if_neg (by rw [hat]; exact Bool.false_ne_true), hc⟩

theorem reads_isWord (word : String) (input : List Char) :
    Reads (isWord word) input (startsWith word input) input := by
  intro c hc
  refine ⟨c, ?_, hc⟩
  rw [isWord, isAt_keyword, hc]

theorem reads_expectWord {word : String} (reason : String) {rest : List Char}
    (hw : IsUpperWord word) (hr : Delimited rest) :
    Reads (expectWord word reason) (word.toList ++ rest) () (trimStart rest) :=
  (reads_consumeWord hw hr).bind (reads_pure () _)

/-- The two outcomes of a look for a keyword. -/
theorem consumeWord_eq_ok {word : String} {c c' : Cursor} {found : Bool}
    (h : consumeWord word c = .ok (found, c')) :
    found = startsWith word c.rest ∧
      c' = if found then (c.jump word.length).skipBlank else c := by
  unfold consumeWord at h
  rw [isAt_keyword] at h
  split at h
  · next hc =>
    cases h
    exact ⟨hc.symm, rfl⟩
  · next hc =>
    cases h
    exact ⟨(Bool.not_eq_true _ ▸ hc).symm, rfl⟩

theorem expectWord_eq_ok {word reason : String} {c c' : Cursor}
    (h : expectWord word reason c = .ok ((), c')) :
    startsWith word c.rest = true ∧ c' = (c.jump word.length).skipBlank := by
  rw [expectWord] at h
  obtain ⟨found, c₁, hf, hr⟩ := run_bind_eq_ok.1 h
  obtain ⟨hw, rfl⟩ := consumeWord_eq_ok hf
  cases found with
  | true => exact ⟨hw.symm, (run_pure_eq_ok.1 hr).2.symm⟩
  | false => cases hr

end Reader

end DocQuery.Syntax
