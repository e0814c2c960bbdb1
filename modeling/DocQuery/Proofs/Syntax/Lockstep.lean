import DocQuery.Proofs.Syntax.Squeeze

/-!
# Reading a squeezed text

A text and the squeezed text are read in step: the two cursors stand at different positions, but what
is left after the one is what is left after the other, squeezed (`Squeezed`). Two readers are
`InStep` if on such cursors both refuse, or both read the same and stop at such cursors. Chains of
readers are in step if their steps are (`InStep.bind`), and what follows a token that takes characters
has less of both texts to read (`InStep.bind_consuming`). So loops are in step although they are
bounded by the lengths of two different texts (`inStep_loop`).
-/

namespace DocQuery.Syntax

/-- What is left after the second cursor is what is left after the first, squeezed. -/
def Squeezed (c c' : Cursor) : Prop := c'.rest = squeeze c.rest

namespace Squeezed

variable {c c' : Cursor}

theorem rest_eq_nil_iff (h : Squeezed c c') : c'.rest = [] ↔ c.rest = [] := by
  rw [h, squeeze_eq_nil_iff]

theorem current_eq (h : Squeezed c c') : c'.current = spaced c.current := by
  rw [Cursor.current_eq, Cursor.current_eq, h, head?_squeeze]
  cases c.rest.head? with
  | none => exact spaced_endMark.symm
  | some ch => rfl

theorem current_eq_iff (h : Squeezed c c') {ch : Char} (hb : Text.isBlank ch = false) :
    c'.current = ch ↔ c.current = ch := by
  rw [h.current_eq, spaced_eq_iff hb]

theorem test_current (h : Squeezed c c') {p : Char → Bool} (hp : ∀ ch, p ch = true → IsPlain ch) :
    p c'.current = p c.current := by
  rw [h.current_eq, test_spaced hp]

/-- After a character that is neither blank nor a quote, the next characters correspond too. -/
theorem peek_one (h : Squeezed c c') (hc : IsPlain c.current) : c'.peek 1 = spaced (c.peek 1) := by
  unfold Cursor.peek
  rw [h]
  cases hr : c.rest with
  | nil => exact spaced_endMark.symm
  | cons ch cs =>
    rw [Cursor.current_of_rest hr] at hc
    rw [squeeze_cons_plain hc, List.getElem?_cons_succ, List.getElem?_cons_succ,
      ← List.head?_eq_getElem?, ← List.head?_eq_getElem?, head?_squeeze]
    cases cs.head? with
    | none => exact spaced_endMark.symm
    | some ch => rfl

theorem skipBlank (h : Squeezed c c') : Squeezed c.skipBlank c'.skipBlank := by
  unfold Squeezed
  rw [Cursor.rest_skipBlank, Cursor.rest_skipBlank, h, trimStart_squeeze]

/-- Both cursors move over characters that are neither blanks nor quotes. -/
theorem advance (h : Squeezed c c') {part : List Char} (hp : part <+: c.rest)
    (hplain : ∀ ch ∈ part, IsPlain ch) : Squeezed (c.advance part.length) (c'.advance part.length) := by
  unfold Squeezed
  rw [Cursor.rest_advance, Cursor.rest_advance, h, drop_squeeze hp hplain]

theorem advance_one (h : Squeezed c c') (hplain : IsPlain c.current) :
    Squeezed (c.advance 1) (c'.advance 1) := by
  cases hr : c.rest with
  | nil =>
    unfold Squeezed
    rw [Cursor.rest_advance, Cursor.rest_advance, h, hr]
    rfl
  | cons ch cs =>
    rw [Cursor.current_of_rest hr] at hplain
    have hp : [ch] <+: c.rest := ⟨cs, hr.symm⟩
    refine h.advance hp fun x hx => ?_
    rwa [List.mem_singleton.1 hx]

theorem advance_two (h : Squeezed c c') (hx : IsPlain c.current) (hy : IsPlain (c.peek 1)) :
    Squeezed (c.advance 2) (c'.advance 2) := by
  have hnext : (c.advance 1).current = c.peek 1 := by simp [Cursor.current, Cursor.peek]
  have htwo : Squeezed ((c.advance 1).advance 1) ((c'.advance 1).advance 1) :=
    (h.advance_one hx).advance_one (hnext ▸ hy)
  unfold Squeezed at htwo ⊢
  simpa only [Cursor.rest_advance, List.drop_drop] using htwo

end Squeezed

/-! ## Readers in step -/

namespace Reader

variable {α β : Type}

theorem run_bind (r : Reader α) (f : α → Reader β) (c : Cursor) :
    (r >>= f) c = r c >>= fun p => f p.1 p.2 := rfl

/-- The outcomes of two readers at two cursors: both refuse, or both read the same and no cursor
moves back. -/
inductive InStepAt (c c' : Cursor) :
    Except SyntaxError (α × Cursor) → Except SyntaxError (α × Cursor) → Prop where
  /-- Both refuse. -/
  | refused (e e' : SyntaxError) : InStepAt c c' (.error e) (.error e')
  /-- Both read the same. -/
  | read (a : α) {d d' : Cursor} (h : Squeezed d d') (hle : d.rest.length ≤ c.rest.length)
    (hle' : d'.rest.length ≤ c'.rest.length) : InStepAt c c' (.ok (a, d)) (.ok (a, d'))

/-- Two readers are in step on texts up to given lengths. -/
def InStep (n m : Nat) (r r' : Reader α) : Prop :=
  ∀ c c' : Cursor, Squeezed c c' → c.rest.length ≤ n → c'.rest.length ≤ m →
    InStepAt c c' (r c) (r' c')

theorem InStepAt.bind {c c' : Cursor} {r r' : Reader α} {f f' : α → Reader β}
    (h : InStepAt c c' (r c) (r' c'))
    (hf : ∀ a d d', r c = .ok (a, d) → r' c' = .ok (a, d') → Squeezed d d' →
      d.rest.length ≤ c.rest.length → d'.rest.length ≤ c'.rest.length →
      InStepAt c c' (f a d) (f' a d')) :
    InStepAt c c' ((r >>= f) c) ((r' >>= f') c') := by
  rw [run_bind, run_bind]
  cases hr : r c with
  | error e =>
    cases hr' : r' c' with
    | error e' => exact .refused e e'
    | ok p =>
      rw [hr, hr'] at h
      cases h
  | ok p =>
    cases hr' : r' c' with
    | error e' =>
      rw [hr, hr'] at h
      cases h
    | ok p' =>
      rw [hr, hr'] at h
      cases h with
      | read a h hle hle' => exact hf a _ _ hr hr' h hle hle'

theorem InStepAt.mono {c c' d d' : Cursor} {x x' : Except SyntaxError (α × Cursor)}
    (h : InStepAt d d' x x') (hle : d.rest.length ≤ c.rest.length)
    (hle' : d'.rest.length ≤ c'.rest.length) : InStepAt c c' x x' := by
  cases h with
  | refused e e' => exact .refused e e'
  | read a h hd hd' => exact .read a h (Nat.le_trans hd hle) (Nat.le_trans hd' hle')

namespace InStep

variable {n m : Nat} {r r' : Reader α} {f f' : α → Reader β}

theorem mono (h : InStep n m r r') {n' m' : Nat} (hn : n' ≤ n) (hm : m' ≤ m) :
    InStep n' m' r r' :=
  fun c c' hc hle hle' => h c c' hc (Nat.le_trans hle hn) (Nat.le_trans hle' hm)

theorem bind (h : InStep n m r r') (hf : ∀ a, InStep n m (f a) (f' a)) :
    InStep n m (r >>= f) (r' >>= f') := by
  intro c c' hc hle hle'
  refine (h c c' hc hle hle').bind fun a d d' _ _ hd hdle hdle' => ?_
  exact (hf a d d' hd (Nat.le_trans hdle hle) (Nat.le_trans hdle' hle')).mono hdle hdle'

theorem ite {p p' : Prop} [Decidable p] [Decidable p'] {q q' : Reader α} (hp : p ↔ p')
    (h : InStep n m r r') (h' : InStep n m q q') :
    InStep n m (if p then r else q) (if p' then r' else q') := by
  by_cases hc : p
  · rwa [if_pos hc, if_pos (hp.1 hc)]
  · rwa [if_neg hc, if_neg fun h => hc (hp.2 h)]

end InStep

/-- A reader that takes at least one character when it reads something of a kind. -/
def Consumes (p : α → Prop) (r : Reader α) : Prop :=
  ∀ {c d : Cursor} {a : α}, r c = .ok (a, d) → p a → d.rest.length < c.rest.length

/-- What follows a reader that takes a character has less of the text to read. -/
theorem InStep.bind_consuming {n m : Nat} {r r' : Reader α} {f f' : α → Reader β} {p : α → Prop}
    (h : InStep (n + 1) (m + 1) r r') (hr : Consumes p r) (hr' : Consumes p r')
    (hyes : ∀ a, p a → InStep n m (f a) (f' a))
    (hno : ∀ a, ¬ p a → InStep (n + 1) (m + 1) (f a) (f' a)) :
    InStep (n + 1) (m + 1) (r >>= f) (r' >>= f') := by
  intro c c' hc hle hle'
  refine (h c c' hc hle hle').bind fun a d d' hd hd' hs hdle hdle' => ?_
  refine InStepAt.mono ?_ hdle hdle'
  by_cases ha : p a
  · have hlt := hr hd ha
    have hlt' := hr' hd' ha
    exact hyes a ha d d' hs (by omega) (by omega)
  · exact hno a ha d d' hs (Nat.le_trans hdle hle) (Nat.le_trans hdle' hle')

section

variable {n m : Nat}

theorem inStep_pure (a : α) : InStep n m (pure a : Reader α) (pure a) :=
  fun _ _ h _ _ => .read a h (Nat.le_refl _) (Nat.le_refl _)

theorem inStep_fail (reason : String) (pivot pivot' : Nat) :
    InStep n m (fail reason pivot : Reader α) (fail reason pivot') :=
  fun _ _ _ _ _ => .refused _ _

theorem inStep_position {f f' : Nat → Reader β} (h : ∀ pos pos', InStep n m (f pos) (f' pos')) :
    InStep n m (position >>= f) (position >>= f') :=
  fun c c' hc hle hle' => h c.pos c'.pos c c' hc hle hle'

theorem inStep_get {f f' : Cursor → Reader β}
    (h : ∀ c c', Squeezed c c' → InStep n m (f c) (f' c')) :
    InStep n m (get >>= f) (get >>= f') :=
  fun c c' hc hle hle' => h c c' hc c c' hc hle hle'

theorem inStep_skipBlank : InStep n m skipBlank skipBlank := by
  intro c c' hc _ _
  refine .read () hc.skipBlank ?_ ?_ <;>
  · rw [Cursor.rest_skipBlank]
    exact length_trimStart_le _

/-! ## Tokens -/

theorem length_skipBlank_le (c : Cursor) : c.skipBlank.rest.length ≤ c.rest.length := by
  rw [Cursor.rest_skipBlank]
  exact length_trimStart_le _

theorem length_advance_le (c : Cursor) (count : Nat) :
    (c.advance count).rest.length ≤ c.rest.length := by
  rw [Cursor.rest_advance, List.length_drop]
  exact Nat.sub_le _ _

theorem inStep_consumeChar {ch : Char} (h : IsPlain ch) :
    InStep n m (consumeChar ch) (consumeChar ch) := by
  intro c c' hc _ _
  unfold consumeChar
  by_cases hch : c.current = ch
  · rw [if_pos hch, if_pos ((hc.current_eq_iff h.2).2 hch)]
    refine .read true (hc.advance_one (hch ▸ h)).skipBlank ?_ ?_ <;>
      exact Nat.le_trans (length_skipBlank_le _) (length_advance_le _ _)
  · rw [if_neg hch, if_neg fun hch' => hch ((hc.current_eq_iff h.2).1 hch')]
    exact .read false hc (Nat.le_refl _) (Nat.le_refl _)

theorem inStep_expectChar {ch : Char} (h : IsPlain ch) (reason : String) :
    InStep n m (expectChar ch reason) (expectChar ch reason) := by
  refine (inStep_consumeChar h).bind fun found => ?_
  cases found with
  | true => exact inStep_pure ()
  | false => exact inStep_position fun pos pos' => inStep_fail reason pos pos'

theorem inStep_isWord {word : String} (hw : IsUpperWord word) :
    InStep n m (isWord word) (isWord word) := by
  intro c c' hc _ _
  unfold isWord
  rw [isAt_keyword, isAt_keyword, hc, startsWith_squeeze hw]
  exact .read _ hc (Nat.le_refl _) (Nat.le_refl _)

theorem inStep_consumeWord {word : String} (hw : IsUpperWord word) :
    InStep n m (consumeWord word) (consumeWord word) := by
  intro c c' hc _ _
  unfold consumeWord
  rw [isAt_keyword, isAt_keyword, hc, startsWith_squeeze hw]
  split
  · next h =>
    have hjump : Squeezed (c.jump word.length) (c'.jump word.length) := by
      unfold Squeezed
      rw [Cursor.rest_jump, Cursor.rest_jump, hc, drop_squeeze_of_startsWith hw h]
    refine .read true hjump.skipBlank ?_ ?_ <;>
    · refine Nat.le_trans (length_skipBlank_le _) ?_
      rw [Cursor.rest_jump, List.length_drop]
      exact Nat.sub_le _ _
  · exact .read false hc (Nat.le_refl _) (Nat.le_refl _)

theorem inStep_expectWord {word : String} (hw : IsUpperWord word) (reason : String) :
    InStep n m (expectWord word reason) (expectWord word reason) := by
  refine (inStep_consumeWord hw).bind fun found => ?_
  cases found with
  | true => exact inStep_pure ()
  | false => exact inStep_position fun pos pos' => inStep_fail reason pos pos'

theorem inStep_name : InStep n m name name := by
  intro c c' hc _ _
  unfold name
  have hstart : isNameStart c'.current = isNameStart c.current :=
    hc.test_current fun ch h => isPlain_of_isNameChar (isNameChar_of_isNameStart h)
  have hletters : c'.rest.takeWhile isNameChar = c.rest.takeWhile isNameChar := by
    rw [hc, takeWhile_squeeze fun ch => isPlain_of_isNameChar]
  rw [hstart]
  split
  · rw [hletters]
    have hfront : c.rest.takeWhile isNameChar <+: c.rest := List.takeWhile_prefix _
    refine .read _ (hc.advance hfront fun ch hm => ?_) (length_advance_le _ _) (length_advance_le _ _)
    exact isPlain_of_isNameChar (List.all_eq_true.1 List.all_takeWhile ch hm)
  · exact .refused _ _

/-- Quoted texts are read in step where they start. -/
theorem inStepAt_quoted {c c' : Cursor} (hc : Squeezed c c') (hq : isQuote c.current = true) :
    InStepAt c c' (quoted c) (quoted c') := by
  obtain ⟨cs, hr⟩ := Cursor.exists_rest_of_current (c := c) rfl (by
    intro hend
    rw [hend] at hq
    exact absurd hq (by decide))
  have hr' : c'.rest = c.current :: squeezeWithin (some c.current) cs := by
    rw [hc, hr, squeeze_cons_quote hq]
  obtain ⟨hbody, hdrop⟩ := quotedBody_squeezeWithin hq cs
  unfold quoted
  rw [Cursor.current_of_rest hr', hr', hr, List.drop_succ_cons, List.drop_zero, List.drop_succ_cons,
    List.drop_zero, hbody]
  split
  · next body size h =>
    refine .read _ ?_ (length_advance_le _ _) (length_advance_le _ _)
    unfold Squeezed
    rw [Cursor.rest_advance, Cursor.rest_advance, hr, hr', List.drop_succ_cons,
      List.drop_succ_cons, hdrop body size h]
  · exact .refused _ _

theorem inStep_number : InStep n m number number := by
  intro c c' hc _ _
  have hsign : (if c'.current = '-' then c'.rest.take 1 else []) =
      if c.current = '-' then c.rest.take 1 else [] := by
    by_cases hm : c.current = '-'
    · obtain ⟨cs, hr⟩ := Cursor.exists_rest_of_current hm (by decide)
      rw [if_pos hm, if_pos ((hc.current_eq_iff (by decide)).2 hm), hc, hr,
        squeeze_cons_plain (by decide), List.take_succ_cons, List.take_succ_cons, List.take_zero,
        List.take_zero]
    · rw [if_neg hm, if_neg fun hm' => hm ((hc.current_eq_iff (by decide)).1 hm')]
  obtain ⟨sign, hs, hprefix, hplain⟩ : ∃ sign, (if c.current = '-' then c.rest.take 1 else []) = sign ∧
      sign <+: c.rest ∧ ∀ ch ∈ sign, IsPlain ch := by
    by_cases hm : c.current = '-'
    · obtain ⟨cs, hr⟩ := Cursor.exists_rest_of_current hm (by decide)
      refine ⟨['-'], by rw [if_pos hm, hr]; rfl, ⟨cs, hr.symm⟩, fun ch hch => ?_⟩
      rw [List.mem_singleton.1 hch]
      decide
    · exact ⟨[], if_neg hm, List.nil_prefix, fun ch hch => absurd hch List.not_mem_nil⟩
  have hbody : numberBody false (c'.rest.drop sign.length) =
      numberBody false (c.rest.drop sign.length) := by
    rw [hc, drop_squeeze hprefix hplain, numberBody_squeeze]
  unfold number
  dsimp only
  rw [hsign, hs, hbody, ← List.length_append]
  split
  · refine .read _ (hc.advance ?_ fun ch hch => ?_) (length_advance_le _ _) (length_advance_le _ _)
    · obtain ⟨rest, hrest⟩ := hprefix
      rw [← hrest, List.drop_left]
      exact (List.prefix_append_right_inj _).2 (isPrefix_numberBody _ _)
    · rcases List.mem_append.1 hch with hch | hch
      · exact hplain ch hch
      · exact isPlain_of_mem_numberBody hch
  · exact .refused _ _

theorem ofSign?_eq_some {x y : Char} {op : Comparison} {size : Nat}
    (h : Comparison.ofSign? x y = some (op, size)) :
    IsPlain x ∧ (size = 1 ∨ size = 2 ∧ IsPlain y) := by
  unfold Comparison.ofSign? at h
  split at h <;> cases h
  case h_1 | h_2 | h_3 | h_4 => exact ⟨by decide, .inr ⟨rfl, by decide⟩⟩
  case h_5 | h_6 | h_7 => exact ⟨by decide, .inl rfl⟩

/-- A blank is no second character of a sign. -/
theorem ofSign?_spaced (x y : Char) : Comparison.ofSign? x (spaced y) = Comparison.ofSign? x y := by
  cases hb : Text.isBlank y with
  | false => rw [spaced_of_not_isBlank hb]
  | true =>
    have hgreater : y ≠ '>' := by
      rintro rfl
      exact absurd hb (by decide)
    have hequal : y ≠ '=' := by
      rintro rfl
      exact absurd hb (by decide)
    rw [spaced_of_isBlank hb]
    unfold Comparison.ofSign?
    split
    case h_8 => split <;> simp_all
    all_goals simp_all

theorem startsNumber_squeezed {c c' : Cursor} (hc : Squeezed c c') :
    startsNumber c' = startsNumber c := by
  have hdigit : ∀ ch, Number.isDigit ch = true → IsPlain ch := fun _ => isPlain_of_isDigit
  have hminus : c'.current = '-' ↔ c.current = '-' := hc.current_eq_iff (by decide)
  have hpoint : c'.current = '.' ↔ c.current = '.' := hc.current_eq_iff (by decide)
  have hnext : (c.current = '-' ∨ c.current = '.') →
      Number.isDigit (c'.peek 1) = Number.isDigit (c.peek 1) := by
    intro hsign
    have hplain : IsPlain c.current := by
      rcases hsign with h | h <;>
      · rw [h]
        decide
    rw [hc.peek_one hplain, test_spaced hdigit]
  unfold startsNumber
  rw [hc.test_current hdigit]
  simp only [hminus, hpoint]
  by_cases hsign : c.current = '-' ∨ c.current = '.'
  · rw [hnext hsign]
  · rw [not_or] at hsign
    simp [hsign]

theorem inStep_comparison : InStep n m comparison comparison := by
  intro c c' hc _ _
  have hnone : ∀ {x : Char}, ¬ IsPlain x → ∀ y, Comparison.ofSign? x y = none := by
    intro x hx y
    cases h : Comparison.ofSign? x y with
    | none => rfl
    | some found => exact absurd (ofSign?_eq_some h).1 hx
  have hsame : Comparison.ofSign? c'.current (c'.peek 1) =
      Comparison.ofSign? c.current (c.peek 1) := by
    by_cases hplain : IsPlain c.current
    · rw [hc.peek_one hplain, ofSign?_spaced, hc.current_eq, spaced_of_not_isBlank hplain.2]
    · have hplain' : ¬ IsPlain c'.current := by rwa [hc.current_eq, isPlain_spaced_iff]
      rw [hnone hplain, hnone hplain']
  unfold comparison
  rw [hsame]
  split
  · next op size h =>
    obtain ⟨hx, hsize⟩ := ofSign?_eq_some h
    refine .read _ (Squeezed.skipBlank ?_) ?_ ?_
    · obtain rfl | ⟨rfl, hy⟩ := hsize
      · exact hc.advance_one hx
      · exact hc.advance_two hx hy
    all_goals exact Nat.le_trans (length_skipBlank_le _) (length_advance_le _ _)
  · exact .read _ hc (Nat.le_refl _) (Nat.le_refl _)

theorem InStep.discard {r r' : Reader α} (h : InStep n m r r') :
    InStep n m (discard r) (discard r') :=
  h.bind fun _ => inStep_pure ()

/-! ## Tokens that take characters -/

/-- What is left after a character that is not the end mark and the blanks after it. -/
theorem length_after_char {c : Cursor} {ch : Char} (h : c.current = ch) (hne : ch ≠ Cursor.endMark) :
    (c.advance 1).skipBlank.rest.length < c.rest.length := by
  obtain ⟨cs, hr⟩ := Cursor.exists_rest_of_current h hne
  have hle := length_skipBlank_le (c.advance 1)
  rw [Cursor.rest_advance, hr, List.drop_succ_cons, List.drop_zero] at hle
  rw [hr]
  exact Nat.lt_succ_of_le hle

/-- What is left after a keyword and the blanks after it. -/
theorem length_after_word {c : Cursor} {word : String} (hw : word ∈ reservedWords)
    (h : startsWith word c.rest = true) :
    (c.jump word.length).skipBlank.rest.length < c.rest.length := by
  have hle := length_skipBlank_le (c.jump word.length)
  rw [Cursor.rest_jump, List.length_drop] at hle
  have hword : 0 < word.length := by
    rw [← String.length_toList, List.length_pos_iff]
    exact fun hnil => reserved_ne_empty word hw (String.toList_injective hnil)
  have hrest : 0 < c.rest.length := by
    rw [List.length_pos_iff]
    intro hnil
    rw [hnil, startsWith_of_delimited (isUpperWord_of_mem word hw) (reserved_ne_empty word hw)
      (fun _ hc => by cases hc)] at h
    cases h
  omega

/-- A look for a character leaves less to read if it is found. -/
theorem InStep.bind_consumeChar {ch : Char} (h : IsPlain ch ∧ ch ≠ Cursor.endMark)
    {f f' : Bool → Reader β} (hyes : InStep n m (f true) (f' true))
    (hno : InStep (n + 1) (m + 1) (f false) (f' false)) :
    InStep (n + 1) (m + 1) (consumeChar ch >>= f) (consumeChar ch >>= f') := by
  have hconsumes : Consumes (· = true) (consumeChar ch) := by
    rintro c d _ hd rfl
    obtain ⟨-, hch, rfl⟩ | ⟨hfalse, -, -⟩ := consumeChar_eq_ok hd
    · exact length_after_char hch h.2
    · cases hfalse
  refine (inStep_consumeChar h.1).bind_consuming hconsumes hconsumes ?_ ?_
  · rintro _ rfl
    exact hyes
  · intro found hfound
    cases found with
    | true => exact absurd rfl hfound
    | false => exact hno

theorem InStep.bind_expectChar {ch : Char} (h : IsPlain ch ∧ ch ≠ Cursor.endMark) (reason : String)
    {f f' : Unit → Reader β} (hf : InStep n m (f ()) (f' ())) :
    InStep (n + 1) (m + 1) (expectChar ch reason >>= f) (expectChar ch reason >>= f') := by
  have hconsumes : Consumes (fun _ => True) (expectChar ch reason) := by
    intro c d _ hd _
    obtain ⟨hch, rfl⟩ := expectChar_eq_ok hd
    exact length_after_char hch h.2
  exact (inStep_expectChar h.1 reason).bind_consuming hconsumes hconsumes (fun _ _ => hf)
    fun _ hfalse => absurd trivial hfalse

/-- A look for a keyword leaves less to read if it is found. -/
theorem InStep.bind_consumeWord {word : String} (hw : word ∈ reservedWords)
    {f f' : Bool → Reader β} (hyes : InStep n m (f true) (f' true))
    (hno : InStep (n + 1) (m + 1) (f false) (f' false)) :
    InStep (n + 1) (m + 1) (consumeWord word >>= f) (consumeWord word >>= f') := by
  have hconsumes : Consumes (· = true) (consumeWord word) := by
    rintro c d _ hd rfl
    obtain ⟨hword, rfl⟩ := consumeWord_eq_ok hd
    exact length_after_word hw hword.symm
  refine (inStep_consumeWord (isUpperWord_of_mem word hw)).bind_consuming hconsumes hconsumes ?_ ?_
  · rintro _ rfl
    exact hyes
  · intro found hfound
    cases found with
    | true => exact absurd rfl hfound
    | false => exact hno

theorem InStep.bind_expectWord {word : String} (hw : word ∈ reservedWords) (reason : String)
    {f f' : Unit → Reader β} (hf : InStep n m (f ()) (f' ())) :
    InStep (n + 1) (m + 1) (expectWord word reason >>= f) (expectWord word reason >>= f') := by
  have hconsumes : Consumes (fun _ => True) (expectWord word reason) := by
    intro c d _ hd _
    obtain ⟨hword, rfl⟩ := expectWord_eq_ok hd
    exact length_after_word hw hword
  exact (inStep_expectWord (isUpperWord_of_mem word hw) reason).bind_consuming hconsumes hconsumes
    (fun _ _ => hf) fun _ hfalse => absurd trivial hfalse

/-! ## Loops -/

/-- Loops that are bounded by what is left to read are in step if a round takes at least a character
of each text, unless nothing is left. -/
theorem inStep_loop {ι : Type} (r r' : Nat → ι → Reader α)
    (hnil : ∀ k k' i c c', Squeezed c c' → c.rest = [] → c'.rest = [] →
      InStepAt c c' (r k i c) (r' k' i c'))
    (hstep : ∀ {k k' l l'}, k < n → k' < m → (∀ i, InStep k k' (r l i) (r' l' i)) →
      ∀ i, InStep (k + 1) (k' + 1) (r (l + 1) i) (r' (l' + 1) i)) (i : ι) :
    InStep n m (fun c => r c.rest.length i c) (fun c => r' c.rest.length i c) := by
  have hrun : ∀ l l' k k', k ≤ l → k' ≤ l' → k ≤ n → k' ≤ m → ∀ i, InStep k k' (r l i) (r' l' i) := by
    intro l
    induction l with
    | zero =>
      intro l' k k' hl hl' hk hk' i c c' hc hle hle'
      have hrest : c.rest = [] := List.eq_nil_of_length_eq_zero (by omega)
      exact hnil 0 l' i c c' hc hrest (hc.rest_eq_nil_iff.2 hrest)
    | succ l ih =>
      intro l' k k' hl hl' hk hk' i c c' hc hle hle'
      by_cases hrest : c.rest = []
      · exact hnil (l + 1) l' i c c' hc hrest (hc.rest_eq_nil_iff.2 hrest)
      · have hpos := List.length_pos_iff.2 hrest
        have hpos' := List.length_pos_iff.2 (mt hc.rest_eq_nil_iff.1 hrest)
        obtain ⟨k, rfl⟩ : ∃ j, k = j + 1 := ⟨k - 1, by omega⟩
        obtain ⟨k', rfl⟩ : ∃ j, k' = j + 1 := ⟨k' - 1, by omega⟩
        obtain ⟨l', rfl⟩ : ∃ j, l' = j + 1 := ⟨l' - 1, by omega⟩
        have hround := ih l' k k' (by omega) (by omega) (by omega) (by omega)
        exact hstep (by omega) (by omega) hround i c c' hc hle hle'
  intro c c' hc hle hle'
  exact hrun _ _ _ _ (Nat.le_refl _) (Nat.le_refl _) hle hle' i c c' hc (Nat.le_refl _)
    (Nat.le_refl _)

/-! ## Names -/

theorem dottedNames_succ {bound : Nat} {c : Cursor}
    (h : (c.current = '.' && isNameStart (c.peek 1)) = true) :
    dottedNames (bound + 1) c = (do
      let first ← name
      let others ← dottedNames bound
      return first :: others : Reader (List String)) (c.advance 1) := by
  refine (if_pos h).trans ?_
  rw [run_bind]
  cases name (c.advance 1) with
  | error e => rfl
  | ok found =>
    obtain ⟨first, c₁⟩ := found
    change _ = (dottedNames bound c₁ >>= fun q => Except.ok (first :: q.1, q.2))
    dsimp only
    cases dottedNames bound c₁ with
    | error e => rfl
    | ok q => rfl

theorem dottedNames_stop {bound : Nat} {c : Cursor}
    (h : (c.current = '.' && isNameStart (c.peek 1)) = false) :
    dottedNames bound c = .ok ([], c) := by
  cases bound with
  | zero => rfl
  | succ bound => exact if_neg (by rw [h]; exact Bool.false_ne_true)

theorem inStep_path : InStep n m path path := by
  refine inStep_name.bind fun first => ?_
  refine InStep.bind (inStep_loop (fun k (_ : Unit) => dottedNames k) (fun k _ => dottedNames k)
    ?_ ?_ ()) fun others => inStep_pure _
  · intro k k' _ c c' hc hr hr'
    have hnil : ∀ {c : Cursor}, c.rest = [] → c.current ≠ '.' := by
      intro c hr
      rw [Cursor.current_eq, hr]
      decide
    rw [dottedNames_stop (by simp [hnil hr]), dottedNames_stop (by simp [hnil hr'])]
    exact .read _ hc (Nat.le_refl _) (Nat.le_refl _)
  · intro k k' l l' _ _ h _ c c' hc hle hle'
    have hsame : (c'.current = '.' && isNameStart (c'.peek 1)) =
        (c.current = '.' && isNameStart (c.peek 1)) := by
      by_cases hdot : c.current = '.'
      · have hplain : IsPlain c.current := by
          rw [hdot]
          decide
        rw [hc.peek_one hplain, test_spaced fun ch h =>
          isPlain_of_isNameChar (isNameChar_of_isNameStart h), hc.current_eq,
          spaced_of_not_isBlank hplain.2]
      · have hdot' : c'.current ≠ '.' := mt (hc.current_eq_iff (by decide)).1 hdot
        simp [hdot, hdot']
    cases hdot : (c.current = '.' && isNameStart (c.peek 1) : Bool) with
    | false =>
      rw [dottedNames_stop hdot, dottedNames_stop (hsame.trans hdot)]
      exact .read _ hc (Nat.le_refl _) (Nat.le_refl _)
    | true =>
      rw [dottedNames_succ hdot, dottedNames_succ (hsame.trans hdot)]
      have hnext : InStep k k' (do
          let first ← name
          let others ← dottedNames l
          return first :: others : Reader (List String)) (do
          let first ← name
          let others ← dottedNames l'
          return first :: others) :=
        inStep_name.bind fun first => (h ()).bind fun others => inStep_pure _
      have hplain : IsPlain c.current := by
        rw [of_decide_eq_true (Bool.and_eq_true_iff.1 hdot).1]
        decide
      refine (hnext _ _ (hc.advance_one hplain) ?_ ?_).mono (length_advance_le _ _)
        (length_advance_le _ _) <;>
      · rw [Cursor.rest_advance, List.length_drop]
        omega

theorem inStep_aliasName : InStep n m aliasName aliasName := by
  refine (inStep_consumeWord (by decide)).bind fun found => ?_
  cases found with
  | true => exact inStep_name.bind fun word => inStep_skipBlank.bind fun _ => inStep_pure _
  | false =>
    intro c c' hc hle hle'
    have hstart : isNameStart c'.current = isNameStart c.current :=
      hc.test_current fun ch h => isPlain_of_isNameChar (isNameChar_of_isNameStart h)
    show InStepAt c c'
      ((if isNameStart c.current then _ else _ : Reader (Option String)) c)
      ((if isNameStart c'.current then _ else _ : Reader (Option String)) c')
    rw [hstart]
    split
    · refine (inStep_name c c' hc hle hle').bind fun word d d' _ _ hd hdle hdle' => ?_
      cases isReserved word with
      | true => exact .read none hc (Nat.le_refl _) (Nat.le_refl _)
      | false =>
        have hskip : InStep n m (skipBlank >>= fun _ => pure (some word))
            (skipBlank >>= fun _ => pure (some word)) :=
          inStep_skipBlank.bind fun _ => inStep_pure _
        exact (hskip d d' hd (Nat.le_trans hdle hle) (Nat.le_trans hdle' hle')).mono hdle hdle'
    · exact .read none hc (Nat.le_refl _) (Nat.le_refl _)

end

end Reader

end DocQuery.Syntax
