import DocQuery.Proofs.Spans
import DocQuery.Proofs.Syntax.Words
import DocQuery.Syntax.Tree

/-!
# Names that are read back

A name that was read is made of name characters (`IsName`), and so it is read again from any text in
which no further name character follows (`reads_name`). The same goes for dotted paths
(`reads_path`) and for aliases, which are read after `AS` or if they are not reserved.
-/

namespace DocQuery.Syntax

/-- Whether a text is a name. -/
def IsName (s : String) : Prop :=
  isNameStart (s.toList.head?.getD Cursor.endMark) = true ∧ ∀ ch ∈ s.toList, isNameChar ch = true

instance (s : String) : Decidable (IsName s) :=
  have : Decidable (∀ ch ∈ s.toList, isNameChar ch = true) := List.decidableBAll _ s.toList
  inferInstanceAs (Decidable (_ ∧ _))

theorem isName_of_mem : ∀ word ∈ reservedWords, IsName word := by decide

theorem IsName.exists_cons {s : String} (h : IsName s) : ∃ ch cs, s.toList = ch :: cs := by
  refine List.exists_cons_of_ne_nil fun hl => ?_
  have hs := h.1
  rw [hl] at hs
  exact absurd hs (by decide)

theorem IsName.isNameStart_current {s : String} (h : IsName s) {rest : List Char} {c : Cursor}
    (hc : c.rest = s.toList ++ rest) : isNameStart c.current = true := by
  obtain ⟨ch, cs, hl⟩ := h.exists_cons
  have hs := h.1
  rw [hl] at hs hc
  rw [Cursor.current_of_rest hc]
  exact hs

/-- A name starts with no blank. -/
theorem IsName.trimStart_append {s : String} (h : IsName s) (rest : List Char) :
    trimStart (s.toList ++ rest) = s.toList ++ rest := by
  obtain ⟨ch, cs, hl⟩ := h.exists_cons
  have hd := isDelimiter_of_isNameChar (h.2 ch (by rw [hl]; exact List.mem_cons_self))
  rw [isDelimiter, Bool.or_eq_false_iff] at hd
  rw [hl, List.cons_append, trimStart_cons hd.2]

/-- A text in which no name goes on. -/
def NoName (rest : List Char) : Prop := ∀ ch ∈ rest.head?, isNameChar ch = false

/-- A text in which no dotted path goes on. -/
def NoPath (rest : List Char) : Prop := ∀ ch ∈ rest.head?, isNameChar ch = false ∧ ch ≠ '.'

theorem NoPath.noName {rest : List Char} (h : NoPath rest) : NoName rest :=
  fun ch hc => (h ch hc).1

theorem isNameChar_of_isNameStart {ch : Char} (h : isNameStart ch = true) :
    isNameChar ch = true := by
  simp only [isNameStart, isNameChar, Bool.or_eq_true] at h ⊢
  rcases h with (h | h) | h
  · exact .inl (.inl (.inl h))
  · exact .inl (.inr h)
  · exact .inr h

theorem noName_of_isDelimiter {ch : Char} (h : isDelimiter ch = true) (cs : List Char) :
    NoName (ch :: cs) := by
  rintro _ ⟨⟩
  rw [← Bool.not_eq_true]
  intro hn
  rw [isDelimiter_of_isNameChar hn] at h
  cases h

theorem Delimited.noPath {rest : List Char} (h : Delimited rest) : NoPath rest := by
  intro ch hc
  have hd := h ch hc
  refine ⟨noName_of_isDelimiter hd [] ch rfl, ?_⟩
  rintro rfl
  exact absurd hd (by decide)

/-- The characters of a name are all of those at the start of a text that it can have. -/
theorem takeWhile_isNameChar {s : String} (h : IsName s) {rest : List Char} (hr : NoName rest) :
    (s.toList ++ rest).takeWhile isNameChar = s.toList :=
  (span_append h.2 rest hr).1

namespace Reader

/-- What is read as a name is one, up to where no name goes on. -/
theorem name_eq_ok {c c' : Cursor} {s : String} (h : name c = .ok (s, c')) :
    IsName s ∧ c.rest = s.toList ++ c'.rest ∧ NoName c'.rest := by
  unfold name at h
  split at h
  · next hs =>
    cases h
    rw [Cursor.rest_advance, drop_length_takeWhile, String.toList_ofList]
    refine ⟨⟨?_, ?_⟩, List.takeWhile_append_dropWhile.symm, ?_⟩
    · rw [Cursor.current_eq] at hs
      rw [String.toList_ofList]
      cases hr : c.rest with
      | nil =>
        rw [hr] at hs
        exact absurd hs (by decide)
      | cons ch cs =>
        rw [hr, List.head?_cons, Option.getD_some] at hs
        rw [List.takeWhile_cons_of_pos (isNameChar_of_isNameStart hs)]
        exact hs
    · rw [String.toList_ofList]
      exact List.all_eq_true.1 List.all_takeWhile
    · exact eq_false_of_mem_head?_dropWhile
  · cases h

theorem reads_name {s : String} (h : IsName s) {rest : List Char} (hr : NoName rest) :
    Reads name (s.toList ++ rest) s rest := by
  intro c hc
  have hstart := h.isNameStart_current hc
  refine ⟨c.advance s.toList.length, ?_, ?_⟩
  · unfold name
    rw [if_pos hstart, hc, takeWhile_isNameChar h hr]
    dsimp only
    rw [String.ofList_toList]
  · rw [Cursor.rest_advance, hc, List.drop_left]

end Reader

/-! ## Paths -/

/-- The characters of names with a dot before each. -/
def dotted (names : List String) : List Char := names.flatMap fun s => '.' :: s.toList

/-- The characters of a path. -/
theorem toList_intercalate_dot (first : String) (others : List String) :
    (".".intercalate (first :: others)).toList = first.toList ++ dotted others := by
  induction others generalizing first with
  | nil => simp [dotted]
  | cons second others ih =>
    rw [String.intercalate_cons_cons]
    simp only [String.toList_append, ih, dotted, List.flatMap_cons, List.append_assoc]
    rfl

theorem noName_dotted {rest : List Char} (hr : NoPath rest) (names : List String) :
    NoName (dotted names ++ rest) := by
  cases names with
  | nil => exact hr.noName
  | cons s names =>
    rintro _ ⟨⟩
    decide

theorem length_le_length_dotted (names : List String) : names.length ≤ (dotted names).length := by
  induction names with
  | nil => exact Nat.le_refl _
  | cons s names ih =>
    simp only [dotted, List.flatMap_cons, List.length_append, List.length_cons] at ih ⊢
    omega

namespace Reader

theorem dottedNames_eq_ok {bound : Nat} {c c' : Cursor} {names : List String}
    (h : dottedNames bound c = .ok (names, c')) :
    (∀ s ∈ names, IsName s) ∧ c.rest = dotted names ++ c'.rest := by
  induction bound generalizing c names with
  | zero =>
    obtain ⟨rfl, rfl⟩ := run_pure_eq_ok.1 h
    exact ⟨by simp, rfl⟩
  | succ bound ih =>
    unfold dottedNames at h
    split at h
    · next hdot =>
      cases hn : name (c.advance 1) with
      | error e => simp [hn] at h
      | ok p =>
        obtain ⟨first, c₁⟩ := p
        rw [hn] at h
        cases hd : dottedNames bound c₁ with
        | error e => simp [hd] at h
        | ok q =>
          obtain ⟨others, c₂⟩ := q
          simp only [hd, Except.ok.injEq, Prod.mk.injEq] at h
          obtain ⟨rfl, rfl⟩ := h
          obtain ⟨hname, hrest, -⟩ := name_eq_ok hn
          obtain ⟨hothers, hrest'⟩ := ih hd
          refine ⟨List.forall_mem_cons.2 ⟨hname, hothers⟩, ?_⟩
          rw [Cursor.rest_advance, hrest'] at hrest
          rw [Bool.and_eq_true, decide_eq_true_eq] at hdot
          obtain ⟨cs, hc⟩ := Cursor.exists_rest_of_current hdot.1 (by decide)
          rw [hc, List.drop_succ_cons, List.drop_zero] at hrest
          rw [hc, hrest]
          simp [dotted]
    · cases h
      exact ⟨by simp, rfl⟩

theorem reads_dottedNames {names : List String} (hn : ∀ s ∈ names, IsName s) {rest : List Char}
    (hr : NoPath rest) {bound : Nat} (hb : names.length ≤ bound) :
    Reads (dottedNames bound) (dotted names ++ rest) names rest := by
  induction names generalizing bound with
  | nil =>
    cases bound with
    | zero => exact reads_pure [] rest
    | succ bound =>
      intro c hc
      have hdot : (decide (c.current = '.') && isNameStart (c.peek 1)) = false := by
        rw [Bool.and_eq_false_iff, decide_eq_false_iff_not, Cursor.current_eq, hc]
        left
        cases rest with
        | nil => decide
        | cons ch cs => exact (hr ch rfl).2
      refine ⟨c, ?_, hc⟩
      unfold dottedNames
      rw [hdot]
      rfl
  | cons s names ih =>
    obtain ⟨bound, rfl⟩ : ∃ b, bound = b + 1 := ⟨bound - 1, by rw [List.length_cons] at hb; omega⟩
    obtain ⟨hs, hnames⟩ := List.forall_mem_cons.1 hn
    intro c hc
    have hrest : c.rest = '.' :: (s.toList ++ (dotted names ++ rest)) := by
      rw [hc]
      simp [dotted]
    have hdot : (decide (c.current = '.') && isNameStart (c.peek 1)) = true := by
      rw [Bool.and_eq_true, decide_eq_true_eq]
      refine ⟨Cursor.current_of_rest hrest, ?_⟩
      have hpeek : c.peek 1 = s.toList.head?.getD Cursor.endMark := by
        rw [Cursor.peek, hrest, List.getElem?_cons_succ, ← List.head?_eq_getElem?]
        obtain ⟨ch, cs, hl⟩ := hs.exists_cons
        rw [hl]
        rfl
      rw [hpeek]
      exact hs.1
    obtain ⟨c₁, h₁, hc₁⟩ := reads_name hs (noName_dotted hr names) (c.advance 1) (by
      rw [Cursor.rest_advance, hrest]
      rfl)
    obtain ⟨c₂, h₂, hc₂⟩ := ih hnames (Nat.le_of_succ_le_succ hb) c₁ hc₁
    refine ⟨c₂, ?_, hc₂⟩
    unfold dottedNames
    rw [hdot, h₁]
    simp only [h₂, if_true]

theorem path_eq_ok {c c' : Cursor} {segments : List String} (h : path c = .ok (segments, c')) :
    segments ≠ [] ∧ (∀ s ∈ segments, IsName s) ∧
      c.rest = (".".intercalate segments).toList ++ c'.rest := by
  unfold path at h
  obtain ⟨first, c₁, hf, h⟩ := run_bind_eq_ok.1 h
  obtain ⟨others, c₂, ho, h⟩ := run_bind_eq_ok.1 h
  obtain ⟨rfl, rfl⟩ := run_pure_eq_ok.1 h
  obtain ⟨hname, hrest, -⟩ := name_eq_ok hf
  obtain ⟨hothers, hrest'⟩ := dottedNames_eq_ok ho
  refine ⟨List.cons_ne_nil _ _, List.forall_mem_cons.2 ⟨hname, hothers⟩, ?_⟩
  rw [toList_intercalate_dot, hrest, hrest', List.append_assoc]

theorem reads_path {segments : List String} (hne : segments ≠ []) (hn : ∀ s ∈ segments, IsName s)
    {rest : List Char} (hr : NoPath rest) :
    Reads path ((".".intercalate segments).toList ++ rest) segments rest := by
  obtain ⟨first, others, rfl⟩ := List.exists_cons_of_ne_nil hne
  obtain ⟨hfirst, hothers⟩ := List.forall_mem_cons.1 hn
  rw [toList_intercalate_dot, List.append_assoc]
  refine (reads_name hfirst (noName_dotted hr others)).bind
    (Reads.bind (reads_of_cursor fun c hc => ?_) (reads_pure _ _))
  refine reads_dottedNames hothers hr ?_
  have hlen := length_le_length_dotted others
  rw [hc, List.length_append]
  omega

end Reader

/-! ## What may follow -/

/-- A text that is empty or starts with a blank, a comma or a closing parenthesis. -/
def Ends (rest : List Char) : Prop := ∀ ch ∈ rest.head?, ch = ' ' ∨ ch = ',' ∨ ch = ')'

theorem Ends.delimited {rest : List Char} (h : Ends rest) : Delimited rest := by
  intro ch hc
  rcases h ch hc with rfl | rfl | rfl <;> decide

theorem ends_nil : Ends [] := by
  intro ch hc
  cases hc

theorem ends_space (cs : List Char) : Ends (' ' :: cs) := by
  rintro _ ⟨⟩
  exact .inl rfl

theorem ends_comma (cs : List Char) : Ends (',' :: cs) := by
  rintro _ ⟨⟩
  exact .inr (.inl rfl)

theorem ends_close (cs : List Char) : Ends (')' :: cs) := by
  rintro _ ⟨⟩
  exact .inr (.inr rfl)

theorem Ends.append {cs rest : List Char} (h : Ends cs) (hr : Ends rest) : Ends (cs ++ rest) := by
  cases cs with
  | nil => exact hr
  | cons ch cs =>
    rintro _ ⟨⟩
    exact h ch rfl

theorem trimStart_space (cs : List Char) : trimStart (' ' :: cs) = trimStart cs :=
  List.dropWhile_cons_of_pos (by decide)

/-- A text that is empty, or starts with a closing parenthesis or one of some words after a blank. -/
def Continues (words : List String) (rest : List Char) : Prop :=
  rest = [] ∨ (∃ cs, rest = ')' :: cs) ∨
    ∃ word ∈ words, ∃ cs, Ends cs ∧ rest = ' ' :: (word.toList ++ cs)

/-- A text that starts with a comma, or with what is said by `Continues`. -/
def Follows (words : List String) (rest : List Char) : Prop :=
  (∃ cs, rest = ',' :: cs) ∨ Continues words rest

theorem Continues.mono {words words' : List String} {rest : List Char} (h : Continues words rest)
    (hw : ∀ word ∈ words, word ∈ words') : Continues words' rest := by
  obtain h | h | ⟨word, hm, cs, he, h⟩ := h
  · exact .inl h
  · exact .inr (.inl h)
  · exact .inr (.inr ⟨word, hw word hm, cs, he, h⟩)

/-- A keyword starts with a letter. -/
theorem head_word_ne {word : String} (hw : word ∈ reservedWords) {ch : Char}
    (h : isNameStart ch = false) (cs : List Char) :
    (word.toList ++ cs).head?.getD Cursor.endMark ≠ ch := by
  have hname := isName_of_mem word hw
  obtain ⟨ch', cs', hl⟩ := hname.exists_cons
  have hstart := hname.1
  rw [hl, List.head?_cons, Option.getD_some] at hstart
  rw [hl, List.cons_append, List.head?_cons, Option.getD_some]
  rintro rfl
  rw [h] at hstart
  cases hstart

/-- What may follow starts with no sign but those of `Continues`. -/
theorem Continues.head_ne {words : List String} {rest : List Char} (h : Continues words rest)
    (hw : ∀ word ∈ words, word ∈ reservedWords) {ch : Char} (hs : isNameStart ch = false)
    (hend : ch ≠ Cursor.endMark) (hclose : ch ≠ ')') :
    (trimStart rest).head?.getD Cursor.endMark ≠ ch := by
  obtain rfl | ⟨cs, rfl⟩ | ⟨word, hm, cs, -, rfl⟩ := h
  · exact hend.symm
  · rw [trimStart_cons (by decide)]
    exact hclose.symm
  · rw [trimStart_space, (isName_of_mem word (hw word hm)).trimStart_append]
    exact head_word_ne (hw word hm) hs cs

theorem continues_close (words : List String) (cs : List Char) : Continues words (')' :: cs) :=
  .inr (.inl ⟨cs, rfl⟩)

theorem continues_word {words : List String} {word : String} (h : word ∈ words) (cs : List Char) :
    Continues words (' ' :: (word.toList ++ ' ' :: cs)) :=
  .inr (.inr ⟨word, h, ' ' :: cs, ends_space cs, rfl⟩)

theorem Follows.mono {words words' : List String} {rest : List Char} (h : Follows words rest)
    (hw : ∀ word ∈ words, word ∈ words') : Follows words' rest :=
  h.imp_right fun hc => hc.mono hw

theorem Follows.ends {words : List String} {rest : List Char} (h : Follows words rest) :
    Ends rest := by
  obtain ⟨cs, rfl⟩ | rfl | ⟨cs, rfl⟩ | ⟨word, -, cs, -, rfl⟩ := h
  · exact ends_comma cs
  · exact ends_nil
  · exact ends_close cs
  · exact ends_space _

theorem reserved_ne_empty : ∀ word ∈ reservedWords, word ≠ "" := by decide

/-- Where one keyword stands there is no other. -/
theorem startsWith_other {word other : String} (hw : word ∈ reservedWords)
    (ho : other ∈ reservedWords) (hne : other ≠ word) {cs : List Char} (hd : Delimited cs) :
    startsWith word (other.toList ++ cs) = false := by
  rw [← Bool.not_eq_true, startsWith_word_iff (isUpperWord_of_mem word hw)
    (isUpperWord_of_mem other ho) hd]
  exact hne

/-- What may follow is no keyword but one of the given ones. -/
theorem Follows.startsWith_eq_false {words : List String} {rest : List Char}
    (h : Follows words rest) (hr : ∀ other ∈ words, other ∈ reservedWords) {word : String}
    (hw : word ∈ reservedWords) (hn : word ∉ words) : startsWith word (trimStart rest) = false := by
  have hup := isUpperWord_of_mem word hw
  have hne := reserved_ne_empty word hw
  obtain ⟨cs, rfl⟩ | rfl | ⟨cs, rfl⟩ | ⟨other, hm, cs, he, rfl⟩ := h
  · rw [trimStart_cons (by decide)]
    exact startsWith_of_delimited hup hne (ends_comma cs).delimited
  · exact startsWith_of_delimited hup hne (fun _ hc => nomatch hc)
  · rw [trimStart_cons (by decide)]
    exact startsWith_of_delimited hup hne (ends_close cs).delimited
  · rw [trimStart_space, (isName_of_mem other (hr other hm)).trimStart_append]
    refine startsWith_other hw (hr other hm) ?_ he.delimited
    rintro rfl
    exact hn hm

/-! ## Aliases -/

theorem isReserved_of_mem : ∀ word ∈ reservedWords, isReserved word = true := by decide

/-- The characters of a name are no delimiters. -/
theorem IsName.not_delimiter {s : String} (h : IsName s) : ∀ ch ∈ s.toList, isDelimiter ch = false :=
  fun ch hm => isDelimiter_of_isNameChar (h.2 ch hm)

namespace Reader

theorem aliasName_eq_ok {c c' : Cursor} {found : Option String}
    (h : aliasName c = .ok (found, c')) : ∀ word ∈ found, IsName word := by
  unfold aliasName at h
  obtain ⟨b, c₁, -, h⟩ := run_bind_eq_ok.1 h
  cases b with
  | true =>
    obtain ⟨word, c₂, hw, h⟩ := run_bind_eq_ok.1 h
    obtain ⟨-, c₃, -, h⟩ := run_bind_eq_ok.1 h
    obtain ⟨rfl, -⟩ := run_pure_eq_ok.1 h
    rintro _ ⟨⟩
    exact (name_eq_ok hw).1
  | false =>
    obtain ⟨start, c₂, -, h⟩ := run_bind_eq_ok.1 h
    split at h
    · obtain ⟨word, c₃, hw, h⟩ := run_bind_eq_ok.1 h
      split at h
      · obtain ⟨-, c₄, -, h⟩ := run_bind_eq_ok.1 h
        obtain ⟨rfl, -⟩ := run_pure_eq_ok.1 h
        exact fun _ hm => nomatch hm
      · obtain ⟨-, c₄, -, h⟩ := run_bind_eq_ok.1 h
        obtain ⟨rfl, -⟩ := run_pure_eq_ok.1 h
        rintro _ ⟨⟩
        exact (name_eq_ok hw).1
    · obtain ⟨rfl, -⟩ := run_pure_eq_ok.1 h
      exact fun _ hm => nomatch hm

/-- An alias after `AS`. -/
theorem reads_aliasName_as {word : String} (h : IsName word) {rest : List Char} (hr : Ends rest) :
    Reads aliasName ("AS".toList ++ ' ' :: (word.toList ++ rest)) (some word) (trimStart rest) := by
  have hskip : trimStart (' ' :: (word.toList ++ rest)) = word.toList ++ rest := by
    rw [trimStart_space, h.trimStart_append]
  refine (reads_consumeWord (by decide) (ends_space _).delimited).bind ?_
  rw [hskip]
  exact (reads_name h hr.delimited.noPath.noName).bind
    ((reads_skipBlank rest).bind (reads_pure _ _))

/-- An alias that is not reserved. -/
theorem reads_aliasName {word : String} (h : IsName word) (hn : isReserved word = false)
    {rest : List Char} (hr : Ends rest) :
    Reads aliasName (word.toList ++ rest) (some word) (trimStart rest) := by
  have has : startsWith "AS" (word.toList ++ rest) = false := by
    rw [← Bool.not_eq_true, startsWith_append_iff (by decide) h.not_delimiter hr.delimited]
    intro hw
    have hres := isReserved_of_map_asciiUpper (by decide) hw
    rw [String.ofList_toList, hn] at hres
    cases hres
  refine (reads_consumeWord_of_not has).bind (reads_get fun c hc => ?_)
  rw [if_pos (h.isNameStart_current hc)]
  refine (reads_name h hr.delimited.noPath.noName).bind ?_
  rw [hn]
  exact (reads_skipBlank rest).bind (reads_pure _ _)

/-- Where a keyword or nothing follows there is no alias. -/
theorem reads_aliasName_none {words : List String} {rest : List Char} (h : Follows words rest)
    (hr : ∀ word ∈ words, word ∈ reservedWords) (hn : "AS" ∉ words) :
    Reads aliasName (trimStart rest) none (trimStart rest) := by
  refine (reads_consumeWord_of_not (h.startsWith_eq_false hr (by decide) hn)).bind
    (reads_get fun c hc => ?_)
  obtain ⟨cs, rfl⟩ | rfl | ⟨cs, rfl⟩ | ⟨word, hm, cs, he, rfl⟩ := h
  · rw [if_neg (by rw [Cursor.current_of_rest hc]; decide)]
    exact reads_pure _ _
  · have hcur : c.current = Cursor.endMark := by
      rw [Cursor.current_eq, hc]
      rfl
    rw [if_neg (by rw [hcur]; decide)]
    exact reads_pure _ _
  · rw [if_neg (by rw [Cursor.current_of_rest hc]; decide)]
    exact reads_pure _ _
  · have hname := isName_of_mem word (hr word hm)
    have hskip : trimStart (' ' :: (word.toList ++ cs)) = word.toList ++ cs := by
      rw [trimStart_space, hname.trimStart_append]
    rw [hskip] at hc ⊢
    rw [if_pos (hname.isNameStart_current hc)]
    refine (reads_name hname he.delimited.noPath.noName).bind ?_
    rw [isReserved_of_mem word (hr word hm)]
    exact (reads_set hc cs).bind (reads_pure _ _)

end Reader

end DocQuery.Syntax
