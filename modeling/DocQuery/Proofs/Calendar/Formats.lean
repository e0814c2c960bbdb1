import DocQuery.Calendar.Format
import DocQuery.Calendar.Pattern
import DocQuery.Proofs.Spans

/-!
# The format that a pattern denotes

A pattern is cut into pieces (`Cuts`), each piece gives tokens of a date format (`Piece.tokens`),
and the format is read token by token again (`Reads`). Both are divisions of a text from left to
right, and both can be made in one way only: `cuts_iff` says so for patterns, whatever quotes are
left open in them, and `Reads.unique` for formats, as no token is the start of another one.

So nothing that two pieces give side by side is read as a token of its own, and what is read in a
format can be traced back to the pieces of the pattern (`format_tokens`): fields come from the
letter runs that name them, and percent signs from percent signs.
-/

namespace DocQuery.Calendar

open Pattern

/-- A division of a text from left to right, where each part has a text of its own and may lead what
comes after it. -/
inductive Divides {α : Type} (text : α → List Char) (leads : α → List Char → Prop) :
    List Char → List α → Prop where
  /-- Nothing is left. -/
  | nil : Divides text leads [] []
  /-- One more part, in front. -/
  | cons {part : α} {rest : List Char} {parts : List α} (h : leads part rest)
    (hr : Divides text leads rest parts) : Divides text leads (text part ++ rest) (part :: parts)

theorem Divides.leads_of_mem {α : Type} {text : α → List Char} {leads : α → List Char → Prop}
    {cs : List Char} {parts : List α} (h : Divides text leads cs parts) :
    ∀ part ∈ parts, ∃ rest, leads part rest := by
  induction h with
  | nil => exact List.forall_mem_nil _
  | cons hl _ ih => exact List.forall_mem_cons.2 ⟨⟨_, hl⟩, ih⟩

/-! ## Pieces of patterns -/

namespace Piece

/-- The characters of a piece in a pattern. -/
def source : Piece → List Char
  | .quoted body => '\'' :: (body ++ ['\''])
  | .run letter count => List.replicate count letter
  | .sign c => [c]
  | .plain c => [c]

/-- Whether a piece comes first where the given rest of a pattern comes after it. The same letters
form one run as long as they go on, and a quote stands for itself only if no other one follows. -/
def Leads (rest : List Char) : Piece → Prop
  | .quoted body => '\'' ∉ body
  | .run letter count => isRunLetter letter = true ∧ 0 < count ∧ rest.head? ≠ some letter
  | .sign c => isSign c = true
  | .plain c => isRunLetter c = false ∧ isSign c = false ∧ (c = '\'' → '\'' ∉ rest)

theorem source_ne_nil {piece : Piece} {rest : List Char} (h : piece.Leads rest) :
    piece.source ≠ [] := by
  cases piece with
  | run letter count =>
    intro hnil
    exact absurd ((List.replicate_eq_nil_iff letter).1 hnil) (Nat.pos_iff_ne_zero.1 h.2.1)
  | quoted | sign | plain => exact List.cons_ne_nil _ _

end Piece

/-- The pieces of a pattern. -/
def Cuts : List Char → List Piece → Prop := Divides Piece.source fun piece rest => piece.Leads rest

theorem forall_ne_quote {cs : List Char} (h : '\'' ∉ cs) : ∀ c ∈ cs, (c != '\'') = true :=
  fun _ hc => bne_iff_ne.2 fun heq => h (heq ▸ hc)

theorem ne_quote_of_isRunLetter {c : Char} (h : isRunLetter c = true) : c ≠ '\'' := by
  rintro rfl
  exact absurd h (by decide)

theorem isSign_iff {c : Char} : isSign c = true ↔ c = 'a' ∨ c = 'Z' ∨ c = '%' := by
  simp [isSign]

/-- **One step of the cut**: what comes first is the first piece. -/
theorem cutWithin_source {piece : Piece} {rest : List Char} (h : piece.Leads rest) (bound : Nat) :
    cutWithin (bound + 1) (piece.source ++ rest) = piece :: cutWithin bound rest := by
  cases piece with
  | quoted body =>
    obtain ⟨htake, hdrop⟩ := span_append (forall_ne_quote h) ('\'' :: rest) (by rintro _ ⟨⟩; rfl)
    rw [Piece.source, List.cons_append, List.append_assoc, List.singleton_append, cutWithin,
      if_pos rfl, htake, hdrop]
  | run letter count =>
    obtain ⟨hl, hcount, hmax⟩ := h
    obtain ⟨count, rfl⟩ := Nat.exists_eq_add_one.2 hcount
    have hrun : ∀ c ∈ List.replicate count letter, (c == letter) = true :=
      fun c hc => beq_iff_eq.2 (List.eq_of_mem_replicate hc)
    obtain ⟨htake, hdrop⟩ := span_append hrun rest
      fun c hc => beq_eq_false_iff_ne.2 fun heq => hmax (heq ▸ hc)
    rw [Piece.source, List.replicate_succ, List.cons_append, cutWithin,
      if_neg (ne_quote_of_isRunLetter hl), if_pos hl, htake, hdrop, List.length_replicate]
  | sign c =>
    have hsign : isSign c = true := h
    have hother : c ≠ '\'' ∧ ¬ isRunLetter c = true := by
      rcases isSign_iff.1 hsign with rfl | rfl | rfl <;> decide
    rw [Piece.source, List.singleton_append, cutWithin, if_neg hother.1, if_neg hother.2,
      if_pos hsign]
  | plain c =>
    obtain ⟨hrun, hsign, hopen⟩ := h
    rw [Piece.source, List.singleton_append, cutWithin]
    by_cases hquote : c = '\''
    · obtain ⟨-, hdrop⟩ := span_append (forall_ne_quote (hopen hquote)) [] (by simp)
      rw [List.append_nil] at hdrop
      rw [if_pos hquote, hdrop]
    · rw [if_neg hquote, if_neg (Bool.not_eq_true _ ▸ hrun), if_neg (Bool.not_eq_true _ ▸ hsign)]

theorem cutWithin_of_cuts {cs : List Char} {pieces : List Piece} (h : Cuts cs pieces) {bound : Nat}
    (hb : cs.length ≤ bound) : cutWithin bound cs = pieces := by
  induction h generalizing bound with
  | nil => cases bound <;> rfl
  | @cons piece rest pieces h _ ih =>
    have hpos := List.length_pos_iff.2 (Piece.source_ne_nil h)
    rw [List.length_append] at hb
    obtain ⟨bound, rfl⟩ := Nat.exists_eq_add_one.2 (show 0 < bound by omega)
    rw [cutWithin_source h, ih (by omega)]

/-- Some piece comes first in every text. -/
theorem exists_leads (c : Char) (cs : List Char) :
    ∃ (piece : Piece) (rest : List Char), piece.Leads rest ∧ c :: cs = piece.source ++ rest := by
  cases hrun : isRunLetter c with
  | true =>
    obtain ⟨run, rest, rfl, hall, hmax⟩ := exists_span (· == c) cs
    have hreplicate := List.eq_replicate_of_mem fun d hd => eq_of_beq (hall d hd)
    refine ⟨.run c (run.length + 1), rest, ⟨hrun, Nat.succ_pos _, fun hc => ?_⟩, ?_⟩
    · exact beq_eq_false_iff_ne.1 (hmax c hc) rfl
    · rw [Piece.source, List.replicate_succ, ← hreplicate, List.cons_append]
  | false =>
    cases hsign : isSign c with
    | true => exact ⟨.sign c, cs, hsign, rfl⟩
    | false =>
      by_cases hclosed : c = '\'' ∧ '\'' ∈ cs
      · obtain ⟨rfl, hmem⟩ := hclosed
        obtain ⟨body, rest, rfl, hbody⟩ := List.eq_append_cons_of_mem hmem
        refine ⟨.quoted body, rest, hbody, ?_⟩
        rw [Piece.source, List.cons_append, List.append_assoc, List.singleton_append]
      · exact ⟨.plain c, cs, ⟨hrun, hsign, fun hc hm => hclosed ⟨hc, hm⟩⟩, rfl⟩

theorem exists_cuts (cs : List Char) : ∃ pieces, Cuts cs pieces := by
  induction hn : cs.length using Nat.strongRecOn generalizing cs with
  | ind n ih =>
    cases cs with
    | nil => exact ⟨[], .nil⟩
    | cons c cs =>
      obtain ⟨piece, rest, hleads, heq⟩ := exists_leads c cs
      have hpos := List.length_pos_iff.2 (Piece.source_ne_nil hleads)
      have hlength := congrArg List.length heq
      rw [List.length_append] at hlength
      obtain ⟨pieces, hp⟩ := ih rest.length (by omega) rest rfl
      exact ⟨piece :: pieces, heq ▸ .cons hleads hp⟩

/-- **There is one way to cut a pattern from left to right**, and that is how it is cut. -/
theorem cuts_iff {cs : List Char} {pieces : List Piece} : Cuts cs pieces ↔ pieces = cut cs := by
  constructor
  · intro h
    exact (cutWithin_of_cuts h (Nat.le_refl _)).symm
  · rintro rfl
    obtain ⟨pieces, h⟩ := exists_cuts cs
    rw [cut, cutWithin_of_cuts h (Nat.le_refl _)]
    exact h

/-! ## Tokens of formats -/

/-- What a percent sign may start in a format. -/
def specifiers : List (List Char) :=
  ["%%", "%Y", "%y", "%m", "%b", "%d", "%H", "%I", "%M", "%S", "%3f", "%p", "%z", "%:z"].map
    String.toList

/-- Whether a text is a token of a format: what a percent sign starts, or any other character. -/
def IsToken (token : List Char) : Prop := token ∈ specifiers ∨ ∃ c, c ≠ '%' ∧ token = [c]

/-- The tokens of a format. -/
def Reads : List Char → List (List Char) → Prop := Divides id fun token _ => IsToken token

theorem isToken_literal (c : Char) : IsToken (literal c) := by
  unfold literal
  split
  · exact .inl (by decide)
  · next hc => exact .inr ⟨c, hc, rfl⟩

theorem reads_flatten {tokens : List (List Char)} (h : ∀ token ∈ tokens, IsToken token) :
    Reads tokens.flatten tokens := by
  induction tokens with
  | nil => exact .nil
  | cons token tokens ih =>
    obtain ⟨ht, hts⟩ := List.forall_mem_cons.1 h
    exact .cons ht (ih hts)

namespace IsToken

variable {token token' : List Char}

theorem ne_nil (h : IsToken token) : token ≠ [] := by
  have hspecifiers : ∀ s ∈ specifiers, s ≠ [] := by decide
  rcases h with h | ⟨c, -, rfl⟩
  · exact hspecifiers _ h
  · exact List.cons_ne_nil _ _

/-- No token is the start of another one. -/
theorem eq_of_prefix (h : IsToken token) (h' : IsToken token') (hp : token <+: token') :
    token = token' := by
  rcases h' with h' | ⟨c', -, rfl⟩
  · rcases h with h | ⟨c, hc, rfl⟩
    · have hspecifiers : ∀ s ∈ specifiers, ∀ s' ∈ specifiers, s <+: s' → s = s' := by decide
      exact hspecifiers _ h _ h' hp
    · have hspecifiers : ∀ s ∈ specifiers, s.head? = some '%' := by decide
      obtain ⟨rest, rfl⟩ := hp
      exact absurd (Option.some.inj (hspecifiers _ h')) hc
  · exact hp.eq_of_length_le (List.length_pos_iff.2 h.ne_nil)

theorem eq_of_append_eq {rest rest' : List Char} (h : IsToken token) (h' : IsToken token')
    (heq : token ++ rest = token' ++ rest') : token = token' := by
  rcases List.prefix_or_prefix_of_prefix (List.prefix_append token rest)
    (heq ▸ List.prefix_append token' rest') with hp | hp
  · exact h.eq_of_prefix h' hp
  · exact (h'.eq_of_prefix h hp).symm

end IsToken

/-- **There is one way to read a format from left to right.** -/
theorem Reads.unique {cs : List Char} {tokens tokens' : List (List Char)} (h : Reads cs tokens)
    (h' : Reads cs tokens') : tokens = tokens' := by
  induction h generalizing tokens' with
  | nil =>
    generalize hcs : [] = cs at h'
    cases h' with
    | nil => rfl
    | cons ht' _ => exact absurd (List.append_eq_nil_iff.1 hcs.symm).1 ht'.ne_nil
  | @cons token rest tokens ht _ ih =>
    generalize hcs : id token ++ rest = cs at h'
    cases h' with
    | nil => exact absurd (List.append_eq_nil_iff.1 hcs).1 ht.ne_nil
    | @cons token' rest' tokens' ht' hr' =>
      obtain rfl := ht.eq_of_append_eq ht' hcs
      rw [ih (List.append_cancel_left hcs ▸ hr')]

/-! ## Items of formats -/

theorem items_cons {c : Char} (hc : c ≠ '%') (cs : List Char) :
    items (c :: cs) = (if Text.isBlank c then .blank else .literal c) :: items cs := by
  rw [items]
  · rw [if_neg hc]
  · exact fun _ heq => absurd heq hc
  · exact fun _ heq => absurd heq hc
  · exact fun _ heq => absurd heq hc
  · exact fun _ _ heq => absurd heq hc

theorem IsToken.items_append {token : List Char} (h : IsToken token) (cs : List Char) :
    items (token ++ cs) = items token ++ items cs := by
  rcases h with h | ⟨c, hc, rfl⟩
  · simp only [specifiers, List.map_cons, List.map_nil, List.mem_cons, List.not_mem_nil,
      or_false] at h
    rcases h with rfl | rfl | rfl | rfl | rfl | rfl | rfl | rfl | rfl | rfl | rfl | rfl | rfl | rfl
    all_goals rfl
  · rw [List.singleton_append, items_cons hc, items_cons hc]
    rfl

theorem IsToken.unknown_not_mem {token : List Char} (h : IsToken token) :
    Item.unknown ∉ items token := by
  rcases h with h | ⟨c, hc, rfl⟩
  · have hspecifiers : ∀ s ∈ specifiers, Item.unknown ∉ items s := by decide
    exact hspecifiers _ h
  · rw [items_cons hc, items, List.mem_singleton]
    split <;> exact Item.noConfusion

/-- The items of a format are those of its tokens. -/
theorem items_flatten {tokens : List (List Char)} (h : ∀ token ∈ tokens, IsToken token) :
    items tokens.flatten = tokens.flatMap items := by
  induction tokens with
  | nil => rfl
  | cons token tokens ih =>
    obtain ⟨ht, hts⟩ := List.forall_mem_cons.1 h
    rw [List.flatten_cons, List.flatMap_cons, ht.items_append, ih hts]

/-! ## Letter runs -/

/-- The letter runs of patterns that name a field, and what names the field in a format. -/
def letterRuns : List (List Char × List Char) :=
  [("yyyy", "%Y"), ("y", "%Y"), ("yy", "%y"), ("MM", "%m"), ("M", "%m"), ("MMM", "%b"),
   ("dd", "%d"), ("d", "%d"), ("HH", "%H"), ("H", "%H"), ("hh", "%I"), ("h", "%I"), ("mm", "%M"),
   ("m", "%M"), ("ss", "%S"), ("s", "%S"), ("SSS", "%3f"), ("a", "%p"), ("Z", "%z"), ("X", "%:z"),
   ("XX", "%:z"), ("XXX", "%:z")].map fun (run, field) => (run.toList, field.toList)

theorem lookup_letterRuns_iff {source field : List Char} :
    letterRuns.lookup source = some field ↔ (source, field) ∈ letterRuns := by
  have hkeys : ∀ entry ∈ letterRuns, letterRuns.lookup entry.1 = some entry.2 := by decide
  constructor
  · intro h
    obtain ⟨before, after, heq, -⟩ := List.lookup_eq_some_iff.1 h
    rw [heq]
    exact List.mem_append_right _ List.mem_cons_self
  · exact hkeys _

/-- What names a field is a token of its own, and its letters hold no percent sign. -/
theorem letterRuns_entry : ∀ entry ∈ letterRuns,
    entry.2 ∈ specifiers ∧ entry.2 ≠ ['%', '%'] ∧ entry.1.count '%' = 0 := by
  decide

/-- A text that starts neither with a letter of runs nor with a sign names no field. -/
theorem lookup_letterRuns_eq_none {c : Char} (hr : isRunLetter c = false) (hs : isSign c = false)
    (cs : List Char) : letterRuns.lookup (c :: cs) = none := by
  have hstart : ∀ entry ∈ letterRuns,
      entry.1.head?.any (fun c => isRunLetter c || isSign c) = true := by decide
  refine List.lookup_eq_none_iff.2 fun entry he => bne_iff_ne.2 fun heq => ?_
  have hc := hstart entry he
  rw [← heq, List.head?_cons, Option.any_some, hr, hs] at hc
  cases hc

theorem runField?_eq {letter : Char} (hl : isRunLetter letter = true) {count : Nat}
    (hc : 0 < count) :
    runField? letter count = letterRuns.lookup (List.replicate count letter) := by
  simp only [isRunLetter, List.contains_iff_mem, List.mem_cons, List.not_mem_nil, or_false] at hl
  -- No run of five letters or more names a field.
  rcases count with _ | _ | _ | _ | _ | count
  · cases hc
  all_goals rcases hl with rfl | rfl | rfl | rfl | rfl | rfl | rfl | rfl | rfl <;> rfl

/-! ## What a piece gives -/

namespace Piece

/-- The characters that a piece stands for: the quotes around them are left out. -/
def content : Piece → List Char
  | .quoted body => body
  | .run letter count => List.replicate count letter
  | .sign c => [c]
  | .plain c => [c]

/-- The tokens of a piece: what names its field, or its characters one by one. -/
def tokens (piece : Piece) : List (List Char) :=
  match letterRuns.lookup piece.source with
  | some field => [field]
  | none => piece.content.map literal

/-- How the tokens of a piece come from its characters. -/
structure Traced (piece : Piece) : Prop where
  /-- A letter run that names a field gives one token, which names this field. -/
  run : ∀ field, (piece.source, field) ∈ letterRuns → piece.tokens = [field]
  /-- Nothing else gives a token that names a field. -/
  field : ∀ token ∈ piece.tokens, token ∈ specifiers → token ≠ ['%', '%'] →
    (piece.source, token) ∈ letterRuns
  /-- Each percent sign gives one token that stands for it, and nothing else does. -/
  percent : piece.tokens.count ['%', '%'] = piece.source.count '%'

variable {piece : Piece}

theorem tokens_of_lookup {field : List Char} (h : letterRuns.lookup piece.source = some field) :
    piece.tokens = [field] := by
  rw [tokens, h]

theorem tokens_of_none (h : letterRuns.lookup piece.source = none) :
    piece.tokens = piece.content.map literal := by
  rw [tokens, h]

theorem isToken : ∀ token ∈ piece.tokens, IsToken token := by
  cases h : letterRuns.lookup piece.source with
  | some field =>
    rw [tokens_of_lookup h, List.forall_mem_singleton]
    exact .inl (letterRuns_entry _ (lookup_letterRuns_iff.1 h)).1
  | none =>
    rw [tokens_of_none h, List.forall_mem_map]
    exact fun c _ => isToken_literal c

end Piece

theorem literal_eq_percent {c : Char} : literal c = ['%', '%'] ↔ c = '%' := by
  unfold literal
  split <;> next h => simp [h]

theorem count_map_literal (cs : List Char) :
    (cs.map literal).count ['%', '%'] = cs.count '%' := by
  induction cs with
  | nil => rfl
  | cons c cs ih => simp only [List.map_cons, List.count_cons, ih, beq_iff_eq, literal_eq_percent]

/-- Characters without percent signs are tokens as they stand. -/
theorem flatten_map_literal {cs : List Char} (h : '%' ∉ cs) : (cs.map literal).flatten = cs := by
  induction cs with
  | nil => rfl
  | cons c cs ih =>
    obtain ⟨hc, hcs⟩ := not_or.1 (mt List.mem_cons.2 h)
    rw [List.map_cons, List.flatten_cons, ih hcs, literal, if_neg (Ne.symm hc),
      List.singleton_append]

theorem Piece.count_content (piece : Piece) : piece.content.count '%' = piece.source.count '%' := by
  cases piece with
  | quoted body => simp [content, source]
  | run | sign | plain => rfl

/-- **The tokens of a piece come from its characters.** -/
theorem Piece.traced (piece : Piece) : piece.Traced where
  run field hf := tokens_of_lookup (lookup_letterRuns_iff.2 hf)
  field token ht hs hne := by
    cases h : letterRuns.lookup piece.source with
    | some field =>
      rw [tokens_of_lookup h] at ht
      rw [List.mem_singleton.1 ht]
      exact lookup_letterRuns_iff.1 h
    | none =>
      rw [tokens_of_none h] at ht
      obtain ⟨c, -, rfl⟩ := List.mem_map.1 ht
      -- A single character names no field.
      rw [literal, if_neg fun hc => hne (literal_eq_percent.2 hc)] at hs
      have hlong : ∀ s ∈ specifiers, s.length ≠ 1 := by decide
      exact absurd rfl (hlong _ hs)
  percent := by
    cases h : letterRuns.lookup piece.source with
    | some field =>
      obtain ⟨-, hne, hcount⟩ := letterRuns_entry _ (lookup_letterRuns_iff.1 h)
      rw [tokens_of_lookup h, hcount, List.count_singleton,
        if_neg fun heq => hne (beq_iff_eq.1 heq)]
    | none => rw [tokens_of_none h, count_map_literal, count_content]

/-- **The format of a piece is made of its tokens.** -/
theorem pieceFormat_eq {piece : Piece} {rest : List Char} (h : piece.Leads rest) :
    pieceFormat piece = piece.tokens.flatten := by
  cases piece with
  | quoted body =>
    have hnone : letterRuns.lookup (Piece.quoted body).source = none :=
      lookup_letterRuns_eq_none (by decide : isRunLetter '\'' = false) (by decide) _
    rw [Piece.tokens_of_none hnone, pieceFormat, List.flatMap_def, Piece.content]
  | run letter count =>
    obtain ⟨hl, hcount, -⟩ := h
    have hfield : runField? letter count = letterRuns.lookup (Piece.run letter count).source :=
      runField?_eq hl hcount
    rw [pieceFormat, hfield]
    cases hrun : letterRuns.lookup (Piece.run letter count).source with
    | some field => rw [Piece.tokens_of_lookup hrun, List.flatten_singleton, Option.getD_some]
    | none =>
      have hpercent : '%' ∉ List.replicate count letter := fun hm =>
        absurd (List.eq_of_mem_replicate hm ▸ hl) (by decide)
      rw [Piece.tokens_of_none hrun, Piece.content, flatten_map_literal hpercent, Option.getD_none]
  | sign c => rcases isSign_iff.1 h with rfl | rfl | rfl <;> rfl
  | plain c =>
    obtain ⟨hrun, hsign, -⟩ := h
    have hpercent : '%' ∉ [c] := by
      intro hm
      rw [← List.mem_singleton.1 hm] at hsign
      exact absurd hsign (by decide)
    have hnone : letterRuns.lookup (Piece.plain c).source = none :=
      lookup_letterRuns_eq_none hrun hsign []
    rw [Piece.tokens_of_none hnone, Piece.content, flatten_map_literal hpercent, pieceFormat]

/-! ## Patterns -/

/-- The tokens of the format that a pattern denotes, piece by piece. -/
def Pattern.tokens (pattern : String) : List (List Char) :=
  (cut pattern.toList).flatMap Piece.tokens

theorem isToken_of_mem_tokens {pattern : String} : ∀ token ∈ tokens pattern, IsToken token :=
  List.forall_mem_flatMap.2 fun _ _ => Piece.isToken

theorem toList_format (pattern : String) :
    (format pattern).toList = (cut pattern.toList).flatMap fun piece => piece.tokens.flatten := by
  rw [format, String.toList_ofList]
  refine List.flatMap_congr fun piece hp => ?_
  obtain ⟨rest, hleads⟩ := (cuts_iff.2 rfl : Cuts pattern.toList _).leads_of_mem piece hp
  exact pieceFormat_eq hleads

theorem flatten_tokens (pattern : String) : (tokens pattern).flatten = (format pattern).toList := by
  rw [toList_format, tokens, ← List.flatMap_id, List.flatMap_assoc]
  simp only [List.flatMap_id]

/-- **A format has no field that its pattern does not name.** There is one way to cut a pattern from
left to right, and its format is what the pieces give, one after the other. There is one way to read
the format from left to right, and that is piece by piece. A field comes from one letter run that
names it, and a doubled percent sign from one percent sign of the pattern, quoted or not. So a
percent sign never starts something unknown in the format. -/
theorem format_tokens (pattern : String) :
    (∀ pieces, Cuts pattern.toList pieces ↔ pieces = cut pattern.toList) ∧
    (format pattern).toList = (cut pattern.toList).flatMap (fun piece => piece.tokens.flatten) ∧
    (∀ found, Reads (format pattern).toList found ↔
      found = (cut pattern.toList).flatMap Piece.tokens) ∧
    (∀ piece ∈ cut pattern.toList, piece.Traced) ∧
    Item.unknown ∉ items (format pattern).toList := by
  have htokens : ∀ token ∈ tokens pattern, IsToken token := isToken_of_mem_tokens
  have hreads : Reads (format pattern).toList (tokens pattern) :=
    flatten_tokens pattern ▸ reads_flatten htokens
  refine ⟨fun pieces => cuts_iff, toList_format pattern,
    fun found => ⟨fun h => h.unique hreads, ?_⟩, fun piece _ => piece.traced, ?_⟩
  · rintro rfl
    exact hreads
  · rw [← flatten_tokens, items_flatten htokens]
    intro hm
    obtain ⟨token, ht, hunknown⟩ := List.mem_flatMap.1 hm
    exact (htokens token ht).unknown_not_mem hunknown

/-- Neither the letter after a percent sign nor quotes around the two make a field of it. -/
example : tokens "d%Y'%d'a" =
    ["%d", "%%", "Y", "%%", "d", "%p"].map String.toList := by decide

end DocQuery.Calendar
