import DocQuery.Filter.Compile
import Mathlib.Computability.Language
import Mathlib.Data.List.Infix

/-!
# What a `LIKE` test matches

`isLike` is the meaning of a `LIKE` pattern. A document store is sent a regular expression instead.
`Regex.read?` reads the text of one: characters that stand for themselves, the signs for any
character, for repetition and for both ends of the text, and nothing where another sign or a sign
without its operand would be. `Regex.Matches` says which texts it finds.

`likeRegex_matches` compares the two. Every character of a pattern is read as a piece of its own
(`read?_likeRegex`), whatever stands beside it, and the texts that are found are those that are like
the pattern.
-/

namespace DocQuery.Filter

open Syntax
open scoped Computability

/-- Whether a text is like a pattern: the percent sign stands for any text, the underscore for any
one character and every other character for itself. -/
def isLike : List Char → List Char → Bool
  | [], text => text.isEmpty
  | p :: pattern, text =>
    if p = '%' then text.tails.any (isLike pattern)
    else match text with
      | [] => false
      | c :: text => (p == '_' || p == c) && isLike pattern text

/-! ## Regular expressions -/

/-- What stands for one character of a text. -/
inductive Atom where
  /-- Any character. -/
  | any
  /-- A given character. -/
  | exactly (c : Char)
deriving DecidableEq

/-- How often an atom is repeated. -/
inductive Repetition where
  /-- Once, without a sign. -/
  | once
  /-- Any number of times, the sign `*`. -/
  | many
  /-- At least once, the sign `+`. -/
  | some
  /-- At most once, the sign `?`. -/
  | optional
deriving DecidableEq

/-- An atom with its repetition. -/
structure Piece where
  /-- What is repeated. -/
  atom : Atom
  /-- How often it is repeated. -/
  times : Repetition
deriving DecidableEq

/-- A regular expression without groups, classes and alternatives. -/
structure Regex where
  /-- Whether a match has to begin where the text does. -/
  fromStart : Bool
  /-- What is matched, one piece after the other. -/
  pieces : List Piece
  /-- Whether a match has to end where the text does. -/
  toEnd : Bool
deriving DecidableEq

namespace Regex

/-- A sign in the text of a regular expression. -/
inductive Token where
  /-- An atom. -/
  | atom (a : Atom)
  /-- A repetition of the atom in front. -/
  | repeated (times : Repetition)
  /-- The sign `^`. -/
  | start
  /-- The sign `$`. -/
  | finish
deriving DecidableEq

/-- The characters that do not stand for themselves. -/
def operators : List Char :=
  ['\\', '.', '*', '+', '?', '^', '$', '(', ')', '|', '[', ']', '\x7b', '\x7d']

/-- The sign that a character is. -/
def token? (c : Char) : Option Token :=
  if c = '.' then some (.atom .any)
  else if c = '*' then some (.repeated .many)
  else if c = '+' then some (.repeated .some)
  else if c = '?' then some (.repeated .optional)
  else if c = '^' then some .start
  else if c = '$' then some .finish
  else if operators.contains c then none
  else some (.atom (.exactly c))

/-- The sign that a character after a backslash is: itself, but letters and digits have other
meanings there. -/
def escaped? (c : Char) : Option Token :=
  if c.isAlphanum then none else some (.atom (.exactly c))

/-- The signs of a text. -/
def tokens? : List Char → Option (List Token)
  | [] => some []
  | c :: cs =>
    if c = '\\' then
      match cs with
      | [] => none
      | c :: cs => (escaped? c).bind fun token => (tokens? cs).map (token :: ·)
    else (token? c).bind fun token => (tokens? cs).map (token :: ·)

/-- The pieces that signs make up, and whether the end of the text follows them. -/
def pieces? : List Token → Option (List Piece × Bool)
  | [] => some ([], false)
  | [.finish] => some ([], true)
  | .atom a :: .repeated times :: rest =>
    (pieces? rest).map fun (pieces, toEnd) => (⟨a, times⟩ :: pieces, toEnd)
  | .atom a :: rest => (pieces? rest).map fun (pieces, toEnd) => (⟨a, .once⟩ :: pieces, toEnd)
  | _ => none

/-- The regular expression that signs make up. -/
def ofTokens? : List Token → Option Regex
  | .start :: rest => (pieces? rest).map fun (pieces, toEnd) => ⟨true, pieces, toEnd⟩
  | rest => (pieces? rest).map fun (pieces, toEnd) => ⟨false, pieces, toEnd⟩

/-- The regular expression that a text denotes. -/
def read? (text : String) : Option Regex := (tokens? text.toList).bind ofTokens?

end Regex

/-- The texts that an atom matches. -/
def Atom.language : Atom → Language Char
  | .any => {text | ∃ c, text = [c]}
  | .exactly c => {[c]}

/-- The texts that a piece matches. -/
def Piece.language (piece : Piece) : Language Char :=
  match piece.times with
  | .once => piece.atom.language
  | .many => piece.atom.language∗
  | .some => piece.atom.language * piece.atom.language∗
  | .optional => 1 + piece.atom.language

/-- Whether a regular expression finds a match in a text. -/
def Regex.Matches (r : Regex) (text : List Char) : Prop :=
  ∃ before body after, before ++ body ++ after = text ∧
    body ∈ (r.pieces.map Piece.language).prod ∧
    (r.fromStart = true → before = []) ∧ (r.toEnd = true → after = [])

/-! ## The regular expression of a pattern -/

/-- The piece that a character of a pattern stands for. -/
def likePiece (c : Char) : Piece :=
  if c = '%' then ⟨.any, .many⟩ else if c = '_' then ⟨.any, .once⟩ else ⟨.exactly c, .once⟩

/-- The signs that a piece is written with. -/
def Piece.tokens (piece : Piece) : List Regex.Token :=
  .atom piece.atom :: match piece.times with
    | .once => []
    | times => [.repeated times]

namespace Regex

theorem tokens?_cons {c : Char} (h : c ≠ '\\') (cs : List Char) :
    tokens? (c :: cs) = (token? c).bind fun token => (tokens? cs).map (token :: ·) := by
  rw [tokens?.eq_def]
  exact if_neg h

theorem token?_of_notMem {c : Char} (h : c ∉ operators) : token? c = some (.atom (.exactly c)) := by
  simp only [operators, List.mem_cons, List.not_mem_nil, or_false, not_or] at h
  simp [token?, operators, h]

/-- Escaping leaves a character that stands for itself, beside whatever follows. -/
theorem tokens?_escapeRegex (c : Char) (cs : List Char) :
    tokens? (escapeRegex c ++ cs) = (tokens? cs).map (.atom (.exactly c) :: ·) := by
  have hword : regexSpecials.all (fun c => !c.isAlphanum) = true := by decide
  have hoperators : operators.all regexSpecials.contains = true := by decide
  unfold escapeRegex
  split
  · next hc =>
    have hescaped : escaped? c = some (.atom (.exactly c)) := by
      have hsign := List.all_eq_true.1 hword c (List.contains_iff_mem.1 hc)
      rw [escaped?, Bool.not_eq_eq_eq_not.1 hsign]
      exact if_neg Bool.false_ne_true
    change tokens? ('\\' :: c :: cs) = _
    rw [tokens?, if_pos rfl, hescaped, Option.bind_some]
  · next hc =>
    have hplain : c ∉ operators := fun hm => hc (List.all_eq_true.1 hoperators c hm)
    have hne : c ≠ '\\' := fun heq => hplain (heq ▸ by decide)
    rw [List.singleton_append, tokens?_cons hne, token?_of_notMem hplain, Option.bind_some]

theorem tokens?_likeChar (c : Char) (cs : List Char) :
    tokens? (likeChar c ++ cs) = (tokens? cs).map ((likePiece c).tokens ++ ·) := by
  unfold likeChar likePiece
  split
  · change tokens? ('.' :: '*' :: cs) = _
    rw [tokens?_cons (by decide), tokens?_cons (by decide)]
    change ((tokens? cs).map _).map _ = _
    rw [Option.map_map]
    rfl
  · split
    · change tokens? ('.' :: cs) = _
      rw [tokens?_cons (by decide)]
      rfl
    · exact tokens?_escapeRegex c cs

theorem tokens?_flatMap_likeChar (pattern cs : List Char) :
    tokens? (pattern.flatMap likeChar ++ cs) =
      (tokens? cs).map (pattern.flatMap (fun c => (likePiece c).tokens) ++ ·) := by
  induction pattern with
  | nil => simp
  | cons c pattern ih =>
    rw [List.flatMap_cons, List.append_assoc, tokens?_likeChar, ih, Option.map_map]
    congr 1
    funext tokens
    simp

/-- A piece is read whole if no sign of repetition follows it. -/
theorem pieces?_append (piece : Piece) {rest : List Token}
    (h : ∀ times rest', rest ≠ .repeated times :: rest') :
    pieces? (piece.tokens ++ rest) =
      (pieces? rest).map fun (pieces, toEnd) => (piece :: pieces, toEnd) := by
  obtain ⟨a, times⟩ := piece
  cases times with
  | once =>
    change pieces? (.atom a :: rest) = _
    rw [pieces?]
    exact h
  | many | some | optional => rfl

/-- Pieces that are written one after the other are read one after the other. -/
theorem pieces?_flatMap_tokens (pieces : List Piece) :
    pieces? (pieces.flatMap Piece.tokens ++ [.finish]) = some (pieces, true) := by
  induction pieces with
  | nil => rfl
  | cons piece pieces ih =>
    rw [List.flatMap_cons, List.append_assoc, pieces?_append, ih]
    · rfl
    · intro times rest' heq
      cases pieces with
      | nil => cases heq
      | cons next pieces => cases heq

/-- **A pattern is read as one piece for each of its characters**, bound to both ends of the
text. -/
theorem read?_likeRegex (pattern : String) :
    read? ("^" ++ likeRegex pattern ++ "$") =
      some ⟨true, pattern.toList.map likePiece, true⟩ := by
  have htext : ("^" ++ likeRegex pattern ++ "$").toList =
      '^' :: (pattern.toList.flatMap likeChar ++ ['$']) := by
    simp [likeRegex]
  have htokens : tokens? ('^' :: (pattern.toList.flatMap likeChar ++ ['$'])) =
      some (.start :: ((pattern.toList.map likePiece).flatMap Piece.tokens ++ [.finish])) := by
    rw [tokens?_cons (by decide), tokens?_flatMap_likeChar, List.flatMap_map]
    rfl
  rw [read?, htext, htokens, Option.bind_some, ofTokens?, pieces?_flatMap_tokens]
  rfl

end Regex

/-! ## The texts that are found -/

theorem isLike_percent (pattern text : List Char) :
    isLike ('%' :: pattern) text = text.tails.any (isLike pattern) := by
  rw [isLike.eq_def]
  rfl

theorem isLike_nil_of_ne {p : Char} (hp : p ≠ '%') (pattern : List Char) :
    isLike (p :: pattern) [] = false :=
  if_neg hp

theorem isLike_cons_of_ne {p : Char} (hp : p ≠ '%') (pattern : List Char) (c : Char)
    (text : List Char) :
    isLike (p :: pattern) (c :: text) = ((p == '_' || p == c) && isLike pattern text) :=
  if_neg hp

theorem mem_kstar_any (text : List Char) : text ∈ Atom.any.language∗ := by
  refine Language.mem_kstar.2 ⟨text.map fun c => [c], ?_, ?_⟩
  · induction text with
    | nil => rfl
    | cons c text ih => rw [List.map_cons, List.flatten_cons, ← ih, List.singleton_append]
  · intro part hpart
    obtain ⟨c, -, rfl⟩ := List.mem_map.1 hpart
    exact ⟨c, rfl⟩

/-- A character of a pattern that is not the percent sign takes the first character of a text. -/
theorem mem_once_mul {p : Char} (hp : p ≠ '%') {rest : Language Char} {text : List Char} :
    text ∈ (likePiece p).language * rest ↔
      ∃ c tail, text = c :: tail ∧ (p = '_' ∨ p = c) ∧ tail ∈ rest := by
  rw [Language.mem_mul, likePiece, if_neg hp]
  split
  · next hany =>
    constructor
    · rintro ⟨_, ⟨c, rfl⟩, tail, ht, rfl⟩
      exact ⟨c, tail, rfl, .inl hany, ht⟩
    · rintro ⟨c, tail, rfl, -, ht⟩
      exact ⟨[c], ⟨c, rfl⟩, tail, ht, rfl⟩
  · next hany =>
    constructor
    · rintro ⟨_, rfl, tail, ht, rfl⟩
      exact ⟨p, tail, rfl, .inr rfl, ht⟩
    · rintro ⟨c, tail, rfl, hc, ht⟩
      obtain rfl := hc.resolve_left hany
      exact ⟨[p], rfl, tail, ht, rfl⟩

/-- The pieces of a pattern match the texts that are like it. -/
theorem mem_prod_likePiece {pattern text : List Char} :
    text ∈ ((pattern.map likePiece).map Piece.language).prod ↔ isLike pattern text = true := by
  induction pattern generalizing text with
  | nil => simp [isLike, Language.mem_one]
  | cons p pattern ih =>
    rw [List.map_cons, List.map_cons, List.prod_cons]
    by_cases hp : p = '%'
    · -- The percent sign can take any part at the start of the text.
      subst hp
      simp only [isLike_percent, List.any_eq_true, List.mem_tails, ← ih]
      constructor
      · intro h
        obtain ⟨before, -, after, hafter, rfl⟩ := Language.mem_mul.1 h
        exact ⟨after, List.suffix_append before after, hafter⟩
      · rintro ⟨after, ⟨before, rfl⟩, hafter⟩
        exact Language.mem_mul.2 ⟨before, mem_kstar_any before, after, hafter, rfl⟩
    · rw [mem_once_mul hp]
      cases text with
      | nil => simp [isLike_nil_of_ne hp]
      | cons c tail =>
        rw [isLike_cons_of_ne hp, Bool.and_eq_true, ← ih]
        simp

/-- A regular expression that is bound to both ends of a text matches it as a whole. -/
theorem Regex.matches_whole {pieces : List Piece} {text : List Char} :
    (⟨true, pieces, true⟩ : Regex).Matches text ↔ text ∈ (pieces.map Piece.language).prod := by
  constructor
  · rintro ⟨before, body, after, rfl, hbody, hbefore, hafter⟩
    rw [hbefore rfl, hafter rfl, List.nil_append, List.append_nil]
    exact hbody
  · intro h
    exact ⟨[], text, [], by simp, h, fun _ => rfl, fun _ => rfl⟩

/-- **A `LIKE` test matches the texts that are like its pattern.** The pattern is a text or the path
of a column, and the test is sent as a regular expression for the column on the left. It is read as
one piece for each character of the pattern, bound to both ends of the text: a repetition of any
character for each percent sign, any character for each underscore, and the character itself
otherwise. The texts in which it finds a match are those that are like the pattern. -/
theorem likeRegex_matches (pattern : String) :
    (∀ s role c, valueOf s role (.like (.column c) (.literal (.string pattern)) false) =
      .ok (.single c.path (.single "$regex" (.string ("^" ++ likeRegex pattern ++ "$"))))) ∧
    (∀ s role c p, Column.path p = pattern → valueOf s role (.like (.column c) (.column p) false) =
      .ok (.single c.path (.single "$regex" (.string ("^" ++ likeRegex pattern ++ "$"))))) ∧
    ∃ regex, Regex.read? ("^" ++ likeRegex pattern ++ "$") = some regex ∧
      regex = ⟨true, pattern.toList.map likePiece, true⟩ ∧
      ∀ text : String, regex.Matches text.toList ↔
        isLike pattern.toList text.toList = true := by
  refine ⟨fun s role c => rfl, ?_, _, Regex.read?_likeRegex pattern, rfl, fun text => ?_⟩
  · rintro s role c p rfl
    rfl
  · rw [Regex.matches_whole, mem_prod_likePiece]

/-- The dot in the path of a column stands for itself. -/
theorem likeRegex_matches_path : Column.path ⟨some "x", "%"⟩ = "x.%" ∧
    valueOf {} .condition (.like (.column ⟨none, "a"⟩) (.column ⟨some "x", "%"⟩) false) =
      .ok (.single "a" (.single "$regex" (.string "^x\\..*$"))) ∧
    ∃ regex, Regex.read? "^x\\..*$" = some regex ∧ regex.Matches "x.yz".toList ∧
      ¬ regex.Matches "xyz".toList := by
  have hpath : Column.path ⟨some "x", "%"⟩ = "x.%" := by decide
  have htext : "^" ++ likeRegex "x.%" ++ "$" = "^x\\..*$" := by decide
  obtain ⟨-, hcolumn, regex, hread, -, hmatches⟩ := likeRegex_matches "x.%"
  rw [htext] at hcolumn hread
  refine ⟨hpath, hcolumn {} .condition ⟨none, "a"⟩ _ hpath, regex, hread, ?_, ?_⟩
  · exact (hmatches "x.yz").2 (by decide)
  · exact mt (hmatches "xyz").1 (by decide)

end DocQuery.Filter
