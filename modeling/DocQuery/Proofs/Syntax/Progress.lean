import DocQuery.Proofs.Syntax.Lockstep
import Mathlib.Logic.Function.Iterate

/-!
# How far readers move

A reader stays in its text and never moves back, and a refusal marks a part of the text with the
characters that stand there (`Progress`). Where a reader takes at least one character, what follows it
has less left to read. `AgreeBelow n p r r'` says both of two readers that have fewer than `n`
characters left: they do the same, and they move on if what they read satisfies `p`. Chains of readers
inherit it from their steps (`AgreeBelow.bind`), and after a step that moves on, fewer characters will
do.

So two recursions that move on before they call themselves agree as far as they are unfolded,
whatever is called at the bottom (`Unrolls.agreeBelow`), and such a recursion comes to an end
(`Unrolls.halts`).
-/

namespace DocQuery.Syntax

/-- Whether a refusal marks a part of a text: it starts before it stops, it stops in the text or at
its end, and it holds the characters from `start` up to and including `stop`, as far as there are
any. -/
def SyntaxError.Marks (e : SyntaxError) (text : List Char) : Prop :=
  e.start ≤ e.stop ∧ e.stop ≤ text.length ∧ e.text.toList = (text.take (e.stop + 1)).drop e.start

namespace Cursor

/-! ## Cursors in their text -/

/-- Whether a cursor stands in its text or at its end. -/
def Inside (c : Cursor) : Prop := c.pos ≤ c.text.length

/-- Whether a cursor stands in the same text as another one and not before it. -/
structure Onward (c d : Cursor) : Prop where
  text : d.text = c.text
  pos : c.pos ≤ d.pos
  inside : d.Inside

variable {c d : Cursor}

theorem inside_ofString (s : String) : (ofString s).Inside := Nat.zero_le _

theorem length_rest (c : Cursor) : c.rest.length = c.text.length - c.pos := by
  rw [c.rest_eq, List.length_drop]

namespace Onward

theorem refl (hc : c.Inside) : c.Onward c := ⟨rfl, Nat.le_refl _, hc⟩

theorem trans {e : Cursor} (h : c.Onward d) (h' : d.Onward e) : c.Onward e :=
  ⟨h'.text.trans h.text, Nat.le_trans h.pos h'.pos, h'.inside⟩

theorem length_le (h : c.Onward d) : d.rest.length ≤ c.rest.length := by
  have hpos := h.pos
  rw [length_rest, length_rest, h.text]
  omega

/-- Less is left exactly where the cursor has moved. -/
theorem length_lt_iff (h : c.Onward d) : d.rest.length < c.rest.length ↔ c.pos < d.pos := by
  have hpos := h.pos
  have hinside : d.pos ≤ d.text.length := h.inside
  rw [length_rest, length_rest, h.text]
  rw [h.text] at hinside
  omega

end Onward

theorem Inside.advance (hc : c.Inside) (count : Nat) : c.Onward (c.advance count) := by
  refine ⟨rfl, Nat.le_add_right _ _, ?_⟩
  have hlength := c.length_rest
  have hpos : c.pos ≤ c.text.length := hc
  change c.pos + min count c.rest.length ≤ c.text.length
  omega

theorem Inside.skipBlank (hc : c.Inside) : c.Onward c.skipBlank := hc.advance _

theorem Inside.jump (hc : c.Inside) (count : Nat) : c.Onward (c.jump count) := by
  unfold Cursor.jump
  split
  · exact ⟨rfl, hc, Nat.le_refl _⟩
  · exact hc.advance count

theorem pos_eq_of_atEnd (hc : c.Inside) (h : c.atEnd = true) : c.pos = c.text.length := by
  have hlength := c.length_rest
  rw [List.isEmpty_iff.1 h] at hlength
  exact Nat.le_antisymm hc (Nat.le_of_sub_eq_zero hlength.symm)

/-! ## Refusals -/

theorem Inside.marks_error (hc : c.Inside) (reason : String) (pivot : Nat) :
    (c.error reason pivot).Marks c.text :=
  ⟨Nat.min_le_right _ _, hc, String.toList_ofList⟩

theorem Inside.marks_trailing (hc : c.Inside) : c.trailing.Marks c.text := by
  refine ⟨hc, Nat.le_refl _, ?_⟩
  have htake : c.text.take (c.text.length + 1) = c.text.take c.text.length := by
    rw [List.take_length, List.take_of_length_le (Nat.le_succ _)]
  exact String.toList_ofList.trans (congrArg (List.drop c.pos) htake.symm)

end Cursor

namespace Reader

variable {α β : Type} {n m : Nat} {p : α → Prop} {q : β → Prop}

/-! ## Single readers -/

/-- What reading from a cursor may come to: the cursor stays in the text and does not move back, and
it moves on if what is read satisfies `p`, or a part of the text is refused. -/
inductive Progress (p : α → Prop) (c : Cursor) : Except SyntaxError (α × Cursor) → Prop where
  /-- Something is read. -/
  | read {a : α} {d : Cursor} (h : c.Onward d) (hp : p a → c.pos < d.pos) : Progress p c (.ok (a, d))
  /-- The text is refused. -/
  | refused {e : SyntaxError} (h : e.Marks c.text) : Progress p c (.error e)

/-- Whether a reader stays in the text, does not move back, and moves on if what it reads satisfies
`p`. -/
def Advances (p : α → Prop) (r : Reader α) : Prop := ∀ c : Cursor, c.Inside → Progress p c (r c)

/-- Reading on from a later cursor. -/
theorem Progress.onward {q : α → Prop} {c d : Cursor} {x : Except SyntaxError (α × Cursor)}
    (h : Progress p d x) (hd : c.Onward d) (hq : ∀ a, q a → p a ∨ c.pos < d.pos) :
    Progress q c x := by
  cases h with
  | read hon hp =>
    refine .read (hd.trans hon) fun ha => ?_
    rcases hq _ ha with ha | hlt
    · exact Nat.lt_of_le_of_lt hd.pos (hp ha)
    · exact Nat.lt_of_lt_of_le hlt hon.pos
  | refused hm => exact .refused (hd.text ▸ hm)

/-! ## Two readers -/

/-- Two readers do the same at a cursor, and as they should. -/
def AgreeAt (p : α → Prop) (c : Cursor) (r r' : Reader α) : Prop := r c = r' c ∧ Progress p c (r c)

/-- Two readers do the same, and as they should, with fewer than `n` characters left. -/
def AgreeBelow (n : Nat) (p : α → Prop) (r r' : Reader α) : Prop :=
  ∀ c : Cursor, c.Inside → c.rest.length < n → AgreeAt p c r r'

theorem Advances.agreeBelow {r : Reader α} (h : Advances p r) : AgreeBelow n p r r :=
  fun c hc _ => ⟨rfl, h c hc⟩

theorem advances_of_agreeBelow {r : Reader α} (h : ∀ n, AgreeBelow n p r r) : Advances p r :=
  fun c hc => (h _ c hc (Nat.lt_succ_self _)).2

theorem agreeBelow_zero (r r' : Reader α) : AgreeBelow 0 p r r' :=
  fun _ _ h => absurd h (Nat.not_lt_zero _)

theorem advances_pure (a : α) : Advances (fun _ => False) (pure a) :=
  fun _ hc => .read (.refl hc) False.elim

theorem agreeBelow_pure (a : α) : AgreeBelow n (fun _ => False) (pure a : Reader α) (pure a) :=
  (advances_pure a).agreeBelow

/-- What follows a reader may start with less of the text. -/
theorem AgreeAt.bind {c : Cursor} {r r' : Reader α} {f f' : α → Reader β} (h : AgreeAt p c r r')
    (hf : ∀ a d, c.Onward d → (p a → c.pos < d.pos) →
      ∃ q' : β → Prop, AgreeAt q' d (f a) (f' a) ∧ ∀ b, q b → q' b ∨ c.pos < d.pos) :
    AgreeAt q c (r >>= f) (r' >>= f') := by
  obtain ⟨heq, hread⟩ := h
  unfold AgreeAt
  rw [run_bind, run_bind, ← heq]
  generalize r c = x at hread
  cases hread with
  | refused hm => exact ⟨rfl, .refused hm⟩
  | @read a d hd hp =>
    obtain ⟨q', ⟨hsame, hnext⟩, hq⟩ := hf a d hd hp
    exact ⟨hsame, hnext.onward hd hq⟩

namespace AgreeBelow

variable {r r' : Reader α} {f f' : α → Reader β}

theorem mono (h : AgreeBelow n p r r') {p' : α → Prop} (hm : m ≤ n) (hp : ∀ a, p' a → p a) :
    AgreeBelow m p' r r' := by
  intro c hc hlt
  obtain ⟨heq, hread⟩ := h c hc (Nat.lt_of_lt_of_le hlt hm)
  exact ⟨heq, hread.onward (.refl hc) fun a ha => .inl (hp a ha)⟩

/-- After a step that moves on, the rest need not, and has fewer characters left. -/
theorem bind (h : AgreeBelow n p r r')
    (hyes : ∀ a, p a → AgreeBelow (n - 1) (fun _ => False) (f a) (f' a))
    (hno : ∀ a, ¬ p a → AgreeBelow n q (f a) (f' a)) : AgreeBelow n q (r >>= f) (r' >>= f') := by
  intro c hc hlt
  refine (h c hc hlt).bind fun a d hd hp => ?_
  by_cases ha : p a
  · have hless := hd.length_lt_iff.2 (hp ha)
    exact ⟨_, hyes a ha d hd.inside (by omega), fun _ _ => .inr (hp ha)⟩
  · exact ⟨q, hno a ha d hd.inside (Nat.lt_of_le_of_lt hd.length_le hlt), fun _ hb => .inl hb⟩

/-- What follows any reader. -/
theorem andThen (h : AgreeBelow n p r r') (hf : ∀ a, AgreeBelow n q (f a) (f' a)) :
    AgreeBelow n q (r >>= f) (r' >>= f') := by
  have hweak : AgreeBelow n (fun _ => False) r r' := h.mono (Nat.le_refl n) fun _ => False.elim
  exact hweak.bind (fun _ => False.elim) fun a _ => hf a

/-- What follows a reader that moves on. -/
theorem bind_moved (h : AgreeBelow n (fun _ => True) r r')
    (hf : ∀ a, AgreeBelow (n - 1) (fun _ => False) (f a) (f' a)) :
    AgreeBelow n q (r >>= f) (r' >>= f') :=
  h.bind (fun a _ => hf a) fun _ hfalse => absurd trivial hfalse

/-- What follows a look for something, which moves on if it is found. -/
theorem bind_look {look look' : Reader Bool} {f f' : Bool → Reader β}
    (h : AgreeBelow n (· = true) look look')
    (hyes : AgreeBelow (n - 1) (fun _ => False) (f true) (f' true))
    (hno : AgreeBelow n q (f false) (f' false)) :
    AgreeBelow n q (look >>= f) (look' >>= f') := by
  refine h.bind ?_ ?_
  · rintro _ rfl
    exact hyes
  · intro found hfound
    cases found with
    | true => exact absurd rfl hfound
    | false => exact hno

theorem ite {t : Prop} [Decidable t] {s s' : Reader α} (h : AgreeBelow n p r r')
    (h' : AgreeBelow n p s s') : AgreeBelow n p (if t then r else s) (if t then r' else s') := by
  split
  · exact h
  · exact h'

theorem discard (h : AgreeBelow n p r r') :
    AgreeBelow n (fun _ => False) (discard r) (discard r') :=
  h.andThen fun _ => agreeBelow_pure ()

end AgreeBelow

theorem agreeBelow_position {f f' : Nat → Reader β} (h : ∀ pos, AgreeBelow n q (f pos) (f' pos)) :
    AgreeBelow n q (position >>= f) (position >>= f') :=
  fun c hc hlt => h c.pos c hc hlt

theorem agreeBelow_get {f f' : Cursor → Reader β} (h : ∀ c, AgreeBelow n q (f c) (f' c)) :
    AgreeBelow n q (get >>= f) (get >>= f') :=
  fun c hc hlt => h c c hc hlt

/-! ## Tokens -/

theorem advances_fail (reason : String) (pivot : Nat) : Advances p (fail reason pivot) :=
  fun _ hc => .refused (hc.marks_error reason pivot)

theorem advances_skipBlank : Advances (fun _ => False) skipBlank :=
  fun _ hc => .read hc.skipBlank False.elim

theorem advances_isWord (word : String) : Advances (fun _ => False) (isWord word) :=
  fun _ hc => .read (.refl hc) False.elim

theorem advances_consumeChar {ch : Char} (hne : ch ≠ Cursor.endMark) :
    Advances (· = true) (consumeChar ch) := by
  intro c hc
  unfold consumeChar
  split
  · next h =>
    have hon := (hc.advance 1).trans (hc.advance 1).inside.skipBlank
    exact .read hon fun _ => hon.length_lt_iff.1 (length_after_char h hne)
  · exact .read (.refl hc) fun h => absurd h Bool.false_ne_true

theorem advances_consumeWord {word : String} (hw : word ∈ reservedWords) :
    Advances (· = true) (consumeWord word) := by
  intro c hc
  unfold consumeWord
  split
  · next h =>
    rw [isAt_keyword] at h
    have hon := (hc.jump word.length).trans (hc.jump word.length).inside.skipBlank
    exact .read hon fun _ => hon.length_lt_iff.1 (length_after_word hw h)
  · exact .read (.refl hc) fun h => absurd h Bool.false_ne_true

/-- A look that refuses what is not found. -/
theorem advances_expect {look : Reader Bool} (h : Advances (· = true) look) (reason : String) :
    Advances (fun _ => True) (do unless ← look do fail reason (← position) : Reader Unit) := by
  refine advances_of_agreeBelow fun n => h.agreeBelow.bind_look ?_ ?_
  · exact agreeBelow_pure ()
  · exact agreeBelow_position fun pos => (advances_fail reason pos).agreeBelow

theorem advances_expectChar {ch : Char} (hne : ch ≠ Cursor.endMark) (reason : String) :
    Advances (fun _ => True) (expectChar ch reason) :=
  advances_expect (advances_consumeChar hne) reason

theorem advances_expectWord {word : String} (hw : word ∈ reservedWords) (reason : String) :
    Advances (fun _ => True) (expectWord word reason) :=
  advances_expect (advances_consumeWord hw) reason

theorem advances_name : Advances (fun _ => True) name := by
  intro c hc
  cases h : name c with
  | error e =>
    unfold name at h
    split at h
    · cases h
    · cases h
      exact .refused (hc.marks_error _ _)
  | ok found =>
    obtain ⟨s, d⟩ := found
    obtain ⟨hname, hrest, -⟩ := name_eq_ok h
    have hon : c.Onward d := by
      unfold name at h
      split at h
      · cases h
        exact hc.advance _
      · cases h
    refine .read hon fun _ => hon.length_lt_iff.1 ?_
    obtain ⟨ch, cs, hs⟩ := hname.exists_cons
    rw [hrest, hs, List.length_append, List.length_cons]
    omega

/-- A cursor that is moved over characters that are there has moved. -/
theorem pos_lt_advance {c : Cursor} {count : Nat} (hcount : 0 < count) (hrest : c.rest ≠ []) :
    c.pos < (c.advance count).pos := by
  have hlength := List.length_pos_iff.2 hrest
  change c.pos < c.pos + min count c.rest.length
  omega

theorem advances_quoted : Advances (fun _ => True) quoted := by
  intro c hc
  unfold quoted
  split
  · next body size h =>
    refine .read (hc.advance _) fun _ => pos_lt_advance (Nat.succ_pos _) fun hnil => ?_
    rw [hnil] at h
    cases h
  · exact .refused ((hc.advance _).inside.marks_error _ _)

theorem advances_number : Advances (fun _ => True) number := by
  intro c hc
  unfold number
  dsimp only
  generalize hsign : (if c.current = '-' then c.rest.take 1 else []) = sign
  generalize hbody : numberBody false (c.rest.drop sign.length) = body
  split
  · next value h =>
    refine .read (hc.advance _) fun _ => pos_lt_advance ?_ fun hnil => ?_
    · rw [← List.length_append, List.length_pos_iff]
      intro hempty
      rw [hempty] at h
      cases h
    · rw [hnil, List.take_nil, ite_self] at hsign
      subst hsign
      rw [hnil] at hbody
      subst hbody
      cases h
  · exact .refused ((hc.advance _).inside.marks_error _ _)

theorem advances_comparison : Advances (fun _ => False) comparison := by
  intro c hc
  unfold comparison
  split
  · exact .read ((hc.advance _).trans (hc.advance _).inside.skipBlank) False.elim
  · exact .read (.refl hc) False.elim

/-! ## Recursion

The readers of a recursion are those that `see` shows of what is called again: one reader, one for
each argument, or several that call each other. -/

variable {γ ι : Type} {kind : ι → Type} {see : γ → (i : ι) → Reader (kind i)}
  {ps : (i : ι) → kind i → Prop} {round round' : γ → γ} {loop loop' : Nat → γ}

/-- Whether a recursion comes to an end in what `x` does: unfolded more often than there are
characters left, it does that, whatever is called at the bottom. -/
def Halts (see : γ → (i : ι) → Reader (kind i)) (round : γ → γ) (x : γ) : Prop :=
  ∀ (bottom : γ) (n : Nat) (i : ι) (c : Cursor), c.Inside → c.rest.length < n →
    see (round^[n] bottom) i c = see x i c

/-- The recursion with a bound on its rounds. At the end of the text one more round changes
nothing. -/
structure Unrolls (see : γ → (i : ι) → Reader (kind i)) (round : γ → γ) (loop : Nat → γ) : Prop where
  succ : ∀ k, loop (k + 1) = round (loop k)
  nil : ∀ i c, c.Inside → c.rest = [] → see (loop 0) i c = see (round (loop 0)) i c

namespace Unrolls

/-- At the end of the text, any bound gives a round of the recursion. -/
theorem exists_round (h : Unrolls see round loop) (k : Nat) :
    ∃ x, ∀ i c, c.Inside → c.rest = [] → see (loop k) i c = see (round x) i c := by
  cases k with
  | zero => exact ⟨loop 0, h.nil⟩
  | succ k => exact ⟨loop k, fun i c _ _ => by rw [h.succ]⟩

/-- **Two recursions agree as far as both are unfolded**, if a round on both sides makes them agree
with one more character left. -/
theorem agreeBelow (h : Unrolls see round loop) (h' : Unrolls see round' loop')
    (hround : ∀ m x y, m < n → (∀ i, AgreeBelow m (ps i) (see x i) (see y i)) →
      ∀ i, AgreeBelow (m + 1) (ps i) (see (round x) i) (see (round' y) i))
    {k k' : Nat} (hm : m ≤ n) (hk : m ≤ k + 1) (hk' : m ≤ k' + 1) (i : ι) :
    AgreeBelow m (ps i) (see (loop k) i) (see (loop' k') i) := by
  induction m generalizing k k' i with
  | zero => exact agreeBelow_zero _ _
  | succ m ih =>
    by_cases hlast : k = 0 ∨ k' = 0
    · -- One of the bounds is used up, and so is the text.
      intro c hc hlt
      have hnil : c.rest = [] := List.eq_nil_of_length_eq_zero (by omega)
      obtain ⟨x, hx⟩ := h.exists_round k
      obtain ⟨y, hy⟩ := h'.exists_round k'
      have hfirst := hround 0 x y (by omega) (fun i => agreeBelow_zero _ _) i c hc (by simp [hnil])
      unfold AgreeAt at hfirst ⊢
      rwa [hx i c hc hnil, hy i c hc hnil]
    · obtain ⟨k, rfl⟩ : ∃ j, k = j + 1 := ⟨k - 1, by omega⟩
      obtain ⟨k', rfl⟩ : ∃ j, k' = j + 1 := ⟨k' - 1, by omega⟩
      rw [h.succ, h'.succ]
      exact hround m _ _ hm (ih (by omega) (by omega) (by omega)) i

/-- Loops that are bounded by what is left to read agree. -/
theorem agreeBelow_within (h : Unrolls see round loop) (h' : Unrolls see round' loop')
    (hround : ∀ m x y, m < n → (∀ i, AgreeBelow m (ps i) (see x i) (see y i)) →
      ∀ i, AgreeBelow (m + 1) (ps i) (see (round x) i) (see (round' y) i)) (i : ι) :
    AgreeBelow n (ps i) (fun c => see (loop c.rest.length) i c)
      (fun c => see (loop' c.rest.length) i c) :=
  fun c hc hlt => h.agreeBelow h' hround hlt (Nat.le_refl _) (Nat.le_refl _) i c hc
    (Nat.lt_succ_self _)

/-- **A recursion that moves on before it calls itself comes to an end**, and the bound of one round
for each character that is left is never what ends it. -/
theorem halts (h : Unrolls see round loop)
    (hround : ∀ m x y, (∀ i, AgreeBelow m (ps i) (see x i) (see y i)) →
      ∀ i, AgreeBelow (m + 1) (ps i) (see (round x) i) (see (round y) i)) {x : γ}
    (hx : ∀ i c, c.Inside → see x i c = see (loop c.rest.length) i c) : Halts see round x := by
  intro bottom n i c hc hlt
  have hiterate : Unrolls see round fun k => round^[k + 1] bottom := by
    refine ⟨fun k => Function.iterate_succ_apply' round (k + 1) bottom, fun i c hc hnil => ?_⟩
    exact (hround 0 _ _ (fun i => agreeBelow_zero _ _) i c hc (by simp [hnil])).1
  have hn : n - 1 + 1 = n := by omega
  have hk : c.rest.length + 1 ≤ n - 1 + 1 := by omega
  have hagree := h.agreeBelow hiterate (fun m x y _ => hround m x y) (Nat.le_refl _)
    (Nat.le_refl (c.rest.length + 1)) hk i c hc (Nat.lt_succ_self _)
  rw [hx i c hc, hagree.1, hn]

end Unrolls

end Reader

end DocQuery.Syntax
