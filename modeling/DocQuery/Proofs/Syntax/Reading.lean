import DocQuery.Proofs.Outcome
import DocQuery.Syntax.Reader

/-!
# What readers read

A reader is described from both sides. `run_bind_eq_ok` takes a successful run apart into its steps.
`Reads r input a output` says that the reader takes any cursor with `input` after it to the value `a`
and a cursor with `output` after it, and is put together step by step with `Reads.bind`.

Whether a keyword comes next depends on the text after the cursor only. A text that starts with
characters that are no delimiters, up to a delimiter or the end, starts with the keyword that these
characters spell, and with no other (`startsWith_append_iff`).
-/

namespace DocQuery.Syntax

/-! ## Cursors -/

/-- The characters without the blank ones at the start. -/
abbrev trimStart (cs : List Char) : List Char := cs.dropWhile Text.isBlank

theorem drop_length_takeWhile (p : Char → Bool) (cs : List Char) :
    cs.drop (cs.takeWhile p).length = cs.dropWhile p := by
  have h : cs = cs.takeWhile p ++ cs.dropWhile p := List.takeWhile_append_dropWhile.symm
  calc cs.drop (cs.takeWhile p).length
      = (cs.takeWhile p ++ cs.dropWhile p).drop (cs.takeWhile p).length := by rw [← h]
    _ = cs.dropWhile p := List.drop_left

theorem trimStart_cons {ch : Char} (h : Text.isBlank ch = false) (cs : List Char) :
    trimStart (ch :: cs) = ch :: cs :=
  List.dropWhile_cons_of_neg (by rw [h]; exact Bool.false_ne_true)

theorem length_trimStart_le (cs : List Char) : (trimStart cs).length ≤ cs.length :=
  (List.dropWhile_sublist _).length_le

theorem trimStart_trimStart (cs : List Char) : trimStart (trimStart cs) = trimStart cs := by
  induction cs with
  | nil => rfl
  | cons ch cs ih =>
    cases h : Text.isBlank ch with
    | true =>
      have hcs : trimStart (ch :: cs) = trimStart cs := List.dropWhile_cons_of_pos h
      rw [hcs, ih]
    | false => rw [trimStart_cons h, trimStart_cons h]

namespace Cursor

@[simp] theorem rest_advance (c : Cursor) (count : Nat) :
    (c.advance count).rest = c.rest.drop count := rfl

@[simp] theorem rest_skipBlank (c : Cursor) : c.skipBlank.rest = trimStart c.rest := by
  rw [skipBlank, rest_advance, drop_length_takeWhile]

@[simp] theorem rest_jump (c : Cursor) (count : Nat) :
    (c.jump count).rest = c.rest.drop count := by
  unfold jump
  split
  · next h =>
    have hr : c.rest = [] := List.isEmpty_iff.1 h
    rw [hr, List.drop_nil]
    exact List.drop_length
  · rfl

theorem current_eq (c : Cursor) : c.current = c.rest.head?.getD endMark := by
  rw [current, peek, List.head?_eq_getElem?]

theorem current_of_rest {c : Cursor} {ch : Char} {cs : List Char} (h : c.rest = ch :: cs) :
    c.current = ch := by
  rw [current_eq, h]
  rfl

theorem exists_rest_of_current {c : Cursor} {ch : Char} (h : c.current = ch) (hne : ch ≠ endMark) :
    ∃ cs, c.rest = ch :: cs := by
  rw [current_eq] at h
  cases hr : c.rest with
  | nil =>
    rw [hr] at h
    exact absurd h.symm hne
  | cons x cs =>
    rw [hr] at h
    exact ⟨cs, congrArg (· :: cs) h⟩

end Cursor

/-! ## Runs of readers -/

namespace Reader

variable {α β : Type}

/-- A chain of readers succeeds when the first does and the second does from where the first
stopped. -/
theorem run_bind_eq_ok {r : Reader α} {f : α → Reader β} {c c'' : Cursor} {b : β} :
    (r >>= f) c = .ok (b, c'') ↔ ∃ a c', r c = .ok (a, c') ∧ f a c' = .ok (b, c'') := by
  rw [show (r >>= f) c = (r c >>= fun p => f p.1 p.2) from rfl, bind_eq_ok]
  constructor
  · rintro ⟨⟨a, c'⟩, h, h'⟩
    exact ⟨a, c', h, h'⟩
  · rintro ⟨a, c', h, h'⟩
    exact ⟨(a, c'), h, h'⟩

theorem run_pure_eq_ok {a b : α} {c c' : Cursor} :
    (pure a : Reader α) c = .ok (b, c') ↔ a = b ∧ c = c' := by
  rw [show (pure a : Reader α) c = .ok (a, c) from rfl, Except.ok.injEq, Prod.mk.injEq]

theorem run_get_eq_ok {a c c' : Cursor} :
    (get : Reader Cursor) c = .ok (a, c') ↔ c = a ∧ c = c' := by
  rw [show (get : Reader Cursor) c = .ok (c, c) from rfl, Except.ok.injEq, Prod.mk.injEq]

/-- A reader takes every cursor with the given text after it to a value, and leaves another text. -/
def Reads (r : Reader α) (input : List Char) (a : α) (output : List Char) : Prop :=
  ∀ c : Cursor, c.rest = input → ∃ c', r c = .ok (a, c') ∧ c'.rest = output

theorem Reads.bind {r : Reader α} {f : α → Reader β} {input middle output : List Char} {a : α}
    {b : β} (hr : Reads r input a middle) (hf : Reads (f a) middle b output) :
    Reads (r >>= f) input b output := by
  intro c hc
  obtain ⟨c', h', hc'⟩ := hr c hc
  obtain ⟨c'', h'', hc''⟩ := hf c' hc'
  exact ⟨c'', run_bind_eq_ok.2 ⟨a, c', h', h''⟩, hc''⟩

theorem reads_pure (a : α) (input : List Char) : Reads (pure a) input a input :=
  fun c hc => ⟨c, rfl, hc⟩

/-- A reader that looks at the cursor first. -/
theorem reads_get {f : Cursor → Reader β} {input output : List Char} {b : β}
    (h : ∀ c : Cursor, c.rest = input → Reads (f c) input b output) :
    Reads (get >>= f) input b output :=
  fun c hc => h c hc c hc

/-- A reader that goes back to another cursor. -/
theorem reads_set {start : Cursor} {output : List Char} (h : start.rest = output)
    (input : List Char) : Reads (set start) input ⟨⟩ output :=
  fun _ _ => ⟨start, rfl, h⟩

/-- A reader that remembers the position first. -/
theorem reads_position {f : Nat → Reader β} {input output : List Char} {b : β}
    (h : ∀ n, Reads (f n) input b output) : Reads (position >>= f) input b output :=
  fun c hc => h c.pos c hc

/-- A reader that is chosen by the cursor. -/
theorem reads_of_cursor {f : Cursor → Reader β} {input output : List Char} {b : β}
    (h : ∀ c : Cursor, c.rest = input → Reads (f c) input b output) :
    Reads (fun c => f c c) input b output :=
  fun c hc => h c hc c hc

theorem reads_skipBlank (input : List Char) : Reads skipBlank input () (trimStart input) := by
  rintro c rfl
  exact ⟨c.skipBlank, rfl, c.rest_skipBlank⟩

theorem reads_consumeChar (ch : Char) (cs : List Char) :
    Reads (consumeChar ch) (ch :: cs) true (trimStart cs) := by
  intro c hc
  refine ⟨(c.advance 1).skipBlank, if_pos (Cursor.current_of_rest hc), ?_⟩
  rw [Cursor.rest_skipBlank, Cursor.rest_advance, hc]
  rfl

theorem reads_consumeChar_of_ne {expected : Char} {input : List Char}
    (h : input.head?.getD Cursor.endMark ≠ expected) :
    Reads (consumeChar expected) input false input := by
  intro c hc
  have hne : c.current ≠ expected := by
    rw [Cursor.current_eq, hc]
    exact h
  exact ⟨c, if_neg hne, hc⟩

theorem reads_consumeChar_cons_of_ne {ch expected : Char} (h : ch ≠ expected) (cs : List Char) :
    Reads (consumeChar expected) (ch :: cs) false (ch :: cs) :=
  reads_consumeChar_of_ne h

theorem reads_expectChar (ch : Char) (reason : String) (cs : List Char) :
    Reads (expectChar ch reason) (ch :: cs) () (trimStart cs) :=
  (reads_consumeChar ch cs).bind (reads_pure () _)

/-- The two outcomes of a look for a character. -/
theorem consumeChar_eq_ok {expected : Char} {c c' : Cursor} {found : Bool}
    (h : consumeChar expected c = .ok (found, c')) :
    (found = true ∧ c.current = expected ∧ c' = (c.advance 1).skipBlank) ∨
      (found = false ∧ c.current ≠ expected ∧ c' = c) := by
  unfold consumeChar at h
  split at h
  · next hc =>
    cases h
    exact .inl ⟨rfl, hc, rfl⟩
  · next hc =>
    cases h
    exact .inr ⟨rfl, hc, rfl⟩

theorem expectChar_eq_ok {expected : Char} {reason : String} {c c' : Cursor}
    (h : expectChar expected reason c = .ok ((), c')) :
    c.current = expected ∧ c' = (c.advance 1).skipBlank := by
  rw [expectChar] at h
  obtain ⟨found, c₁, hf, hr⟩ := run_bind_eq_ok.1 h
  obtain ⟨rfl, hc, rfl⟩ | ⟨rfl, -, rfl⟩ := consumeChar_eq_ok hf
  · exact ⟨hc, (run_pure_eq_ok.1 hr).2.symm⟩
  · cases hr

end Reader

end DocQuery.Syntax
