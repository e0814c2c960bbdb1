import Mathlib.Data.List.Forall2

/-!
# Outcomes

Computations that may be refused are chained with `bind`. A chain succeeds exactly when each of its
steps does, which `bind_eq_ok` says for one step, and `forM_eq_ok`, `mapM_eq_ok` and
`exists_mapM_eq_ok` for one step for each element of a list. What the steps of a fold keep holds
after it (`foldlM_induction`).

`Agree` compares two chains: they fail with the same error, or their values are related. It is
checked step by step (`Agree.bind`).
-/

namespace DocQuery

variable {ε α β : Type}

/-- A chain of two steps succeeds when the first does and the second does on its value. -/
theorem bind_eq_ok {x : Except ε α} {f : α → Except ε β} {b : β} :
    x >>= f = .ok b ↔ ∃ a, x = .ok a ∧ f a = .ok b := by
  cases x with
  | error e => simp [bind, Except.bind]
  | ok a => simp [bind, Except.bind]

theorem map_eq_ok {x : Except ε α} {f : α → β} {b : β} :
    x.map f = .ok b ↔ ∃ a, x = .ok a ∧ f a = b := by
  cases x with
  | error e => simp [Except.map]
  | ok a => simp [Except.map]

theorem toOption_map_eq_some {x : Except ε α} {f : α → β} {b : β} :
    x.toOption.map f = some b ↔ ∃ a, x = .ok a ∧ f a = b := by
  cases x with
  | error e => simp [Except.toOption]
  | ok a => simp [Except.toOption]

theorem toOption_bind_eq_some {x : Except ε α} {f : α → Option β} {b : β} :
    x.toOption.bind f = some b ↔ ∃ a, x = .ok a ∧ f a = some b := by
  cases x with
  | error e => simp [Except.toOption]
  | ok a => simp [Except.toOption]

theorem mapError_eq_ok {δ : Type} {x : Except ε α} {f : ε → δ} {a : α} :
    x.mapError f = .ok a ↔ x = .ok a := by
  cases x with
  | error e => simp [Except.mapError]
  | ok a => simp [Except.mapError]

theorem forM_eq_ok {f : α → Except ε Unit} {l : List α} :
    l.forM f = .ok () ↔ ∀ a ∈ l, f a = .ok () := by
  induction l with
  | nil => simp [List.forM, pure, Except.pure]
  | cons a l ih =>
    rw [List.forM, bind_eq_ok, List.forall_mem_cons, ← ih]
    constructor
    · rintro ⟨u, ha, hl⟩
      exact ⟨ha, hl⟩
    · rintro ⟨ha, hl⟩
      exact ⟨(), ha, hl⟩

theorem mapM_eq_ok {f : α → Except ε β} {l : List α} {bs : List β} :
    l.mapM f = .ok bs ↔ List.Forall₂ (fun a b => f a = .ok b) l bs := by
  induction l generalizing bs with
  | nil => simp [pure, Except.pure, eq_comm]
  | cons a l ih =>
    rw [List.mapM_cons, bind_eq_ok, List.forall₂_cons_left_iff]
    constructor
    · rintro ⟨b, hb, h⟩
      obtain ⟨bs', hbs, h⟩ := bind_eq_ok.1 h
      exact ⟨b, bs', hb, ih.1 hbs, (Except.ok.inj h).symm⟩
    · rintro ⟨b, bs', hb, hbs, rfl⟩
      exact ⟨b, hb, bind_eq_ok.2 ⟨bs', ih.2 hbs, rfl⟩⟩

/-- A step for an element in the middle of a list. -/
theorem mapM_append_cons_eq_ok {f : α → Except ε β} {before after : List α} {a : α} {bs : List β} :
    (before ++ a :: after).mapM f = .ok bs ↔ ∃ us b ws, before.mapM f = .ok us ∧ f a = .ok b ∧
      after.mapM f = .ok ws ∧ bs = us ++ b :: ws := by
  rw [List.mapM_append, bind_eq_ok]
  constructor
  · rintro ⟨us, hus, h⟩
    obtain ⟨vs, hvs, h⟩ := bind_eq_ok.1 h
    rw [List.mapM_cons] at hvs
    obtain ⟨b, hb, hvs⟩ := bind_eq_ok.1 hvs
    obtain ⟨ws, hws, hvs⟩ := bind_eq_ok.1 hvs
    cases hvs
    exact ⟨us, b, ws, hus, hb, hws, (Except.ok.inj h).symm⟩
  · rintro ⟨us, b, ws, hus, hb, hws, rfl⟩
    refine ⟨us, hus, bind_eq_ok.2 ⟨b :: ws, ?_, rfl⟩⟩
    rw [List.mapM_cons]
    exact bind_eq_ok.2 ⟨b, hb, bind_eq_ok.2 ⟨ws, hws, rfl⟩⟩

/-- Two lists that differ in one element have the same values only if those of the elements are the
same. -/
theorem exists_of_mapM_append_cons {f f' : α → Except ε β} {before after : List α} {a a' : α}
    {bs : List β} (h : (before ++ a :: after).mapM f = .ok bs)
    (h' : (before ++ a' :: after).mapM f' = .ok bs) : ∃ b, f a = .ok b ∧ f' a' = .ok b := by
  obtain ⟨us, b, ws, hus, hb, -, rfl⟩ := mapM_append_cons_eq_ok.1 h
  obtain ⟨us', b', ws', hus', hb', -, heq⟩ := mapM_append_cons_eq_ok.1 h'
  have hlength : us.length = us'.length :=
    (mapM_eq_ok.1 hus).length_eq.symm.trans (mapM_eq_ok.1 hus').length_eq
  obtain ⟨-, htail⟩ := List.append_inj heq hlength
  obtain ⟨rfl, -⟩ := List.cons.inj htail
  exact ⟨b, hb, hb'⟩

theorem mapM_append_cons_of_eq_ok {f f' : α → Except ε β} {before after : List α} {a a' : α}
    {bs : List β} (hf : ∀ a b, f a = .ok b → f' a = .ok b) (ha : ∀ b, f a = .ok b → f' a' = .ok b)
    (h : (before ++ a :: after).mapM f = .ok bs) : (before ++ a' :: after).mapM f' = .ok bs := by
  obtain ⟨us, b, ws, hus, hb, hws, rfl⟩ := mapM_append_cons_eq_ok.1 h
  exact mapM_append_cons_eq_ok.2 ⟨us, b, ws, mapM_eq_ok.2 ((mapM_eq_ok.1 hus).imp hf), ha b hb,
    mapM_eq_ok.2 ((mapM_eq_ok.1 hws).imp hf), rfl⟩

theorem exists_of_forall₂ {R : α → β → Prop} {l : List α} {bs : List β}
    (h : List.Forall₂ R l bs) : ∀ a ∈ l, ∃ b, R a b := by
  induction h with
  | nil => exact fun a ha => absurd ha List.not_mem_nil
  | cons hab _ ih => exact List.forall_mem_cons.2 ⟨⟨_, hab⟩, ih⟩

/-- Each of the values is that of an element. -/
theorem exists_of_mem_mapM {f : α → Except ε β} {l : List α} {bs : List β}
    (h : l.mapM f = .ok bs) {b : β} (hb : b ∈ bs) : ∃ a ∈ l, f a = .ok b := by
  have hall := mapM_eq_ok.1 h
  clear h
  induction hall with
  | nil => exact absurd hb List.not_mem_nil
  | cons hab _ ih =>
    rcases List.mem_cons.1 hb with rfl | hb
    · exact ⟨_, List.mem_cons_self, hab⟩
    · obtain ⟨a, ha, hr⟩ := ih hb
      exact ⟨a, List.mem_cons_of_mem _ ha, hr⟩

/-- One step for each element of a list succeeds when each of the steps does. -/
theorem exists_mapM_eq_ok {f : α → Except ε β} {l : List α} :
    (∃ bs, l.mapM f = .ok bs) ↔ ∀ a ∈ l, ∃ b, f a = .ok b := by
  constructor
  · rintro ⟨bs, h⟩
    exact exists_of_forall₂ (mapM_eq_ok.1 h)
  · intro h
    induction l with
    | nil => exact ⟨[], rfl⟩
    | cons a l ih =>
      obtain ⟨⟨b, hb⟩, hl⟩ := List.forall_mem_cons.1 h
      obtain ⟨bs, hbs⟩ := ih hl
      exact ⟨b :: bs, mapM_eq_ok.2 (.cons hb (mapM_eq_ok.1 hbs))⟩

/-! ## Two computations -/

/-- Two computations that fail with the same error, or both succeed with related values. -/
inductive Agree (R : α → β → Prop) : Except ε α → Except ε β → Prop where
  /-- Both fail. -/
  | error (e : ε) : Agree R (.error e) (.error e)
  /-- Both succeed. -/
  | ok {a : α} {b : β} (h : R a b) : Agree R (.ok a) (.ok b)

namespace Agree

variable {γ δ : Type} {R : α → β → Prop} {T : γ → δ → Prop}

theorem refl {R : α → α → Prop} (h : ∀ a, R a a) (x : Except ε α) : Agree R x x := by
  cases x with
  | error e => exact .error e
  | ok a => exact .ok (h a)

theorem bind {x : Except ε α} {y : Except ε β} {f : α → Except ε γ} {g : β → Except ε δ}
    (h : Agree R x y) (hf : ∀ a b, x = .ok a → y = .ok b → R a b → Agree T (f a) (g b)) :
    Agree T (x >>= f) (y >>= g) := by
  cases h with
  | error e => exact .error e
  | ok h => exact hf _ _ rfl rfl h

/-- A step that both computations have in common. -/
theorem bind_same {f : α → Except ε γ} {g : α → Except ε δ} (x : Except ε α)
    (hf : ∀ a, x = .ok a → Agree T (f a) (g a)) : Agree T (x >>= f) (x >>= g) := by
  refine (refl (fun _ => rfl) x : Agree Eq x x).bind ?_
  rintro a _ hx - rfl
  exact hf a hx

/-- Two computations agree as far as what is made of their values does. -/
theorem of_bind_ok {x : Except ε α} {y : Except ε β} {f : α → γ} {g : β → δ}
    (h : Agree T (x >>= fun a => .ok (f a)) (y >>= fun b => .ok (g b))) :
    Agree (fun a b => T (f a) (g b)) x y := by
  cases x with
  | error e =>
    cases y with
    | error e' =>
      cases h
      exact .error e
    | ok b => cases h
  | ok a =>
    cases y with
    | error e' => cases h
    | ok b =>
      cases h with
      | ok h => exact .ok h

/-- One step for each element of a list, if the two steps for each of them agree. -/
theorem mapM {σ : Type} {f : σ → Except ε α} {g : σ → Except ε β} {l : List σ}
    (h : ∀ x ∈ l, Agree R (f x) (g x)) : Agree (List.Forall₂ R) (l.mapM f) (l.mapM g) := by
  induction l with
  | nil => exact .ok .nil
  | cons x l ih =>
    obtain ⟨hx, hl⟩ := List.forall_mem_cons.1 h
    rw [List.mapM_cons, List.mapM_cons]
    exact hx.bind fun a b _ _ hab => (ih hl).bind fun as bs _ _ habs => .ok (.cons hab habs)

end Agree

/-- What holds of the elements that are done, and is kept by every step of a fold, holds of all
elements after the last one. -/
theorem foldlM_induction {f : β → α → Except ε β} {P : List α → β → Prop} {l : List α} {b b' : β}
    (h : l.foldlM f b = .ok b') (hnil : P [] b)
    (hstep : ∀ done b a b', P done b → f b a = .ok b' → P (done ++ [a]) b') : P l b' := by
  suffices hall : ∀ (rest done : List α) (b : β), P done b → rest.foldlM f b = .ok b' →
      P (done ++ rest) b' from hall l [] b hnil h
  intro rest
  induction rest with
  | nil =>
    intro done b hdone h
    cases h
    rwa [List.append_nil]
  | cons a rest ih =>
    intro done b hdone h
    rw [List.foldlM_cons] at h
    obtain ⟨b₁, hb, h⟩ := bind_eq_ok.1 h
    have hrest := ih (done ++ [a]) b₁ (hstep done b a b₁ hdone hb) h
    rwa [List.append_assoc, List.singleton_append] at hrest

/-- What every step of a fold ensures holds after the last one. -/
theorem of_foldlM_eq_ok {f : β → α → Except ε β} {P : β → Prop}
    (hf : ∀ b a b', f b a = .ok b' → P b') {l : List α} (hl : l ≠ []) {b b' : β}
    (h : l.foldlM f b = .ok b') : P b' := by
  induction l generalizing b with
  | nil => exact absurd rfl hl
  | cons a l ih =>
    rw [List.foldlM_cons] at h
    obtain ⟨b₁, hb, h⟩ := bind_eq_ok.1 h
    cases l with
    | nil =>
      cases h
      exact hf b a _ hb
    | cons a' l => exact ih (List.cons_ne_nil _ _) h

end DocQuery
