import DocQuery.Proofs.Syntax.Blanks
import DocQuery.Proofs.Syntax.Progress

/-!
# Reading comes to an end

The grammar calls itself: in loops over names, lists, negations, chains and joins, and through what is
nested. All of them are bounded by the number of characters that are left, and none of the bounds is
ever what ends the reading. Each recursion moves on before it calls itself, so it comes to an end in
what the bounded readers do (`Halts`), for the loops as for the levels.

On the way every reader of the grammar is found to stay in its text and not to move back, and to mark
a part of the text where it refuses it. Expressions, operands, items, sources and statements take at
least one character (`parse_progress`).
-/

namespace DocQuery.Syntax

open Reader

/-! ## Names -/

namespace Reader

/-- The names that follow dots, where `more` reads those after the first. -/
def dottedRound (more : Reader (List String)) : Reader (List String) := fun c =>
  if c.current = '.' && isNameStart (c.peek 1) then
    (do
      let first ← name
      let others ← more
      return first :: others : Reader (List String)) (c.advance 1)
  else .ok ([], c)

variable {n m : Nat}

theorem dottedNames_eq_round (bound : Nat) :
    dottedNames (bound + 1) = dottedRound (dottedNames bound) := by
  funext c
  cases h : (c.current = '.' && isNameStart (c.peek 1) : Bool) with
  | true => exact (dottedNames_succ h).trans (if_pos h).symm
  | false =>
    have hstop : dottedRound (dottedNames bound) c = .ok ([], c) :=
      if_neg (by rw [h]; exact Bool.false_ne_true)
    rw [dottedNames_stop h, hstop]

theorem unrolls_dottedNames : Unrolls (fun r (_ : Unit) => r) dottedRound dottedNames := by
  refine ⟨dottedNames_eq_round, fun _ c _ hnil => ?_⟩
  have hdot : c.current ≠ '.' := by
    rw [Cursor.current_eq, hnil]
    decide
  exact (if_neg (by simp [hdot])).symm

theorem dottedRound_agree {more more' : Reader (List String)}
    (h : AgreeBelow m (fun _ => False) more more') :
    AgreeBelow (m + 1) (fun _ => False) (dottedRound more) (dottedRound more') := by
  intro c hc hlt
  unfold AgreeAt dottedRound
  split
  · next hdot =>
    have hnames : AgreeBelow m (fun _ => False) (do
        let first ← name
        let others ← more
        return first :: others : Reader (List String)) (do
        let first ← name
        let others ← more'
        return first :: others) :=
      advances_name.agreeBelow.andThen fun _ => h.andThen fun _ => agreeBelow_pure _
    have hcurrent : c.current = '.' := of_decide_eq_true (Bool.and_eq_true_iff.1 hdot).1
    obtain ⟨cs, hrest⟩ := Cursor.exists_rest_of_current hcurrent (by decide)
    have hon := hc.advance 1
    have hmoved := pos_lt_advance Nat.one_pos (hrest ▸ List.cons_ne_nil _ _)
    have hless := hon.length_lt_iff.2 hmoved
    obtain ⟨heq, hread⟩ := hnames _ hon.inside (by omega)
    exact ⟨heq, hread.onward hon fun _ => False.elim⟩
  · exact ⟨rfl, .read (.refl hc) False.elim⟩

theorem advances_path : Advances (fun _ => True) path := by
  refine advances_of_agreeBelow fun n => advances_name.agreeBelow.bind_moved fun first => ?_
  have hmore := unrolls_dottedNames.agreeBelow_within (n := n - 1) unrolls_dottedNames
    (fun m x y _ h _ => dottedRound_agree (h ())) ()
  exact hmore.andThen fun others => agreeBelow_pure _

theorem advances_aliasName : Advances (fun _ => False) aliasName := by
  refine advances_of_agreeBelow fun n =>
    (advances_consumeWord (by decide)).agreeBelow.andThen fun found => ?_
  cases found with
  | true =>
    exact advances_name.agreeBelow.andThen fun word => advances_skipBlank.agreeBelow.andThen
      fun _ => agreeBelow_pure _
  | false =>
    -- A reserved word is given back: the cursor returns to where this reader started.
    intro c hc hlt
    refine ⟨rfl, ?_⟩
    change Progress _ c ((if isNameStart c.current then _ else _ : Reader (Option String)) c)
    split
    · have hname := advances_name c hc
      rw [run_bind]
      generalize name c = x at hname
      cases hname with
      | refused hm => exact .refused hm
      | @read word d hd _ =>
        change Progress _ c ((if isReserved word = true then _ else _ : Reader (Option String)) d)
        split
        · exact .read (.refl hc) False.elim
        · exact .read (hd.trans hd.inside.skipBlank) False.elim
    · exact .read (.refl hc) False.elim

end Reader

/-! ## Lists and chains -/

/-- The readers of what is nested do the same, and as they should, with fewer than `n` characters
left. -/
structure Nested.AgreeBelow (n : Nat) (inner inner' : Nested) : Prop where
  expr : Reader.AgreeBelow n (fun _ => True) inner.expr inner'.expr
  operand : Reader.AgreeBelow n (fun _ => True) inner.operand inner'.operand
  statement : Reader.AgreeBelow n (fun _ => True) inner.statement inner'.statement

theorem Nested.AgreeBelow.mono {n m : Nat} {inner inner' : Nested} (h : inner.AgreeBelow n inner')
    (hm : m ≤ n) : inner.AgreeBelow m inner' :=
  ⟨h.expr.mono hm fun _ => id, h.operand.mono hm fun _ => id, h.statement.mono hm fun _ => id⟩

namespace Grammar

/-- What follows the first of several things, where `more` reads what follows the second. -/
def moreRound {α : Type} (single : Reader α) (more : Reader (List α)) : Reader (List α) := do
  if ← consumeChar ',' then
    let first ← single
    let others ← more
    return first :: others
  return []

/-- A predicate with negations in front, where `more` reads what follows the first one. -/
def negationsRound (inner : Nested) (more : Reader Expr) : Reader Expr := do
  if ← consumeWord "NOT" then
    return negate (← more)
  predicate inner

/-- The rest of a chain, where `more` reads what follows its first part. -/
def chainRound (op : Connective) (word : String) (part : Reader Expr) (more : Expr → Reader Expr)
    (left : Expr) : Reader Expr := do
  if ← consumeWord word then
    let right ← part
    more (.logic op left right)
  else return left

/-- The joins that come next, where `more` reads those after the first. -/
def joinsRound (inner : Nested) (more : Reader (List Join)) : Reader (List Join) := do
  match ← joinKind with
  | none => return []
  | some kind =>
    let source ← source inner
    expectWord "ON" "Expected ON after the joined table"
    let condition ← inner.expr
    let others ← more
    return ⟨kind, source, condition⟩ :: others

variable {α : Type} {n m : Nat} {inner inner' : Nested}

theorem unrolls_moreOf (single : Reader α) :
    Unrolls (fun r (_ : Unit) => r) (moreRound single) (moreOf single) := by
  refine ⟨fun _ => rfl, fun _ c _ hnil => ?_⟩
  have hstop : moreRound single (moreOf single 0) c = .ok ([], c) :=
    run_bind_of_ok (consumeChar_nil (by decide) hnil)
  exact hstop.symm

theorem moreRound_agree {single single' : Reader α} {more more' : Reader (List α)}
    (hs : AgreeBelow m (fun _ => False) single single')
    (hmore : AgreeBelow m (fun _ => False) more more') :
    AgreeBelow (m + 1) (fun _ => False) (moreRound single more) (moreRound single' more') :=
  (advances_consumeChar (by decide)).agreeBelow.bind_look
    (hs.andThen fun _ => hmore.andThen fun _ => agreeBelow_pure _)
    (agreeBelow_pure _)

theorem listOf_agree {single single' : Reader α} (h : AgreeBelow n (fun _ => True) single single') :
    AgreeBelow n (fun _ => True) (listOf single) (listOf single') := by
  refine h.bind_moved fun first => ?_
  have hmore := (unrolls_moreOf single).agreeBelow_within (n := n - 1) (unrolls_moreOf single')
    (fun m x y hm hxy _ => moreRound_agree (h.mono (by omega) fun _ => False.elim) (hxy ())) ()
  exact hmore.andThen fun others => agreeBelow_pure _

theorem unrolls_chain (op : Connective) {word : String} (hw : word ∈ reservedWords)
    (part : Reader Expr) :
    Unrolls (fun r left => r left) (chainRound op word part) (chain op word part) := by
  refine ⟨fun _ => rfl, fun left c _ hnil => ?_⟩
  have hstop : chainRound op word part (chain op word part 0) left c = .ok (left, c) :=
    run_bind_of_ok (consumeWord_nil hw hnil)
  exact hstop.symm

theorem chainRound_agree (op : Connective) {word : String} (hw : word ∈ reservedWords)
    {part part' : Reader Expr} (hp : AgreeBelow m (fun _ => False) part part')
    {more more' : Expr → Reader Expr}
    (hmore : ∀ left, AgreeBelow m (fun _ => False) (more left) (more' left)) (left : Expr) :
    AgreeBelow (m + 1) (fun _ => False) (chainRound op word part more left)
      (chainRound op word part' more' left) :=
  (advances_consumeWord hw).agreeBelow.bind_look (hp.andThen fun _ => hmore _)
    (agreeBelow_pure _)

theorem chainOf_agree (op : Connective) {word : String} (hw : word ∈ reservedWords)
    {part part' : Reader Expr} (h : AgreeBelow n (fun _ => True) part part') :
    AgreeBelow n (fun _ => True) (chainOf op word part) (chainOf op word part') :=
  h.bind_moved ((unrolls_chain op hw part).agreeBelow_within (unrolls_chain op hw part')
    fun m x y hm hxy => chainRound_agree op hw (h.mono (by omega) fun _ => False.elim) hxy)

/-! ## Expressions -/

theorem arguments_agree (h : inner.AgreeBelow n inner') :
    AgreeBelow (n + 1) (fun _ => True) (arguments inner) (arguments inner') := by
  refine (advances_expectChar (by decide) _).agreeBelow.bind_moved fun _ => ?_
  refine (advances_consumeChar (by decide)).agreeBelow.andThen fun found => ?_
  cases found with
  | true => exact agreeBelow_pure []
  | false =>
    exact (listOf_agree h.expr).andThen fun args =>
      (advances_expectChar (by decide) _).agreeBelow.andThen fun _ => agreeBelow_pure args

theorem subquery_agree (h : inner.AgreeBelow n inner') :
    AgreeBelow n (fun _ => False) (subquery inner) (subquery inner') :=
  h.statement.andThen fun _ => (advances_expectChar (by decide) _).agreeBelow.andThen fun _ =>
    agreeBelow_pure _

theorem parenthesized_agree (h : inner.AgreeBelow n inner') :
    AgreeBelow n (fun _ => False) (parenthesized inner) (parenthesized inner') := by
  refine (advances_isWord _).agreeBelow.andThen fun found => ?_
  cases found with
  | true => exact subquery_agree h
  | false =>
    exact h.expr.andThen fun e => (advances_expectChar (by decide) _).agreeBelow.andThen fun _ =>
      agreeBelow_pure _

theorem reference_agree (h : inner.AgreeBelow n inner') :
    AgreeBelow (n + 1) (fun _ => True) (reference inner) (reference inner') := by
  refine agreeBelow_position fun start => advances_path.agreeBelow.bind_moved fun segments =>
    agreeBelow_get fun c => AgreeBelow.ite ?_ ?_
  · exact ((arguments_agree h).mono (Nat.le_succ n) fun _ => id).andThen fun args =>
      advances_skipBlank.agreeBelow.andThen fun _ => agreeBelow_pure _
  · have hcolumn : AgreeBelow n (fun _ => False)
        (skipBlank >>= fun _ => pure (Expr.column (Column.ofSegments segments)))
        (skipBlank >>= fun _ => pure (Expr.column (Column.ofSegments segments))) :=
      advances_skipBlank.agreeBelow.andThen fun _ => agreeBelow_pure _
    dsimp only
    split
    · split
      · exact (advances_fail (p := fun _ => False) _ _).agreeBelow.andThen fun _ => hcolumn
      · exact hcolumn
    · exact hcolumn

theorem worded_agree (h : inner.AgreeBelow n inner') :
    AgreeBelow (n + 1) (fun _ => True) (worded inner) (worded inner') := by
  refine (advances_consumeWord (by decide)).agreeBelow.bind_look (agreeBelow_pure _) ?_
  refine (advances_consumeWord (by decide)).agreeBelow.bind_look (agreeBelow_pure _) ?_
  refine (advances_consumeWord (by decide)).agreeBelow.bind_look (agreeBelow_pure _) ?_
  exact agreeBelow_get fun c => (reference_agree h).ite (advances_fail _ _).agreeBelow

/-- A character that is known to come next is moved over. -/
theorem agreeAt_consumeChar {c : Cursor} (hc : c.Inside) {ch : Char} (h : c.current = ch)
    (hne : ch ≠ Cursor.endMark) :
    AgreeAt (fun _ => True) c (discard (consumeChar ch)) (discard (consumeChar ch)) := by
  have hrun : (consumeChar ch >>= fun _ => pure ()) c = .ok ((), (c.advance 1).skipBlank) :=
    run_bind_of_ok (if_pos h)
  have hon := (hc.advance 1).trans (hc.advance 1).inside.skipBlank
  refine ⟨rfl, ?_⟩
  change Progress _ c ((consumeChar ch >>= fun _ => pure ()) c)
  rw [hrun]
  exact .read hon fun _ => hon.length_lt_iff.1 (length_after_char h hne)

theorem operand_agree (h : inner.AgreeBelow n inner') :
    AgreeBelow (n + 1) (fun _ => True) (operand inner) (operand inner') := by
  intro c hc hlt
  change AgreeAt _ c (if c.current = '(' then _ else _ : Reader Expr)
    (if c.current = '(' then _ else _ : Reader Expr)
  split
  · next hopen =>
    refine (agreeAt_consumeChar hc hopen (by decide)).bind fun _ d hd hmoved => ?_
    have hless := hd.length_lt_iff.2 (hmoved trivial)
    exact ⟨_, parenthesized_agree h d hd.inside (by omega), fun _ _ => .inr (hmoved trivial)⟩
  · split
    · exact (advances_quoted.agreeBelow.bind_moved fun value =>
        advances_skipBlank.agreeBelow.andThen fun _ => agreeBelow_pure _) c hc hlt
    · split
      · exact (advances_number.agreeBelow.bind_moved fun value =>
          advances_skipBlank.agreeBelow.andThen fun _ => agreeBelow_pure _) c hc hlt
      · split
        · next hstar =>
          refine (agreeAt_consumeChar hc hstar (by decide)).bind fun _ d hd hmoved => ?_
          exact ⟨_, ⟨rfl, advances_pure _ d hd.inside⟩, fun _ _ => .inr (hmoved trivial)⟩
        · exact worded_agree h c hc hlt

theorem membership_agree (h : inner.AgreeBelow n inner') :
    AgreeBelow (n + 1) (fun _ => True) (membership inner) (membership inner') := by
  refine (advances_expectChar (by decide) _).agreeBelow.bind_moved fun _ =>
    (advances_isWord _).agreeBelow.andThen fun found => ?_
  cases found with
  | true => exact (subquery_agree h).andThen fun e => agreeBelow_pure _
  | false =>
    exact (listOf_agree h.operand).andThen fun list =>
      (advances_expectChar (by decide) _).agreeBelow.andThen fun _ => agreeBelow_pure list

theorem patternOrList_agree (h : inner.AgreeBelow n inner') (left : Expr) :
    AgreeBelow (n + 1) (fun _ => False) (patternOrList inner left) (patternOrList inner' left) := by
  refine agreeBelow_position fun start =>
    (advances_consumeWord (by decide)).agreeBelow.andThen fun negated =>
    (advances_consumeWord (by decide)).agreeBelow.andThen fun isLike => ?_
  cases isLike with
  | true => exact (operand_agree h).andThen fun pattern => agreeBelow_pure _
  | false =>
    refine (advances_consumeWord (by decide)).agreeBelow.andThen fun isIn => ?_
    cases isIn with
    | true => exact (membership_agree h).andThen fun list => agreeBelow_pure _
    | false =>
      cases negated with
      | true =>
        exact (advances_fail (p := fun _ => False) _ start).agreeBelow.andThen fun _ =>
          agreeBelow_pure left
      | false => exact agreeBelow_pure left

theorem predicate_agree (h : inner.AgreeBelow n inner') :
    AgreeBelow (n + 1) (fun _ => True) (predicate inner) (predicate inner') := by
  refine (operand_agree h).bind_moved fun left =>
    advances_comparison.agreeBelow.andThen fun sign => ?_
  cases sign with
  | some op =>
    exact ((operand_agree h).mono (Nat.le_succ n) fun _ => id).andThen fun right =>
      agreeBelow_pure _
  | none =>
    refine (advances_consumeWord (by decide)).agreeBelow.andThen fun isIs => ?_
    cases isIs with
    | true =>
      exact (advances_consumeWord (by decide)).agreeBelow.andThen fun negated =>
        (advances_expectWord (by decide) _).agreeBelow.andThen fun _ => agreeBelow_pure _
    | false => exact (patternOrList_agree h left).mono (Nat.le_succ n) fun _ => id

theorem unrolls_negations (inner : Nested) :
    Unrolls (fun r (_ : Unit) => r) (negationsRound inner) (negations inner) := by
  refine ⟨fun _ => rfl, fun _ c _ hnil => ?_⟩
  have hstop : negationsRound inner (negations inner 0) c = predicate inner c :=
    run_bind_of_ok (consumeWord_nil (by decide) hnil)
  exact hstop.symm

theorem negationsRound_agree (h : inner.AgreeBelow m inner') {more more' : Reader Expr}
    (hmore : AgreeBelow m (fun _ => True) more more') :
    AgreeBelow (m + 1) (fun _ => True) (negationsRound inner more) (negationsRound inner' more') :=
  (advances_consumeWord (by decide)).agreeBelow.bind_look
    (hmore.andThen fun _ => agreeBelow_pure _) (predicate_agree h)

theorem negation_agree (h : inner.AgreeBelow n inner') :
    AgreeBelow (n + 1) (fun _ => True) (negation inner) (negation inner') :=
  (unrolls_negations inner).agreeBelow_within (unrolls_negations inner')
    (fun m x y hm hxy _ => negationsRound_agree (h.mono (by omega)) (hxy ())) ()

theorem expr_agree (h : inner.AgreeBelow n inner') :
    AgreeBelow (n + 1) (fun _ => True) (expr inner) (expr inner') :=
  chainOf_agree .or (by decide) (chainOf_agree .and (by decide) (negation_agree h))

/-! ## Clauses -/

theorem selectItem_agree (h : inner.AgreeBelow n inner') :
    AgreeBelow n (fun _ => True) (selectItem inner) (selectItem inner') :=
  (advances_consumeChar (by decide)).agreeBelow.bind_look (agreeBelow_pure _)
    (h.expr.bind_moved fun e => advances_aliasName.agreeBelow.andThen fun name =>
      agreeBelow_pure _)

theorem advances_tableName : Advances (fun _ => True) tableName := by
  intro c hc
  have hpath := advances_path c hc
  unfold tableName
  generalize path c = found at hpath
  cases hpath with
  | read hd hmoved => exact .read hd hmoved
  | refused hm =>
    -- The cursor stands where the path was refused, which is in the text.
    have hseek : (c.seek _).Inside := hm.2.1
    exact .refused (hseek.marks_error _ _)

theorem source_agree (h : inner.AgreeBelow n inner') :
    AgreeBelow n (fun _ => True) (source inner) (source inner') := by
  refine (advances_consumeChar (by decide)).agreeBelow.bind_look ?_ ?_
  · exact (h.mono (Nat.sub_le n 1)).statement.andThen fun statement =>
      (advances_expectChar (by decide) _).agreeBelow.andThen fun _ =>
      advances_aliasName.agreeBelow.andThen fun name => agreeBelow_pure _
  · exact advances_tableName.agreeBelow.bind_moved fun table =>
      advances_skipBlank.agreeBelow.andThen fun _ =>
      advances_aliasName.agreeBelow.andThen fun name => agreeBelow_pure _

theorem advances_none : Advances (fun found : Option α => found.isSome = true) (pure none) :=
  fun _ hc => .read (.refl hc) fun h => absurd h Bool.false_ne_true

theorem advances_joinSide : Advances (fun kind => kind.isSome = true) joinSide := by
  refine advances_of_agreeBelow fun n => ?_
  refine (advances_consumeWord (by decide)).agreeBelow.bind_look (agreeBelow_pure _) ?_
  refine (advances_consumeWord (by decide)).agreeBelow.bind_look (agreeBelow_pure _) ?_
  refine (advances_consumeWord (by decide)).agreeBelow.bind_look (agreeBelow_pure _) ?_
  exact (advances_consumeWord (by decide)).agreeBelow.bind_look (agreeBelow_pure _)
    advances_none.agreeBelow

theorem advances_joinKind : Advances (fun kind => kind.isSome = true) joinKind := by
  refine advances_of_agreeBelow fun n => ?_
  refine (advances_consumeWord (by decide)).agreeBelow.bind_look (agreeBelow_pure _) ?_
  refine advances_joinSide.agreeBelow.bind (fun side hside => ?_) fun side hside => ?_
  · obtain ⟨kind, rfl⟩ := Option.isSome_iff_exists.1 hside
    have hjoin : AgreeBelow (n - 1) (fun _ => False)
        (expectWord "JOIN" "Expected JOIN" >>= fun _ => pure (some kind))
        (expectWord "JOIN" "Expected JOIN" >>= fun _ => pure (some kind)) :=
      (advances_expectWord (by decide) _).agreeBelow.andThen fun _ => agreeBelow_pure _
    dsimp only
    split
    · exact hjoin
    · exact (advances_consumeWord (by decide)).agreeBelow.discard.andThen fun _ => hjoin
  · cases side with
    | none => exact advances_none.agreeBelow
    | some kind => exact absurd rfl hside

theorem unrolls_joinsWithin (inner : Nested) :
    Unrolls (fun r (_ : Unit) => r) (joinsRound inner) (joinsWithin inner) := by
  refine ⟨fun _ => rfl, fun _ c _ hnil => ?_⟩
  have hstop : joinsRound inner (joinsWithin inner 0) c = .ok ([], c) :=
    run_bind_of_ok (joinKind_nil hnil)
  exact hstop.symm

theorem joinsRound_agree (h : inner.AgreeBelow m inner') {more more' : Reader (List Join)}
    (hmore : AgreeBelow m (fun _ => False) more more') :
    AgreeBelow (m + 1) (fun _ => False) (joinsRound inner more) (joinsRound inner' more') := by
  refine advances_joinKind.agreeBelow.bind (fun found hfound => ?_) fun found hfound => ?_
  · obtain ⟨kind, rfl⟩ := Option.isSome_iff_exists.1 hfound
    exact (source_agree h).andThen fun source =>
      (advances_expectWord (by decide) _).agreeBelow.andThen fun _ =>
      h.expr.andThen fun condition => hmore.andThen fun others => agreeBelow_pure _
  · cases found with
    | none => exact agreeBelow_pure []
    | some kind => exact absurd rfl hfound

theorem joins_agree (h : inner.AgreeBelow n inner') :
    AgreeBelow n (fun _ => False) (joins inner) (joins inner') :=
  (unrolls_joinsWithin inner).agreeBelow_within (unrolls_joinsWithin inner')
    (fun _ _ _ hm hxy _ => joinsRound_agree (h.mono (Nat.le_of_lt hm)) (hxy ())) ()

theorem orderKey_agree (h : inner.AgreeBelow n inner') :
    AgreeBelow n (fun _ => True) (orderKey inner) (orderKey inner') := by
  refine h.operand.bind_moved fun e =>
    (advances_consumeWord (by decide)).agreeBelow.andThen fun isDesc => ?_
  cases isDesc with
  | true => exact agreeBelow_pure _
  | false =>
    exact (advances_consumeWord (by decide)).agreeBelow.discard.andThen fun _ =>
      agreeBelow_pure _

theorem groupColumn_agree (h : inner.AgreeBelow n inner') :
    AgreeBelow n (fun _ => True) (groupColumn inner) (groupColumn inner') := by
  refine agreeBelow_position fun start => h.operand.bind_moved fun e => ?_
  split
  · exact agreeBelow_pure _
  · exact (advances_fail _ _).agreeBelow

theorem rowCount_agree (h : inner.AgreeBelow n inner') (reason : String) :
    AgreeBelow n (fun _ => True) (rowCount inner reason) (rowCount inner' reason) := by
  refine agreeBelow_position fun start => h.operand.bind_moved fun e => ?_
  split
  · exact agreeBelow_pure _
  · exact (advances_fail _ _).agreeBelow

theorem conditionAfter_agree (h : inner.AgreeBelow n inner') {word : String}
    (hw : word ∈ reservedWords) :
    AgreeBelow n (fun _ => False) (conditionAfter inner word) (conditionAfter inner' word) := by
  refine (advances_consumeWord hw).agreeBelow.andThen fun found => ?_
  cases found with
  | true => exact h.expr.andThen fun e => agreeBelow_pure _
  | false => exact agreeBelow_pure _

theorem rowCountAfter_agree (h : inner.AgreeBelow n inner') {word : String}
    (hw : word ∈ reservedWords) (reason : String) :
    AgreeBelow n (fun _ => False) (rowCountAfter inner word reason)
      (rowCountAfter inner' word reason) := by
  refine (advances_consumeWord hw).agreeBelow.andThen fun found => ?_
  cases found with
  | true => exact (rowCount_agree h reason).andThen fun count => agreeBelow_pure _
  | false => exact agreeBelow_pure _

theorem listAfter_agree {list list' : Reader (List α)} (h : AgreeBelow n (fun _ => True) list list')
    {word : String} (hw : word ∈ reservedWords) (reason : String) :
    AgreeBelow n (fun _ => False) (listAfter word reason list) (listAfter word reason list') := by
  refine (advances_consumeWord hw).agreeBelow.andThen fun found => ?_
  cases found with
  | true =>
    exact (advances_expectWord (by decide) reason).agreeBelow.andThen fun _ =>
      h.mono (Nat.le_refl n) fun _ => False.elim
  | false => exact agreeBelow_pure _

/-! ## Statements -/

theorem delete_agree (h : inner.AgreeBelow n inner') :
    AgreeBelow n (fun _ => False) (delete inner) (delete inner') := by
  refine (advances_expectWord (by decide) _).agreeBelow.andThen fun _ =>
    (source_agree h).andThen fun source => ?_
  cases source with
  | query statement name => exact agreeBelow_position fun _ => (advances_fail _ _).agreeBelow
  | table table name =>
    exact (conditionAfter_agree h (by decide)).andThen fun condition => agreeBelow_pure _

theorem select_agree (h : inner.AgreeBelow n inner') :
    AgreeBelow n (fun _ => False) (select inner) (select inner') :=
  (advances_consumeWord (by decide)).agreeBelow.andThen fun distinct =>
    (listOf_agree (selectItem_agree h)).andThen fun items =>
    (advances_expectWord (by decide) _).agreeBelow.andThen fun _ =>
    (source_agree h).andThen fun source =>
    (joins_agree h).andThen fun joins =>
    (conditionAfter_agree h (by decide)).andThen fun condition =>
    (listAfter_agree (listOf_agree (groupColumn_agree h)) (by decide) _).andThen fun groupBy =>
    (conditionAfter_agree h (by decide)).andThen fun having =>
    (listAfter_agree (listOf_agree (orderKey_agree h)) (by decide) _).andThen fun orderBy =>
    (rowCountAfter_agree h (by decide) _).andThen fun limit =>
    (rowCountAfter_agree h (by decide) _).andThen fun offset => agreeBelow_pure _

theorem statement_agree (h : inner.AgreeBelow n inner') :
    AgreeBelow (n + 1) (fun _ => True) (statement inner) (statement inner') := by
  refine advances_skipBlank.agreeBelow.andThen fun _ =>
    (advances_consumeWord (by decide)).agreeBelow.bind_look (delete_agree h) ?_
  exact (advances_expectWord (by decide) _).agreeBelow.bind_moved fun _ =>
    (select_agree h).andThen fun query => agreeBelow_pure _

end Grammar

/-! ## Levels -/

/-- What is nested in a text. -/
inductive Nested.Part where
  /-- An expression. -/
  | expr
  /-- An operand. -/
  | operand
  /-- A statement. -/
  | statement

/-- The trees of what is nested. -/
def Nested.Part.Tree : Nested.Part → Type
  | .expr => Expr
  | .operand => Expr
  | .statement => Statement

/-- The reader of what is nested. -/
def Nested.reader (inner : Nested) : (part : Nested.Part) → Reader part.Tree
  | .expr => inner.expr
  | .operand => inner.operand
  | .statement => inner.statement

theorem Nested.agreeBelow_iff {n : Nat} {inner inner' : Nested} : inner.AgreeBelow n inner' ↔
    ∀ part, Reader.AgreeBelow n (fun _ => True) (inner.reader part) (inner'.reader part) := by
  constructor
  · rintro ⟨he, ho, hs⟩ part
    cases part with
    | expr => exact he
    | operand => exact ho
    | statement => exact hs
  · exact fun h => ⟨h .expr, h .operand, h .statement⟩

namespace Grammar

variable {α : Type} {n m : Nat} {inner inner' : Nested}

/-- The readers of one level, where `inner` reads what is nested. -/
def level (inner : Nested) : Nested := ⟨expr inner, operand inner, statement inner⟩

/-- The readers with as many levels as there are characters left. -/
def unbounded : Nested := ⟨withNested expr, withNested operand, withNested statement⟩

theorem level_agree (h : inner.AgreeBelow n inner') :
    (level inner).AgreeBelow (n + 1) (level inner') :=
  ⟨expr_agree h, operand_agree h, statement_agree h⟩

theorem reader_level_agree
    (h : ∀ part, AgreeBelow n (fun _ => True) (inner.reader part) (inner'.reader part)) :
    ∀ part, AgreeBelow (n + 1) (fun _ => True) ((level inner).reader part)
      ((level inner').reader part) :=
  Nested.agreeBelow_iff.1 (level_agree (Nested.agreeBelow_iff.2 h))

/-- At the end of a text the lowest level refuses what any level refuses. -/
theorem unrolls_nested : Unrolls Nested.reader level nested := by
  refine ⟨fun _ => rfl, fun part c _ hnil => ?_⟩
  obtain ⟨text, pos, _, hrest⟩ := c
  subst hnil
  cases part <;> rfl

/-- **The readers of two depths do the same as long as neither depth is used up.** -/
theorem nested_agree {k k' : Nat} (hk : m ≤ k + 1) (hk' : m ≤ k' + 1) :
    (nested k).AgreeBelow m (nested k') :=
  Nested.agreeBelow_iff.2 (unrolls_nested.agreeBelow unrolls_nested
    (fun _ _ _ _ => reader_level_agree) (Nat.le_refl m) hk hk')

/-- At any depth the readers stay in the text and move on. -/
theorem nested_advances (depth n : Nat) : (nested depth).AgreeBelow n (nested depth) := by
  induction depth generalizing n with
  | zero =>
    have hrefuse : ∀ {α : Type} (reason : String),
        AgreeBelow n (fun _ => True) (fun c => .error (c.error reason c.pos) : Reader α)
          (fun c => .error (c.error reason c.pos)) :=
      fun reason => Advances.agreeBelow fun _ hc => .refused (hc.marks_error _ _)
    exact ⟨hrefuse _, hrefuse _, hrefuse _⟩
  | succ depth ih =>
    cases n with
    | zero => exact ⟨agreeBelow_zero _ _, agreeBelow_zero _ _, agreeBelow_zero _ _⟩
    | succ n => exact level_agree (ih n)

theorem advances_withNested {p : α → Prop} {r : Nested → Reader α}
    (h : ∀ {n inner inner'}, inner.AgreeBelow n inner' → AgreeBelow n p (r inner) (r inner')) :
    Advances p (withNested r) :=
  fun c hc => (h (nested_advances c.rest.length (c.rest.length + 1)) c hc (Nat.lt_succ_self _)).2

/-! ## Recursions come to an end -/

theorem withNested_apply (r : Nested → Reader α) (c : Cursor) :
    withNested r c = r (nested c.rest.length) c := rfl

theorem reader_unbounded (part : Nested.Part) (c : Cursor) :
    unbounded.reader part c = (nested (c.rest.length + 1)).reader part c := by
  rw [unrolls_nested.succ]
  cases part with
  | expr => exact withNested_apply expr c
  | operand => exact withNested_apply operand c
  | statement => exact withNested_apply statement c

theorem halts_level : Halts Nested.reader level unbounded := by
  refine unrolls_nested.halts (fun _ _ _ => reader_level_agree) fun part c hc => ?_
  have hdeeper : (nested (c.rest.length + 1)).AgreeBelow (c.rest.length + 1) (nested c.rest.length) :=
    nested_agree (Nat.le_succ _) (Nat.le_refl _)
  rw [reader_unbounded]
  exact (Nested.agreeBelow_iff.1 hdeeper part c hc (Nat.lt_succ_self _)).1

/-- Whether the loop over a list comes to an end. -/
def ListHalts (single : Reader α) : Prop :=
  Halts (fun r (_ : Unit) => r) (moreRound single) fun c => moreOf single c.rest.length c

/-- Whether the loop over a chain comes to an end. -/
def ChainHalts (op : Connective) (word : String) (part : Reader Expr) : Prop :=
  Halts (fun r left => r left) (chainRound op word part)
    fun left c => chain op word part c.rest.length left c

/-- The loops of one level come to an end, where `inner` reads what is nested. -/
structure LoopsHalt (inner : Nested) : Prop where
  /-- The names of a path. -/
  names : Halts (fun r (_ : Unit) => r) dottedRound fun c => dottedNames c.rest.length c
  /-- The arguments of a call. -/
  arguments : ListHalts inner.expr
  /-- The operands of an `IN` test. -/
  members : ListHalts inner.operand
  /-- The items of a select list. -/
  items : ListHalts (selectItem inner)
  /-- The columns of `GROUP BY`. -/
  groups : ListHalts (groupColumn inner)
  /-- The keys of `ORDER BY`. -/
  order : ListHalts (orderKey inner)
  /-- The negations in front of a predicate. -/
  negations : Halts (fun r (_ : Unit) => r) (negationsRound inner) (negation inner)
  /-- The parts of a conjunction. -/
  conjunctions : ChainHalts .and "AND" (negation inner)
  /-- The parts of a disjunction. -/
  disjunctions : ChainHalts .or "OR" (conjunction inner)
  /-- The joins of a statement. -/
  joins : Halts (fun r (_ : Unit) => r) (joinsRound inner) (joins inner)

theorem halts_moreOf {single : Reader α} (h : ∀ n, AgreeBelow n (fun _ => True) single single) :
    ListHalts single :=
  (unrolls_moreOf single).halts (fun m _ _ hmore _ =>
    moreRound_agree ((h m).mono (Nat.le_refl m) fun _ => False.elim) (hmore ())) fun _ _ _ => rfl

theorem halts_chain (op : Connective) {word : String} (hw : word ∈ reservedWords)
    {part : Reader Expr} (h : ∀ n, AgreeBelow n (fun _ => True) part part) :
    ChainHalts op word part :=
  (unrolls_chain op hw part).halts (fun m _ _ hmore =>
    chainRound_agree op hw ((h m).mono (Nat.le_refl m) fun _ => False.elim) hmore) fun _ _ _ => rfl

/-- **Every loop comes to an end, at any depth.** -/
theorem loopsHalt_nested (depth : Nat) : LoopsHalt (nested depth) where
  names := unrolls_dottedNames.halts (fun _ _ _ h _ => dottedRound_agree (h ())) fun _ _ _ => rfl
  arguments := halts_moreOf fun n => (nested_advances depth n).expr
  members := halts_moreOf fun n => (nested_advances depth n).operand
  items := halts_moreOf fun n => selectItem_agree (nested_advances depth n)
  groups := halts_moreOf fun n => groupColumn_agree (nested_advances depth n)
  order := halts_moreOf fun n => orderKey_agree (nested_advances depth n)
  negations := (unrolls_negations _).halts
    (fun m _ _ h _ => negationsRound_agree (nested_advances depth m) (h ())) fun _ _ _ => rfl
  conjunctions := halts_chain .and (by decide) fun n =>
    (negation_agree (nested_advances depth n)).mono (Nat.le_succ n) fun _ => id
  disjunctions := halts_chain .or (by decide) fun n =>
    chainOf_agree .and (by decide)
      ((negation_agree (nested_advances depth n)).mono (Nat.le_succ n) fun _ => id)
  joins := (unrolls_joinsWithin _).halts
    (fun m _ _ h _ => joinsRound_agree (nested_advances depth m) (h ())) fun _ _ _ => rfl

end Grammar

/-! ## Whole texts -/

theorem advances_statementText : Advances (fun _ => True) statementText := by
  have hstatement : Advances (fun _ => True) (Grammar.withNested Grammar.statement) :=
    Grammar.advances_withNested fun h =>
      (Grammar.statement_agree h).mono (Nat.le_succ _) fun _ => id
  refine advances_of_agreeBelow fun n => hstatement.agreeBelow.bind_moved fun s =>
    (advances_consumeChar (by decide)).agreeBelow.discard.andThen fun _ => ?_
  intro c hc _
  refine ⟨rfl, ?_⟩
  change Progress _ c ((if c.atEnd then pure s else throw c.trailing : Reader Statement) c)
  split
  · exact .read (.refl hc) False.elim
  · exact .refused hc.marks_trailing

/-- A text is read up to its end. -/
theorem atEnd_of_statementText {c d : Cursor} {s : Statement} (h : statementText c = .ok (s, d)) :
    d.atEnd = true := by
  obtain ⟨_, _, -, h⟩ := run_bind_eq_ok.1 h
  obtain ⟨_, _, -, h⟩ := run_bind_eq_ok.1 h
  obtain ⟨c', _, hget, h⟩ := run_bind_eq_ok.1 h
  obtain ⟨rfl, rfl⟩ := run_get_eq_ok.1 hget
  split at h
  · next hend =>
    obtain ⟨-, rfl⟩ := run_pure_eq_ok.1 h
    exact hend
  · cases h

/-- **Reading comes to an end, moves on, and says where it stopped.** The recursion through the levels
and the loops at every level come to an end in what the bounded readers do. Expressions, operands,
select lists, sources and statements take at least one character and stay in the text. A text is read
up to its end, and a refusal marks the part of the text between two positions in it. -/
theorem parse_progress :
    Halts Nested.reader Grammar.level Grammar.unbounded ∧
    (∀ depth, Grammar.LoopsHalt (Grammar.nested depth)) ∧
    Advances (fun _ => True) (Grammar.withNested Grammar.expr) ∧
    Advances (fun _ => True) (Grammar.withNested Grammar.operand) ∧
    Advances (fun _ => True) (Grammar.withNested Grammar.selectItems) ∧
    Advances (fun _ => True) (Grammar.withNested Grammar.source) ∧
    Advances (fun _ => True) (Grammar.withNested Grammar.statement) ∧
    (∀ text s, parseStatement text = .ok s → ∃ d, statementText (Cursor.ofString text) = .ok (s, d) ∧
      d.text = text.toList ∧ d.pos = text.toList.length) ∧
    ∀ text e, parseStatement text = .error e → e.Marks text.toList := by
  refine ⟨Grammar.halts_level, Grammar.loopsHalt_nested, ?_, ?_, ?_, ?_, ?_, ?_, ?_⟩
  · exact Grammar.advances_withNested fun h =>
      (Grammar.expr_agree h).mono (Nat.le_succ _) fun _ => id
  · exact Grammar.advances_withNested fun h =>
      (Grammar.operand_agree h).mono (Nat.le_succ _) fun _ => id
  · exact Grammar.advances_withNested fun h => Grammar.listOf_agree (Grammar.selectItem_agree h)
  · exact Grammar.advances_withNested Grammar.source_agree
  · exact Grammar.advances_withNested fun h =>
      (Grammar.statement_agree h).mono (Nat.le_succ _) fun _ => id
  · intro text s h
    have hread := advances_statementText _ (Cursor.inside_ofString text)
    obtain ⟨⟨_, d⟩, hd, rfl⟩ := map_eq_ok.1 h
    rw [hd] at hread
    cases hread with
    | read hon _ =>
      have hpos := Cursor.pos_eq_of_atEnd hon.inside (atEnd_of_statementText hd)
      exact ⟨d, hd, hon.text, hpos.trans (congrArg List.length hon.text)⟩
  · intro text e h
    have hread := advances_statementText _ (Cursor.inside_ofString text)
    unfold parseStatement at h
    generalize statementText (Cursor.ofString text) = found at h hread
    cases hread with
    | read => cases h
    | refused hm =>
      cases h
      exact hm

/-- A text that is read up to its end, and one that is refused from the word `NOT` on. -/
theorem parse_progress_negated :
    (∃ s d, parseStatement "SELECT a FROM t;" = .ok s ∧
      statementText (Cursor.ofString "SELECT a FROM t;") = .ok (s, d) ∧ d.pos = 16) ∧
    ∃ e, parseStatement "SELECT a FROM t WHERE a NOT b" = .error e ∧ e.start = 24 ∧ e.stop = 28 ∧
      e.text = "NOT b" ∧ e.Marks "SELECT a FROM t WHERE a NOT b".toList := by
  obtain ⟨-, -, -, -, -, -, -, hread, hrefused⟩ := parse_progress
  refine ⟨?_, ⟨"Expected LIKE or IN after NOT", "NOT b", 24, 28⟩, rfl, rfl, rfl, rfl, ?_⟩
  · obtain ⟨s, hs⟩ : ∃ s, parseStatement "SELECT a FROM t;" = .ok s := ⟨_, rfl⟩
    obtain ⟨d, hd, -, hpos⟩ := hread _ s hs
    exact ⟨s, d, hs, hd, hpos⟩
  · exact hrefused _ _ rfl

end DocQuery.Syntax
