import DocQuery.Proofs.Filter.OneKey
import DocQuery.Proofs.Plan.Compile
import DocQuery.Store.Recording
import Mathlib.Data.List.Forall2

/-!
# Runs on a recording store

A run answers its steps one after the other and appends to the log what each of them records. What
one step may do is `StepTrace`: it sends the one operation that its text compiles to and returns what
the store answers, be it a failure of any kind, or it sends nothing if the text does not compile.
Removals are traced back to their statement: only a `DELETE` is sent as one, with the filter of its
own condition, which is empty only if there is no condition.

`run_trace` is the statement for one step and `runSteps_trace` the one for whole runs.
-/

namespace DocQuery

open Syntax

/-- What a store answers to an operation: the outcome of the one call that is meant for it. A failure
is passed on as it is. -/
def Store.answerTo (answers : Store Id) : Operation → Result Answer
  | .find request => Except.map .documents (answers.find request)
  | .aggregate collection pipeline options =>
    Except.map .documents (answers.aggregate collection pipeline options)
  | .count collection filter => Except.map .counted (answers.count collection filter)
  | .distinct collection field filter =>
    Except.map .values (answers.distinct collection field filter)
  | .delete collection filter => Except.map .deleted (answers.deleteMany collection filter)

/-- A recording store records the operation that it is sent, and nothing else. -/
theorem Store.recording_run (answers : Store Id) (op : Operation) (log : List Operation) :
    answers.recording.run op log = (answers.answerTo op, log ++ [op]) := by
  cases op <;> rfl

/-- A failure of any kind comes back as it is. -/
example (kind : ErrorKind) (report collection : String) (filter : Document) (log : List Operation) :
    (Store.recording ({ failure := report, kind } : Reply)).run (.delete collection filter) log =
      (.error (.reported kind report), log ++ [.delete collection filter]) := by rfl

/-- What a step of a run returns and records. -/
structure StepTrace (step : Step) (outcome : Result Answer × List Operation) : Prop where
  /-- A text that compiles sends its operation and passes the answer of the store on. -/
  sends : ∀ c, compile step.settings step.text = .ok c →
    outcome = (step.answers.answerTo c.operation, [c.operation])
  /-- A text that does not compile sends nothing. -/
  refuses : ∀ e, compile step.settings step.text = .error e → outcome = (.error e, [])
  /-- Documents are removed exactly for a text that compiles and reads as a `DELETE` statement. -/
  deletes_iff : (∃ collection filter, Operation.delete collection filter ∈ outcome.2) ↔
    (∃ c, compile step.settings step.text = .ok c) ∧
      ∃ table aliasName condition,
        parseStatement step.text = .ok (.delete table aliasName condition)
  /-- The filter of a removal is that of the condition without the base alias. -/
  delete_filter : ∀ collection filter table aliasName condition,
    Operation.delete collection filter ∈ outcome.2 →
    parseStatement step.text = .ok (.delete table aliasName condition) →
    collection = table ∧ (condition = none → filter = []) ∧
      ∀ e, condition = some e →
        Filter.ofExpr step.settings (Model.stripExpr (some (aliasName.getD table)) e) = .ok filter ∧
          ∃ key value, filter = [(key, value)]

/-! ## One step -/

/-- A compiled text is a removal exactly when its statement is a `DELETE`. -/
theorem compile_delete_iff {s : Settings} {text : String} {c : Compiled}
    (h : compile s text = .ok c) :
    (∃ collection filter, c.operation = .delete collection filter) ↔
      ∃ table aliasName condition, parseStatement text = .ok (.delete table aliasName condition) := by
  obtain ⟨hp, hq, ho⟩ := compile_ok h
  simp only [hp, ho, ofQuery_delete_iff, Except.ok.injEq]
  cases hs : c.statement with
  | select query =>
    rw [hs, compileStatement] at hq
    simp [compileSelect_command hq]
  | delete table aliasName condition =>
    rw [hs] at hq
    simp [(compileDelete_ok hq).1]

/-- The filter of an optional condition has one field if there is a condition and none if not. -/
theorem filterOf_map_ok {s : Settings} {condition : Option Expr} {f : Expr → Expr} {d : Document}
    (h : filterOf s (condition.map f) = .ok d) :
    (condition = none → d = []) ∧
      ∀ e, condition = some e → Filter.ofExpr s (f e) = .ok d ∧ ∃ key value, d = [(key, value)] := by
  cases condition with
  | none =>
    refine ⟨fun _ => (Except.ok.inj h).symm, ?_⟩
    rintro e ⟨⟩
  | some e =>
    refine ⟨nofun, ?_⟩
    rintro e' ⟨⟩
    exact ⟨h, Filter.ofExpr_single h⟩

/-- **One step of a run.** -/
theorem run_trace (step : Step) (log : List Operation) :
    ∃ outcome, step.run log = (outcome.1, log ++ outcome.2) ∧ StepTrace step outcome := by
  cases h : compile step.settings step.text with
  | error e =>
    refine ⟨(.error e, []), ?_, ?_⟩
    · rw [Step.run, h, List.append_nil]
      rfl
    · constructor <;> simp [h]
  | ok c =>
    refine ⟨(step.answers.answerTo c.operation, [c.operation]), ?_, ?_⟩
    · simp only [Step.run, h]
      exact Store.recording_run _ _ _
    · constructor
      · simp [h]
      · simp [h]
      · simp only [List.mem_singleton, h, Except.ok.injEq, exists_eq', true_and,
          ← compile_delete_iff h, eq_comm]
      · intro collection filter table aliasName condition hm hd
        obtain ⟨hp, hq, ho⟩ := compile_ok h
        rw [List.mem_singleton, ho, eq_comm, ofQuery_delete_iff] at hm
        rw [Except.ok.inj (hp.symm.trans hd)] at hq
        obtain ⟨-, hn, hf⟩ := compileDelete_ok hq
        rw [hm.2.1, hm.2.2]
        exact ⟨hn, filterOf_map_ok hf⟩

/-! ## Runs -/

theorem runSteps_nil (log : List Operation) : runSteps [] log = ([], log) := rfl

theorem runSteps_cons (step : Step) (steps : List Step) (log : List Operation) :
    runSteps (step :: steps) log =
      ((step.run log).1 :: (runSteps steps (step.run log).2).1,
        (runSteps steps (step.run log).2).2) := by
  simp only [runSteps, List.mapM_cons]
  rfl

/-- **Runs on one store.** Every step of a run does what `StepTrace` says: it records exactly the
operation that its text compiles to and returns the answer of the store, or it records nothing, and
documents are removed only for a `DELETE`, by the filter of its condition. -/
theorem runSteps_trace (steps : List Step) (log : List Operation) :
    ∃ trace : List (Result Answer × List Operation),
      runSteps steps log = (trace.map (·.1), log ++ trace.flatMap (·.2)) ∧
        List.Forall₂ StepTrace steps trace := by
  induction steps generalizing log with
  | nil => exact ⟨[], by rw [runSteps_nil]; simp, .nil⟩
  | cons step steps ih =>
    obtain ⟨outcome, hr, ht⟩ := run_trace step log
    obtain ⟨trace, hrs, hts⟩ := ih (log ++ outcome.2)
    refine ⟨outcome :: trace, ?_, .cons ht hts⟩
    rw [runSteps_cons, hr]
    simp [hrs]

end DocQuery
