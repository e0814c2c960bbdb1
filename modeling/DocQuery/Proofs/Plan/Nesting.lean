import DocQuery.Proofs.Plan.Compile

/-!
# Trivial levels

A statement that reads all of a source (`selectAll`) has no stages of its own, so it compiles to the
origin that the source has itself (`compileSource_selectAll`). A source may therefore be replaced by
that statement under the same name, at any depth (`Deepened`): what is compiled does not change, and
neither does the operation that is chosen nor the error that is reported (`compile_deepened`).
-/

namespace DocQuery

open Syntax Plan

/-- The statement that reads all of a source. -/
def selectAll (source : Source) : Select where
  distinct := false
  items := [.wildcard]
  source := source
  joins := []
  condition := none
  groupBy := []
  having := none
  orderBy := []
  limit := none
  offset := none

/-- Two sources of which the second has one trivial level more. -/
inductive Deepened : Source → Source → Prop where
  /-- The source itself is read by a statement that goes by its name. -/
  | here (source : Source) :
    Deepened source (.query (.select (selectAll source)) (Model.baseAliasOf source))
  /-- The trivial level is somewhere within a nested statement. -/
  | within {query : Select} {source : Source} (h : Deepened query.source source)
    (aliasName : Option String) :
    Deepened (.query (.select query) aliasName)
      (.query (.select { query with source }) aliasName)

theorem Deepened.baseAliasOf_eq {source source' : Source} (h : Deepened source source') :
    Model.baseAliasOf source' = Model.baseAliasOf source := by
  cases h with
  | here source => rfl
  | within h aliasName => rfl

variable {s : Settings}

/-! ## What is read of a source -/

theorem compileSelect_eq (query : Select) :
    compileSelect s query = (do
      let m ← Model.ofSelect query
      let origin ← compileSource s query.source
      compileModel s m origin) := by
  cases query
  rw [compileSelect]

/-- A model depends on its source by the base alias only. -/
theorem ofSelect_source (query : Select) {source : Source}
    (h : Model.baseAliasOf source = Model.baseAliasOf query.source) :
    Model.ofSelect { query with source } =
      Model.ofSelect query >>= fun m => .ok { m with source } := by
  simp only [Model.ofSelect, h, bind_assoc]
  refine bind_congr fun _ => ?_
  split <;> rfl

/-- A query depends on the source of its model by the origin only. -/
theorem compileModel_source (m : Model) (source : Source) (origin : Origin) :
    compileModel s { m with source } origin = compileModel s m origin := rfl

/-- **Sources with one name and one origin can be exchanged.** -/
theorem compileSelect_source (query : Select) {source : Source}
    (hb : Model.baseAliasOf source = Model.baseAliasOf query.source)
    (ho : compileSource s source = compileSource s query.source) :
    compileSelect s { query with source } = compileSelect s query := by
  rw [compileSelect_eq, compileSelect_eq, ofSelect_source query hb, bind_assoc]
  refine bind_congr fun m => ?_
  change (compileSource s source >>= fun origin => compileModel s { m with source } origin) = _
  simp only [ho, compileModel_source]

/-! ## Trivial levels -/

/-- A statement that reads all of a source adds no stage to those of its origin. -/
theorem pipeline_selectAll (source : Source) (origin : Origin) :
    ∃ q, (Model.ofSelect (selectAll source) >>= fun m => compileModel s m origin) = .ok q ∧
      q.collection = origin.collection ∧ q.pipeline = origin.priorStages :=
  ⟨_, rfl, rfl, List.append_nil _⟩

/-- A statement that reads all of a source has the origin of that source. -/
theorem compileSource_selectAll (source : Source) (aliasName : Option String) :
    compileSource s (.query (.select (selectAll source)) aliasName) = compileSource s source := by
  rw [compileSource, compileSelect_eq]
  change (compileSource s source >>= fun origin =>
    Model.ofSelect (selectAll source) >>= fun m => compileModel s m origin) >>= _ = _
  cases compileSource s source with
  | error e => rfl
  | ok origin =>
    obtain ⟨q, hq, hcollection, hpipeline⟩ := pipeline_selectAll (s := s) source origin
    exact bind_eq_ok.2 ⟨q, hq, by rw [hcollection, hpipeline]; rfl⟩

/-- However deep it stands, a trivial level does not change where documents come from. -/
theorem Deepened.compileSource_eq {source source' : Source} (h : Deepened source source') :
    compileSource s source' = compileSource s source := by
  induction h with
  | here source => exact compileSource_selectAll source _
  | within h aliasName ih =>
    rw [compileSource, compileSource, compileSelect_source _ h.baseAliasOf_eq ih]

/-- **A trivial level is transparent.** With one trivial level more, at any depth of its source, a
statement compiles to the same query or fails with the same error, and the texts of the two
statements are sent as the same operation. -/
theorem compile_deepened {query : Select} {source : Source} (h : Deepened query.source source) :
    compileStatement s (.select { query with source }) = compileStatement s (.select query) ∧
    ∀ {text text' : String}, parseStatement text = .ok (.select query) →
      parseStatement text' = .ok (.select { query with source }) →
      Agree (fun c c' => c'.query = c.query ∧ c'.operation = c.operation)
        (compile s text) (compile s text') := by
  have hcompile : compileStatement s (.select { query with source }) =
      compileStatement s (.select query) := by
    rw [compileStatement, compileStatement]
    exact compileSelect_source query h.baseAliasOf_eq h.compileSource_eq
  refine ⟨hcompile, fun {text text'} ht ht' => ?_⟩
  unfold compile
  rw [ht, ht']
  refine Agree.bind_same _ fun _ _ => ?_
  change Agree _ (compileStatement s (.select query) >>= _)
    (compileStatement s (.select { query with source }) >>= _)
  rw [hcompile]
  exact Agree.bind_same _ fun q _ => .ok ⟨rfl, rfl⟩

/-- A read of distinct values from all of a source, which is nested under the alias `p`. -/
def distinctOf (source : Source) : Select :=
  { selectAll (.query (.select (selectAll source)) (some "p")) with
    distinct := true, items := [.expr (.column ⟨some "p", "a"⟩) none] }

/-- A read of distinct values from a nested source, with a trivial level put in below it. -/
theorem compile_deepened_distinct :
    parseStatement "SELECT DISTINCT p.a FROM (SELECT * FROM t) p" =
      .ok (.select (distinctOf (.table "t" none))) ∧
    parseStatement "SELECT DISTINCT p.a FROM (SELECT * FROM (SELECT * FROM t) t) p" =
      .ok (.select (distinctOf (.query (.select (selectAll (.table "t" none))) (some "t")))) ∧
    ∃ c c', compile {} "SELECT DISTINCT p.a FROM (SELECT * FROM t) p" = .ok c ∧
      compile {} "SELECT DISTINCT p.a FROM (SELECT * FROM (SELECT * FROM t) t) p" = .ok c' ∧
      c.operation.name = "distinct" ∧ c'.query = c.query ∧ c'.operation = c.operation := by
  obtain ⟨c, query, hc, hs, hname⟩ := exists_compile_select {}
    "SELECT DISTINCT p.a FROM (SELECT * FROM t) p" (fun _ c => c.operation.name) "distinct"
    (by decide +kernel)
  have hread : parseStatement "SELECT DISTINCT p.a FROM (SELECT * FROM t) p" =
      .ok (.select (distinctOf (.table "t" none))) := by rfl
  have hread' : parseStatement "SELECT DISTINCT p.a FROM (SELECT * FROM (SELECT * FROM t) t) p" =
      .ok (.select (distinctOf (.query (.select (selectAll (.table "t" none))) (some "t")))) := by rfl
  have hdeep : Deepened (distinctOf (.table "t" none)).source _ :=
    .within (.here (.table "t" none)) (some "p")
  obtain ⟨c', hc', hsame⟩ : ∃ c',
      compile {} "SELECT DISTINCT p.a FROM (SELECT * FROM (SELECT * FROM t) t) p" = .ok c' ∧
        c'.query = c.query ∧ c'.operation = c.operation := by
    have hagree := (compile_deepened (s := {}) hdeep).2 hread hread'
    rw [hc] at hagree
    generalize compile {} _ = found at hagree ⊢
    cases hagree with
    | ok h => exact ⟨_, rfl, h⟩
  exact ⟨hread, hread', c, c', hc, hc', hname, hsame⟩

end DocQuery
