import DocQuery.Plan.Grouping

/-!
# Orderings

An ordering is sent as a document of paths and directions. Of grouped documents the keys must be
found in the groups: a field that is not grouped is put in order before the grouping, and its first
value in each group is kept under an accumulator of its own.
-/

namespace DocQuery.Plan

open Syntax

/-- The ordering of a statement. -/
structure RowOrder where
  /-- The ordering of the result. -/
  sort : Document := []
  /-- The ordering before the grouping, for keys that are not grouped. -/
  beforeGroups : Document := []
  /-- The accumulators that keep those keys. -/
  firsts : Document := []

/-- The direction of a key. -/
def direction (key : OrderKey) : Value := .int (if key.ascending then 1 else -1)

/-- The path that a key orders plain documents by. -/
def plainKey (m : Model) (key : OrderKey) : Result String :=
  match key.expr with
  | .column c => .ok (m.aliases.fieldOf c.path)
  | .call name args => .error (.orderByAggregate ⟨name, args⟩)
  | e => .error (.orderByExpression e)

/-- The ordering with one more key of plain documents. -/
def addPlainKey (m : Model) (o : RowOrder) (key : OrderKey) : Result RowOrder := do
  let path ← plainKey m key
  return { o with sort := Keyed.put o.sort path (direction key) }

/-- The output name of an aggregate that is referred to by its text. -/
def outputName (m : Model) (f : Call) : String :=
  accumulatorName f (m.aliases.aliasOf? f.render)

/-- The ordering with one more column of grouped documents. -/
def addGroupedColumn (m : Model) (g : Grouping) (o : RowOrder) (path : String) (way : Value) :
    RowOrder :=
  if m.aliases.isAggregate path then { o with sort := Keyed.put o.sort path way }
  else
    let field := m.aliases.fieldOf path
    match g.idReference? field with
    | some reference => { o with sort := Keyed.put o.sort reference way }
    | none =>
      let name := safeKey field
      { sort := Keyed.put o.sort name way
        beforeGroups := Keyed.put o.beforeGroups field way
        firsts := Keyed.put o.firsts name (.single "$first" (.string (fieldReference field))) }

/-- The ordering with one more key of grouped documents. -/
def addGroupedKey (m : Model) (g : Grouping) (o : RowOrder) (key : OrderKey) : Result RowOrder :=
  match key.expr with
  | .column c => .ok (addGroupedColumn m g o c.path (direction key))
  | .call name args =>
    let f : Call := ⟨name, args⟩
    let output := outputName m f
    if Keyed.hasKey g.accumulators output then
      .ok { o with sort := Keyed.put o.sort output (direction key) }
    else .error (.unselectedOrder f)
  | e => .error (.orderByExpression e)

namespace RowOrder

/-- The ordering of plain documents. -/
def plain (m : Model) : Result RowOrder := m.orderBy.foldlM (addPlainKey m) {}

/-- The ordering of grouped documents. -/
def grouped (m : Model) (g : Grouping) : Result RowOrder := m.orderBy.foldlM (addGroupedKey m g) {}

end RowOrder

end DocQuery.Plan
