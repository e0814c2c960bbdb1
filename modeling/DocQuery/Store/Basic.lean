import DocQuery.Plan.Compile

/-!
# Document stores

A document store answers operations. `Store.run` sends an operation to the call that answers it and
passes the answer on untouched.
-/

namespace DocQuery

/-- The calls of a document store, which run in a monad `m` and may report a failure. -/
structure Store (m : Type → Type) where
  /-- Reads documents. -/
  find : FindRequest → m (Result (List Document))
  /-- Runs a pipeline on a collection, with options. -/
  aggregate : String → List Document → Document → m (Result (List Document))
  /-- Counts the documents of a collection that a filter matches. -/
  count : String → Document → m (Result Nat)
  /-- Reads the distinct values of a field of a collection. -/
  distinct : String → String → Document → m (Result (List Value))
  /-- Removes the documents of a collection that a filter matches and counts them. -/
  deleteMany : String → Document → m (Result Nat)

/-- What comes back from a document store. -/
inductive Answer where
  /-- Documents. -/
  | documents (docs : List Document)
  /-- Distinct values. -/
  | values (vs : List Value)
  /-- A number of documents. -/
  | counted (n : Nat)
  /-- A number of removed documents. -/
  | deleted (n : Nat)

/-- Sends an operation to a store. -/
def Store.run {m : Type → Type} [Monad m] (store : Store m) : Operation → m (Result Answer)
  | .find request => return (← store.find request).map .documents
  | .count collection filter => return (← store.count collection filter).map .counted
  | .distinct collection field filter =>
    return (← store.distinct collection field filter).map .values
  | .aggregate collection pipeline options =>
    return (← store.aggregate collection pipeline options).map .documents
  | .delete collection filter => return (← store.deleteMany collection filter).map .deleted

end DocQuery
