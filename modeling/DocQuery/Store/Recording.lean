import DocQuery.Store.Basic

/-!
# Recording stores

A recording store keeps the operations it is asked for and answers each of them as another store
does, be it with a failure of any kind. `runSteps` compiles and runs one text after the other on the
same log.
-/

namespace DocQuery

/-- A computation that records operations. -/
abbrev Recorded (α : Type) := StateM (List Operation) α

/-- Records an operation and returns what it is answered with. -/
def record {α : Type} (op : Operation) (answer : α) : Recorded α := fun log => (answer, log ++ [op])

/-- The store that records its calls and answers them as another store does. -/
def Store.recording (answers : Store Id) : Store Recorded where
  find request := record (.find request) (answers.find request)
  aggregate collection pipeline options :=
    record (.aggregate collection pipeline options) (answers.aggregate collection pipeline options)
  count collection filter := record (.count collection filter) (answers.count collection filter)
  distinct collection field filter :=
    record (.distinct collection field filter) (answers.distinct collection field filter)
  deleteMany collection filter :=
    record (.delete collection filter) (answers.deleteMany collection filter)

/-- A reply that is prepared for whichever call is made. -/
structure Reply where
  /-- What every call reports as a failure, if it fails. -/
  failure : Option String := none
  /-- The kind of the failure. -/
  kind : ErrorKind := .store
  /-- The documents that a read or a pipeline returns. -/
  documents : List Document := []
  /-- The distinct values. -/
  values : List Value := []
  /-- The number of documents that are counted or removed. -/
  count : Nat := 0

namespace Reply

/-- Answers with a part of the reply, or with its failure. -/
def answer {α : Type} (reply : Reply) (value : α) : Result α :=
  match reply.failure with
  | some report => .error (.reported reply.kind report)
  | none => .ok value

/-- The store that answers every call from a reply. -/
def store (reply : Reply) : Store Id where
  find _ := reply.answer reply.documents
  aggregate _ _ _ := reply.answer reply.documents
  count _ _ := reply.answer reply.count
  distinct _ _ _ := reply.answer reply.values
  deleteMany _ _ := reply.answer reply.count

instance : Coe Reply (Store Id) := ⟨store⟩

end Reply

/-- One text to compile and run. -/
structure Step where
  /-- The settings. -/
  settings : Settings
  /-- The text of the statement. -/
  text : String
  /-- What the store answers with. -/
  answers : Store Id

/-- Compiles a text and runs its operation on the recording store. -/
def Step.run (step : Step) : Recorded (Result Answer) :=
  match compile step.settings step.text with
  | .ok compiled => step.answers.recording.run compiled.operation
  | .error e => return .error e

/-- Runs steps one after the other on one store. -/
def runSteps (steps : List Step) : Recorded (List (Result Answer)) := steps.mapM Step.run

end DocQuery
