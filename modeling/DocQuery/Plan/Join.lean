import DocQuery.Filter.Compile
import DocQuery.Model.Basic
import DocQuery.Plan.Stage

/-!
# Joins

A join becomes two stages: a lookup of the partners and the unwinding of their array. The condition
of a join is compiled to an aggregation expression over the joined collection, in which fields of
the base are variables.

The condition on rows is split beforehand: what does not speak of joined collections is applied
before the joins, unless there is an `OR` in it.
-/

namespace DocQuery.Plan

open Syntax

/-! ## Splitting the condition on rows -/

/-- A condition in two parts. -/
structure Split where
  /-- What is applied before the joins. -/
  pushed : Option Expr
  /-- What is applied after the joins. -/
  residual : Option Expr

/-- The conditions that a chain of `AND` joins, left to right. -/
def conjuncts : Expr → List Expr
  | .logic .and left right => conjuncts left ++ conjuncts right
  | e => [e]

/-- The conditions joined by `AND` again, grouped to the left. -/
def conjoin : List Expr → Option Expr
  | [] => none
  | e :: es => some (es.foldl (fun left right => .logic .and left right) e)

/-- Whether a column belongs to a joined collection. -/
def isJoined (aliases : List String) (c : Column) : Bool :=
  match c.qualifier with
  | some q => aliases.contains q
  | none => false

/-- Whether an expression speaks of a joined collection. -/
def readsJoined (aliases : List String) (e : Expr) : Bool := e.columns.any (isJoined aliases)

/-- The two parts of a condition. -/
def splitCondition (aliases : List String) (e : Expr) : Split :=
  if e.containsOr then ⟨none, some e⟩
  else
    ⟨conjoin ((conjuncts e).filter fun part => !readsJoined aliases part),
      conjoin ((conjuncts e).filter (readsJoined aliases))⟩

/-! ## Variables -/

/-- The variables of a join, with the references they hold. -/
abbrev Variables := Keyed String

/-- The names tried for a variable, in order. -/
def candidateName (base : String) (index : Nat) : String :=
  if index = 0 then base else base ++ "_" ++ Number.natText (index + 1)

/-- The first candidate that is not taken. One more candidate than there are variables is enough. -/
def freshName (vars : Variables) (base : String) : String :=
  (((List.range (vars.length + 1)).map (candidateName base)).find? fun name =>
    !Keyed.hasKey vars name).getD base

/-- The variable that holds a reference. -/
def variableOf? (vars : Variables) (reference : String) : Option String :=
  vars.findSome? fun (name, bound) => if bound = reference then some name else none

/-- The variable that holds a field, and the variables with it. -/
def bindVariable (vars : Variables) (path : String) : String × Variables :=
  let reference := fieldReference path
  match variableOf? vars reference with
  | some name => (name, vars)
  | none =>
    let name := freshName vars (variableName path)
    (name, Keyed.put vars name reference)

/-! ## Conditions -/

/-- A part of a compilation that binds variables. -/
abbrev Binding (α : Type) := StateT Variables (Except CompileError) α

/-- The value of a column: a reference into the joined collection, or the variable of a field. -/
def columnTerm (joined : String) (c : Column) : Binding Value := fun vars =>
  if c.qualifier = some joined then .ok (.string (fieldReference c.name), vars)
  else
    let (name, vars) := bindVariable vars c.path
    .ok (.string ("$$" ++ name), vars)

/-- What a compiled side adds to the array of a connective: the elements of its own array if it is a
chain of the same connective, else itself. -/
def chained (op : Connective) (e : Expr) (value : Value) : List Value :=
  match e.connective?, value with
  | some op', .document [(_, .array values)] => if op' = op then values else [value]
  | _, _ => [value]

/-- The negation of a compiled condition, if it is wanted. -/
def negateIf (negated : Bool) (value : Value) : Value :=
  if negated then .single "$not" (.array [value]) else value

/-- Whether an expression stands as a condition or as an operand. -/
inductive Place where
  /-- A condition, which a literal is not. -/
  | condition
  /-- An operand of a condition. -/
  | operand

mutual

/-- The aggregation expression of a part of the condition of a join. -/
def term (joined : String) (place : Place) : Expr → Binding Value
  | .literal value =>
    match place with
    | .condition => throw (.joinCondition (.literal value))
    | .operand => return value.toValue
  | .column c => columnTerm joined c
  | .call name args => do
    let args ← terms joined args
    return Filter.callValue name args
  | .compare left op right => do
    let u ← term joined .operand left
    let v ← term joined .operand right
    return .single op.operator (.array [u, v])
  | .isNull operand negated => do
    let u ← term joined .operand operand
    return .single (if negated then "$ne" else "$eq") (.array [u, .null])
  | .inList operand list negated => do
    let values ← terms joined list
    let u ← term joined .operand operand
    return negateIf negated (.single "$in" (.array [u, .array values]))
  | .logic op left right => do
    let u ← term joined .condition left
    let v ← term joined .condition right
    return .single (Filter.connectiveKey op) (.array (chained op left u ++ chained op right v))
  | .parens inner negated => do
    let v ← term joined .condition inner
    return negateIf negated v
  | .not inner => do
    let v ← term joined .condition inner
    return negateIf true v
  | .like operand pattern negated => throw (.joinCondition (.like operand pattern negated))
  | .wildcard => throw (.joinCondition .wildcard)
  | .subquery statement => throw (.joinCondition (.subquery statement))

/-- The aggregation expressions of several operands, left to right. -/
def terms (joined : String) : List Expr → Binding (List Value)
  | [] => return []
  | e :: es => do
    let v ← term joined .operand e
    let vs ← terms joined es
    return v :: vs

end

/-! ## Stages -/

/-- The local and the foreign field of a condition that equates one of each. -/
def equatedFields? (joined : String) : Expr → Option (String × String)
  | .compare (.column left) .equal (.column right) =>
    match left.qualifier == some joined, right.qualifier == some joined with
    | false, true => some (left.path, right.name)
    | true, false => some (right.path, left.name)
    | _, _ => none
  | _ => none

/-- The body of a lookup. -/
def lookupBody (collection joined : String) (condition : Expr) : Result Document :=
  match equatedFields? joined condition with
  | some (localField, foreignField) =>
    .ok [("from", .string collection), ("localField", .string localField),
      ("foreignField", .string foreignField), ("as", .string joined)]
  | none => do
    let (value, vars) ← term joined .condition condition []
    return [("from", .string collection),
      ("let", .document (vars.map fun (name, reference) => (name, .string reference))),
      ("pipeline", .array [.single "$match" (.single "$expr" value)]), ("as", .string joined)]

/-- The name of a joined table: its alias, else its own name. -/
def joinAlias (join : Join) : Result String :=
  match join.source with
  | .table name aliasName => .ok (aliasName.getD name)
  | .query _ _ => .error (.joinedSubquery join)

/-- Whether rows without a partner are kept. -/
def keepsUnmatched (join : Join) : Result Bool :=
  match join.kind with
  | .inner => .ok false
  | .left => .ok true
  | kind => .error (.joinKind kind)

/-- The stages of a join. -/
def joinPair (join : Join) : Result (List Stage) := do
  let preserve ← keepsUnmatched join
  match join.source with
  | .table collection aliasName =>
    let joined := aliasName.getD collection
    let body ← lookupBody collection joined join.condition
    return [.lookup body, .unwind joined preserve]
  | .query _ _ => throw (.joinedSubquery join)

/-- The stages of joins and of the condition that is applied after them. -/
def joinStages (s : Settings) (joins : List Join) (residual : Option Expr) :
    Result (List Stage) := do
  let pairs ← joins.mapM joinPair
  match residual with
  | some e =>
    let filter ← Filter.ofExpr s e
    return pairs.flatten ++ [.filter filter]
  | none => return pairs.flatten

end DocQuery.Plan
