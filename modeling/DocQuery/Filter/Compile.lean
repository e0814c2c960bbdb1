import DocQuery.Document.Field
import DocQuery.Filter.Coercion
import DocQuery.Filter.Like
import DocQuery.Filter.Special

/-!
# Filters

`valueOf` compiles an expression to a value of the document store, in the role that the expression
plays: a condition gives a filter document, and the operand of a comparison, the operand of an
aggregation expression and the argument of a call give values. `ofExpr` is the filter of a
condition.

A chain of one connective becomes one array. The chain is followed down its left side as long as the
connective repeats and the right sides are no connectives; a mixed chain is compiled side by side.
-/

namespace DocQuery.Filter

open Syntax

/-- The role of an expression. -/
inductive Role where
  /-- A condition on documents. -/
  | condition
  /-- The value that the field on the other side is compared with. -/
  | comparand (other : Expr)
  /-- An operand of an aggregation expression, beside another one. -/
  | operand (other : Expr)
  /-- An argument of a call. -/
  | argument (f : Call)

/-- The value of a literal beside another operand: of the declared type if that is a field. -/
def literalBeside (s : Settings) (other : Expr) (value : Literal) : Value :=
  match other.column? with
  | some c => coerce (s.fieldType c.path) value
  | none => coerce s.defaultType value

/-- The value of a literal in a role. -/
def literalValue (s : Settings) (role : Role) (value : Literal) : Result Value :=
  match role with
  | .condition => .error (.literalCondition value)
  | .comparand other => .ok (literalBeside s other value)
  | .operand other => .ok (literalBeside s other value)
  | .argument _ => .ok value.toValue

/-- The value of a column in a role: the condition that it is true, its path, or a reference. -/
def columnValue (role : Role) (c : Column) : Value :=
  match role with
  | .condition => .single c.path (.bool true)
  | .comparand _ => .string c.path
  | .operand _ => .string (fieldReference c.path)
  | .argument _ => .string (fieldReference c.path)

/-- The value of a call with compiled arguments: a single argument stands alone. -/
def callValue (name : String) (args : List Value) : Value :=
  .single ("$" ++ name) (match args with
    | [arg] => arg
    | args => .array args)

/-- The condition that a field compares to a value. -/
def comparisonValue (c : Column) (op : Comparison) (value : Value) : Value :=
  match op with
  | .equal => .single c.path value
  | op => .single c.path (.single op.operator value)

/-- The key of a connective. -/
def connectiveKey : Connective → String
  | .and => "$and"
  | .or => "$or"

/-- The match of a field with the whole of a `LIKE` pattern. -/
def likeMatch (c : Column) (pattern : String) : Value :=
  .single c.path (.single "$regex" (.string ("^" ++ likeRegex pattern ++ "$")))

/-- The filter of a `LIKE` test: a column on the left and a text or a column on the right. -/
def likeFilter (operand pattern : Expr) (negated : Bool) : Result Value :=
  if negated then .error .negatedLike
  else match operand, pattern with
    | .column c, .literal (.string p) => .ok (likeMatch c p)
    | .column c, .column p => .ok (likeMatch c p.path)
    | .column _, p => .error (.likePattern p)
    | e, _ => .error (.likeOperand e)

/-- The first subquery of a list. -/
def subquery? : List Expr → Option Statement
  | [] => none
  | .subquery statement :: _ => some statement
  | _ :: es => subquery? es

/-- One step down a chain: the operands from right to left, or nothing if the chain is mixed. What is
below on the left and the two sides are compiled only when the chain goes on with them. -/
def chainStep (op : Connective) (left right : Expr)
    (below : Unit → Result (Option (List Value))) (leftValue rightValue : Unit → Result Value) :
    Result (Option (List Value)) :=
  match right.connective?, left.connective? with
  | some _, _ => .ok none
  | none, some op' =>
    if op' = op then do
      let v ← rightValue ()
      let vs? ← below ()
      return vs?.map (v :: ·)
    else .ok none
  | none, none => do
    let v ← rightValue ()
    let u ← leftValue ()
    return some [v, u]

mutual

/-- The value of an expression in a role. -/
def valueOf (s : Settings) (role : Role) : Expr → Result Value
  | .literal value => literalValue s role value
  | .column c => .ok (columnValue role c)
  | .wildcard =>
    match role with
    | .argument f => .error (.wildcardArgument f)
    | _ => .error .strayWildcard
  | .subquery statement => .error (.nestedSubquery statement)
  | .call name args => do
    let special ← match role with
      | .condition => regexMatch (.call name args)
      | _ => .ok none
    match special with
    | some filter => return .document filter
    | none =>
      let args ← argumentValues s ⟨name, args⟩ args
      return callValue name args
  | .compare left op right => do
    match ← specialMatch (.compare left op right) with
    | some filter => return .document filter
    | none =>
      if left.call?.isSome || right.call?.isSome ||
          (left.column?.isSome && right.column?.isSome) then
        let u ← valueOf s (.operand right) left
        let v ← valueOf s (.operand left) right
        return .single "$expr" (.single op.operator (.array [u, v]))
      else match left.column?, right.column? with
        | some c, _ =>
          let v ← valueOf s (.comparand left) right
          return comparisonValue c op v
        | none, some c =>
          let v ← valueOf s (.comparand right) left
          return comparisonValue c op.swap v
        | none, none => throw (.comparisonWithoutField (.compare left op right))
  | .like operand pattern negated => likeFilter operand pattern negated
  | .isNull operand negated =>
    let field := match operand.column? with
      | some c => c.path
      | none => operand.render
    .ok (.single field (.single "$exists" (.bool negated)))
  | .inList operand list negated =>
    match subquery? list with
    | some statement => .error (.listedSubquery statement)
    | none => do
      match ← objectIdMatch (.inList operand list negated) with
      | some filter => return .document filter
      | none =>
        let values ← listValues s operand list
        match operand with
        | .call name args =>
          let args ← argumentValues s ⟨name, args⟩ args
          return .single (if negated then "$fnin" else "$fin")
            (.document [("function", callValue name args), ("list", .array values)])
        | .column c =>
          return .single "$expr" (.single (if negated then "$nin" else "$in")
            (.array [.string (fieldReference c.path), .array values]))
        | .literal value =>
          return .single "$expr" (.single (if negated then "$nin" else "$in")
            (.array [value.toValue, .array values]))
        | e => throw (.inOperand e)
  | .logic op left right => do
    let chain? ← chainStep op left right (fun _ => chainValues s op left)
      (fun _ => valueOf s .condition left) (fun _ => valueOf s .condition right)
    match chain? with
    | some values => return .single (connectiveKey op) (.array values.reverse)
    | none =>
      let u ← valueOf s .condition left
      let v ← valueOf s .condition right
      return .single (connectiveKey op) (.array [u, v])
  | .parens inner negated => do
    let v ← valueOf s .condition inner
    return if negated then .single "$nor" (.array [v]) else v
  | .not inner =>
    match role with
    | .comparand _ => .error (.negatedOperand (.not inner))
    | .operand _ => .error (.negatedOperand (.not inner))
    | _ => .ok (.single inner.render (.single "$ne" (.bool true)))

/-- The operands of a chain of a connective from right to left, nothing if the chain is mixed. -/
def chainValues (s : Settings) (op : Connective) : Expr → Result (Option (List Value))
  | .logic op' left right =>
    if op' = op then
      chainStep op left right (fun _ => chainValues s op left)
        (fun _ => valueOf s .condition left) (fun _ => valueOf s .condition right)
    else .ok none
  | _ => .ok none

/-- The values of the arguments of a call. -/
def argumentValues (s : Settings) (f : Call) : List Expr → Result (List Value)
  | [] => .ok []
  | e :: es => do
    let v ← valueOf s (.argument f) e
    let vs ← argumentValues s f es
    return v :: vs

/-- The values of the elements of an `IN` list, beside the operand that is looked up. -/
def listValues (s : Settings) (operand : Expr) : List Expr → Result (List Value)
  | [] => .ok []
  | e :: es => do
    let v ← valueOf s (.operand operand) e
    let vs ← listValues s operand es
    return v :: vs

end

/-- The filter of a condition. -/
def ofExpr (s : Settings) (e : Expr) : Result Document := do
  match ← valueOf s .condition e with
  | .document filter => return filter
  | value => throw (.noFilter e value)

end DocQuery.Filter
