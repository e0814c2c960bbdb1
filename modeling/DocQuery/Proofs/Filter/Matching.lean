import DocQuery.Document.Value
import DocQuery.Syntax.Tree
import Mathlib.Algebra.Group.Int.Defs

/-!
# Which documents a filter matches

A filter is a conjunction of clauses. The clauses `$and`, `$or` and `$nor` combine filters, and
`truth` is the truth value of a filter once the other clauses have one. `matchesDoc` reads those
clauses on a document: a clause on a field tests what is reached along its dotted path for equality,
inequality, order, existence or membership. What a store makes of the remaining operators is a
parameter, an `Extension`.
-/

namespace DocQuery

namespace Value

/-! ## Connectives -/

mutual

/-- The truth value of a filter, given those of the clauses that are no connectives. -/
def truth (assign : String → Value → Bool) : Value → Bool
  | .document clauses => clausesTruth assign clauses
  | _ => false

/-- The truth value of a conjunction of clauses. -/
def clausesTruth (assign : String → Value → Bool) : List (String × Value) → Bool
  | [] => true
  | (key, value) :: rest =>
    (match value with
      | .array filters =>
        if key = "$and" then allTrue assign filters
        else if key = "$or" then anyTrue assign filters
        else if key = "$nor" then !anyTrue assign filters
        else assign key value
      | value => assign key value) && clausesTruth assign rest

/-- Whether all of several filters are true. -/
def allTrue (assign : String → Value → Bool) : List Value → Bool
  | [] => true
  | filter :: filters => truth assign filter && allTrue assign filters

/-- Whether one of several filters is true. -/
def anyTrue (assign : String → Value → Bool) : List Value → Bool
  | [] => false
  | filter :: filters => truth assign filter || anyTrue assign filters

end

/-- The keys of the connectives. -/
def connectiveKeys : List String := ["$and", "$or", "$nor"]

variable (assign : String → Value → Bool)

theorem allTrue_eq_all (filters : List Value) :
    allTrue assign filters = filters.all (truth assign) := by
  induction filters with
  | nil => rfl
  | cons filter filters ih => rw [allTrue, ih, List.all_cons]

theorem anyTrue_eq_any (filters : List Value) :
    anyTrue assign filters = filters.any (truth assign) := by
  induction filters with
  | nil => rfl
  | cons filter filters ih => rw [anyTrue, ih, List.any_cons]

/-- The key of a clause with an array says how the filters of the array are joined. -/
theorem truth_single_array (key : String) (filters : List Value) :
    truth assign (.single key (.array filters)) =
      if key = "$and" then filters.all (truth assign)
      else if key = "$or" then filters.any (truth assign)
      else if key = "$nor" then !filters.any (truth assign)
      else assign key (.array filters) := by
  rw [← allTrue_eq_all, ← anyTrue_eq_any]
  exact Bool.and_true _

@[simp] theorem truth_and (filters : List Value) :
    truth assign (.single "$and" (.array filters)) = filters.all (truth assign) := by
  simp [truth_single_array]

@[simp] theorem truth_or (filters : List Value) :
    truth assign (.single "$or" (.array filters)) = filters.any (truth assign) := by
  simp [truth_single_array]

@[simp] theorem truth_nor (filters : List Value) :
    truth assign (.single "$nor" (.array filters)) = !filters.any (truth assign) := by
  simp [truth_single_array]

theorem truth_single {key : String} (h : key ∉ connectiveKeys) (value : Value) :
    truth assign (.single key value) = assign key value := by
  simp only [connectiveKeys, List.mem_cons, List.not_mem_nil, or_false, not_or] at h
  cases value with
  | array filters => simp [truth_single_array, h]
  | _ => exact Bool.and_true _

/-! ## Values -/

/-- The value of a number as a multiple of the smallest positive number of double precision. -/
def scaled? : Value → Option Int
  | .int n => some (n * 2 ^ 1074)
  | .float x => some (if x.negative then -(x.units : Int) else x.units)
  | _ => none

mutual

/-- Whether two values are the same. Numbers are compared by value. -/
def same : Value → Value → Bool
  | .null, .null => true
  | .bool a, .bool b => a == b
  | .string s, .string t => s == t
  | .array us, .array vs => sameElements us vs
  | .document us, .document vs => sameFields us vs
  | u, v =>
    match u.scaled?, v.scaled? with
    | some a, some b => a == b
    | _, _ => false

/-- Whether two lists have the same values. -/
def sameElements : List Value → List Value → Bool
  | [], [] => true
  | u :: us, v :: vs => same u v && sameElements us vs
  | _, _ => false

/-- Whether two documents have the same fields in the same order. -/
def sameFields : List (String × Value) → List (String × Value) → Bool
  | [], [] => true
  | (k, u) :: us, (l, v) :: vs => k == l && same u v && sameFields us vs
  | _, _ => false

end

/-- How two numbers, two texts or two truth values compare. -/
def order? : Value → Value → Option Ordering
  | .string s, .string t => some (compare s t)
  | .bool a, .bool b => some (compare a b)
  | u, v =>
    match u.scaled?, v.scaled? with
    | some a, some b => some (compare a b)
    | _, _ => none

/-- Whether a value is one of those that `order?` compares. -/
def isOrdered : Value → Bool
  | .string _ | .bool _ | .int _ | .float _ => true
  | _ => false

/-- The values that a path leads to from a value. The documents in an array are all entered. -/
def reach : List (List Char) → Value → List Value
  | [], v => [v]
  | part :: parts, .document fields =>
    ((Keyed.get? fields (String.ofList part)).map (reach parts)).getD []
  | part :: parts, .array elements =>
    elements.flatMap fun
      | .document fields => ((Keyed.get? fields (String.ofList part)).map (reach parts)).getD []
      | _ => []
  | _, _ => []

end Value

/-- The values that a dotted path leads to in a document. -/
def Document.reach (d : Document) (path : String) : List Value :=
  Value.reach (Syntax.Column.splitDots path.toList) (.document d)

namespace Filter

/-- What a store makes of operators that are not described here: whether the clause with a given key
and value matches a document. -/
abbrev Extension := String → Value → Document → Bool

/-- Whether a value that is reached passes a test, itself or as one of its elements. -/
def hits (test : Value → Bool) (v : Value) : Bool :=
  test v || match v with
    | .array elements => elements.any test
    | _ => false

/-- Whether a field equals a value. A field that is not there equals null. -/
def fieldEquals (path : String) (value : Value) (d : Document) : Bool :=
  (d.reach path).any (hits (Value.same · value)) ||
    (match value with
      | .null => (d.reach path).isEmpty
      | _ => false)

/-- Whether a field stands in one of some relations to a value. -/
def fieldCompares (path : String) (value : Value) (wanted : List Ordering) (d : Document) : Bool :=
  (d.reach path).any (hits fun v => (Value.order? v value).any wanted.contains)

/-- Whether a field passes the test of an operator. -/
def operatorMatches (ext : Extension) (path op : String) (operand : Value) (d : Document) : Bool :=
  if op = "$eq" then fieldEquals path operand d
  else if op = "$ne" then !fieldEquals path operand d
  else if op = "$lt" ∧ operand.isOrdered then fieldCompares path operand [.lt] d
  else if op = "$lte" ∧ operand.isOrdered then fieldCompares path operand [.lt, .eq] d
  else if op = "$gt" ∧ operand.isOrdered then fieldCompares path operand [.gt] d
  else if op = "$gte" ∧ operand.isOrdered then fieldCompares path operand [.gt, .eq] d
  else match op, operand with
    | "$exists", .bool wanted => !(d.reach path).isEmpty == wanted
    | "$in", .array values => values.any (fieldEquals path · d)
    | "$nin", .array values => !values.any (fieldEquals path · d)
    | _, _ => ext path (.single op operand) d

/-- Whether a key is that of an operator. -/
def isOperator (key : String) : Bool := key.toList.head? = some '$'

/-- Whether the fields of a document are operators to test a field with. An object id and a date are
values, though they are written with an operator. -/
def isTest (fields : List (String × Value)) : Bool :=
  match fields with
  | [] => false
  | [("$oid", _)] => false
  | [("$date", _)] => false
  | fields => fields.all fun field => isOperator field.1

/-- Whether a clause that is no connective matches a document. -/
def clauseMatches (ext : Extension) (d : Document) (key : String) (value : Value) : Bool :=
  if isOperator key then ext key value d
  else match value with
    | .document fields =>
      if isTest fields then fields.all fun field => operatorMatches ext key field.1 field.2 d
      else fieldEquals key value d
    | value => fieldEquals key value d

/-- Whether a filter matches a document. -/
def matchesDoc (ext : Extension) (filter d : Document) : Bool :=
  Value.truth (clauseMatches ext d) (.document filter)

end Filter

end DocQuery
