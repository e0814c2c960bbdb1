/-!
# Names of fields

A field is named by its dotted path. Aggregation expressions refer to it by the path with a dollar
sign in front (`fieldReference`), keys of a group cannot hold dots (`safeKey`), and variables of a
join start with a lower case letter (`variableName`).
-/

namespace DocQuery

/-- The path as an aggregation expression refers to it, with exactly one dollar sign added unless
there is one. -/
def fieldReference (path : String) : String :=
  if path.toList.head? = some '$' then path else "$" ++ path

/-- The path with its dots replaced by underscores, usable as a key of a group. -/
def safeKey (path : String) : String :=
  String.ofList (path.toList.map fun c => if c = '.' then '_' else c)

/-- Whether a character is one of `a` to `z`. -/
def isLowerLetter (c : Char) : Bool := 'a' ≤ c && c ≤ 'z'

/-- The name of the variable that holds a field in a join: the safe key, with `v_` in front unless
it starts with a lower case letter. -/
def variableName (path : String) : String :=
  let name := safeKey path
  if name.toList.head?.any isLowerLetter then name else "v_" ++ name

end DocQuery
