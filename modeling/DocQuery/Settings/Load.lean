import DocQuery.Json.Reader
import DocQuery.Settings.Basic

/-!
# Loading settings

`Settings.load?` reads settings from a JSON text: an object with the four known members, of which
each may be missing and none may be repeated, or an array with their values in order. Other members
are passed over.
-/

namespace DocQuery.Settings

/-- A type: its name, or an object with its name as the only member and null as the value. -/
def typeOfJson? : Json → Option FieldType
  | .string (some name) => FieldType.ofName? name
  | .object [(some name, .null)] => FieldType.ofName? name
  | _ => none

/-- The declared types of fields. A repeated field keeps its first place and its last type. -/
def typesOfMembers? : List (Option String × Json) → Keyed FieldType → Option (Keyed FieldType)
  | [], types => some types
  | (some field, value) :: rest, types => do
    let type ← typeOfJson? value
    typesOfMembers? rest (Keyed.put types field type)
  | (none, _) :: _, _ => none

/-- The declared types of fields. -/
def typesOfJson? : Json → Option (Keyed FieldType)
  | .object members => typesOfMembers? members []
  | _ => none

/-- A truth value or null. -/
def boolOfJson? : Json → Option (Option Bool)
  | .null => some none
  | .bool b => some (some b)
  | _ => none

/-- A whole number of 32 bits or null. -/
def countOfJson? : Json → Option (Option Nat)
  | .null => some none
  | value =>
    match value.integer? with
    | some (.ofNat n) => if n ≤ 4294967295 then some (some n) else none
    | _ => none

/-- The names of the four known members, in order. -/
def memberNames : List String :=
  ["fieldTypes", "defaultFieldType", "aggregationAllowDiskUse", "aggregationBatchSize"]

/-- The settings with the value of one known member put into them. -/
def setMember? (s : Settings) (name : String) (value : Json) : Option Settings :=
  match name with
  | "fieldTypes" => (typesOfJson? value).map ({ s with fieldTypes := · })
  | "defaultFieldType" => (typeOfJson? value).map ({ s with defaultType := · })
  | "aggregationAllowDiskUse" => (boolOfJson? value).map ({ s with allowDiskUse := · })
  | "aggregationBatchSize" => (countOfJson? value).map ({ s with batchSize := · })
  | _ => some s

/-- The settings with the members of an object put into them, where `seen` lists the known members
that came before. -/
def setMembers? (s : Settings) (seen : List String) :
    List (Option String × Json) → Option Settings
  | [] => some s
  | (none, _) :: _ => none
  | (some name, value) :: rest =>
    if seen.contains name then none
    else do
      let s ← setMember? s name value
      setMembers? s (if memberNames.contains name then name :: seen else seen) rest

/-- The settings with the values of an array put into them, one for each of the names. -/
def setElements? (s : Settings) : List String → List Json → Option Settings
  | _, [] => some s
  | [], _ :: _ => none
  | name :: names, value :: values => do
    let s ← setMember? s name value
    setElements? s names values

/-- The settings that a JSON value denotes. -/
def ofJson? : Json → Option Settings
  | .object members => setMembers? {} [] members
  | .array elements => setElements? {} memberNames elements
  | _ => none

/-- The settings that a JSON text denotes. -/
def load? (s : String) : Option Settings := (Json.parse? s).bind ofJson?

end DocQuery.Settings
