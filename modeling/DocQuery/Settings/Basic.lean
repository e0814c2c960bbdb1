import DocQuery.Document.Value
import DocQuery.Text.Blank

/-!
# Settings

Settings declare the types of fields, which guide how literals are stored, and carry the options
that are sent along with a pipeline.
-/

namespace DocQuery

/-- The declared type of a field. -/
inductive FieldType where
  /-- Texts. -/
  | string
  /-- Numbers. -/
  | number
  /-- Instants. -/
  | date
  /-- Truth values. -/
  | boolean
  /-- Nothing is known about the values. -/
  | unknown
deriving DecidableEq

namespace FieldType

/-- The name of a type in a configuration. -/
def name : FieldType → String
  | .string => "STRING"
  | .number => "NUMBER"
  | .date => "DATE"
  | .boolean => "BOOLEAN"
  | .unknown => "UNKNOWN"

/-- All types. -/
def all : List FieldType := [.string, .number, .date, .boolean, .unknown]

/-- The type with a given name. -/
def ofName? (s : String) : Option FieldType := all.find? (·.name = s)

end FieldType

/-- What a compilation is configured with. -/
structure Settings where
  /-- The declared types, by the paths of the fields. -/
  fieldTypes : Keyed FieldType := []
  /-- The type of every field that has no declared one. -/
  defaultType : FieldType := .unknown
  /-- Whether a pipeline may use the disk. -/
  allowDiskUse : Option Bool := none
  /-- How many documents a pipeline returns at once. -/
  batchSize : Option Nat := none

/-- Why settings are refused. -/
inductive SettingsError where
  /-- The batch size is zero. -/
  | emptyBatch
  /-- A type is declared for a field without a name. -/
  | blankField (field : String)
deriving DecidableEq

/-- The wording of a refusal. -/
def SettingsError.message : SettingsError → String
  | .emptyBatch => "aggregation batch size must be greater than 0"
  | .blankField field => "invalid field path in type mapping: '" ++ field ++ "'"

namespace Settings

/-- The type of a field: its declared one, else the default. -/
def fieldType (s : Settings) (field : String) : FieldType :=
  (Keyed.get? s.fieldTypes field).getD s.defaultType

/-- The settings that declare types and set no options. -/
def ofTypes (fieldTypes : Keyed FieldType) (defaultType : FieldType) : Settings :=
  { fieldTypes, defaultType }

/-- The settings with a type declared for a field. -/
def declare (s : Settings) (field : String) (type : FieldType) : Settings :=
  { s with fieldTypes := Keyed.put s.fieldTypes field type }

/-- The first reason to refuse the settings. -/
def refusal? (s : Settings) : Option SettingsError :=
  if s.batchSize = some 0 then some .emptyBatch
  else ((Keyed.keys s.fieldTypes).find? fun field => (Text.trim field).isEmpty).map .blankField

/-- The options sent along with a pipeline. -/
def pipelineOptions (s : Settings) : Document :=
  (s.allowDiskUse.map fun b => ("allowDiskUse", Value.bool b)).toList ++
    (s.batchSize.map fun n => ("cursor", Value.single "batchSize" (.int n))).toList

/-- The settings as a document, with null for what is not set. -/
def toDocument (s : Settings) : Document :=
  [("fieldTypes", .document (s.fieldTypes.map fun (field, type) => (field, .string type.name))),
   ("defaultFieldType", .string s.defaultType.name),
   ("aggregationAllowDiskUse", (s.allowDiskUse.map Value.bool).getD .null),
   ("aggregationBatchSize", Value.ofInt? (s.batchSize.map Int.ofNat))]

end Settings

end DocQuery
