import EventQuery.Text.Blank
import EventQuery.Text.Case

/-!
# EventQuery.Column

Kinds of columns: the families of data types whose values compare with each other.
-/

namespace EventQuery

inductive ColumnKind where
  | timestamp | number | text | boolean | other
  deriving DecidableEq

namespace ColumnKind

def all : List ColumnKind := [timestamp, number, text, boolean, other]

def name : ColumnKind → String
  | timestamp => "timestamp"
  | number => "number"
  | text => "text"
  | boolean => "boolean"
  | other => "other"

def ofName? (s : String) : Option ColumnKind := all.find? (·.name == s)

theorem ofName?_name (k : ColumnKind) : ofName? k.name = some k := by cases k <;> decide

def numericTypes : List String :=
  ["smallint", "integer", "bigint", "int", "int2", "int4", "int8", "real", "double precision",
    "float", "float4", "float8", "numeric", "decimal"]

def textTypes : List String :=
  ["text", "string", "varchar", "char", "character", "character varying", "name"]

def booleanTypes : List String := ["boolean", "bool"]

def startsWith (start s : String) : Bool := start.toList.isPrefixOf s.toList

/-- The kind of a data type by its name; a missing name is of the kind `other`. -/
def ofDataType (dataType : Option String) : ColumnKind :=
  let name := Text.lowered (Text.trimmed (dataType.getD ""))
  if startsWith "timestamp" name || name == "date" then timestamp
  else if numericTypes.contains name then number
  else if textTypes.contains name || startsWith "character" name || startsWith "varchar" name then
    text
  else if booleanTypes.contains name then boolean
  else other

end ColumnKind
end EventQuery
