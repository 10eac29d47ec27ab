import EventQuery.Assoc
import EventQuery.Calendar.Instant
import EventQuery.Quantity

/-!
# EventQuery.Value.Basic

Values of event properties, as they come from the store, from requests and from stored documents,
and records: fields in the order in which they came, each name once.
-/

namespace EventQuery

inductive Value where
  | null
  | bool (b : Bool)
  | int (n : Int)
  | float (x : Binary64)
  | text (s : String)
  | decimal (d : Decimal)
  | date (d : Date)
  | datetime (t : DateTime)
  | array (items : List Value)
  | tuple (items : List Value)
  | object (fields : List (String × Value))

instance : Inhabited Value := ⟨.null⟩

/-- Fields of an event, a row or a document. -/
abbrev Record := List (String × Value)

namespace Record

def find? (r : Record) (key : String) : Option Value := r.lookup key

/-- The value of a field; a field that is not there reads as null. -/
def value (r : Record) (key : String) : Value := (find? r key).getD .null

def has (r : Record) (key : String) : Bool := (find? r key).isSome

end Record

namespace Value

def isNull : Value → Bool
  | null => true
  | _ => false

/-- The text inside a text value. -/
def text? : Value → Option String
  | text s => some s
  | _ => none

/-- A value that is null, false, zero or empty. -/
def isBlank : Value → Bool
  | null => true
  | bool b => !b
  | int n => n == 0
  | float x => x.isZero
  | text s => s.isEmpty
  | decimal d => d.quantity.same (.finite 0)
  | array items | tuple items => items.isEmpty
  | object fields => fields.isEmpty
  | date _ | datetime _ => false

mutual

/-- Whether a value can be looked up as a key: no array and no object is inside it. -/
def isKey : Value → Bool
  | array _ | object _ => false
  | tuple items => areKeys items
  | _ => true

def areKeys : List Value → Bool
  | [] => true
  | v :: rest => isKey v && areKeys rest

end

/-- The exact meaning of a value that counts as a number: true is one and false is zero. -/
def quantity? : Value → Option Quantity
  | bool b => some (.finite (if b then 1 else 0))
  | int n => some (.finite n)
  | float x => some x.quantity
  | decimal d => some d.quantity
  | _ => none

/-- An integer or a double, the numbers that take part in statistics. -/
def isNumber : Value → Bool
  | int _ | float _ => true
  | _ => false

/-- The name that messages give to the kind of a value. -/
def kindName : Value → String
  | null => "NoneType"
  | bool _ => "bool"
  | int _ => "int"
  | float _ => "float"
  | text _ => "str"
  | decimal _ => "decimal.Decimal"
  | date _ => "datetime.date"
  | datetime _ => "datetime.datetime"
  | array _ => "list"
  | tuple _ => "tuple"
  | object _ => "dict"

end Value
end EventQuery
