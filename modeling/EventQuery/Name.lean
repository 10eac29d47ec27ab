import EventQuery.Value.Show
import EventQuery.Failure
import EventQuery.Text.Pieces

/-!
# EventQuery.Name

The allow-list for names that become part of a statement. A flat name (a project, a collection)
is one part; a property is parts joined by `$`, one for each level of nesting. A part is a letter
a to z followed by letters and digits 0 to 9, and one line feed may end it.
-/

namespace EventQuery
namespace Name

/-- The column that dates every event. -/
def timestampColumn : String := "cenote$timestamp"

def isLetter (c : Char) : Bool := 'a' ≤ c && c ≤ 'z'

def isLetterOrDigit (c : Char) : Bool := isLetter c || ('0' ≤ c && c ≤ '9')

/-- Letters and digits, and perhaps one line feed at the end. -/
def isTail : List Char → Bool
  | [] => true
  | ['\n'] => true
  | c :: rest => isLetterOrDigit c && isTail rest

/-- One part of a name. -/
def isPart : List Char → Bool
  | [] => false
  | c :: rest => isLetter c && isTail rest

/-- The parts of a name, one for each level of nesting. -/
def parts (s : List Char) : List (List Char) := Text.pieces (· == '$') s

def isFlat (s : String) : Bool := isPart s.toList

def isProperty (s : String) : Bool := (parts s.toList).all isPart

/-- Accepts a flat name; the message says what the name is for. -/
def flat (what : String) (v : Value) : Outcome String :=
  match v with
  | .text s => if isFlat s then .ok s else complain (.name what s)
  | v => complain (.name what v.displayed)

/-- Accepts a property name. -/
def property (what : String) (v : Value) : Outcome String :=
  match v with
  | .text s =>
    if s.isEmpty then complain (.noProperty what s)
    else if isProperty s then .ok s
    else complain (.property what s)
  | v => complain (.noProperty what v.displayed)

end Name

/-- A text that may be missing, as a value. -/
def Value.ofText? : Option String → Value
  | some s => .text s
  | none => .null

namespace Name

def inQuotes (s : String) : String := "\"" ++ s ++ "\""

/-- A column in a statement: an accepted property in double quotes. -/
def quotedColumn (v : Value) : Outcome String :=
  match property "column" v with
  | .ok s => .ok (inQuotes s)
  | .error e => .error e

/-- The name of the table that holds a collection of a project. -/
def tableName (project collection : String) : String := project ++ "_" ++ collection

/-- The table of a collection in a statement. -/
def quotedTable (project collection : Value) : Outcome String :=
  match flat "project id" project, flat "event collection" collection with
  | .error e, _ => .error e
  | _, .error e => .error e
  | .ok p, .ok c => .ok (inQuotes (tableName p c))

/-! ## Cache keys -/

/-- The key of the statistics of a property. -/
def statsKey (project collection property : String) : String :=
  project ++ "_" ++ collection ++ "_" ++ property

/-- The key of the rollup of a property. -/
def rollupKey (project collection property : String) : String :=
  statsKey project collection property ++ "_hist"

end Name
end EventQuery
