import EventQuery.Binary64.Basic

/-!
# EventQuery.Archetype

The closed set of queries. Each archetype says what it requires of a request, whether its rows are
filtered again after retrieval, and under which name it returns a single computed value.
-/

namespace EventQuery

inductive Archetype where
  | count | minimum | maximum | sum | average | median | percentile | countUnique | selectUnique
  | extraction
  deriving DecidableEq

namespace Archetype

def all : List Archetype :=
  [count, minimum, maximum, sum, average, median, percentile, countUnique, selectUnique,
    extraction]

def name : Archetype → String
  | count => "count"
  | minimum => "minimum"
  | maximum => "maximum"
  | sum => "sum"
  | average => "average"
  | median => "median"
  | percentile => "percentile"
  | countUnique => "count_unique"
  | selectUnique => "select_unique"
  | extraction => "extraction"

def ofName? (s : String) : Option Archetype := all.find? (·.name == s)

theorem ofName?_name (a : Archetype) : ofName? a.name = some a := by cases a <;> decide

def requiresTarget : Archetype → Bool
  | count | extraction => false
  | _ => true

def requiresRank : Archetype → Bool
  | percentile => true
  | _ => false

/-- The rank of the median. -/
def medianRank : Binary64 := .ofInt 50

/-- The rank used in place of a given one. -/
def fixedRank? : Archetype → Option Binary64
  | median => some medianRank
  | _ => none

/-- The name of the value that is computed from raw rows without an interval. -/
def resultName? : Archetype → Option String
  | median => some "median"
  | percentile => some "percentile"
  | _ => none

/-- Whether the filters of a request are applied again to the rows that came back. -/
def filtersRows : Archetype → Bool
  | median | percentile | countUnique | selectUnique | extraction => true
  | _ => false

end Archetype

/-- What becomes of rows outside the band around the mean of a property. -/
inductive OutlierMode where
  | include | exclude | only
  deriving DecidableEq

namespace OutlierMode

def all : List OutlierMode := [.include, exclude, only]

def name : OutlierMode → String
  | .include => "include"
  | exclude => "exclude"
  | only => "only"

def ofName? (s : String) : Option OutlierMode := all.find? (·.name == s)

theorem ofName?_name (m : OutlierMode) : ofName? m.name = some m := by cases m <;> decide

end OutlierMode
end EventQuery
