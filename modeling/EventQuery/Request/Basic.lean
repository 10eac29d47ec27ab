import EventQuery.Archetype
import EventQuery.Calendar.Grid
import EventQuery.Filter.Basic

/-!
# EventQuery.Request.Basic

A query with all its options in typed form.
-/

namespace EventQuery

structure Request where
  archetype : Archetype
  project : String
  collection : String
  target : Option String
  /-- The properties of an extraction; none for all. -/
  targets : List String
  rank : Option Binary64
  groupBy : Option String
  /-- The most rows that are fetched. -/
  latest : Int
  interval : Option Interval
  outliers : OutlierMode
  outliersIn : Option String
  filters : List Filter
  timeframe : Option String
  /-- Whether an extraction answers with one array for each column. -/
  byColumn : Bool

/-- A text that is given and not empty. -/
def present (s : Option String) : Option String := s.filter (!·.isEmpty)

end EventQuery
